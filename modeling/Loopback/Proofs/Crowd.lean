import Loopback.Proofs.Sections
import Mathlib.Logic.Function.Basic

/-!
# Writers under one token

A crowd is any number of endpoints, a token, and the callers that write under it, each at a stage of
its attempt. One act is one access: others use the registry and the flag between the accesses of a
section, and an endpoint while nobody under the token has its lock, except that a writer can wake
up without a notification at any time. `Crowd.Booked` says that the registry has one entry for each
writer that made one and did not take it back, and that those who wait at an endpoint are the
writers at that stage. `Crowd.Acts` says once what an act does, and every act keeps the books
(`Crowd.Booked.of_acts`).
-/

namespace Loopback

/-- The token of the writer that makes an attempt, if it has one. -/
def Hold.token? {ρ : Type} : Hold ρ → Option Nat
  | .enter w _ | .resume w _ => w.token
  | _ => none

/-- A wakeup without a notification, which takes no lock. -/
def Hold.isRouse {ρ : Type} : Hold ρ → Bool
  | .rouse _ => true
  | _ => false

/-- Endpoints, a token, and the callers that are in a write under it: where, and at which stage. -/
structure Crowd (ι ρ μ : Type) where
  endpoints : ι → Endpoint ρ μ
  token : Token ι
  writers : List (Nat × ι × WriteStage)

/-- What can happen next. -/
inductive Crowd.Act (ι ρ μ : Type) where
  /-- A caller takes the lock of an endpoint, to write there under the token. -/
  | arrive (who : Nat) (place : ι)
  /-- A writer under the token makes its next access, for the message `m`. -/
  | goOn (who pick : Nat) (m : μ)
  /-- Something else is done to an endpoint, by nobody under the token. Waking a place of a copy of
  the registry is such an act, and so is a wakeup without a notification, which can happen while
  somebody has the lock. -/
  | other (place : ι) (pick : Nat) (m : μ) (hold : Hold ρ)
  | interrupt
  | clear

namespace Endpoint

variable {ρ μ : Type} {pick : Nat} {m : μ} {e : Endpoint ρ μ} {t : Nat}

/-- Who waits under a token is not changed by others. -/
theorem waiting_filter_after {hold : Hold ρ} (other : hold.token? ≠ some t) :
    ((e.after pick m hold).writers.waiting.filter (·.token = some t)).Perm
      (e.writers.waiting.filter (·.token = some t)) := by
  have attempted : ∀ {w : Writer} {interrupted : Bool} (e : Endpoint ρ μ), w.token ≠ some t →
      ((e.enter pick w interrupted m).1.writers.waiting.filter (·.token = some t)).Perm
        (e.writers.waiting.filter (·.token = some t)) := by
    intro w interrupted e other
    refine ((attempt_enter pick w interrupted m e).waiting_perm.filter _).trans ?_
    cases (e.enter pick w interrupted m).2 <;> simp [Entry.ifAsleep, other]
  have left : ∀ {w : Writer}, w.token ≠ some t →
      (e.writers.leave w).waiting.filter (·.token = some t) =
        e.writers.waiting.filter (·.token = some t) := by
    intro w other
    have absent : w ∉ e.writers.woken.filter (·.token = some t) := by simp [other]
    simp only [Condition.waiting, Condition.leave, List.filter_append, ← List.erase_filter]
    rw [List.erase_of_not_mem absent]
  cases hold with
  | enter w interrupted => exact attempted e other
  | resume w interrupted =>
    refine List.Perm.trans ?_ (.of_eq (left other))
    cases interrupted with
    | true => exact (Condition.waiting_notifyOne pick _).filter _
    | false => exact attempted _ other
  | _ => exact (waiting_after rfl).filter _

end Endpoint

namespace Crowd

variable {ι ρ μ : Type} [DecidableEq ι]

/-- Endpoints for so many messages, at which nobody writes. -/
def create (lengths : ι → Nat) : Crowd ι ρ μ :=
  ⟨fun place => Endpoint.create (lengths place), Token.create, []⟩

/-- No writer under the token has the lock of the endpoint at `place`. -/
def isFree (place : ι) (c : Crowd ι ρ μ) : Bool :=
  c.writers.all fun (_, p, stage) => p ≠ place || !stage.isInside

/-- A writer that waits can go on once it was woken and gets the lock; any other one has it. -/
def canGoOn (t who : Nat) (place : ι) (stage : WriteStage) (c : Crowd ι ρ μ) : Bool :=
  stage.isInside ||
    c.isFree place && (c.endpoints place).writers.woken.contains ⟨who, some t⟩

/-- The writer `who` makes one access. -/
def goOn (t who pick : Nat) (m : μ) (c : Crowd ι ρ μ) : Crowd ι ρ μ :=
  match c.writers.lookup who with
  | none => c
  | some (place, stage) =>
      if c.canGoOn t who place stage then
        let ((e, token), progress) :=
          stage.step pick ⟨who, some t⟩ place m (c.endpoints place) c.token
        { endpoints := Function.update c.endpoints place e
          token
          writers := progress.next?.toList.map (who, place, ·) ++
            c.writers.filter (·.1 != who) }
      else c

/-- What follows on an act of the callers under the token `t`. An act that is not possible changes
nothing. -/
def act (t : Nat) (c : Crowd ι ρ μ) : Act ι ρ μ → Crowd ι ρ μ
  | .arrive who place =>
      if (c.writers.lookup who).isNone && c.isFree place then
        { c with writers := (who, place, .looks) :: c.writers }
      else c
  | .goOn who pick m => c.goOn t who pick m
  | .other place pick m hold =>
      if (c.isFree place || hold.isRouse) && hold.token? != some t then
        { c with
          endpoints := Function.update c.endpoints place ((c.endpoints place).after pick m hold) }
      else c
  | .interrupt => { c with token := c.token.interrupt }
  | .clear => { c with token := c.token.clear.1 }

/-- What follows on a list of acts. -/
def run (t : Nat) (c : Crowd ι ρ μ) (acts : List (Act ι ρ μ)) : Crowd ι ρ μ := acts.foldl (act t) c

/-- What an act does. -/
inductive Acts (t : Nat) (c : Crowd ι ρ μ) : Act ι ρ μ → Crowd ι ρ μ → Prop where
  | stays {a : Act ι ρ μ} : Acts t c a c
  | arrives {who : Nat} {place : ι} (idle : c.writers.lookup who = none)
      (free : c.isFree place = true) :
      Acts t c (.arrive who place) { c with writers := (who, place, .looks) :: c.writers }
  | goesOn {who pick : Nat} {m : μ} {place : ι} {stage : WriteStage}
      {outcome : (Endpoint ρ μ × Token ι) × Progress WriteStage (Entry ρ)}
      (here : c.writers.lookup who = some (place, stage))
      (can : c.canGoOn t who place stage = true)
      (access : stage.step pick ⟨who, some t⟩ place m (c.endpoints place) c.token = outcome) :
      Acts t c (.goOn who pick m)
        { endpoints := Function.update c.endpoints place outcome.1.1
          token := outcome.1.2
          writers := outcome.2.next?.toList.map (who, place, ·) ++
            c.writers.filter (·.1 != who) }
  | others {place : ι} {pick : Nat} {m : μ} {hold : Hold ρ}
      (can : c.isFree place = true ∨ hold.isRouse = true) (other : hold.token? ≠ some t) :
      Acts t c (.other place pick m hold)
        { c with
          endpoints := Function.update c.endpoints place ((c.endpoints place).after pick m hold) }
  | interrupts : Acts t c .interrupt { c with token := c.token.interrupt }
  | clears : Acts t c .clear { c with token := c.token.clear.1 }

theorem acts (t : Nat) (c : Crowd ι ρ μ) (a : Act ι ρ μ) : Acts t c a (c.act t a) := by
  cases a with
  | arrive who place =>
    simp only [act]
    split
    · next can =>
      simp only [Bool.and_eq_true, Option.isNone_iff_eq_none] at can
      exact .arrives can.1 can.2
    · exact .stays
  | goOn who pick m =>
    simp only [act, goOn]
    split
    · exact .stays
    · next here =>
      split
      · next can => exact .goesOn here can rfl
      · exact .stays
  | other place pick m hold =>
    simp only [act]
    split
    · next can =>
      simp only [Bool.and_eq_true, Bool.or_eq_true, bne_iff_ne] at can
      exact .others can.1 can.2
    · exact .stays
  | interrupt => exact .interrupts
  | clear => exact .clears

/-- The writers under the token `t` that wait at `place`, woken or not. -/
def sleepers (t : Nat) (place : ι) (c : Crowd ι ρ μ) : List Writer :=
  (c.endpoints place).writers.waiting.filter (·.token = some t)

/-- How many writers that have the lock at `place` have an entry in the registry. -/
def entered (place : ι) (c : Crowd ι ρ μ) : Nat :=
  c.writers.countP fun (_, p, stage) => p = place && stage.isInside && stage.isEntered

/-- Nobody is inside a section. -/
def isQuiet (c : Crowd ι ρ μ) : Bool := c.writers.all fun (_, _, stage) => !stage.isInside

/-- The entry of a writer in the registry. -/
def recorded? (x : Nat × ι × WriteStage) : Option ι := x.2.2.recorded? x.2.1

/-- A writer under the token `t` as one of those that wait at `place`. -/
def sleeper? (t : Nat) (place : ι) (x : Nat × ι × WriteStage) : Option Writer :=
  if x.2.1 = place then x.2.2.sleeper? ⟨x.1, some t⟩ else none

/-- The books of a crowd: the registry has the entries of the writers, and those that wait are those
at the stage of waiting. -/
structure Booked (t : Nat) (c : Crowd ι ρ μ) : Prop where
  callers : (c.writers.map Prod.fst).Nodup
  registry : c.token.parked.Perm (c.writers.filterMap recorded?)
  waiting : ∀ place, (c.sleepers t place).Perm (c.writers.filterMap (sleeper? t place))

theorem booked_create (t : Nat) (lengths : ι → Nat) : Booked t (create lengths : Crowd ι ρ μ) where
  callers := List.nodup_nil
  registry := .refl _
  waiting _ := .refl _

variable {t : Nat} {c : Crowd ι ρ μ}

omit [DecidableEq ι] in
/-- What is read off a writer after an access is read off its stage. -/
theorem filterMap_next {α : Type} {f : Nat × ι × WriteStage → Option α}
    {g : WriteStage → Option α} {who : Nat} {place : ι}
    (read : ∀ stage, f (who, place, stage) = g stage) (next? : Option WriteStage) :
    (next?.toList.map (who, place, ·)).filterMap f = (next?.bind g).toList := by
  cases next? with
  | none => rfl
  | some stage => cases found : g stage <;> simp [read, found]

/-- A writer that waits does so under its own token. -/
theorem filter_sleeper? (t who : Nat) (stage? : Option WriteStage) :
    (stage?.bind (WriteStage.sleeper? ⟨who, some t⟩)).toList.filter (·.token = some t) =
      (stage?.bind (WriteStage.sleeper? ⟨who, some t⟩)).toList := by
  cases stage? with
  | none => rfl
  | some stage => cases stage <;> simp [WriteStage.sleeper?]

omit [DecidableEq ι] in
/-- A writer and the others, apart. -/
theorem writers_perm (callers : (c.writers.map Prod.fst).Nodup) {who : Nat}
    {x : ι × WriteStage} (here : c.writers.lookup who = some x) :
    c.writers.Perm ((who, x) :: c.writers.filter (·.1 != who)) := by
  obtain ⟨front, back, writers, apart⟩ := eq_append_of_lookup callers here
  have others : (front ++ back).filter (·.1 != who) = front ++ back :=
    List.filter_eq_self.2 fun y hy => bne_iff_ne.2 (apart y hy)
  rw [writers, List.filter_append, List.filter_cons_of_neg (by simp), ← List.filter_append, others]
  exact List.perm_middle

namespace Booked

/-- A writer with an entry finds its place in the registry. -/
theorem mem_parked (h : Booked t c) {who : Nat} {place : ι} {stage : WriteStage}
    (here : (who, place, stage) ∈ c.writers) (entered : stage.isEntered = true) :
    place ∈ c.token.parked := by
  refine h.registry.mem_iff.2 (List.mem_filterMap.2 ⟨_, here, ?_⟩)
  exact if_pos entered

theorem arrive (h : Booked t c) {who : Nat} (idle : c.writers.lookup who = none) (place : ι) :
    Booked t { c with writers := (who, place, .looks) :: c.writers } where
  callers := by
    rw [List.map_cons, List.nodup_cons]
    refine ⟨fun there => ?_, h.callers⟩
    obtain ⟨x, hx, same⟩ := List.mem_map.1 there
    exact bne_iff_ne.1 (List.lookup_eq_none_iff.1 idle x hx) same.symm
  registry := h.registry
  waiting q := by
    refine (h.waiting q).trans (.of_eq (List.filterMap_cons_none ?_).symm)
    simp [sleeper?, WriteStage.sleeper?]

section GoOn

variable {who pick : Nat} {place : ι} {stage : WriteStage} {m : μ}

/-- The books after a writer made an access. -/
theorem exchange (h : Booked t c) {rest : List (Nat × ι × WriteStage)}
    (now : c.writers.Perm ((who, place, stage) :: rest))
    (woken : stage = .waits → ⟨who, some t⟩ ∈ (c.endpoints place).writers.woken) :
    let after := stage.step pick ⟨who, some t⟩ place m (c.endpoints place) c.token
    Booked t
      { endpoints := Function.update c.endpoints place after.1.1
        token := after.1.2
        writers := after.2.next?.toList.map (who, place, ·) ++ rest } := by
  intro after
  have mine : (who, place, stage) ∈ c.writers := now.mem_iff.2 List.mem_cons_self
  refine ⟨?_, ?_, fun q => ?_⟩
  · have callers := (now.map Prod.fst).nodup_iff.1 h.callers
    cases after.2.next? with
    | none => exact callers.of_cons
    | some stage' => exact callers
  · refine Machine.book_of_step recorded? now (.refl _) h.registry ?_
    rw [filterMap_next (g := WriteStage.recorded? place) fun _ => rfl]
    exact stage.registry_step (h.mem_parked mine)
  · refine Machine.book_of_step (sleeper? t q) now (.refl _) (h.waiting q) ?_
    -- The access is one at `place`: towards other places nothing moves.
    by_cases here : place = q
    · subst here
      have moved := stage.waiting_step pick place m c.token woken
      have own := filter_sleeper? t who
      have mine : (sleeper? t place (who, place, stage)).toList =
          ((some stage).bind (WriteStage.sleeper? ⟨who, some t⟩)).toList := by simp [sleeper?]
      rw [filterMap_next (g := WriteStage.sleeper? ⟨who, some t⟩) fun _ => if_pos rfl, mine]
      rw [← own (some stage), ← own after.2.next?]
      simp only [sleepers, Function.update_self, ← List.filter_append]
      exact moved.filter _
    · rw [filterMap_next (g := fun _ => none) fun _ => if_neg here]
      simp [sleeper?, sleepers, here, Ne.symm here]

end GoOn

/-- Every act keeps the books. -/
theorem of_acts (h : Booked t c) {a : Act ι ρ μ} {c' : Crowd ι ρ μ} (one : Acts t c a c') :
    Booked t c' := by
  cases one with
  | stays => exact h
  | @arrives who place idle free => exact h.arrive idle place
  | goesOn here can access =>
    subst access
    refine h.exchange (writers_perm h.callers here) ?_
    rintro rfl
    simp only [canGoOn, WriteStage.isInside, Bool.false_or, Bool.and_eq_true,
      List.contains_iff_mem] at can
    exact can.2
  | @others place pick m hold can other =>
    refine ⟨h.callers, h.registry, fun q => List.Perm.trans ?_ (h.waiting q)⟩
    by_cases here : q = place
    · subst here
      simp only [sleepers, Function.update_self]
      exact Endpoint.waiting_filter_after other
    · simp only [sleepers, Function.update_of_ne here]
      exact .refl _
  | interrupts | clears => exact ⟨h.callers, h.registry, h.waiting⟩

theorem run (h : Booked t c) (acts : List (Act ι ρ μ)) : Booked t (c.run t acts) := by
  induction acts generalizing c with
  | nil => exact h
  | cons a acts ih => exact ih (h.of_acts (Crowd.acts t c a))

/-- The registry counts the writers that wait at a place, and those inside that have an entry. -/
theorem count_parked (h : Booked t c) (place : ι) :
    c.token.parked.count place = (c.sleepers t place).length + c.entered place := by
  rw [h.registry.count_eq, (h.waiting place).length_eq, entered]
  -- Each writer with an entry either waits or is inside.
  induction c.writers with
  | nil => rfl
  | cons x writers ih =>
    obtain ⟨who, p, stage⟩ := x
    by_cases here : p = place <;> cases stage <;>
      simp [recorded?, sleeper?, WriteStage.recorded?, WriteStage.sleeper?, WriteStage.isEntered,
        WriteStage.isInside, here, ih] <;> omega

end Booked

/-! ## A section that nobody comes between -/

theorem run_append (t : Nat) (c : Crowd ι ρ μ) (front back : List (Act ι ρ μ)) :
    c.run t (front ++ back) = (c.run t front).run t back := List.foldl_append

section Section

variable {who pick : Nat} {place : ι} {stage : WriteStage} {m : μ}

/-- A writer that can go on makes an access. -/
theorem goOn_eq (pick : Nat) (m : μ) (here : c.writers.lookup who = some (place, stage))
    (can : c.canGoOn t who place stage = true) :
    let after := stage.step pick ⟨who, some t⟩ place m (c.endpoints place) c.token
    c.goOn t who pick m =
      { endpoints := Function.update c.endpoints place after.1.1
        token := after.1.2
        writers := after.2.next?.toList.map (who, place, ·) ++
          c.writers.filter (·.1 != who) } := by
  simp only [goOn, here, can, if_true]

/-- A writer that goes on to the end of its section does what the section does. -/
theorem exists_run_section (pick : Nat) (m : μ) (n : Nat)
    (here : c.writers.lookup who = some (place, stage)) (can : c.canGoOn t who place stage = true)
    (ended : ∀ stage', (stage.goOn pick ⟨who, some t⟩ place m n (c.endpoints place) c.token).2 ≠
      .more stage') :
    let after := stage.goOn pick ⟨who, some t⟩ place m n (c.endpoints place) c.token
    ∃ acts : List (Act ι ρ μ), c.run t acts =
      { endpoints := Function.update c.endpoints place after.1.1
        token := after.1.2
        writers := after.2.next?.toList.map (who, place, ·) ++
          c.writers.filter (·.1 != who) } := by
  -- Access by access: the rest of the section begins where the first one left the crowd.
  induction n generalizing c stage with
  | zero => exact absurd rfl (ended stage)
  | succ n ih =>
    have first := goOn_eq pick m here can
    simp only [WriteStage.goOn] at ended ⊢
    generalize outcome : stage.step pick ⟨who, some t⟩ place m (c.endpoints place) c.token = after
      at first ended ⊢
    obtain ⟨⟨e, token⟩, progress⟩ := after
    cases progress with
    | done | asleep => exact ⟨[.goOn who pick m], first⟩
    | more stage' =>
      have inside : stage'.isInside = true :=
        WriteStage.isInside_of_more (congrArg Prod.snd outcome)
      -- After its first access the writer is at `stage'`, and the others are where they were.
      have here' : (c.goOn t who pick m).writers.lookup who = some (place, stage') := by
        rw [first]
        simp [Progress.next?]
      obtain ⟨acts, rest⟩ := ih here' (by simp [canGoOn, inside]) (by rw [first]; simpa using ended)
      refine ⟨.goOn who pick m :: acts, rest.trans ?_⟩
      simp [first, Progress.next?]

end Section

end Crowd

end Loopback

import Loopback.Proofs.Crowd
import Loopback.Proofs.Wakeups

/-!
# No wakeup is lost between two accesses

A writer enters its place in the registry of its token, looks at the flag and goes to sleep; an
interrupt sets the flag, copies the registry and wakes the places of the copy. Each of these is an
access of its own, and a `Watch` is a crowd together with the interrupts of its token that are under
way.

Every act keeps two things. Whoever has the lock of an endpoint makes up for one free slot there
until it has looked for room, and then finds none (`Crowd.Steady`). And from the look at the flag on
a writer is woken by every later interrupt, since its entry is in the registry by then and the place
cannot be woken while it has the lock (`Watch.Heeded`). So nobody sleeps in vain
(`Watch.asleep_of_settled`).
-/

namespace Loopback

namespace WriteStage

variable {ι ρ μ : Type} [BEq ι] {pick : Nat} {w : Writer} {place : ι} {m : μ}
  {e : Endpoint ρ μ} {t : Token ι} {stage : WriteStage}

/-- What a writer at a stage knows of its endpoint. Until it has looked for room it makes up for one
free slot; when it has found none, there is none while it has the lock. -/
def Knows (e : Endpoint ρ μ) : WriteStage → Prop
  | .looks | .returns | .rechecks => e.Covered 1
  | .enlists | .checks | .dozes | .withdraws =>
      e.Covered 0 ∧ e.closed = false ∧ e.mailbox.isFull = true
  | .waits => e.Covered 0

/-- The stage of a writer that has the lock. -/
def inside? (stage : WriteStage) : Option WriteStage := if stage.isInside then some stage else none

/-- Those who have the lock of the endpoint know what they should. There is one at most, and when
there is none, every free slot is covered. -/
inductive Attended (e : Endpoint ρ μ) : List WriteStage → Prop where
  | free (covered : e.Covered 0) : Attended e []
  | held {stage : WriteStage} (knows : stage.Knows e) : Attended e [stage]

theorem Attended.perm {stages stages' : List WriteStage} (h : Attended e stages)
    (same : stages.Perm stages') : Attended e stages' := by
  cases h with
  | free covered =>
    rw [List.nil_perm.1 same]
    exact .free covered
  | held knows =>
    rw [← List.singleton_perm.1 same]
    exact .held knows

theorem Knows.rouse (h : stage.Knows e) (i : Nat) :
    stage.Knows { e with writers := e.writers.rouse i } := by
  cases stage with
  | looks | returns | rechecks | waits => exact Endpoint.Covered.rouse h i
  | enlists | checks | dozes | withdraws => exact ⟨h.1.rouse i, h.2⟩

/-- An access leaves the endpoint attended, by the writer or by nobody. -/
theorem attended_step (pick : Nat) (w : Writer) (place : ι) (m : μ) (t : Token ι)
    (knows : stage.Knows e) :
    let outcome := stage.step pick w place m e t
    Attended outcome.1.1 (outcome.2.next?.bind inside?).toList := by
  cases stage with
  | looks =>
    simp only [step]
    split
    -- At a closed endpoint nobody sleeps.
    · next shut => exact .free (Endpoint.covered_of_nobody knows.fits (knows.opened shut))
    · next opened =>
      have opened : e.closed = false := by simpa using opened
      split
      · next full => exact .held ⟨knows.of_full full, opened, full⟩
      · next room =>
        have room : e.mailbox.isFull = false := by simpa using room
        exact .free ((Endpoint.attempt_accept pick w false m opened room).covered knows)
  | enlists => exact .held knows
  | checks =>
    simp only [step]
    split <;> exact .held knows
  | dozes =>
    obtain ⟨covered, opened, full⟩ := knows
    have asleep :
        Endpoint.Attempt pick w false m e { e with writers := e.writers.sleep w } .sleeps :=
      .sleeps opened full rfl
    exact .free (asleep.covered covered.weaken)
  | withdraws => exact .free knows.1
  | waits => exact .held (knows.leave w)
  | returns => exact .held knows
  | rechecks =>
    simp only [step]
    split
    -- A writer that gives up wakes another one in its place.
    · exact .free knows.notifyOne
    · exact .held knows

/-- No access changes the flag. -/
theorem isSet_step (stage : WriteStage) :
    (stage.step pick w place m e t).1.2.isSet = t.isSet := by
  cases stage with
  | looks =>
    simp only [step]
    split
    · rfl
    · split <;> rfl
  | enlists => exact Token.isSet_park place t
  | checks | rechecks =>
    simp only [step]
    split <;> rfl
  | withdraws | returns => exact Token.isSet_unpark place t
  | dozes | waits => rfl

/-- A writer gets to go to sleep when it has found the flag not set. -/
theorem isSet_of_next_dozes (next : (stage.step pick w place m e t).2.next? = some .dozes) :
    t.isSet = false := by
  cases stage with
  | looks =>
    simp only [step] at next
    split at next
    · cases next
    · split at next <;> cases next
  | checks =>
    simp only [step] at next
    split at next
    · cases next
    · next unset => simpa using unset
  | rechecks =>
    simp only [step] at next
    split at next <;> cases next
  | _ => cases next

/-- Nobody falls asleep in an access but a writer that was to go to sleep. -/
theorem mem_asleep_step {x : Writer}
    (asleep : x ∈ (stage.step pick w place m e t).1.1.writers.asleep) :
    x ∈ e.writers.asleep ∨ stage = .dozes := by
  cases stage with
  | looks =>
    simp only [step] at asleep
    split at asleep
    · exact .inl asleep
    · next opened =>
      split at asleep
      · exact .inl asleep
      · next room =>
        have accepted := Endpoint.attempt_accept pick w true m (e := e) (by simpa using opened)
          (by simpa using room)
        rcases accepted.mem_asleep asleep with before | ⟨-, flag⟩
        · exact .inl before
        · cases flag
  | dozes => exact .inr rfl
  | rechecks =>
    simp only [step] at asleep
    split at asleep
    · exact .inl ((e.writers.asleep_notifyOne_sublist pick).subset asleep)
    · exact .inl asleep
  | checks =>
    simp only [step] at asleep
    split at asleep <;> exact .inl asleep
  | enlists | withdraws | waits | returns => exact .inl asleep

end WriteStage

namespace Crowd

variable {ι ρ μ : Type} [DecidableEq ι] {t : Nat} {c : Crowd ι ρ μ}

/-! ## Who has the lock -/

/-- The stage of a writer that has the lock of the endpoint at `place`. -/
def inside? (place : ι) (x : Nat × ι × WriteStage) : Option WriteStage :=
  if x.2.1 = place then x.2.2.inside? else none

theorem inside?_of_ne {place p : ι} (apart : p ≠ place) (who : Nat) (stage : WriteStage) :
    inside? place (who, p, stage) = none :=
  if_neg apart

/-- Every endpoint is attended by the writers that have its lock. -/
def Steady (c : Crowd ι ρ μ) : Prop :=
  ∀ place, WriteStage.Attended (c.endpoints place) (c.writers.filterMap (inside? place))

theorem steady_create (lengths : ι → Nat) : Steady (create lengths : Crowd ι ρ μ) :=
  fun place => .free (Endpoint.covered_create (lengths place))

theorem isFree_iff {place : ι} :
    c.isFree place = true ↔ c.writers.filterMap (inside? place) = [] := by
  rw [isFree, List.all_eq_true, List.filterMap_eq_nil_iff]
  refine forall₂_congr fun x _ => ?_
  obtain ⟨who, p, stage⟩ := x
  by_cases here : p = place <;> cases stage.isInside <;>
    simp_all [inside?, WriteStage.inside?]

/-- Where nobody has the lock every free slot is covered. -/
theorem Steady.covered (h : c.Steady) {place : ι} (free : c.isFree place = true) :
    (c.endpoints place).Covered 0 := by
  have attended := h place
  rw [isFree_iff.1 free] at attended
  cases attended with
  | free covered => exact covered

/-- A writer that makes an access knows its endpoint, and nobody else has the lock. -/
theorem Steady.knows (h : c.Steady) {who : Nat} {place : ι} {stage : WriteStage}
    {rest : List (Nat × ι × WriteStage)} (now : c.writers.Perm ((who, place, stage) :: rest))
    (can : c.canGoOn t who place stage = true) :
    stage.Knows (c.endpoints place) ∧ rest.filterMap (inside? place) = [] := by
  have attended := (h place).perm (now.filterMap (inside? place))
  cases inside : stage.isInside with
  | true =>
    have mine : inside? place (who, place, stage) = some stage := by
      simp [inside?, WriteStage.inside?, inside]
    rw [List.filterMap_cons_some mine] at attended
    generalize rest.filterMap (inside? place) = others at attended
    cases attended with
    | held knows => exact ⟨knows, rfl⟩
  | false =>
    -- A writer that waits gets the lock, so nobody has it.
    obtain rfl : stage = .waits := by cases stage <;> first | rfl | cases inside
    have free : c.isFree place = true := by
      simp only [canGoOn, inside, Bool.false_or, Bool.and_eq_true] at can
      exact can.1
    refine ⟨h.covered free, ?_⟩
    have nobody := (now.filterMap (inside? place)).symm
    have idle : inside? place (who, place, .waits) = none := by
      simp [inside?, WriteStage.inside?, inside]
    rwa [isFree_iff.1 free, List.perm_nil, List.filterMap_cons_none idle] at nobody

/-- After an access every endpoint is attended. -/
theorem Steady.exchange (h : c.Steady) {who : Nat} {place : ι} {stage : WriteStage}
    {rest : List (Nat × ι × WriteStage)} (now : c.writers.Perm ((who, place, stage) :: rest))
    (can : c.canGoOn t who place stage = true) (pick : Nat) (m : μ) :
    let after := stage.step pick ⟨who, some t⟩ place m (c.endpoints place) c.token
    Steady
      { endpoints := Function.update c.endpoints place after.1.1
        token := after.1.2
        writers := after.2.next?.toList.map (who, place, ·) ++ rest } := by
  intro after q
  show WriteStage.Attended (Function.update c.endpoints place after.1.1 q) _
  rw [List.filterMap_append]
  by_cases here : q = place
  · subst here
    obtain ⟨knows, alone⟩ := h.knows now can
    rw [Function.update_self, alone, List.append_nil,
      filterMap_next (g := WriteStage.inside?) fun _ => if_pos rfl]
    exact WriteStage.attended_step pick ⟨who, some t⟩ q m c.token knows
  · have attended := (h q).perm (now.filterMap (inside? q))
    rw [List.filterMap_cons_none (inside?_of_ne (Ne.symm here) who stage)] at attended
    rw [Function.update_of_ne here,
      filterMap_next (g := fun _ => none) (inside?_of_ne (Ne.symm here) who)]
    simpa using attended

/-- What is done to an endpoint while nobody under the token has its lock leaves it attended; so
does a wakeup without a notification at any time. -/
theorem Steady.update (h : c.Steady) {place : ι} {hold : Hold ρ}
    (can : c.isFree place = true ∨ hold.isRouse = true) (pick : Nat) (m : μ) :
    Steady { c with
      endpoints := Function.update c.endpoints place ((c.endpoints place).after pick m hold) } := by
  intro q
  show WriteStage.Attended (Function.update c.endpoints place _ q) (c.writers.filterMap (inside? q))
  by_cases here : q = place
  · subst here
    rw [Function.update_self]
    rcases can with free | rouse
    · rw [isFree_iff.1 free]
      exact .free ((h.covered free).after hold)
    · cases hold with
      | rouse i =>
        have attended := h q
        generalize c.writers.filterMap (inside? q) = stages at attended
        cases attended with
        | free covered => exact .free (covered.rouse i)
        | held knows => exact .held (knows.rouse i)
      | _ => cases rouse
  · rw [Function.update_of_ne here]
    exact h q

/-- Who takes a free lock finds every free slot covered. -/
theorem Steady.arrive (h : c.Steady) {place : ι} (free : c.isFree place = true) (who : Nat) :
    Steady { c with writers := (who, place, .looks) :: c.writers } := by
  intro q
  show WriteStage.Attended (c.endpoints q) (((who, place, .looks) :: c.writers).filterMap _)
  by_cases here : place = q
  · subst here
    have mine : inside? place (who, place, .looks) = some .looks := if_pos rfl
    rw [List.filterMap_cons_some mine, isFree_iff.1 free]
    exact .held (h.covered free).weaken
  · rw [List.filterMap_cons_none (inside?_of_ne here who .looks)]
    exact h q

/-- Every act leaves every endpoint attended. -/
theorem Steady.of_acts (h : c.Steady) (books : c.Booked t) {a : Act ι ρ μ} {c' : Crowd ι ρ μ}
    (one : Acts t c a c') : c'.Steady := by
  cases one with
  | stays | interrupts | clears => exact h
  | @arrives who place idle free => exact h.arrive free who
  | @goesOn who pick m place stage outcome here can access =>
    subst access
    exact h.exchange (writers_perm books.callers here) can pick m
  | others can other => exact h.update can _ _

/-! ## Who goes to sleep -/

/-- A writer under the token `t` goes to sleep at `place` next, or sleeps there. -/
def Drowsy (t : Nat) (place : ι) (c : Crowd ι ρ μ) : Prop :=
  (∃ who, (who, place, .dozes) ∈ c.writers) ∨
    ∃ x ∈ (c.endpoints place).writers.asleep, x.token = some t

/-- Its place is in the registry. -/
theorem Booked.mem_parked_of_drowsy (h : Booked t c) {place : ι} (drowsy : c.Drowsy t place) :
    place ∈ c.token.parked := by
  rcases drowsy with ⟨who, here⟩ | ⟨x, asleep, under⟩
  · exact h.mem_parked here rfl
  · have waits : x ∈ c.sleepers t place :=
      List.mem_filter.2 ⟨List.mem_append_left _ asleep, by simpa using under⟩
    obtain ⟨⟨who, p, stage⟩, here, found⟩ :=
      List.mem_filterMap.1 ((h.waiting place).mem_iff.1 waits)
    by_cases same : p = place
    · subst same
      refine h.mem_parked here ?_
      cases stage <;> simp_all [sleeper?, WriteStage.sleeper?, WriteStage.isEntered]
    · rw [sleeper?, if_neg same] at found
      cases found

/-- Who makes an access gets to go to sleep only while the flag is not set. -/
theorem drowsy_exchange {who : Nat} {place q : ι} {stage : WriteStage}
    {rest : List (Nat × ι × WriteStage)} (here : (who, place, stage) ∈ c.writers)
    (others : ∀ x ∈ rest, x ∈ c.writers) (pick : Nat) (m : μ) :
    let after := stage.step pick ⟨who, some t⟩ place m (c.endpoints place) c.token
    Drowsy t q
        { endpoints := Function.update c.endpoints place after.1.1
          token := after.1.2
          writers := after.2.next?.toList.map (who, place, ·) ++ rest } →
      c.Drowsy t q ∨ c.token.isSet = false := by
  intro after drowsy
  rcases drowsy with ⟨who', there⟩ | ⟨x, sleeps, under⟩
  · rcases List.mem_append.1 there with mine | old
    · obtain ⟨stage', next, same⟩ := List.mem_map.1 mine
      cases same
      exact .inr (WriteStage.isSet_of_next_dozes (Option.mem_toList.1 next))
    · exact .inl (.inl ⟨who', others _ old⟩)
  · by_cases apart : q = place
    · subst apart
      simp only [Function.update_self] at sleeps
      rcases WriteStage.mem_asleep_step sleeps with before | rfl
      · exact .inl (.inr ⟨x, before, under⟩)
      · exact .inl (.inl ⟨who, here⟩)
    · simp only [Function.update_of_ne apart] at sleeps
      exact .inl (.inr ⟨x, sleeps, under⟩)

/-- Whoever gets to go to sleep does so while the flag is not set. -/
theorem Acts.drowsy {a : Act ι ρ μ} {c' : Crowd ι ρ μ} (one : Acts t c a c') {place : ι}
    (drowsy : c'.Drowsy t place) : c.Drowsy t place ∨ c'.token.isSet = false := by
  cases one with
  | stays | interrupts | clears => exact .inl drowsy
  | arrives =>
    rcases drowsy with ⟨who, here⟩ | asleep
    · rcases List.mem_cons.1 here with new | old
      · cases new
      · exact .inl (.inl ⟨who, old⟩)
    · exact .inl (.inr asleep)
  | @goesOn who pick m p stage outcome found can access =>
    subst access
    obtain ⟨front, back, parts, -⟩ := List.lookup_eq_some_iff.1 found
    have here : (who, p, stage) ∈ c.writers := by simp [parts]
    have others : ∀ x ∈ c.writers.filter (·.1 != who), x ∈ c.writers :=
      fun x hx => (List.mem_filter.1 hx).1
    exact (drowsy_exchange here others pick m drowsy).imp_right stage.isSet_step.trans
  | @others p pick m hold can other =>
    rcases drowsy with dozes | ⟨x, asleep, under⟩
    · exact .inl (.inl dozes)
    · refine .inl (.inr ⟨x, ?_, under⟩)
      by_cases here : place = p
      · subst here
        simp only [Function.update_self] at asleep
        rcases Endpoint.mem_asleep_after asleep with before | rfl | rfl
        · exact before
        · exact absurd under other
        · exact absurd under other
      · simpa only [Function.update_of_ne here] using asleep

/-- Only an interrupt sets the flag. -/
theorem Acts.isSet {a : Act ι ρ μ} {c' : Crowd ι ρ μ} (one : Acts t c a c')
    (set : c'.token.isSet = true) : a = .interrupt ∨ c.token.isSet = true := by
  cases one with
  | interrupts => exact .inl rfl
  | clears => cases set
  | stays | arrives | others => exact .inr set
  | @goesOn who pick m p stage outcome found can access =>
    subst access
    exact .inr (stage.isSet_step.symm.trans set)

/-- Whoever slept at a place is awake after the place was woken. -/
theorem not_drowsy_of_woken {place : ι} (free : c.isFree place = true) (m : μ) :
    ¬ (c.act t (.other place 0 m .wakeWriters)).Drowsy t place := by
  have woken : c.act t (.other place 0 m .wakeWriters) =
      { c with
        endpoints := Function.update c.endpoints place (c.endpoints place).wakeWriters } := by
    simp [Crowd.act, free, Hold.token?, Endpoint.after]
  rw [woken]
  rintro (⟨who, here⟩ | ⟨x, asleep, -⟩)
  · -- Somebody who is about to sleep there would have the lock.
    rw [isFree, List.all_eq_true] at free
    have outside := free _ here
    simp [WriteStage.isInside] at outside
  · simp [Endpoint.wakeWriters, Condition.notifyAll] at asleep

end Crowd

/-! ## Interrupts under way -/

/-- What an interrupt that has set the flag does next. -/
inductive Alarm (ι : Type) where
  /-- It copies the registry. -/
  | copies
  /-- It wakes those who sleep at these places, one place after the other. -/
  | wakes (places : List ι)

namespace Alarm

variable {ι : Type}

/-- It has woken everybody it was to wake. -/
def isOver : Alarm ι → Bool
  | .wakes [] => true
  | _ => false

/-- It is going to wake those who sleep at `place`. -/
def WillWake (place : ι) : Alarm ι → Prop
  | .copies => True
  | .wakes places => place ∈ places

theorem WillWake.not_over {place : ι} {alarm : Alarm ι} (h : alarm.WillWake place) :
    alarm.isOver = false := by
  cases alarm with
  | copies => rfl
  | wakes places =>
    cases places with
    | nil => cases h
    | cons => rfl

/-- One that is going to wake a place is there after one of them took a step, if that one is not
done with the place. -/
theorem exists_willWake_set {alarms : List (Alarm ι)} {i : Nat} {old new : Alarm ι} {place : ι}
    (now : alarms[i]? = some old) (wakes : ∃ alarm ∈ alarms, alarm.WillWake place)
    (still : old.WillWake place → new.WillWake place) :
    ∃ alarm ∈ alarms.set i new, alarm.WillWake place := by
  obtain ⟨alarm, there, will⟩ := wakes
  obtain ⟨j, found⟩ := List.mem_iff_getElem?.1 there
  obtain ⟨inRange, -⟩ := List.getElem?_eq_some_iff.1 now
  by_cases same : i = j
  · subst same
    cases now.symm.trans found
    exact ⟨new, List.mem_set inRange new, still will⟩
  · exact ⟨alarm, List.mem_of_getElem? ((List.getElem?_set_ne same).trans found), will⟩

end Alarm

/-- A crowd and the interrupts of its token, in the order in which they set the flag. -/
structure Watch (ι ρ μ : Type) where
  crowd : Crowd ι ρ μ
  alarms : List (Alarm ι)

/-- What can happen next. -/
inductive Watch.Act (ι ρ μ : Type) where
  /-- The crowd acts. Where that sets the flag, an interrupt is under way from then on. -/
  | crowd (a : Crowd.Act ι ρ μ)
  /-- The interrupt with the number `i` makes its next access; `m` has no part in it. -/
  | alarm (i : Nat) (m : μ)

/-- The interrupt that begins with an act. -/
def Crowd.Act.alarm? {ι ρ μ : Type} : Crowd.Act ι ρ μ → Option (Alarm ι)
  | .interrupt => some .copies
  | _ => none

namespace Watch

variable {ι ρ μ : Type} [DecidableEq ι]

/-- Endpoints for so many messages, at which nobody writes and nobody is interrupted. -/
def create (lengths : ι → Nat) : Watch ι ρ μ := ⟨Crowd.create lengths, []⟩

/-- What follows on an act of the callers under the token `t`. Whoever wakes a place takes the lock
of its endpoint. -/
def act (t : Nat) (w : Watch ι ρ μ) : Act ι ρ μ → Watch ι ρ μ
  | .crowd a => ⟨w.crowd.act t a, w.alarms ++ a.alarm?.toList⟩
  | .alarm i m =>
      match w.alarms[i]? with
      | some .copies => { w with alarms := w.alarms.set i (.wakes w.crowd.token.parked) }
      | some (.wakes (place :: places)) =>
          if w.crowd.isFree place then
            ⟨w.crowd.act t (.other place 0 m .wakeWriters), w.alarms.set i (.wakes places)⟩
          else w
      | _ => w

/-- What follows on a list of acts. -/
def run (t : Nat) (w : Watch ι ρ μ) (acts : List (Act ι ρ μ)) : Watch ι ρ μ := acts.foldl (act t) w

/-- Whenever a writer goes to sleep next or sleeps under a set flag, an interrupt is going to wake
its place. -/
structure Heeded (t : Nat) (w : Watch ι ρ μ) : Prop where
  books : w.crowd.Booked t
  steady : w.crowd.Steady
  wakes : ∀ place, w.crowd.Drowsy t place → w.crowd.token.isSet = true →
    ∃ alarm ∈ w.alarms, alarm.WillWake place

theorem heeded_create (t : Nat) (lengths : ι → Nat) :
    Heeded t (create lengths : Watch ι ρ μ) where
  books := Crowd.booked_create t lengths
  steady := Crowd.steady_create lengths
  wakes _ _ set := by cases set

variable {t : Nat} {w : Watch ι ρ μ}

theorem Heeded.crowd (h : w.Heeded t) (a : Crowd.Act ι ρ μ) :
    (w.act t (.crowd a)).Heeded t where
  books := h.books.of_acts (Crowd.acts t w.crowd a)
  steady := h.steady.of_acts h.books (Crowd.acts t w.crowd a)
  wakes place drowsy set := by
    have one := Crowd.acts t w.crowd a
    rcases one.isSet set with rfl | before
    · -- The copy of the registry is still to come.
      exact ⟨.copies, List.mem_append_right _ List.mem_cons_self, trivial⟩
    · rcases one.drowsy drowsy with still | unset
      · obtain ⟨alarm, there, will⟩ := h.wakes place still before
        exact ⟨alarm, List.mem_append_left _ there, will⟩
      · exact Bool.noConfusion (unset.symm.trans set)

theorem Heeded.alarm (h : w.Heeded t) (i : Nat) (m : μ) : (w.act t (.alarm i m)).Heeded t := by
  simp only [Watch.act]
  split
  · next now =>
    refine ⟨h.books, h.steady, fun place drowsy set => ?_⟩
    -- The copy is of the whole registry, where the writer has an entry.
    exact Alarm.exists_willWake_set now (h.wakes place drowsy set)
      fun _ => h.books.mem_parked_of_drowsy drowsy
  · next place places now =>
    split
    · next free =>
      have one := Crowd.acts t w.crowd (.other place 0 m .wakeWriters)
      refine ⟨h.books.of_acts one, h.steady.of_acts h.books one, fun q drowsy set => ?_⟩
      have before : w.crowd.token.isSet = true := (one.isSet set).resolve_left (by simp)
      rcases one.drowsy drowsy with still | unset
      · refine Alarm.exists_willWake_set now (h.wakes q still before) fun will => ?_
        rcases List.mem_cons.1 will with rfl | later
        · exact absurd drowsy (Crowd.not_drowsy_of_woken free m)
        · exact later
      · exact Bool.noConfusion (unset.symm.trans set)
    · exact h
  · exact h

theorem Heeded.run (h : w.Heeded t) (acts : List (Act ι ρ μ)) : (w.run t acts).Heeded t := by
  induction acts generalizing w with
  | nil => exact h
  | cons a acts ih =>
    cases a with
    | crowd a => exact ih (h.crowd a)
    | alarm i m => exact ih (h.alarm i m)

/-- No wakeup is lost, whatever comes between two accesses, for any number of writers under a token
and of other callers, at any endpoints. When nobody under the token has the lock of an endpoint, no
woken writer is left there and every interrupt is over, whoever still sleeps there has reason to:
the endpoint is open, the mailbox is full, and the token, if it is that of the writer, is not
set. -/
theorem asleep_of_settled (t : Nat) (lengths : ι → Nat) (acts : List (Act ι ρ μ)) :
    let w := (create lengths).run t acts
    let e := fun place => w.crowd.endpoints place
    ∀ place, w.crowd.isFree place = true → (e place).writers.woken = [] →
      (∀ alarm ∈ w.alarms, alarm.isOver = true) → ∀ x ∈ (e place).writers.asleep,
        (e place).closed = false ∧ (e place).mailbox.size = (e place).mailbox.capacity ∧
          (x.token = some t → w.crowd.token.isSet = false) := by
  intro w e place free settled finished x asleep
  have heeded : w.Heeded t := (heeded_create t lengths).run acts
  obtain ⟨opened, full⟩ := (heeded.steady.covered free).full_of_settled settled
    (List.ne_nil_of_mem asleep)
  refine ⟨opened, full, fun under => ?_⟩
  cases set : w.crowd.token.isSet with
  | false => rfl
  | true =>
    obtain ⟨alarm, there, will⟩ := heeded.wakes place (.inr ⟨x, asleep, under⟩) set
    exact Bool.noConfusion (will.not_over.symm.trans (finished alarm there))

/-- An interrupt sets the flag and copies the registry after writer 1 has looked at the flag. It
gets the lock of the endpoint when the writer sleeps, and wakes it. -/
example :
    let w := (create fun _ => 1 : Watch Nat Nat Nat).run 0
      [.crowd (.other 7 0 0 (.enter ⟨9, none⟩ false)), .crowd (.arrive 1 7), .crowd (.goOn 1 0 0),
        .crowd (.goOn 1 0 0), .crowd (.goOn 1 0 0), .crowd .interrupt, .alarm 0 0, .alarm 0 0,
        .crowd (.goOn 1 0 0), .alarm 0 0]
    (w.crowd.endpoints 7).writers.asleep = [] ∧
      (w.crowd.endpoints 7).writers.woken = [⟨1, some 0⟩] ∧ w.alarms.all Alarm.isOver := by
  decide +kernel

end Watch

end Loopback

import Loopback.Proofs.Callers
import Loopback.Proofs.Crowd

/-!
# The registry of a token is who sleeps under it

A pair and its callers, seen from one token, are a crowd whose writers are all waiting: each step of
a call on the pair is a whole section. `Machine.Shows` says so, and every move of a machine is some
acts of the crowd (`Machine.Shows.of_moves`), so what holds of every crowd holds of every pair.
-/

namespace Loopback

/-- Only an attempt to write is made under a token. -/
theorem Hold.token?_of_not_attempt {ρ : Type} {hold : Hold ρ} (other : hold.isAttempt = false) :
    hold.token? = none := by
  cases hold with
  | enter | resume => cases other
  | _ => rfl

namespace Call

variable {ρ η : Type} {t who : Nat} {c : Call ρ η}

/-- The call that slept under the token `t`, as a writer of a crowd. -/
def writing? (t : Nat) : Nat × Call ρ η → Option (Nat × Side × WriteStage)
  | (who, .write source (some u) true) => if u = t then some (who, source.other, .waits) else none
  | _ => none

theorem writing?_of_isElsewhere (elsewhere : c.isElsewhere = true) :
    writing? t (who, c) = none := by
  cases c with
  | write source token woken =>
    cases woken with
    | false => cases token <;> rfl
    | true => cases elsewhere
  | _ => rfl

theorem writing?_of_token_ne {source : Side} {token : Option Nat} {woken : Bool}
    (other : token ≠ some t) : writing? t (who, (.write source token woken : Call ρ η)) = none := by
  cases token with
  | none => rfl
  | some u =>
    cases woken with
    | false => rfl
    | true => exact if_neg fun same => other (congrArg some same)

theorem eq_of_writing? {x : Nat × Call ρ η} {y : Nat × Side × WriteStage}
    (found : writing? t x = some y) :
    ∃ source, x = (y.1, .write source (some t) true) ∧ y = (y.1, source.other, .waits) := by
  obtain ⟨who, c⟩ := x
  cases c with
  | write source token woken =>
    cases token <;> cases woken <;> simp [writing?] at found
    obtain ⟨rfl, rfl⟩ := found
    exact ⟨source, rfl, rfl⟩
  | _ => cases found

end Call

/-- An attempt under no token or another one leaves a token as it was. -/
theorem Link.tokens_stepWrite {ρ η : Type} (l : Link ρ η) (pick who : Nat) (source : Side)
    (woken : Bool) {token : Option Nat} {t : Nat} (other : token ≠ some t) :
    (l.stepWrite pick who source token woken).1.tokens[t]? = l.tokens[t]? := by
  have finished : ∀ (l : Link ρ η) (e : Endpoint ρ Nat) (entry : Entry ρ),
      (l.finishWrite source token e entry).1.tokens[t]? = l.tokens[t]? := by
    intro l e entry
    cases entry with
    | sleeps => simp only [finishWrite, getElem?_modifyToken?, if_neg other, tokens_setEndpoint]
    | _ => rfl
  cases woken with
  | false => exact finished l _ _
  | true =>
    rw [stepWrite_woken, finished, getElem?_modifyToken?, if_neg other]

namespace Machine

variable {ρ η : Type} {m m' : Machine ρ η} {t : Nat} {c : Crowd Side ρ Nat}

/-- What a machine shows of the token `t`: its endpoints, the token, and who waits under it. -/
structure Shows (t : Nat) (m : Machine ρ η) (c : Crowd Side ρ Nat) : Prop where
  endpoints : ∀ s, c.endpoints s = m.link.endpoint s
  token : m.link.tokens[t]? = some c.token
  writers : c.writers.Perm (m.calls.filterMap (Call.writing? t))

namespace Shows

/-- Nobody is inside a section. -/
theorem isQuiet (h : Shows t m c) : c.isQuiet = true := by
  rw [Crowd.isQuiet, List.all_eq_true]
  intro y hy
  obtain ⟨x, -, found⟩ := List.mem_filterMap.1 (h.writers.mem_iff.1 hy)
  obtain ⟨source, -, same⟩ := Call.eq_of_writing? found
  rw [same]
  rfl

theorem isFree (h : Shows t m c) (s : Side) : c.isFree s = true := by
  have quiet := h.isQuiet
  rw [Crowd.isQuiet, List.all_eq_true] at quiet
  rw [Crowd.isFree, List.all_eq_true]
  intro y hy
  simp [quiet y hy]

section Step

variable {who pick : Nat} {call : Call ρ η} {rest calls : List (Nat × Call ρ η)}

/-- Who waits under the token stays the same when a call that is not about it takes a step. -/
theorem writers_of_step (h : Shows t m c) (now : m.calls.Perm ((who, call) :: rest))
    {next? : Option (Call ρ η)} (later : calls.Perm (next?.toList.map (who, ·) ++ rest))
    (before : Call.writing? t (who, call) = none)
    (after : ∀ call', next? = some call' → Call.writing? t (who, call') = none) :
    c.writers.Perm (calls.filterMap (Call.writing? t)) := by
  refine (h.writers.trans (now.filterMap _)).trans (List.Perm.trans ?_ (later.filterMap _).symm)
  rw [List.filterMap_cons_none before, List.filterMap_append]
  cases next? with
  | none => exact .refl _
  | some call' => simp [after call' rfl]

/-- What others do to an endpoint is an act of the crowd. -/
theorem of_hold (h : Shows t m c) (s : Side) (hold : Hold ρ) (other : hold.token? ≠ some t)
    (pick n : Nat)
    (endpoints : ∀ s', m'.link.endpoint s' =
      if s' = s then (m.link.endpoint s).after pick n hold else m.link.endpoint s')
    (token : m'.link.tokens[t]? = m.link.tokens[t]?)
    (writers : c.writers.Perm (m'.calls.filterMap (Call.writing? t))) :
    ∃ acts, Shows t m' (c.run t acts) := by
  refine ⟨[.other s pick n hold], ?_, ?_, ?_⟩
  · intro s'
    simp only [Crowd.run, List.foldl_cons, List.foldl_nil, Crowd.act, h.isFree s, Bool.true_or,
      Bool.true_and, bne_iff_ne, ne_eq, other, not_false_eq_true, if_true, Function.update_apply,
      h.endpoints, endpoints]
  · simp [Crowd.run, Crowd.act, h.isFree s, other, token, h.token]
  · simpa [Crowd.run, Crowd.act, h.isFree s, other] using writers

/-- A flag that is changed on a machine is changed in the crowd, if it is that of the token. -/
theorem of_flag (h : Shows t m c) {u : Nat} {f : Token Side → Token Side}
    {a : Crowd.Act Side ρ Nat} (acts : ∀ c : Crowd Side ρ Nat, c.act t a =
      { c with token := f c.token })
    (endpoints : ∀ s, m'.link.endpoint s = m.link.endpoint s)
    (tokens : m'.link.tokens = m.link.tokens.modify u f)
    (writers : c.writers.Perm (m'.calls.filterMap (Call.writing? t))) :
    ∃ acts, Shows t m' (c.run t acts) := by
  by_cases own : u = t
  · refine ⟨[a], fun s => ?_, ?_, ?_⟩
    · simp [Crowd.run, acts, h.endpoints, endpoints]
    · simp [Crowd.run, acts, tokens, Array.getElem?_modify, own, h.token]
    · simpa [Crowd.run, acts] using writers
  · refine ⟨[], fun s => (h.endpoints s).trans (endpoints s).symm, ?_, writers⟩
    rw [tokens, Array.getElem?_modify, if_neg own]
    exact h.token

/-- A step of a call that does not write. -/
theorem of_other_call (h : Shows t m c) (now : m.calls.Perm ((who, call) :: rest))
    (later : calls.Perm ((m.link.step pick who call).2.next?.toList.map (who, ·) ++ rest))
    (other : call.isWrite = false) :
    ∃ acts, Shows t ⟨(m.link.step pick who call).1, calls⟩ (c.run t acts) := by
  have writers : c.writers.Perm (calls.filterMap (Call.writing? t)) :=
    h.writers_of_step now later
      (Call.writing?_of_isElsewhere (Call.isElsewhere_of_not_isWrite other))
      fun c' onward => Call.writing?_of_isElsewhere ((Link.follows_step onward).isElsewhere other)
  have endpoints := m.link.endpoint_step pick who call
  have tokens := (m.link.step_frame pick who other).1
  cases held : call.hold? m.link who with
  | some place =>
    obtain ⟨s, hold⟩ := place
    have others : hold.token? ≠ some t := by
      rw [Hold.token?_of_not_attempt ((Call.isAttempt_of_hold? held).trans other)]
      exact nofun
    have same : (m.link.step pick who call).1.tokens = m.link.tokens := by
      rw [tokens]
      cases call <;> first | rfl | cases held
    refine h.of_hold s hold others pick m.link.messages.size (fun s' => ?_) (by rw [same]) writers
    rw [endpoints s', held]
  | none =>
    have same : ∀ s, (m.link.step pick who call).1.endpoint s = m.link.endpoint s := by
      intro s
      rw [endpoints s, held]
    cases call with
    | interrupt u => exact h.of_flag (a := .interrupt) (fun _ => rfl) same tokens writers
    | clear u => exact h.of_flag (a := .clear) (fun _ => rfl) same tokens writers
    | _ =>
      refine ⟨[], fun s => (h.endpoints s).trans (same s).symm, ?_, writers⟩
      show (m.link.step pick who _).1.tokens[t]? = _
      rw [tokens]
      exact h.token

/-- An attempt to write under no token or another one. -/
theorem of_other_write (h : Shows t m c) {source : Side} {token : Option Nat} {woken : Bool}
    (now : m.calls.Perm ((who, .write source token woken) :: rest))
    (later : calls.Perm ((m.link.step pick who (.write source token woken)).2.next?.toList.map
      (who, ·) ++ rest))
    (other : token ≠ some t) :
    ∃ acts, Shows t ⟨(m.link.step pick who (.write source token woken)).1, calls⟩
      (c.run t acts) := by
  have writers : c.writers.Perm (calls.filterMap (Call.writing? t)) := by
    refine h.writers_of_step now later (Call.writing?_of_token_ne other) fun c' onward => ?_
    rcases Link.follows_step onward with _ | _
    · exact Call.writing?_of_token_ne other
    · rfl
  have endpoints := m.link.endpoint_step pick who (.write source token woken)
  have same := m.link.tokens_stepWrite pick who source woken other
  cases woken with
  | false =>
    exact h.of_hold source.other (.enter ⟨who, token⟩ (m.link.isInterrupted token)) other pick _
      endpoints same writers
  | true =>
    exact h.of_hold source.other (.resume ⟨who, token⟩ (m.link.isInterrupted token)) other pick _
      endpoints same writers

/-- A writer under the token whose call can take a step is where its section begins. -/
theorem exists_section (h : Shows t m c) (orderly : m.Orderly) (booked : m.Booked)
    (callers : (c.writers.map Prod.fst).Nodup) {source : Side} {woken : Bool}
    (now : m.calls.Perm ((who, .write source (some t) woken) :: rest))
    (awake : m.link.isAsleep who (.write source (some t) woken : Call ρ η) = false) :
    ∃ acts : List (Crowd.Act Side ρ Nat),
      (c.run t acts).endpoints = c.endpoints ∧ (c.run t acts).token = c.token ∧
      (c.run t acts).writers.lookup who =
        some (source.other, if woken then .waits else .looks) ∧
      (c.run t acts).canGoOn t who source.other (if woken then .waits else .looks) = true ∧
      ((c.run t acts).writers.filter (·.1 != who)).Perm (rest.filterMap (Call.writing? t)) := by
  have mine := now.mem_iff.2 List.mem_cons_self
  have apart := h.writers.trans (now.filterMap (Call.writing? t))
  cases woken with
  | true =>
    have slept : Call.writing? t (who, (.write source (some t) true : Call ρ η)) =
        some (who, source.other, .waits) := if_pos rfl
    rw [List.filterMap_cons_some slept] at apart
    have here : c.writers.lookup who = some (source.other, .waits) :=
      lookup_of_mem callers (apart.mem_iff.2 List.mem_cons_self)
    -- The writer was woken, and nobody has the lock.
    have woken := booked.mem_woken mine awake
    rw [← h.endpoints] at woken
    have can : c.canGoOn t who source.other .waits = true := by
      simp [Crowd.canGoOn, h.isFree, woken]
    have others := (Crowd.writers_perm callers here).symm.trans apart
    exact ⟨[], rfl, rfl, here, can, others.cons_inv⟩
  | false =>
    rw [List.filterMap_cons_none rfl] at apart
    have absent : ∀ y ∈ c.writers, y.1 ≠ who := by
      intro y hy same
      obtain ⟨x, hx, found⟩ := List.mem_filterMap.1 (h.writers.mem_iff.1 hy)
      obtain ⟨source', rfl, -⟩ := Call.eq_of_writing? found
      -- A caller is in one call at a time, and this one has not slept yet.
      have one := List.inj_on_of_nodup_map orderly.callers hx mine same
      cases (Prod.mk.inj one).2
    have idle : c.writers.lookup who = none :=
      List.lookup_eq_none_iff.2 fun y hy => bne_iff_ne.2 (absent y hy).symm
    have arrived : c.run t [.arrive who source.other] =
        { c with writers := (who, source.other, .looks) :: c.writers } := by
      simp [Crowd.run, Crowd.act, idle, h.isFree]
    have others : c.writers.filter (·.1 != who) = c.writers :=
      List.filter_eq_self.2 fun y hy => bne_iff_ne.2 (absent y hy)
    refine ⟨[.arrive who source.other], ?_⟩
    rw [arrived]
    refine ⟨rfl, rfl, by simp, by simp [Crowd.canGoOn, WriteStage.isInside], ?_⟩
    simpa [others] using apart

/-- An attempt to write under the token is a whole section. -/
theorem of_own_write (h : Shows t m c) (orderly : m.Orderly) (booked : m.Booked)
    (callers : (c.writers.map Prod.fst).Nodup) {source : Side} {woken : Bool}
    (now : m.calls.Perm ((who, .write source (some t) woken) :: rest))
    (awake : m.link.isAsleep who (.write source (some t) woken : Call ρ η) = false)
    (later : calls.Perm ((m.link.step pick who (.write source (some t) woken)).2.next?.toList.map
      (who, ·) ++ rest)) :
    ∃ acts, Shows t ⟨(m.link.step pick who (.write source (some t) woken)).1, calls⟩
      (c.run t acts) := by
  obtain ⟨acts, endpoints, token, here, can, others⟩ :=
    h.exists_section orderly booked callers now awake
  generalize reached : c.run t acts = c₁ at endpoints token here can others
  have known : m.link.tokens[t]? = some c₁.token := by rw [token, h.token]
  have same := (congrFun endpoints source.other).trans (h.endpoints source.other)
  -- From there the writer goes on to the end of its section, and nobody comes between.
  obtain ⟨endpoint, tokens, outcome⟩ := Link.stepWrite_eq_goOn known pick who source woken
  obtain ⟨e, token', entry, alone⟩ := WriteStage.exists_settled pick ⟨who, some t⟩ source.other
    m.link.messages.size (m.link.endpoint source.other) c₁.token woken
  rw [alone] at endpoint tokens outcome
  have ended : ∀ stage' : WriteStage,
      (WriteStage.settled source.other e token' entry).2 ≠ .more stage' := by
    intro stage'
    cases entry <;> exact nofun
  obtain ⟨acts', run⟩ := Crowd.exists_run_section pick m.link.messages.size 8 here can
    (by rw [same, alone]; exact ended)
  rw [same, alone] at run
  refine ⟨acts ++ acts', ?_, ?_, ?_⟩
  · intro s
    rw [Crowd.run_append, reached, run]
    show Function.update c₁.endpoints source.other _ s =
      (m.link.step pick who (.write source (some t) woken)).1.endpoint s
    by_cases there : s = source.other
    · subst there
      rw [Function.update_self]
      exact endpoint.symm
    · have apart := m.link.endpoint_step pick who (.write source (some t) woken) s
      rw [Function.update_of_ne there, endpoints, h.endpoints, apart]
      cases woken <;> exact (if_neg there).symm
  · rw [Crowd.run_append, reached, run]
    exact tokens
  · rw [Crowd.run_append, reached, run]
    refine List.Perm.trans ?_ (later.filterMap _).symm
    rw [List.filterMap_append]
    refine List.Perm.append (.of_eq ?_) others
    rw [Link.step, outcome]
    cases entry <;>
      simp [WriteStage.settled, Link.finishWrite, Progress.entry, Progress.next?, Call.writing?]

/-- A wakeup without a notification. -/
theorem of_rouse (h : Shows t m c) (who : Nat) (call : Call ρ η) :
    ∃ acts, Shows t ⟨m.link.rouse who call, m.calls⟩ (c.run t acts) := by
  have token : (m.link.rouse who call).tokens[t]? = m.link.tokens[t]? := by
    rw [m.link.tokens_rouse]
  cases call with
  | write source token' woken =>
    exact h.of_hold source.other (.rouse _) nofun 0 0
      (fun s => m.link.endpoint_setEndpoint_eq source.other _ s) token h.writers
  | awaitClosed side =>
    exact ⟨[], fun s => (h.endpoints s).trans (m.link.endpoint_setClosing side s _).symm,
      token.trans h.token, h.writers⟩
  | _ => exact ⟨[], h.endpoints, token.trans h.token, h.writers⟩

end Step

/-- Every move of a machine is some acts of the crowd. -/
theorem of_moves (h : Shows t m c) (orderly : m.Orderly) (booked : m.Booked)
    (callers : (c.writers.map Prod.fst).Nodup) {mv : Move ρ η} {es : List (Event ρ η)}
    (one : Moves m mv m' es) : ∃ acts, Shows t m' (c.run t acts) := by
  cases one with
  | stays => exact ⟨[], h⟩
  | takes => exact ⟨[], h.endpoints, h.token, h.writers⟩
  | rouses now => exact h.of_rouse _ _
  | @begins who call idle entry =>
    refine ⟨[], h.endpoints, h.token, h.writers.trans (.of_eq ?_)⟩
    have elsewhere : Call.writing? t (who, call) = none :=
      Call.writing?_of_isElsewhere (Call.isElsewhere_of_isEntry entry)
    simp [elsewhere]
  | @steps who pick call rest calls now awake next =>
    cases other : call.isWrite with
    | false => exact h.of_other_call now next other
    | true =>
      cases call with
      | write source token woken =>
        by_cases own : token = some t
        · subst own
          exact h.of_own_write orderly booked callers now awake next
        · exact h.of_other_write now next own
      | _ => cases other

end Shows

/-- Whatever is done on a pair, seen from one token, is done by a crowd. -/
theorem exists_shows_run (config : Config) (first : String) (second : Option String)
    {tokens : Nat} (signals : Nat) (known : t < tokens) (schedule : List (Move ρ η)) :
    ∃ acts, Shows t ((fresh config first second tokens signals).run schedule)
      ((Crowd.create fun _ => config.queueLength).run t acts) := by
  have all := run_induction (P := fun _ (m : Machine ρ η) => m.Booked ∧
      ∃ acts, Shows t m ((Crowd.create fun _ => config.queueLength).run t acts))
    (orderly_fresh config first second tokens signals) ?_ ?_ schedule
  · exact all.2
  · refine ⟨booked_fresh config first second tokens signals, [], ?_, ?_, .refl _⟩
    · intro s
      exact (endpoint_fresh config first second tokens signals s).symm
    · simp [fresh, create, Crowd.run, Crowd.create, known]
  · rintro es m mv m' es' orderly ⟨booked, acts, shows⟩ one
    have callers := ((Crowd.booked_create (ρ := ρ) (μ := Nat) t
      fun _ : Side => config.queueLength).run acts).callers
    obtain ⟨acts', shows'⟩ := shows.of_moves orderly booked callers one
    refine ⟨booked.of_moves one, acts ++ acts', ?_⟩
    rw [Crowd.run_append]
    exact shows'

end Machine

namespace Crowd

variable {ι ρ μ η : Type} [DecidableEq ι] {t : Nat} {c : Crowd ι ρ μ}

/-- Where nobody is inside a section, nobody inside has an entry. -/
theorem entered_of_isQuiet (quiet : c.isQuiet = true) (place : ι) : c.entered place = 0 := by
  rw [isQuiet, List.all_eq_true] at quiet
  rw [entered, List.countP_eq_zero]
  rintro ⟨who, p, stage⟩ here
  have outside : stage.isInside = false := by simpa using quiet _ here
  simp [outside]

/-- So the registry counts those who wait there. -/
theorem Booked.count_parked_of_isQuiet (h : Booked t c) (quiet : c.isQuiet = true) (place : ι) :
    c.token.parked.count place = (c.sleepers t place).length := by
  rw [h.count_parked, entered_of_isQuiet quiet, Nat.add_zero]

/-- Whoever takes an entry back finds one for its place, and takes just that one. -/
theorem Booked.leaves (h : Booked t c) {who : Nat} {place : ι} {stage : WriteStage}
    (here : (who, place, stage) ∈ c.writers) (leaving : stage.isLeaving = true) (pick : Nat)
    (m : μ) : c.token.parked.Perm (place :: (c.goOn t who pick m).token.parked) := by
  have can : c.canGoOn t who place stage = true := by cases stage <;> first | rfl | cases leaving
  have entered : stage.isEntered = true := by cases stage <;> first | rfl | cases leaving
  rw [goOn_eq pick m (lookup_of_mem h.callers here) can]
  have taken := Token.parked_unpark (h.mem_parked here entered)
  cases stage <;> first | exact taken | cases leaving

/-- The registry of a token is the multiset of its sleepers, for any number of writers under it,
towards any endpoints, whatever others do between their accesses. At any time it has one entry for
each writer that waits, woken or not, and one for each that has the lock and has made an entry; so
while nobody is inside a section it counts the sleepers of each place, and it is empty when there
are none. Whoever takes an entry back finds one for its place, and takes just that one. A pair and
its callers, seen from any of their tokens, are such a crowd in which nobody is inside a section, so
the registry of the token counts who sleeps under it on either side. -/
theorem registry_is_sleepers (t : Nat) :
    (∀ (lengths : ι → Nat) (acts : List (Act ι ρ μ)),
      let c := (create lengths).run t acts
      (∀ place, c.token.parked.count place = (c.sleepers t place).length + c.entered place) ∧
      (c.isQuiet = true →
        (∀ place, c.token.parked.count place = (c.sleepers t place).length) ∧
        ((∀ place, c.sleepers t place = []) → c.token.parked = [])) ∧
      ∀ who place stage, (who, place, stage) ∈ c.writers → stage.isLeaving = true →
        ∀ pick m, c.token.parked.Perm (place :: (c.goOn t who pick m).token.parked)) ∧
    ∀ config first second tokens signals (schedule : List (Move ρ η)), t < tokens →
      let m := (Machine.fresh config first second tokens signals).run schedule
      (∃ acts, m.Shows t ((create fun _ => config.queueLength).run t acts) ∧
        ((create fun _ => config.queueLength : Crowd Side ρ Nat).run t acts).isQuiet = true) ∧
      ∃ token, m.link.tokens[t]? = some token ∧ ∀ s, token.parked.count s =
        ((m.link.endpoint s).writers.waiting.filter (·.token = some t)).length := by
  constructor
  · intro lengths acts c
    have books : c.Booked t := (booked_create t lengths).run acts
    refine ⟨books.count_parked, fun quiet => ⟨books.count_parked_of_isQuiet quiet, ?_⟩,
      fun who place stage here leaving pick m => books.leaves here leaving pick m⟩
    intro nobody
    refine List.eq_nil_iff_forall_not_mem.2 fun place entry => ?_
    have some := List.count_pos_iff.2 entry
    rw [books.count_parked_of_isQuiet quiet place, nobody place] at some
    exact Nat.lt_irrefl 0 some
  · intro config first second tokens signals schedule known m
    obtain ⟨acts, shows⟩ :=
      Machine.exists_shows_run config first second signals known schedule
    have books := (booked_create (ρ := ρ) (μ := Nat) t
      fun _ : Side => config.queueLength).run acts
    refine ⟨⟨acts, shows, shows.isQuiet⟩, _, shows.token, fun s => ?_⟩
    rw [books.count_parked_of_isQuiet shows.isQuiet, sleepers, shows.endpoints]

/-- Endpoints 7 and 8 are full. Writers 1 and 2 go to sleep at endpoint 7, and writer 3 at endpoint
8, all under token 0. -/
def fallingAsleep : List (Act Nat Nat Nat) :=
  [.other 7 0 0 (.enter ⟨9, none⟩ false), .other 8 0 0 (.enter ⟨9, none⟩ false),
    .arrive 1 7, .goOn 1 0 0, .arrive 3 8, .goOn 3 0 0, .goOn 1 0 0, .goOn 3 0 0, .goOn 3 0 0,
    .goOn 1 0 0, .goOn 1 0 0, .arrive 2 7, .goOn 3 0 0, .goOn 2 0 0, .goOn 2 0 0, .goOn 2 0 0,
    .goOn 2 0 0]

/-- Writer 1 is woken and runs again, so that its entry leaves the registry next. -/
def wakingOne : List (Act Nat Nat Nat) := [.other 7 0 0 (.rouse 0), .goOn 1 0 0]

/-- After `fallingAsleep` the registry counts two sleepers at endpoint 7 and one at endpoint 8. When
writer 1 takes its entry back, that of writer 2 is still there. -/
theorem counted_after_fallingAsleep :
    let c := (create fun _ => 1 : Crowd Nat Nat Nat).run 0 fallingAsleep
    let c' := (create fun _ => 1 : Crowd Nat Nat Nat).run 0 (fallingAsleep ++ wakingOne)
    c.isQuiet = true ∧ c.token.parked.count 7 = 2 ∧ c.token.parked.count 8 = 1 ∧
      (1, 7, WriteStage.returns) ∈ c'.writers ∧
      c'.token.parked.Perm (7 :: (c'.goOn 0 1 0 0).token.parked) ∧
      (c'.goOn 0 1 0 0).token.parked.count 7 = 1 := by
  obtain ⟨all, -⟩ := registry_is_sleepers (ι := Nat) (ρ := Nat) (μ := Nat) (η := Nat) 0
  obtain ⟨-, atRest, -⟩ := all (fun _ => 1) fallingAsleep
  obtain ⟨-, -, leaves⟩ := all (fun _ => 1) (fallingAsleep ++ wakingOne)
  have quiet : ((create fun _ => 1 : Crowd Nat Nat Nat).run 0 fallingAsleep).isQuiet = true := by
    decide +kernel
  have here : (1, 7, WriteStage.returns) ∈ ((create fun _ => 1 : Crowd Nat Nat Nat).run 0
      (fallingAsleep ++ wakingOne)).writers := by decide +kernel
  have counted := (atRest quiet).1
  refine ⟨quiet, (counted 7).trans (by decide +kernel), (counted 8).trans (by decide +kernel), here,
    leaves 1 7 .returns here rfl 0 0, by decide +kernel⟩

end Crowd

end Loopback

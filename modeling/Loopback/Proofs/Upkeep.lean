import Loopback.Proofs.Ensemble
import Loopback.Proofs.Occupancy
import Loopback.Proofs.Reading
import Loopback.Proofs.SelfRegistration
import Loopback.Proofs.Stranded

/-!
# What a sink can rely on

A receiver that handles the messages of side `b` one after the other relies on the other callers in
few things, which `Machine.Served` lists: its handlers are started in order, it is never left behind
by a close, what it has read out stays read out, and nobody closes the messages that come to it. A
move whose call is gentle keeps all of it (`Machine.Served.move`), and the calls of callers that
leave side `b` alone are gentle.
-/

namespace Loopback

namespace Machine

variable {ρ η : Type} {m m' : Machine ρ η} {mv : Move ρ η} {h es : List (Event ρ η)} {k : Nat}
  {s : Side}

/-- The machine was reached from a fresh pair, and `h` is what happened until then. -/
def Recorded (h : List (Event ρ η)) (m : Machine ρ η) : Prop :=
  ∃ config first second tokens signals schedule,
    m = (fresh config first second tokens signals).run schedule ∧
      h = (fresh config first second tokens signals).history schedule

namespace Recorded

theorem orderly (recorded : m.Recorded h) : m.Orderly := by
  obtain ⟨config, first, second, tokens, signals, schedule, rfl, rfl⟩ := recorded
  exact orderly_run (orderly_fresh ..) schedule

theorem accounted (recorded : m.Recorded h) (k : Nat) :
    m.Accounted k (Account.ofHistory k h) := by
  obtain ⟨config, first, second, tokens, signals, schedule, rfl, rfl⟩ := recorded
  exact accounted_run ..

theorem sealed (recorded : m.Recorded h) (k : Nat) :
    m.Sealed k (h.filterMap (Event.stream? k)) := by
  obtain ⟨config, first, second, tokens, signals, schedule, rfl, rfl⟩ := recorded
  exact accepted_before_flag config first second tokens signals schedule k

theorem tethered (recorded : m.Recorded h) (k : Nat) : m.Tethered k := by
  obtain ⟨config, first, second, tokens, signals, schedule, rfl, rfl⟩ := recorded
  exact tethered_run ..

theorem paired (recorded : m.Recorded h) (s : Side) :
    ∃ ended, Paired (Ledger.ofHistory s h) ended (m.link.endpoint s) := by
  obtain ⟨config, first, second, tokens, signals, schedule, rfl, rfl⟩ := recorded
  exact paired_run ..

theorem numbered (recorded : m.Recorded h) (s : Side) : m.Numbered s h := by
  obtain ⟨config, first, second, tokens, signals, schedule, rfl, rfl⟩ := recorded
  exact numbered_run ..

theorem handover (recorded : m.Recorded h) (s : Side) :
    (started s h ++ m.underway s).Perm (Ledger.ofHistory s h).dispatched := by
  obtain ⟨config, first, second, tokens, signals, schedule, rfl, rfl⟩ := recorded
  exact handover_run ..

theorem one_at_a_time (recorded : m.Recorded h) (s : Side)
    (few : (Ledger.ofHistory s h).registered.length ≤ (started s h).length + 1) :
    (m.link.endpoint s).pending.toList.length + (m.underway s).length ≤ 1 := by
  obtain ⟨config, first, second, tokens, signals, schedule, rfl, rfl⟩ := recorded
  exact Machine.one_at_a_time _ _ _ _ _ _ _ few

theorem move (recorded : m.Recorded h) (mv : Move ρ η) :
    (m.move mv).Recorded (h ++ m.events mv) := by
  obtain ⟨config, first, second, tokens, signals, schedule, rfl, rfl⟩ := recorded
  refine ⟨config, first, second, tokens, signals, schedule ++ [mv], ?_, ?_⟩
  · rw [run_append]
    rfl
  · rw [history_append]
    simp [history]

end Recorded

/-! ## What a move leaves alone -/

/-- An entry in the ledger of an endpoint is made by a caller that holds its lock. -/
theorem Moves.ledger_held (one : Moves m mv m' es) (s : Side) :
    Ledger.ofHistory s es = .empty ∨
      ∃ who pick c hold, mv = .step who pick ∧ (who, c) ∈ m.calls ∧
        c.hold? m.link who = some (s, hold) ∧
        Ledger.ofHistory s es =
          (m.link.endpoint s).ledger pick m.link.messages.size hold := by
  cases one with
  | stays | begins | rouses | takes => exact .inl rfl
  | @steps who pick c rest calls now =>
    have ledger := m.link.ledger_step pick who c s
    cases held : c.hold? m.link who with
    | none =>
      rw [held] at ledger
      exact .inl ledger
    | some place =>
      obtain ⟨t, hold⟩ := place
      by_cases here : s = t
      · subst here
        simp only [held, if_true] at ledger
        exact .inr ⟨who, pick, c, hold, rfl, now.mem_iff.2 List.mem_cons_self, held, ledger⟩
      · simp only [held, here, if_false] at ledger
        exact .inl ledger

/-- Only a call that receives registers a receiver. -/
theorem Moves.registered_eq_nil (one : Moves m mv m' es)
    (apart : ∀ who pick r, mv = .step who pick → (who, .receive s r) ∉ m.calls) :
    (Ledger.ofHistory s es).registered = [] := by
  rcases one.ledger_held s with none | ⟨who, pick, c, hold, now, here, held, ledger⟩
  · rw [none]
    rfl
  · rw [ledger]
    cases hold with
    | register r =>
      obtain rfl := eq_receive_of_hold? held
      exact absurd here (apart who pick r now)
    | enter w interrupted =>
      rw [Endpoint.ledger]
      cases ((m.link.endpoint s).enter pick w interrupted m.link.messages.size).2 <;> rfl
    | resume w interrupted =>
      rw [Endpoint.ledger]
      cases ((m.link.endpoint s).resume pick w interrupted m.link.messages.size).2 <;> rfl
    | _ => rfl

/-- Only the executor starts a receiver. -/
theorem Moves.started_eq_nil (one : Moves m mv m' es)
    (apart : ∀ i t, mv = .takeTask i → m.link.tasks[i]? = some t → t.dispatch? s = none) :
    started s es = [] := by
  cases one with
  | stays | begins | rouses => rfl
  | steps => exact started_events ..
  | @takes i t found =>
    rw [started, List.filterMap_cons_none (by rw [started?_started]; exact apart i t rfl found)]
    rfl

/-- A message that is delivered is a new one, of which nothing happened yet. -/
theorem Moves.delivered_is_new (one : Moves m mv m' es) (orderly : m.Orderly)
    (fresh : k ∈ (Ledger.ofHistory s es).delivered) :
    m.link.messages[k]? = none ∧ (∃ n, m'.link.messages[k]? = some (Message.create n)) ∧
      es.filterMap (Event.stream? k) = [] := by
  cases one with
  | stays | begins | rouses | takes => exact absurd fresh List.not_mem_nil
  | @steps who pick c rest calls now awake next =>
    rcases m.link.delivered_step pick who c s with ⟨none, -⟩ | ⟨added, size⟩
    · rw [none] at fresh
      exact absurd fresh List.not_mem_nil
    · rw [added, List.mem_singleton] at fresh
      have absent : m.link.messages[k]? = none := by simp [fresh]
      have handled := (Moves.steps now awake next).handles orderly k
      generalize (m.link.events pick who c).filterMap (Event.stream? k) = events at handled ⊢
      cases handled with
      | leaves same =>
        rw [absent, Array.getElem?_eq_none_iff, size, fresh] at same
        exact absurd same (Nat.not_succ_le_self _)
      | creates absent found => exact ⟨absent, ⟨_, found⟩, rfl⟩
      | rouses found | serves _ _ _ found =>
        rw [absent] at found
        cases found

/-- How many bytes reads of message `k` were answered with. -/
def readCount (k : Nat) (h : List (Event ρ η)) : Nat := (Account.ofHistory k h).consumed.length

theorem Moves.readCount_eq (one : Moves m mv m' es) (orderly : m.Orderly)
    (apart : ∀ who pick r, mv = .step who pick → (who, .stream k (.settle r)) ∉ m.calls) :
    readCount k (h ++ es) = readCount k h := by
  rw [readCount, Account.ofHistory_append, (one.handles orderly k).consumed_eq apart]
  rfl

/-- Of a message that has just been delivered nothing was read. -/
theorem Moves.readCount_of_delivered (one : Moves m mv m' es) (orderly : m.Orderly)
    (accounted : m.Accounted k (Account.ofHistory k h))
    (fresh : k ∈ (Ledger.ofHistory s es).delivered) : readCount k (h ++ es) = 0 := by
  obtain ⟨absent, -, quiet⟩ := one.delivered_is_new orderly fresh
  rw [readCount, Account.ofHistory_append, quiet, accounted.absent absent]
  rfl

end Machine

/-! ## Gentle calls -/

/-- The next step of the call does not close side `b`, answers no read of the messages `settled`,
and closes the read end of none of the other messages among `mine`. -/
structure Call.Gentle {ρ η : Type} (mine settled : List Nat) (c : Call ρ η) : Prop where
  closes : c ≠ .closeEndpoint .b
  reads : ∀ k ∈ settled, ∀ r, c ≠ .stream k (.settle r)
  drops : ∀ k ∈ mine, k ∉ settled → ∀ c', c = .stream k c' → c'.pipeCall? ≠ some .closeReader

/-- Who leaves the messages `mine` alone is gentle. -/
theorem Call.gentle_of_leaves {ρ η : Type} {mine settled : List Nat} {c : Call ρ η}
    (left : c.leaves mine = true) (within : settled ⊆ mine) : c.Gentle mine settled where
  closes same := by simp [same, leaves] at left
  reads k hk r same := by
    have here := within hk
    simp [same, leaves, MessageCall.madeOn?, here] at left
  drops k hk _ c' same inPipe := by
    have on := MessageCall.madeOn?_of_pipeCall? inPipe
    simp [same, leaves, on, PipeCall.madeOn, hk] at left

/-- A call that is on no message and closes nothing is gentle. -/
theorem Call.gentle_of_not_stream {ρ η : Type} {mine settled : List Nat} {c : Call ρ η}
    (closes : c ≠ .closeEndpoint .b) (other : ∀ k c', c ≠ .stream k c') : c.Gentle mine settled :=
  ⟨closes, fun k _ _ => other k _, fun k _ _ c' same => absurd same (other k c')⟩

theorem Call.gentle_receive {ρ η : Type} {mine settled : List Nat} {s : Side} (r : ρ) :
    (.receive s r : Call ρ η).Gentle mine settled := Call.gentle_of_not_stream nofun nofun

namespace Machine

variable {ρ η : Type} {m m' : Machine ρ η} {mv : Move ρ η} {h es : List (Event ρ η)}
  {settled mine : List Nat}

/-- What the receivers of side `b` can rely on, after they have handled the messages `settled`. -/
structure Served (settled : List Nat) (h : List (Event ρ η)) (m : Machine ρ η) : Prop where
  /-- Receivers are started in the order in which it was decided what they get. -/
  order : (Ledger.ofHistory .b h).dispatched = started .b h ++ m.underway .b
  /-- Nobody is left behind by a close. -/
  behind : ∀ r, ¬(m.link.endpoint .b).Strands r
  /-- What was read out stays read out. -/
  readOut : ∀ k ∈ settled, m.ReadOut k (Account.ofHistory k h)
  /-- The other messages can be read. -/
  opened : ∀ k ∈ (Ledger.ofHistory .b h).delivered, k ∉ settled →
    ∃ msg, m.link.messages[k]? = some msg ∧ msg.pipe.readerClosed = false

theorem served_fresh (config : Config) (first : String) (second : Option String)
    (tokens signals : Nat) :
    Served [] [] (fresh config first second tokens signals : Machine ρ η) where
  order := rfl
  behind r := by
    rw [endpoint_fresh]
    exact Endpoint.not_strands_of_nobody rfl
  readOut k hk := absurd hk List.not_mem_nil
  opened k hk := absurd hk List.not_mem_nil

/-- A message more was handled. -/
theorem Served.settle (served : Served settled h m) {k : Nat}
    (out : m.ReadOut k (Account.ofHistory k h)) : Served (settled ++ [k]) h m where
  order := served.order
  behind := served.behind
  readOut j hj := by
    rcases List.mem_append.1 hj with old | new
    · exact served.readOut j old
    · rw [List.mem_singleton.1 new]
      exact out
  opened j hj unsettled := served.opened j hj fun old => unsettled (List.mem_append_left _ old)

/-- A gentle move keeps what the receivers rely on, as long as at most one is outstanding. -/
theorem Served.move (served : Served settled h m) (recorded : m.Recorded h) (mv : Move ρ η)
    (before : (Ledger.ofHistory .b h).registered.length ≤ (started .b h).length + 1)
    (after : (Ledger.ofHistory .b (h ++ m.events mv)).registered.length ≤
      (started .b (h ++ m.events mv)).length + 1)
    (within : (Ledger.ofHistory .b (h ++ m.events mv)).delivered ⊆ mine)
    (gentle : ∀ who pick c, mv = .step who pick → (who, c) ∈ m.calls → c.Gentle mine settled) :
    Served settled (h ++ m.events mv) (m.move mv) := by
  have one := moves recorded.orderly mv
  have later := recorded.move mv
  refine ⟨?_, ?_, ?_, ?_⟩
  · exact started_in_order one served.order
      (Nat.le_of_add_left_le (recorded.one_at_a_time .b before))
      (Nat.le_of_add_left_le (later.one_at_a_time .b after)) (later.handover .b)
  · intro r strands
    obtain ⟨ended, paired⟩ := recorded.paired .b
    rcases one.strands recorded.orderly paired.empty_of_pending strands with old | closes
    · exact served.behind r old
    · obtain ⟨who, pick, now, call, -⟩ := closes
      have here := (call?_eq_some_iff recorded.orderly).1 call
      exact (gentle who pick _ now here).closes rfl
  · intro k hk
    rw [Account.ofHistory_append]
    refine (served.readOut k hk).of_handles (recorded.accounted k)
      (one.handles recorded.orderly k) ?_
    intro who pick r now here
    exact (gentle who pick _ now here).reads k hk r rfl
  · intro k hk unsettled
    have mem := within hk
    rw [Ledger.ofHistory_append] at hk
    rcases List.mem_append.1 hk with old | new
    · obtain ⟨msg, found, opened⟩ := served.opened k old unsettled
      have valid := ((recorded.accounted k).matched msg found).valid
      refine (one.handles recorded.orderly k).reader_open valid found opened ?_
      intro who pick c now here
      exact (gentle who pick _ now here).drops k mem unsettled c rfl
    · obtain ⟨-, ⟨n, found⟩, -⟩ := one.delivered_is_new recorded.orderly new
      exact ⟨_, found, rfl⟩

end Machine

end Loopback

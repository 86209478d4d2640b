import Mathlib.Algebra.GroupWithZero.Nat
import Loopback.Proofs.SinkScripts

/-!
# What the receiver of a sink is at

At any time the one receiver of a sink registers itself, waits, drains a message, or tells its
tally. `Counted` says what the history knows of that: how many handlers have started and with what,
which receiver is outstanding and with which tally, and that every message handled so far was read
out. It is kept by every gentle move, and what the receiver does takes it from one duty to the next.
-/

namespace Loopback.Replay

open Machine (readCount started)

variable {settled mine : List Nat} {k : Nat} {h : History}
  {m : Machine Receiver CloseHandler}

/-- The tally of a sink that has handled the messages `settled`. -/
def tallyOf (settled : List Nat) (h : History) : Tally :=
  ⟨settled.length, (settled.map (readCount · h)).sum⟩

theorem tallyOf_concat (settled : List Nat) (k : Nat) (h : History) :
    tallyOf (settled ++ [k]) h = (tallyOf settled h).absorb (readCount k h) := by
  simp [tallyOf, Tally.absorb]

theorem tallyOf_congr {h' : History} (same : ∀ k ∈ settled, readCount k h' = readCount k h) :
    tallyOf settled h' = tallyOf settled h := by
  rw [tallyOf, tallyOf, List.map_congr_left same]

/-- What the receiver of a sink is at. -/
inductive Duty where
  | asks
  | waits
  | drains (k : Nat)
  | ends
  | told

namespace Duty

/-- What the handlers were started with so far. -/
def begun (settled : List Nat) : Duty → List (Delivery Nat)
  | .asks | .waits => settled.map .message
  | .drains k => (settled ++ [k]).map .message
  | .ends | .told => settled.map .message ++ [.finish]

/-- The receiver that was registered and whose handler has not started. -/
def outstanding (t : Tally) : Duty → List Receiver
  | .waits => [.sink 0 t]
  | .asks | .drains _ | .ends | .told => []

/-- What the receiver is at once its handler was started. -/
def given : Delivery Nat → Duty
  | .message k => .drains k
  | .finish => .ends

/-- The next step of the call leaves what the receiver of the sink is at to its handler: it is
gentle, registers nobody on `b`, and answers no read of a message that waits for its handler. -/
structure Allows (mine settled : List Nat) (duty : Duty) (c : Call Receiver CloseHandler) :
    Prop where
  gentle : c.Gentle mine settled
  registers : ∀ r, c ≠ .receive .b r
  waiting : ∀ k ∈ mine, k ∉ settled → duty ≠ .drains k → ∀ r, c ≠ .stream k (.settle r)

theorem allows_of_leaves {duty : Duty} {c : Call Receiver CloseHandler}
    (left : c.leaves mine = true) (within : settled ⊆ mine) : duty.Allows mine settled c where
  gentle := Call.gentle_of_leaves left within
  registers r same := by simp [same, Call.leaves] at left
  waiting k hk _ _ r same := by simp [same, Call.leaves, MessageCall.madeOn?, hk] at left

end Duty

/-- The history agrees with what the receiver of the sink is at. -/
structure Counted (settled : List Nat) (duty : Duty) (h : History)
    (m : Machine Receiver CloseHandler) : Prop where
  recorded : m.Recorded h
  served : m.Served settled h
  begun : (started .b h).map Dispatch.delivery = duty.begun settled
  registered : ∃ front,
    (Ledger.ofHistory .b h).registered = front ++ duty.outstanding (tallyOf settled h) ∧
      front.length = (started .b h).length
  /-- Nobody has read a message that waits for its handler. -/
  unread : ∀ k ∈ (Ledger.ofHistory .b h).delivered, k ∉ settled → duty ≠ .drains k →
    readCount k h = 0

variable {duty : Duty}

namespace Counted

theorem few (counted : Counted settled duty h m) :
    (Ledger.ofHistory .b h).registered.length ≤ (started .b h).length + 1 := by
  obtain ⟨front, registered, length⟩ := counted.registered
  rw [registered, List.length_append, length]
  cases duty <;> simp [Duty.outstanding]

/-- Whoever was registered last was dispatched, or is the one that waits. -/
theorem outstanding_eq (counted : Counted settled duty h m) :
    (m.underway .b).map Dispatch.receiver ++ (m.link.endpoint .b).pending.toList =
      duty.outstanding (tallyOf settled h) := by
  obtain ⟨ended, paired⟩ := counted.recorded.paired .b
  obtain ⟨front, registered, length⟩ := counted.registered
  rw [paired.registered_eq, counted.served.order, List.map_append, List.append_assoc] at registered
  exact (List.append_inj registered (by rw [List.length_map, length])).2

/-- The messages that handlers were started with are the first ones. -/
theorem messages_prefix (counted : Counted settled duty h m) :
    (duty.begun settled).filterMap Delivery.message? <+: (Ledger.ofHistory .b h).delivered := by
  obtain ⟨ended, paired⟩ := counted.recorded.paired .b
  rw [← counted.begun, List.filterMap_map]
  refine List.IsPrefix.trans ?_ paired.messages_prefix
  rw [counted.served.order, List.filterMap_append]
  exact List.prefix_append _ _

/-- The message that is drained was delivered, and was not handled before. -/
theorem drained_mem (counted : Counted settled (.drains k) h m) :
    k ∈ (Ledger.ofHistory .b h).delivered ∧ k ∉ settled := by
  have front := counted.messages_prefix
  have messages : ((settled ++ [k]).map Delivery.message).filterMap Delivery.message? =
      settled ++ [k] := by
    rw [List.filterMap_map]
    exact List.filterMap_some
  rw [Duty.begun, messages] at front
  refine ⟨front.subset (List.mem_append_right _ (List.mem_singleton_self k)), ?_⟩
  have distinct := (counted.recorded.numbered .b).distinct.sublist front.sublist
  intro here
  exact (List.nodup_append.1 distinct).2.2 k here k (List.mem_singleton_self k) rfl

/-- The messages handled so far were delivered. -/
theorem settled_subset (counted : Counted settled duty h m) :
    settled ⊆ (Ledger.ofHistory .b h).delivered := by
  refine List.Subset.trans ?_ counted.messages_prefix.subset
  intro k hk
  have here : Delivery.message k ∈ duty.begun settled := by
    cases duty <;> simp [Duty.begun, hk]
  exact List.mem_filterMap.2 ⟨_, here, rfl⟩

section Moves

variable {mv : Move Receiver CloseHandler}

/-- A gentle move leaves the tally of the sink as it is. -/
theorem tally_eq (counted : Counted settled duty h m)
    (gentle : ∀ who pick c, mv = .step who pick → (who, c) ∈ m.calls → c.Gentle mine settled) :
    tallyOf settled (h ++ m.events mv) = tallyOf settled h := by
  apply tallyOf_congr
  intro k hk
  refine (Machine.moves counted.recorded.orderly mv).readCount_eq counted.recorded.orderly ?_
  intro who pick r now here
  exact (gentle who pick _ now here).reads k hk r rfl

variable (within : (Ledger.ofHistory .b (h ++ m.events mv)).delivered ⊆ mine)

include within

/-- The messages that wait for their handlers stay unread. -/
theorem unread_move (counted : Counted settled duty h m)
    (waiting : ∀ who pick c, mv = .step who pick → (who, c) ∈ m.calls →
      ∀ k ∈ mine, k ∉ settled → duty ≠ .drains k → ∀ r, c ≠ .stream k (.settle r))
    (hk : k ∈ (Ledger.ofHistory .b (h ++ m.events mv)).delivered) (unsettled : k ∉ settled)
    (other : duty ≠ .drains k) : readCount k (h ++ m.events mv) = 0 := by
  have orderly := counted.recorded.orderly
  have one := Machine.moves orderly mv
  have mem := within hk
  rw [Ledger.ofHistory_append] at hk
  rcases List.mem_append.1 hk with old | new
  · rw [one.readCount_eq orderly]
    · exact counted.unread k old unsettled other
    · intro who pick r now here
      exact waiting who pick _ now here k mem unsettled other r rfl
  · exact one.readCount_of_delivered orderly (counted.recorded.accounted k) new

/-- A move that leaves what the receiver is at to its handler, and starts no receiver on `b`. -/
theorem move (counted : Counted settled duty h m)
    (allowed : ∀ who pick c, mv = .step who pick → (who, c) ∈ m.calls →
      duty.Allows mine settled c)
    (starts : ∀ i t, mv = .takeTask i → m.link.tasks[i]? = some t → t.dispatch? .b = none) :
    Counted settled duty (h ++ m.events mv) (m.move mv) := by
  have one := Machine.moves counted.recorded.orderly mv
  have kind : ∀ who pick c, mv = .step who pick → (who, c) ∈ m.calls → c.Gentle mine settled :=
    fun who pick c now here => (allowed who pick c now here).gentle
  have begun : started .b (h ++ m.events mv) = started .b h := by
    rw [Machine.started_append, one.started_eq_nil starts, List.append_nil]
  have registered : (Ledger.ofHistory .b (h ++ m.events mv)).registered =
      (Ledger.ofHistory .b h).registered := by
    rw [Ledger.ofHistory_append]
    show _ ++ _ = _
    rw [one.registered_eq_nil, List.append_nil]
    intro who pick r now here
    exact (allowed who pick _ now here).registers r rfl
  refine ⟨counted.recorded.move mv, ?_, ?_, ?_, ?_⟩
  · refine counted.served.move counted.recorded mv counted.few ?_ within kind
    rw [begun, registered]
    exact counted.few
  · rw [begun]
    exact counted.begun
  · rw [begun, registered, counted.tally_eq kind]
    exact counted.registered
  · intro k
    refine counted.unread_move within ?_
    exact fun who pick c now here => (allowed who pick c now here).waiting

/-- The receiver registers itself: it waits, or is dispatched at once. -/
theorem registers (counted : Counted settled .asks h m) {who pick : Nat}
    (now : mv = .step who pick)
    (call : m.call? who = some (.receive .b (.sink 0 (tallyOf settled h)))) :
    Counted settled .waits (h ++ m.events mv) (m.move mv) := by
  have one := Machine.moves counted.recorded.orderly mv
  have only : ∀ who' pick' c, mv = .step who' pick' → (who', c) ∈ m.calls →
      c = .receive .b (.sink 0 (tallyOf settled h)) := by
    rintro who' pick' c now' here
    obtain ⟨rfl, rfl⟩ := Move.step.inj (now.symm.trans now')
    rw [Machine.call?_of_mem counted.recorded.orderly here] at call
    exact Option.some.inj call
  have gentle : ∀ who' pick' c, mv = .step who' pick' → (who', c) ∈ m.calls →
      c.Gentle mine settled := by
    intro who' pick' c now' here
    rw [only who' pick' c now' here]
    exact Call.gentle_receive _
  have nobody : (m.link.endpoint .b).pending = none := by
    have none := counted.outstanding_eq
    rw [Duty.outstanding, List.append_eq_nil_iff] at none
    exact Option.toList_eq_nil_iff.1 none.2
  have begun : started .b (h ++ m.events mv) = started .b h := by
    rw [Machine.started_append, one.started_eq_nil, List.append_nil]
    intro i t now'
    cases now.symm.trans now'
  have added : (Ledger.ofHistory .b (m.events mv)).registered =
      [.sink 0 (tallyOf settled h)] := by
    have awake : m.link.isAsleep who (.receive .b (.sink 0 (tallyOf settled h))) = false := rfl
    rw [now]
    simp only [Machine.events, call, awake, Bool.false_eq_true, if_false]
    rw [Link.ledger_receive, if_pos rfl]
    cases answer : ((m.link.endpoint .b).register pick (.sink 0 (tallyOf settled h))).2 with
    | refused =>
      obtain ⟨r, waits⟩ := (Endpoint.register_refused_iff pick _ _).1 answer
      rw [nobody] at waits
      cases waits
    | waits | given => rfl
  have registered : (Ledger.ofHistory .b (h ++ m.events mv)).registered =
      (Ledger.ofHistory .b h).registered ++ [.sink 0 (tallyOf settled h)] := by
    rw [Ledger.ofHistory_append, ← added]
    rfl
  obtain ⟨front, all, length⟩ := counted.registered
  rw [Duty.outstanding, List.append_nil] at all
  refine ⟨counted.recorded.move mv, ?_, ?_, ?_, ?_⟩
  · refine counted.served.move counted.recorded mv counted.few ?_ within gentle
    rw [begun, registered, all, List.length_append, length]
    exact Nat.le_refl _
  · rw [begun]
    exact counted.begun
  · rw [begun, registered, counted.tally_eq gentle]
    exact ⟨front, by rw [all]; rfl, length⟩
  · intro k hk unsettled _
    refine counted.unread_move within ?_ hk unsettled fun same => by cases same
    intro who' pick' c now' here k _ _ _ r same
    cases (only who' pick' c now' here).symm.trans same

/-- The executor starts the one receiver that is outstanding. -/
theorem starts (counted : Counted settled duty h m) {i : Nat} {d : Dispatch Receiver Nat}
    (now : mv = .takeTask i) (found : m.link.tasks[i]? = some (.receive .b d)) :
    duty = .waits ∧ d.receiver = .sink 0 (tallyOf settled h) ∧
      Counted settled (.given d.delivery) (h ++ m.events mv) (m.move mv) := by
  have handed : d ∈ m.underway .b := by
    rw [Machine.underway_eq]
    refine List.mem_append_left _ (List.mem_filterMap.2 ⟨_, List.mem_of_getElem? found, ?_⟩)
    simp [Task.dispatch?]
  have one := counted.outstanding_eq
  have receiver : d.receiver ∈ duty.outstanding (tallyOf settled h) := by
    rw [← one]
    exact List.mem_append_left _ (List.mem_map_of_mem handed)
  have waits : duty = .waits := by
    cases duty <;> first | rfl | simp [Duty.outstanding] at receiver
  subst waits
  have gentle : ∀ who pick c, mv = .step who pick → (who, c) ∈ m.calls → c.Gentle mine settled := by
    intro who pick c now'
    cases now.symm.trans now'
  have events : m.events mv = [.started (.receive .b d)] := by
    rw [now]
    simp [Machine.events, found]
  have begun : started .b (h ++ m.events mv) = started .b h ++ [d] := by
    rw [Machine.started_append, events]
    rfl
  have registered : (Ledger.ofHistory .b (h ++ m.events mv)).registered =
      (Ledger.ofHistory .b h).registered := by
    rw [Ledger.ofHistory_append, events]
    exact List.append_nil _
  obtain ⟨front, all, length⟩ := counted.registered
  refine ⟨rfl, List.mem_singleton.1 receiver, counted.recorded.move mv, ?_, ?_, ?_, ?_⟩
  · refine counted.served.move counted.recorded mv counted.few ?_ within gentle
    rw [begun, registered, List.length_append]
    exact Nat.le_succ_of_le counted.few
  · rw [begun, List.map_append, counted.begun]
    cases d with
    | mk r delivery => cases delivery <;> simp [Duty.begun, Duty.given]
  · rw [begun, registered, counted.tally_eq gentle, all, List.length_append, ← length]
    cases d with
    | mk r delivery =>
      cases delivery <;> exact ⟨_, (List.append_nil _).symm, by simp [Duty.outstanding]⟩
  · intro k hk unsettled _
    refine counted.unread_move within ?_ hk unsettled fun same => by cases same
    intro who pick c now'
    cases now.symm.trans now'

end Moves

/-- Once a message was read out it counts as handled. -/
theorem settle (counted : Counted settled (.drains k) h m)
    (out : m.ReadOut k (Account.ofHistory k h)) : Counted (settled ++ [k]) .asks h m where
  recorded := counted.recorded
  served := counted.served.settle out
  begun := counted.begun
  registered := counted.registered
  unread j hj unsettled _ := by
    refine counted.unread j hj (fun old => unsettled (List.mem_append_left _ old)) ?_
    rintro ⟨⟩
    exact unsettled (List.mem_append_right _ (List.mem_singleton_self _))

theorem tell (counted : Counted settled .ends h m) : Counted settled .told h m where
  recorded := counted.recorded
  served := counted.served
  begun := counted.begun
  registered := counted.registered
  unread k hk unsettled _ := counted.unread k hk unsettled nofun

/-- Once the tally was told, every message that was delivered was handled. -/
theorem all_handled (counted : Counted settled .told h m) :
    (Ledger.ofHistory .b h).delivered = settled := by
  obtain ⟨ended, paired⟩ := counted.recorded.paired .b
  have nobody := counted.outstanding_eq
  rw [Duty.outstanding, List.append_eq_nil_iff, List.map_eq_nil_iff] at nobody
  have given := counted.begun
  rw [← List.append_nil (started .b h), ← nobody.1, ← counted.served.order] at given
  -- Somebody was told the end, so nothing is left in the mailbox.
  have told : ended ≠ [] := by
    rintro rfl
    have here : Delivery.finish ∈ (Ledger.ofHistory .b h).dispatched.map Dispatch.delivery := by
      rw [given]
      exact List.mem_append_right _ (List.mem_singleton_self _)
    obtain ⟨d, hd, finish⟩ := List.mem_map.1 here
    rw [paired.dispatched, List.map_nil, List.append_nil] at hd
    exact delivery_ne_finish hd finish
  have all := paired.length_le_of_empty (paired.finished told).2
  calc (Ledger.ofHistory .b h).delivered
      = (Ledger.ofHistory .b h).dispatched.filterMap (·.delivery.message?) := by
        rw [paired.messages_eq, List.take_of_length_le all]
    _ = ((Ledger.ofHistory .b h).dispatched.map Dispatch.delivery).filterMap
          Delivery.message? := by rw [List.filterMap_map]; rfl
    _ = settled := by
        rw [given]
        simp [Duty.begun, List.filterMap_map, Function.comp_def, Delivery.message?]

end Counted

end Loopback.Replay

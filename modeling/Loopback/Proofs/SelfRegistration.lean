import Loopback.Proofs.Pairing
import Mathlib.Data.List.Induction
import Mathlib.Data.List.Perm.Subperm

/-!
# Receivers that register themselves

Who gets which message is decided under the lock of an endpoint, but the decision is handed to the
executor after the lock is let go of, and the executor starts tasks in any order. So nothing that is
locked keeps the handlers of an endpoint in the order of its messages. What keeps them in order is a
habit of the receivers: one is registered at first, and every other registration is made from inside
a handler, once for each. Then a pending receiver, a decision not yet handed over and a task not yet
started are one token that is passed on, and there is at most one of them at any time
(`Machine.self_registered_in_order`).
-/

namespace Loopback

/-- But for one, each registration on `s` was made from inside a handler of `s` that had started
before, and no two from inside the same one. Registrations and starts are named by their positions
in the history. -/
def SelfRegistering {ρ η : Type} (s : Side) (h : List (Event ρ η)) : Prop :=
  ∃ (initial : Nat) (home : Nat → Nat),
    (∀ i r, h[i]? = some (.registered s r) → i ≠ initial →
      home i < i ∧ ∃ d, h[home i]? = some (.started (.receive s d))) ∧
    ∀ i j r r', h[i]? = some (.registered s r) → h[j]? = some (.registered s r') →
      i ≠ initial → j ≠ initial → home i = home j → i = j

namespace Event

variable {ρ η : Type} {s : Side} {e : Event ρ η}

theorem isSome_registered?_iff : (registered? s e).isSome ↔ ∃ r, e = .registered s r := by
  cases e with
  | registered t r =>
    by_cases here : t = s
    · simp [registered?, here]
    · simp [registered?, here]
  | _ => simp [registered?]

theorem isSome_started?_iff : (started? s e).isSome ↔ ∃ d, e = .started (.receive s d) := by
  cases e with
  | started t =>
    cases t with
    | receive t d =>
      by_cases here : t = s
      · simp [started?, here]
      · simp [started?, here]
    | closed t handler => simp [started?]
  | _ => simp [started?]

end Event

namespace SelfRegistering

variable {ρ η : Type} {s : Side} {h h' : List (Event ρ η)}

/-- What came first kept to the habit as well. -/
theorem of_append (self : SelfRegistering s (h ++ h')) : SelfRegistering s h := by
  obtain ⟨initial, home, inside, once⟩ := self
  have kept {i : Nat} {e : Event ρ η} (there : h[i]? = some e) : (h ++ h')[i]? = some e := by
    obtain ⟨short, -⟩ := List.getElem?_eq_some_iff.1 there
    rw [List.getElem?_append_left short, there]
  refine ⟨initial, home, ?_, ?_⟩
  · intro i r there late
    obtain ⟨before, d, started⟩ := inside i r (kept there) late
    obtain ⟨short, -⟩ := List.getElem?_eq_some_iff.1 there
    -- The handler was started before, so its start is in the part that came first.
    rw [List.getElem?_append_left (Nat.lt_trans before short)] at started
    exact ⟨before, d, started⟩
  · intro i j r r' hi hj
    exact once i j r r' (kept hi) (kept hj)

/-- There is at most one registration more than there are handlers started. -/
theorem length_registered_le (self : SelfRegistering s h) :
    (Ledger.ofHistory s h).registered.length ≤ (Machine.started s h).length + 1 := by
  obtain ⟨initial, home, inside, once⟩ := self
  let asked := h.findIdxs fun e => (Event.registered? s e).isSome
  let begun := h.findIdxs fun e => (Event.started? s e).isSome
  have mem_asked {i : Nat} (hi : i ∈ asked) : ∃ r, h[i]? = some (.registered s r) := by
    obtain ⟨short, there⟩ := List.mem_findIdxs_iff_exists_getElem_pos.1 hi
    obtain ⟨r, same⟩ := Event.isSome_registered?_iff.1 there
    exact ⟨r, by rw [List.getElem?_eq_getElem short, same]⟩
  have distinct : (asked.erase initial).Nodup := List.nodup_findIdxs.erase initial
  have late {i : Nat} (hi : i ∈ asked.erase initial) : i ≠ initial ∧ i ∈ asked :=
    (List.Nodup.mem_erase_iff List.nodup_findIdxs).1 hi
  -- Each late registration is sent to the start it was made after.
  have homes : ((asked.erase initial).map home).Nodup := by
    refine List.Nodup.map_on ?_ distinct
    intro i hi j hj same
    obtain ⟨r, at_i⟩ := mem_asked (late hi).2
    obtain ⟨r', at_j⟩ := mem_asked (late hj).2
    exact once i j r r' at_i at_j (late hi).1 (late hj).1 same
  have begins : (asked.erase initial).map home ⊆ begun := by
    intro k hk
    obtain ⟨i, hi, rfl⟩ := List.mem_map.1 hk
    obtain ⟨r, there⟩ := mem_asked (late hi).2
    obtain ⟨-, d, started⟩ := inside i r there (late hi).1
    obtain ⟨short, same⟩ := List.getElem?_eq_some_iff.1 started
    exact List.mem_findIdxs_iff_exists_getElem_pos.2
      ⟨short, Event.isSome_started?_iff.2 ⟨d, same⟩⟩
  have few : (asked.erase initial).length ≤ begun.length := by
    have sub := (List.subperm_of_subset homes begins).length_le
    rwa [List.length_map] at sub
  calc (Ledger.ofHistory s h).registered.length
      = asked.length := by rw [List.length_findIdxs]; exact List.length_filterMap_eq_countP
    _ ≤ (asked.erase initial).length + 1 := by rw [List.length_erase]; split <;> omega
    _ ≤ begun.length + 1 := Nat.succ_le_succ few
    _ = (Machine.started s h).length + 1 := by
        rw [List.length_findIdxs, Machine.started, List.length_filterMap_eq_countP]

end SelfRegistering

/-- At most one thing can be arranged in one way only. -/
theorem eq_of_perm_of_length_le_one {α : Type} {l l' : List α} (h : l.Perm l')
    (short : l'.length ≤ 1) : l = l' := by
  cases l' with
  | nil => exact h.eq_nil
  | cons a rest =>
    have none : rest.length = 0 := Nat.le_zero.1 (Nat.le_of_succ_le_succ short)
    rw [List.length_eq_zero_iff.1 none] at h ⊢
    exact List.perm_singleton.1 h

/-- The message that is delivered, unless the end is told. -/
def Delivery.message? {μ : Type} : Delivery μ → Option μ
  | .message m => some m
  | .finish => none

/-- The messages of the pairs are those that came before the receivers ran out. -/
theorem message?_pairUp {ρ : Type} (rs : List ρ) (ms : List Nat) :
    (pairUp rs ms).filterMap (·.delivery.message?) = ms.take rs.length := by
  induction rs generalizing ms with
  | nil => rfl
  | cons r rs ih =>
    cases ms with
    | nil => rfl
    | cons m ms => exact congrArg (List.cons m) (ih ms)

/-- Nobody who is paired with a message is told the end. -/
theorem delivery_ne_finish {ρ : Type} {rs : List ρ} {ms : List Nat} {d : Dispatch ρ Nat}
    (hd : d ∈ pairUp rs ms) : d.delivery ≠ .finish := by
  obtain ⟨i, hi, rfl⟩ := List.getElem_of_mem hd
  simp [pairUp]

namespace Paired

variable {ρ : Type} {g : Ledger ρ} {ended : List ρ} {e : Endpoint ρ Nat}

/-- The messages that receivers were given. -/
theorem messages_eq (paired : Paired g ended e) :
    g.dispatched.filterMap (·.delivery.message?) = g.delivered.take g.registered.length := by
  rw [paired.dispatched, List.filterMap_append, message?_pairUp]
  have told : (ended.map (⟨·, .finish⟩ : ρ → Dispatch ρ Nat)).filterMap
      (·.delivery.message?) = [] := by
    rw [List.filterMap_map]
    exact List.filterMap_eq_nil_iff.2 fun _ _ => rfl
  rw [told, List.append_nil]

theorem messages_prefix (paired : Paired g ended e) :
    g.dispatched.filterMap (·.delivery.message?) <+: g.delivered := by
  rw [paired.messages_eq]
  exact List.take_prefix _ _

/-- Whoever comes after a receiver that was told the end is told the end. -/
theorem end_is_last (paired : Paired g ended e) :
    g.dispatched.Pairwise fun d later => d.delivery = .finish → later.delivery = .finish := by
  rw [paired.dispatched, List.pairwise_append]
  refine ⟨?_, ?_, ?_⟩
  · exact List.Pairwise.imp_of_mem (R := fun _ _ => True)
      (fun hd _ _ told => absurd told (delivery_ne_finish hd))
      (List.pairwise_of_forall fun _ _ => trivial)
  · rw [List.pairwise_map]
    exact List.pairwise_of_forall fun _ _ _ => rfl
  · intro d hd later _ told
    exact absurd told (delivery_ne_finish hd)

end Paired

namespace Machine

variable {ρ η : Type} {m m' : Machine ρ η} {s : Side} {h es : List (Event ρ η)}

/-- The dispatches of side `s` that were decided on and not handed to the executor. -/
def decided (s : Side) (m : Machine ρ η) : List (Dispatch ρ Nat) :=
  (m.calls.flatMap fun x => x.2.carried).filterMap (Task.dispatch? s)

/-- The dispatches of side `s` that the executor has and did not start. -/
def submitted (s : Side) (m : Machine ρ η) : List (Dispatch ρ Nat) :=
  m.link.tasks.filterMap (Task.dispatch? s)

theorem underway_eq (s : Side) (m : Machine ρ η) : m.underway s = m.submitted s ++ m.decided s :=
  List.filterMap_append

theorem started_append (h h' : List (Event ρ η)) :
    started s (h ++ h') = started s h ++ started s h' := List.filterMap_append

/-- A move decides what a receiver gets, or starts a receiver, but not both. -/
theorem Moves.decides_or_starts {mv : Move ρ η} (one : Moves m mv m' es) (s : Side) :
    started s es = [] ∨ (Ledger.ofHistory s es).dispatched = [] := by
  cases one with
  | stays | begins | rouses => exact .inl rfl
  | takes => exact .inr rfl
  | steps => exact .inl (started_events ..)

/-- As long as at most one dispatch is under way, the dispatches are started in the order they were
decided in. -/
theorem started_in_order {mv : Move ρ η} (one : Moves m mv m' es)
    (order : (Ledger.ofHistory s h).dispatched = started s h ++ m.underway s)
    (before : (m.underway s).length ≤ 1) (after : (m'.underway s).length ≤ 1)
    (once : (started s (h ++ es) ++ m'.underway s).Perm (Ledger.ofHistory s (h ++ es)).dispatched) :
    (Ledger.ofHistory s (h ++ es)).dispatched = started s (h ++ es) ++ m'.underway s := by
  rw [Ledger.ofHistory_append, Ledger.append, order, started_append] at once ⊢
  simp only [List.append_assoc] at once ⊢
  have rest := (List.perm_append_left_iff _).1 once
  congr 1
  rcases one.decides_or_starts s with none | none
  · rw [none, List.nil_append] at rest ⊢
    exact eq_of_perm_of_length_le_one rest.symm after
  · rw [none, List.append_nil] at rest ⊢
    exact (eq_of_perm_of_length_le_one rest before).symm

section Run

variable (config : Config) (first : String) (second : Option String) (tokens signals : Nat)
  (schedule : List (Move ρ η)) (s : Side)

/-- A pending receiver, a decision not yet handed over and a task not yet started: one at most. -/
theorem one_at_a_time
    (few : (Ledger.ofHistory s
        ((fresh config first second tokens signals).history schedule)).registered.length ≤
      (started s ((fresh config first second tokens signals).history schedule)).length + 1) :
    (((fresh config first second tokens signals).run schedule).link.endpoint
        s).pending.toList.length +
      (((fresh config first second tokens signals).run schedule).underway s).length ≤ 1 := by
  obtain ⟨ended, paired⟩ := paired_run config first second tokens signals schedule s
  have once := (handover_run config first second tokens signals schedule s).length_eq
  rw [paired.registered_eq, List.length_append, List.length_map, ← once, List.length_append] at few
  omega

/-- The dispatches were started in the order they were decided in, but for the one under way. -/
theorem dispatched_eq
    (self : SelfRegistering s ((fresh config first second tokens signals).history schedule)) :
    (Ledger.ofHistory s ((fresh config first second tokens signals).history schedule)).dispatched =
      started s ((fresh config first second tokens signals).history schedule) ++
        ((fresh config first second tokens signals).run schedule).underway s := by
  induction schedule using List.reverseRecOn with
  | nil => rfl
  | append_singleton schedule mv ih =>
    have one := moves (orderly_run (orderly_fresh config first second tokens signals) schedule) mv
    have now := one_at_a_time config first second tokens signals _ s self.length_registered_le
    have once := handover_run config first second tokens signals (schedule ++ [mv]) s
    rw [history_append] at self
    have earlier := one_at_a_time config first second tokens signals schedule s
      self.of_append.length_registered_le
    rw [history_append, run_append] at once ⊢
    rw [run_append] at now
    simp only [history, List.append_nil] at once ⊢
    exact started_in_order one (ih self.of_append) (Nat.le_of_add_left_le earlier)
      (Nat.le_of_add_left_le now) once

end Run

/-- While the receivers of `s` register themselves, a pending receiver, a dispatch decided on and
not handed over, and a task handed over and not started are at most one thing. So whatever the
executor does, the handlers start with the messages in the order they were written, and once a
handler was told the end, no handler starts with a message. -/
theorem self_registered_in_order (config : Config) (first : String) (second : Option String)
    (tokens signals : Nat) (schedule : List (Move ρ η)) (s : Side) :
    let m := (fresh config first second tokens signals : Machine ρ η)
    let now := m.run schedule
    let begun := started s (m.history schedule)
    SelfRegistering s (m.history schedule) →
    (now.link.endpoint s).pending.toList.length + (now.decided s).length +
        (now.submitted s).length ≤ 1 ∧
      begun.filterMap (·.delivery.message?) <+:
        (Ledger.ofHistory s (m.history schedule)).delivered ∧
      begun.Pairwise fun d later => d.delivery = .finish → later.delivery = .finish := by
  intro m now begun self
  have one : (now.link.endpoint s).pending.toList.length + (now.underway s).length ≤ 1 :=
    one_at_a_time config first second tokens signals schedule s self.length_registered_le
  have front : begun <+: (Ledger.ofHistory s (m.history schedule)).dispatched :=
    ⟨_, (dispatched_eq config first second tokens signals schedule s self).symm⟩
  obtain ⟨ended, paired⟩ := paired_run config first second tokens signals schedule s
  refine ⟨?_, ?_, ?_⟩
  · rw [underway_eq, List.length_append] at one
    omega
  · exact (front.filterMap _).trans paired.messages_prefix
  · exact paired.end_is_last.sublist front.sublist

/-- Receiver 7 waits on `b` and gets the first message; from inside it receiver 8 is registered,
which finds the second message in the queue, and from inside that one receiver 9, which is told the
end. -/
def handingOn : List (Move Nat Nat) :=
  [.begin 0 (.receive .b 7), .step 0 0,
    .begin 1 (.write .a none false), .step 1 0, .step 1 0, .takeTask 0,
    .begin 1 (.write .a none false), .step 1 0,
    .begin 2 (.receive .b 8), .step 2 0, .step 2 0, .takeTask 0,
    .begin 3 (.receive .b 9), .step 3 0, .begin 1 (.shutDown .a), .step 1 0, .step 1 0, .takeTask 0]

theorem history_handingOn : (fresh ⟨1, 16⟩ "pair" none 0 0).history handingOn =
    [.registered .b 7, .delivered .b 0, .dispatched .b ⟨7, .message 0⟩,
      .started (.receive .b ⟨7, .message 0⟩), .delivered .b 1, .registered .b 8,
      .dispatched .b ⟨8, .message 1⟩, .started (.receive .b ⟨8, .message 1⟩), .registered .b 9,
      .dispatched .b ⟨9, .finish⟩, .started (.receive .b ⟨9, .finish⟩)] := by rfl

/-- Receivers are registered at three places of `handingOn`. -/
theorem registered_handingOn {i r : Nat}
    (there : ((fresh ⟨1, 16⟩ "pair" none 0 0).history handingOn)[i]? = some (.registered .b r)) :
    i = 0 ∨ i = 5 ∨ i = 8 := by
  rw [history_handingOn] at there
  rcases i with _ | _ | _ | _ | _ | _ | _ | _ | _ | _ | _ | i <;> simp at there ⊢

/-- The receivers of `handingOn` register themselves, and all three were started, in order. -/
theorem in_order_after_handingOn :
    let h := (fresh ⟨1, 16⟩ "pair" none 0 0).history handingOn
    SelfRegistering .b h ∧
      started .b h = [⟨7, .message 0⟩, ⟨8, .message 1⟩, ⟨9, .finish⟩] ∧
      (started .b h).filterMap (·.delivery.message?) <+: (Ledger.ofHistory .b h).delivered := by
  intro h
  have events : h = _ := history_handingOn
  -- Receivers 8 and 9 were registered after the starts at the positions 3 and 7.
  have self : SelfRegistering .b h := by
    refine ⟨0, fun i => if i = 5 then 3 else 7, ?_, ?_⟩
    · intro i r there late
      rcases registered_handingOn there with rfl | rfl | rfl
      · exact absurd rfl late
      · exact ⟨by decide, ⟨7, .message 0⟩, by rw [events]; rfl⟩
      · exact ⟨by decide, ⟨8, .message 1⟩, by rw [events]; rfl⟩
    · intro i j r r' hi hj first first'
      rcases registered_handingOn hi with rfl | rfl | rfl <;>
        rcases registered_handingOn hj with rfl | rfl | rfl <;> simp at first first' ⊢
  refine ⟨self, ?_, ?_⟩
  · rw [events]
    rfl
  · exact (self_registered_in_order ⟨1, 16⟩ "pair" none 0 0 handingOn .b self).2.1

end Machine

end Loopback

import Loopback.Proofs.Journal

/-!
# The call of a caller

A caller is in one call at a time, so a machine can be read caller by caller: a move changes the
call of the caller that makes it, and of nobody else. `Machine.Took` lists what a caller comes to by
one step.
-/

namespace Loopback

/-- The caller that a move is made by. -/
def Move.who? {ρ η : Type} : Move ρ η → Option Nat
  | .begin who _ | .step who _ => some who
  | _ => none

namespace Machine

variable {ρ η : Type} {m m' : Machine ρ η} {mv : Move ρ η} {es : List (Event ρ η)}

theorem call?_eq_some_iff (orderly : m.Orderly) {who : Nat} {c : Call ρ η} :
    m.call? who = some c ↔ (who, c) ∈ m.calls := by
  constructor
  · intro call
    obtain ⟨front, back, calls, -⟩ := calls_eq orderly call
    rw [calls]
    exact List.mem_append_right _ List.mem_cons_self
  · exact call?_of_mem orderly

/-- After a step its caller is in what is left of its call, and the others are where they were. -/
theorem mem_calls_step (orderly : m.Orderly) {who x : Nat} {c c' : Call ρ η}
    {rest calls : List (Nat × Call ρ η)} {next? : Option (Call ρ η)}
    (now : m.calls.Perm ((who, c) :: rest))
    (next : calls.Perm (next?.toList.map (who, ·) ++ rest)) :
    (x, c') ∈ calls ↔ (x = who ∧ next? = some c') ∨ (x ≠ who ∧ (x, c') ∈ m.calls) := by
  have alone := (orderly.of_perm now.symm m.link).uncons.2.1
  rw [next.mem_iff, List.mem_append, now.mem_iff, List.mem_cons]
  constructor
  · rintro (mine | others)
    · obtain ⟨c'', onward, same⟩ := List.mem_map.1 mine
      obtain ⟨rfl, rfl⟩ := Prod.mk.inj same
      exact .inl ⟨rfl, Option.mem_toList.1 onward⟩
    · exact .inr ⟨alone _ others, .inr others⟩
  · rintro (⟨rfl, onward⟩ | ⟨apart, same | others⟩)
    · exact .inl (List.mem_map.2 ⟨c', Option.mem_toList.2 onward, rfl⟩)
    · exact absurd (Prod.mk.inj same).1 apart
    · exact .inr others

/-- An end of a message is used by one caller at a time. -/
theorem Orderly.eq_of_madeOn? (orderly : m.Orderly) {who x : Nat} {c c' : Call ρ η}
    {e : Nat × PipeEnd} (here : (who, c) ∈ m.calls) (there : (x, c') ∈ m.calls)
    (on : c.madeOn? = some e) (on' : c'.madeOn? = some e) : who = x := by
  obtain ⟨front, back, calls⟩ := List.append_of_mem here
  have now : m.calls.Perm ((who, c) :: (front ++ back)) := calls ▸ List.perm_middle
  rcases List.mem_cons.1 (now.mem_iff.1 there) with same | others
  · exact (Prod.mk.inj same).1.symm
  · exact absurd on' ((orderly.of_perm now.symm m.link).uncons.2.2.1 e on _ others)

/-- Nobody but the caller of a move is in another call afterwards. -/
theorem Moves.mem_calls_other (orderly : m.Orderly) (one : Moves m mv m' es) {x : Nat}
    (apart : mv.who? ≠ some x) (c : Call ρ η) : (x, c) ∈ m'.calls ↔ (x, c) ∈ m.calls := by
  cases one with
  | stays | rouses | takes => exact Iff.rfl
  | @begins who =>
    have other : x ≠ who := fun same => apart (congrArg some same.symm)
    simp [other]
  | @steps who pick c rest calls now awake next =>
    have other : x ≠ who := fun same => apart (congrArg some same.symm)
    simp [mem_calls_step orderly now next, other]

/-- Whoever is in a call was in it before, begins it, or goes on as it. -/
theorem Moves.mem_calls (orderly : m.Orderly) (one : Moves m mv m' es) {x : Nat} {c : Call ρ η}
    (here : (x, c) ∈ m'.calls) :
    (x, c) ∈ m.calls ∨ mv = .begin x c ∨
      ∃ pick c₀, mv = .step x pick ∧ (x, c₀) ∈ m.calls ∧ c₀.Staged ∧ c₀.Follows c := by
  cases one with
  | stays | rouses | takes => exact .inl here
  | begins =>
    rcases List.mem_append.1 here with old | new
    · exact .inl old
    · obtain ⟨rfl, rfl⟩ := Prod.mk.inj (List.mem_singleton.1 new)
      exact .inr (.inl rfl)
  | @steps who pick c₀ rest calls now awake next =>
    rcases (mem_calls_step orderly now next).1 here with ⟨rfl, onward⟩ | ⟨-, old⟩
    · have before := now.mem_iff.2 List.mem_cons_self
      exact .inr (.inr ⟨pick, c₀, rfl, before, orderly.staged _ before,
        Link.follows_step onward⟩)
    · exact .inl old

theorem Moves.call?_other (orderly : m.Orderly) (one : Moves m mv m' es) {x : Nat}
    (apart : mv.who? ≠ some x) : m'.call? x = m.call? x := by
  apply Option.ext
  intro c
  rw [call?_eq_some_iff orderly, call?_eq_some_iff (orderly.of_moves one)]
  exact one.mem_calls_other orderly apart c

/-- What a caller comes to by one step: it cannot take one, its call goes on, or its call ends. -/
inductive Took (m : Machine ρ η) (who pick : Nat) :
    Machine ρ η × Option Result → List (Event ρ η) → Prop where
  | nothing (stuck : ∀ c, m.call? who = some c → m.link.isAsleep who c = true) :
      Took m who pick (m, none) []
  | goesOn {c c' : Call ρ η} {m' : Machine ρ η} (call : m.call? who = some c)
      (awake : m.link.isAsleep who c = false)
      (onward : (m.link.step pick who c).2.next? = some c')
      (link : m'.link = (m.link.step pick who c).1) (call' : m'.call? who = some c') :
      Took m who pick (m', none) (m.link.events pick who c)
  | ends {c : Call ρ η} {r : Result} {m' : Machine ρ η} (call : m.call? who = some c)
      (awake : m.link.isAsleep who c = false) (ended : (m.link.step pick who c).2 = .done r)
      (link : m'.link = (m.link.step pick who c).1) (call' : m'.call? who = none) :
      Took m who pick (m', some r) (m.link.events pick who c)

theorem took (orderly : m.Orderly) (who pick : Nat) :
    Took m who pick (m.step who pick) (m.events (.step who pick)) := by
  cases call : m.call? who with
  | none =>
    simp only [step, events, call]
    refine .nothing fun c call' => ?_
    cases call.symm.trans call'
  | some c =>
    cases awake : m.link.isAsleep who c with
    | true =>
      simp only [step, events, call, awake, if_true]
      refine .nothing fun c' call' => ?_
      obtain rfl := Option.some.inj (call.symm.trans call')
      exact awake
    | false =>
      obtain ⟨front, back, calls, others⟩ := calls_eq orderly call
      have absent : front.lookup who = none := by
        rw [List.lookup_eq_none_iff]
        intro x hx
        exact bne_iff_ne.2 fun same => others x (List.mem_append_left _ hx) same.symm
      have found (c' : Call ρ η) : (front ++ (who, c') :: back).lookup who = some c' := by
        simp [List.lookup_append, absent]
      simp only [step, events, call, awake, Bool.false_eq_true, if_false]
      cases outcome : (m.link.step pick who c).2 with
      | more c' | asleep c' =>
        refine .goesOn call awake (by rw [outcome]; rfl) rfl ?_
        rw [call?, calls_setCall (m := ⟨(m.link.step pick who c).1, m.calls⟩) calls others]
        exact found c'
      | done r =>
        refine .ends call awake outcome rfl ?_
        rw [call?, calls_filter (m := m) calls others, List.lookup_eq_none_iff]
        intro x hx
        exact bne_iff_ne.2 fun same => others x hx same.symm

/-- A call whose step is its last ends by it. -/
theorem Took.atOnce {who pick : Nat} {c : Call ρ η} {r : Result}
    {step : Machine ρ η × Option Result} (took : Took m who pick step es)
    (call : m.call? who = some c) (awake : m.link.isAsleep who c = false)
    (ended : (m.link.step pick who c).2 = .done r) :
    step.1.call? who = none ∧ step.2 = some r := by
  cases took with
  | nothing stuck =>
    rw [stuck c call] at awake
    cases awake
  | goesOn call' _ onward =>
    obtain rfl := Option.some.inj (call.symm.trans call')
    rw [ended] at onward
    cases onward
  | ends call' _ over' _ gone =>
    obtain rfl := Option.some.inj (call.symm.trans call')
    rw [ended] at over'
    exact ⟨gone, congrArg some (Progress.done.inj over').symm⟩

/-- A caller that is awake comes to what is left of its call. -/
theorem call?_step (orderly : m.Orderly) {who : Nat} {c : Call ρ η} (call : m.call? who = some c)
    (awake : m.link.isAsleep who c = false) (pick : Nat) :
    (m.step who pick).1.call? who = (m.link.step pick who c).2.next? := by
  have took := took orderly who pick
  generalize m.step who pick = outcome, m.events (.step who pick) = es at took
  cases took with
  | nothing stuck =>
    rw [stuck c call] at awake
    cases awake
  | goesOn call' _ onward _ after =>
    obtain rfl := Option.some.inj (call.symm.trans call')
    exact after.trans onward.symm
  | ends call' _ ended _ after =>
    obtain rfl := Option.some.inj (call.symm.trans call')
    rw [ended]
    exact after

/-- Either a caller takes no step, and nothing happens, or it takes one of its call, which goes into
the journal, and is left with the rest of it. -/
theorem step_cases (orderly : m.Orderly) (who pick : Nat) :
    ((m.step who pick).1 = m ∧ m.taken? (.step who pick) = none ∧
      m.events (.step who pick) = []) ∨
    ∃ c, m.call? who = some c ∧ m.link.isAsleep who c = false ∧
      m.taken? (.step who pick) = some ⟨who, c, (m.link.step pick who c).2⟩ ∧
      m.events (.step who pick) = m.link.events pick who c ∧
      (m.step who pick).1.link = (m.link.step pick who c).1 ∧
      (m.step who pick).1.call? who = (m.link.step pick who c).2.next? := by
  cases call : m.call? who with
  | none => exact .inl (by simp [step, taken?, events, call])
  | some c =>
    cases awake : m.link.isAsleep who c with
    | true => exact .inl (by simp [step, taken?, events, call, awake])
    | false =>
      obtain ⟨_, -, link, -⟩ := step_of_awake orderly call awake pick
      exact .inr ⟨c, rfl, awake, taken?_of_awake call awake pick, by simp [events, call, awake],
        link, call?_step orderly call awake pick⟩

/-- A step leaves the calls of the others alone. -/
theorem call?_step_other (orderly : m.Orderly) {who x : Nat} (apart : x ≠ who) (pick : Nat) :
    (m.step who pick).1.call? x = m.call? x :=
  (moves_step orderly who pick).call?_other orderly fun same => apart (Option.some.inj same).symm

theorem call?_begin_other (orderly : m.Orderly) {who x : Nat} (apart : x ≠ who) (c : Call ρ η) :
    (m.begin who c).call? x = m.call? x :=
  (moves_begin who c).call?_other orderly fun same => apart (Option.some.inj same).symm

/-- A call that begins has done nothing yet. -/
theorem link_begin (who : Nat) (c : Call ρ η) : (m.begin who c).link = m.link := by
  unfold begin
  split <;> rfl

/-- A caller that wakes stays in its call. -/
theorem rouse_cases (m : Machine ρ η) (who : Nat) :
    m.rouse who = m ∨
      ∃ c, m.call? who = some c ∧ m.rouse who = ⟨m.link.rouse who c, m.calls⟩ := by
  cases call : m.call? who with
  | none => exact .inl (by simp [rouse, call])
  | some c => exact .inr ⟨c, rfl, by simp [rouse, call]⟩

/-- Whoever begins a call is in it. -/
theorem call?_begin (orderly : m.Orderly) {who : Nat} {c : Call ρ η}
    (can : m.canBegin who c = true) : (m.begin who c).call? who = some c := by
  have one := moves_begin (m := m) who c
  refine call?_of_mem (orderly.of_moves one) ?_
  rw [begin, if_pos can]
  exact List.mem_append_right _ List.mem_cons_self

end Machine

end Loopback

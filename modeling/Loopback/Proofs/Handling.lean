import Loopback.Proofs.Callers
import Loopback.Proofs.EndOfStream

/-!
# What a move does to one message

Whatever is proved about one message along a schedule looks at the same few cases: a move has
nothing to do with the message, wakes a sleeper on it, writes it, or is a step of a call on it.
`Machine.Handles` lists them, with what becomes of the message, of the calls on it and of its
events, and `Machine.Moves.handles` says that there are no others.
-/

namespace Loopback

namespace Link

variable {ρ η : Type} {l : Link ρ η}

/-- A call on a message works on that message. -/
theorem messages_step_stream {pick who k : Nat} {c : MessageCall} {msg : Message}
    (found : l.messages[k]? = some msg) :
    (l.step pick who (.stream k c)).1.messages[k]? = some (msg.step who c).1 := by
  obtain ⟨inside, rfl⟩ := Array.getElem?_eq_some_iff.1 found
  rw [(step_frame l pick who rfl).2.1]
  simp [inside]

/-- A call on a message has the events that it has there. -/
theorem stream_events {pick who k : Nat} {c : MessageCall} {msg : Message}
    (found : l.messages[k]? = some msg) :
    (l.events pick who (.stream k c)).filterMap (Event.stream? k) =
      msg.events c (msg.step who c).2 := by
  simp [events, found, Event.stream?, List.filterMap_map, Function.comp_def]

end Link

namespace Machine

variable {ρ η : Type} {m m' : Machine ρ η} {k : Nat}

/-- What a move does to message `k` and to the calls on it, and its events there. -/
inductive Handles (k : Nat) (m : Machine ρ η) (mv : Move ρ η) (m' : Machine ρ η) :
    List StreamEvent → Prop where
  | leaves (same : m'.link.messages[k]? = m.link.messages[k]?)
      (stay : ∀ msg, m.link.messages[k]? = some msg →
        ∀ x c, (x, .stream k c) ∈ m.calls → (x, .stream k c) ∈ m'.calls) : Handles k m mv m' []
  | rouses {msg : Message} {who : Nat} (found : m.link.messages[k]? = some msg)
      (found' : m'.link.messages[k]? = some { msg with pipe := msg.pipe.rouse who })
      (same : m'.calls = m.calls) : Handles k m mv m' []
  | creates {n : Nat} (absent : m.link.messages[k]? = none)
      (found' : m'.link.messages[k]? = some (Message.create n)) : Handles k m mv m' []
  | serves {who pick : Nat} {c : MessageCall} {msg : Message} (now : mv = .step who pick)
      (here : (who, .stream k c) ∈ m.calls) (awake : m.link.isAsleep who (.stream k c) = false)
      (found : m.link.messages[k]? = some msg)
      (found' : m'.link.messages[k]? = some (msg.step who c).1)
      (own : ∀ c', (who, .stream k c') ∈ m'.calls ↔ (msg.step who c).2.next? = some c')
      (others : ∀ x c', x ≠ who → ((x, c') ∈ m'.calls ↔ (x, c') ∈ m.calls)) :
      Handles k m mv m' (msg.events c (msg.step who c).2)

section Steps

variable {who pick : Nat} {c : Call ρ η} {rest calls : List (Nat × Call ρ η)}
  (orderly : m.Orderly) (now : m.calls.Perm ((who, c) :: rest))
  (next : calls.Perm ((m.link.step pick who c).2.next?.toList.map (who, ·) ++ rest))

include orderly now next

/-- A step of a call on something else leaves the message alone, or writes it. -/
theorem handles_other (mv : Move ρ η) (other : ∀ c', c ≠ .stream k c') :
    Handles k m mv ⟨(m.link.step pick who c).1, calls⟩ [] := by
  have outcome : (m.link.step pick who c).1.messages[k]? = m.link.messages[k]? ∨ _ :=
    Link.getElem?_step_other other
  rcases outcome with same | ⟨absent, n, new⟩
  · refine .leaves same ?_
    intro msg found x c' here
    refine (mem_calls_step orderly now next).2 (.inr ⟨?_, here⟩)
    -- The caller of the step is in another call.
    rintro rfl
    have mine := call?_of_mem orderly (now.mem_iff.2 List.mem_cons_self)
    rw [call?_of_mem orderly here] at mine
    exact other c' (Option.some.inj mine).symm
  · exact .creates absent new

/-- A step of a call on the message is a step of the message. -/
theorem handles_stream {c₀ : MessageCall} (on : c = .stream k c₀)
    (awake : m.link.isAsleep who c = false) {msg : Message}
    (found : m.link.messages[k]? = some msg) :
    Handles k m (.step who pick) ⟨(m.link.step pick who c).1, calls⟩
      (msg.events c₀ (msg.step who c₀).2) := by
  subst on
  have step := Link.step_stream pick who k c₀ m.link found
  refine .serves rfl (now.mem_iff.2 List.mem_cons_self) awake found
    (Link.messages_step_stream found) ?_ ?_
  · intro c'
    rw [mem_calls_step orderly now next, step, Progress.next?_map]
    cases (msg.step who c₀).2.next? <;> simp
  · intro x c' apart
    rw [mem_calls_step orderly now next]
    simp [apart]

end Steps

/-- A move handles a message in one of these ways. -/
theorem Moves.handles (orderly : m.Orderly) {mv : Move ρ η} {es : List (Event ρ η)}
    (one : Moves m mv m' es) (k : Nat) : Handles k m mv m' (es.filterMap (Event.stream? k)) := by
  cases one with
  | stays => exact .leaves rfl fun _ _ _ _ here => here
  | takes => exact .leaves rfl fun _ _ _ _ here => here
  | begins => exact .leaves rfl fun _ _ _ _ here => List.mem_append_left _ here
  | @rouses who c now =>
    rcases m.link.getElem?_rouse who c k with same | ⟨msg, found, found'⟩
    · exact .leaves same fun _ _ _ _ here => here
    · exact .rouses found found' rfl
  | @steps who pick c rest calls now awake next =>
    by_cases on : ∃ c₀, c = .stream k c₀
    · obtain ⟨c₀, rfl⟩ := on
      cases found : m.link.messages[k]? with
      | none =>
        -- A call on a message that was never written is refused.
        have none : (m.link.events pick who (.stream k c₀)).filterMap (Event.stream? k) = [] := by
          simp [Link.events, found]
        rw [none]
        refine .leaves (by simp [Link.step, found]) ?_
        intro msg found'
        rw [found] at found'
        cases found'
      | some msg =>
        rw [Link.stream_events found]
        exact handles_stream orderly now next rfl awake found
    · have other : ∀ c₀, c ≠ .stream k c₀ := fun c₀ same => on ⟨c₀, same⟩
      rw [Link.stream_events_other other]
      exact handles_other orderly now next _ other

end Machine

end Loopback

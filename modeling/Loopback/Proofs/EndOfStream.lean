import Loopback.Proofs.Account

/-!
# The end of a stream is honest

A cancellation raises a flag and then closes the write end, which wakes a blocked reader as the end
of the stream would. Along a schedule, the account of every message agrees with the message and with
the calls on it. What was read is always a prefix of what was written, and a read or skip that asked
for bytes and answers none has read all of a message that its writer ended and nobody cancelled
(`Machine.end_of_stream_honest`).
-/

namespace Loopback

/-! ## One move of a machine -/

namespace Link

variable {ρ η : Type} {l : Link ρ η} {k : Nat}

/-- A call on something else leaves message `k` alone, or writes it. -/
theorem getElem?_step_other {pick who : Nat} {c : Call ρ η}
    (other : ∀ c', c ≠ .stream k c') :
    (l.step pick who c).1.messages[k]? = l.messages[k]? ∨
      (l.messages[k]? = none ∧
        ∃ n, (l.step pick who c).1.messages[k]? = some (Message.create n)) := by
  cases writes : c.isWrite with
  | true =>
    cases c with
    | write source token woken =>
      obtain ⟨l', e, entry, h, same, -⟩ := l.exists_finishWrite pick who source token woken
      rw [step, h, messages_finishWrite, same]
      split
      · rw [Array.getElem?_push]
        split
        · next last => exact .inr ⟨by simp [last], _, rfl⟩
        · exact .inl rfl
      · exact .inl rfl
    | _ => simp [Call.isWrite] at writes
  | false =>
    refine .inl ?_
    rw [(step_frame l pick who writes).2.1]
    split
    · next j c _ =>
      have apart : j ≠ k := fun same => other c (by rw [same])
      split
      · rw [Array.getElem?_setIfInBounds_ne apart]
      · rfl
    · rfl

/-- Only a call on message `k` moves its bytes. -/
theorem stream_events_other {pick who : Nat} {c : Call ρ η} (other : ∀ c', c ≠ .stream k c') :
    (l.events pick who c).filterMap (Event.stream? k) = [] := by
  have handed (tasks : List (Task ρ η)) : (dispatches tasks).filterMap (Event.stream? k) = [] :=
    filterMap_dispatches (fun _ _ => rfl) tasks
  unfold events
  split
  · rfl
  · exact handed _
  · rfl
  · exact handed _
  · exact handed _
  · next j c =>
    have apart : j ≠ k := fun same => other c (by rw [same])
    split
    · exact filterMap_stream (fun _ => if_neg apart) _
    · rfl
  · rfl

/-- A wakeup without a notification concerns at most the pipe of one message. -/
theorem getElem?_rouse (who : Nat) (c : Call ρ η) (k : Nat) :
    (l.rouse who c).messages[k]? = l.messages[k]? ∨
      ∃ msg, l.messages[k]? = some msg ∧
        (l.rouse who c).messages[k]? = some { msg with pipe := msg.pipe.rouse who } := by
  cases c with
  | stream j c =>
    by_cases same : j = k
    · subst same
      cases found : l.messages[j]? with
      | none => exact .inl (by simp [rouse, Array.getElem?_modify, found])
      | some msg => exact .inr ⟨msg, rfl, by simp [rouse, Array.getElem?_modify, found]⟩
    · exact .inl (by simp [rouse, Array.getElem?_modify, same])
  | _ => exact .inl rfl

end Link

/-- What the account says of a call stays true as long as the hand of a reader is the same. -/
theorem Account.Stage.mono {a a' : Account} {c : MessageCall} (h : a.Stage c)
    (hand : c.madeOn? = some .reader → a'.inHand = a.inHand)
    (flag : a.cancelled = true → a'.cancelled = true) : a'.Stage c := by
  cases c with
  | settle r =>
    have same := hand rfl
    cases r with
    | error why =>
      have none : a.inHand = none := h
      exact same.trans none
    | ok reply =>
      cases reply with
      | bytes data =>
        obtain ⟨asked, holds⟩ := h
        exact ⟨asked, same.trans holds⟩
      | count n =>
        obtain ⟨asked, data, holds, rfl⟩ := h
        exact ⟨asked, data, same.trans holds, rfl⟩
      | _ => exact h
  | hangUp r => exact flag h
  | raiseFlag r =>
    intro on
    simp [MessageCall.madeOn?] at on
  | wasCancelled =>
    intro on
    simp [MessageCall.madeOn?] at on
  | start c =>
    intro on
    exact (hand on).trans (h on)
  | inPipe rule c =>
    intro on
    exact (hand on).trans (h on)

/-- A call that begins holds nothing. -/
theorem Account.stage_of_isEntry {a : Account} {c : MessageCall} (entry : c.isEntry = true)
    (idle : c.madeOn? = some .reader → a.inHand = none) : a.Stage c := by
  cases c with
  | settle | hangUp => simp [MessageCall.isEntry] at entry
  | _ => exact idle

namespace Machine

variable {ρ η : Type} {m m' : Machine ρ η} {k : Nat} {a : Account}

/-- The account of message `k` agrees with the message and with the calls on it. -/
structure Accounted (k : Nat) (a : Account) (m : Machine ρ η) : Prop where
  matched : ∀ msg, m.link.messages[k]? = some msg → a.Matches msg
  absent : m.link.messages[k]? = none → a = .empty
  stages : ∀ who c, (who, .stream k c) ∈ m.calls → a.Stage c
  idle : (∀ x ∈ m.calls, x.2.madeOn? ≠ some (k, .reader)) → a.inHand = none

theorem accounted_fresh (config : Config) (first : String) (second : Option String)
    (tokens signals k : Nat) :
    (fresh config first second tokens signals : Machine ρ η).Accounted k .empty where
  matched msg found := by simp [fresh, create, Link.create] at found
  absent _ := rfl
  stages who c here := absurd here List.not_mem_nil
  idle _ := rfl

/-- One more call, on which the account is agreed. -/
theorem Accounted.begins (h : m.Accounted k a) {who : Nat} {c : Call ρ η} (entry : c.isEntry = true)
    (free : ∀ e, c.madeOn? = some e → ∀ x ∈ m.calls, x.2.madeOn? ≠ some e) :
    (⟨m.link, m.calls ++ [(who, c)]⟩ : Machine ρ η).Accounted k a where
  matched := h.matched
  absent := h.absent
  stages who' c' here := by
    rcases List.mem_append.1 here with old | new
    · exact h.stages who' c' old
    · obtain ⟨rfl, rfl⟩ := Prod.mk.inj (List.mem_singleton.1 new)
      refine Account.stage_of_isEntry entry fun on => h.idle ?_
      exact free (k, .reader) (by simp [Call.madeOn?, on])
  idle nobody := h.idle fun x hx => nobody x (List.mem_append_left _ hx)

theorem Accounted.rouses (h : m.Accounted k a) (who : Nat) (c : Call ρ η) :
    (⟨m.link.rouse who c, m.calls⟩ : Machine ρ η).Accounted k a := by
  refine ⟨?_, ?_, h.stages, h.idle⟩
  · intro msg found
    rcases m.link.getElem?_rouse who c k with same | ⟨msg', old, new⟩
    · rw [same] at found
      exact h.matched msg found
    · rw [new] at found
      obtain rfl := Option.some.inj found
      exact (h.matched msg' old).of_same ⟨rfl, rfl, rfl⟩
  · intro none
    rcases m.link.getElem?_rouse who c k with same | ⟨msg', old, new⟩
    · rw [same] at none
      exact h.absent none
    · rw [new] at none
      exact absurd none (Option.some_ne_none _)

section Steps

variable {who pick : Nat} {c : Call ρ η} {rest calls : List (Nat × Call ρ η)}
  (now : m.calls.Perm ((who, c) :: rest))
  (next : calls.Perm ((m.link.step pick who c).2.next?.toList.map (who, ·) ++ rest))

include now next

/-- A call on something else. -/
theorem Accounted.step_other (h : m.Accounted k a) (other : ∀ c', c ≠ .stream k c') :
    (⟨(m.link.step pick who c).1, calls⟩ : Machine ρ η).Accounted k a := by
  have on : ∀ e, c.madeOn? ≠ some (k, e) := by
    intro e on
    cases c with
    | stream j c =>
      cases made : c.madeOn? with
      | none => simp [Call.madeOn?, made] at on
      | some e' =>
        have same : j = k := by
          simp only [Call.madeOn?, made, Option.map_some, Option.some.injEq] at on
          exact (Prod.mk.inj on).1
        exact other c (by rw [same])
    | _ => simp [Call.madeOn?] at on
  -- The message is as it was, or it is new and nothing has happened to it.
  refine ⟨?_, ?_, ?_, ?_⟩
  · intro msg found
    rcases Link.getElem?_step_other other with same | ⟨none, n, new⟩
    · rw [same] at found
      exact h.matched msg found
    · rw [new] at found
      obtain rfl := Option.some.inj found
      rw [h.absent none]
      exact Account.matches_create n
  · intro none
    rcases Link.getElem?_step_other other with same | ⟨-, n, new⟩
    · rw [same] at none
      exact h.absent none
    · rw [new] at none
      exact absurd none (Option.some_ne_none _)
  · intro who' c' here
    rcases List.mem_append.1 (next.mem_iff.1 here) with mine | others
    · obtain ⟨c'', hc, same⟩ := List.mem_map.1 mine
      obtain ⟨rfl, rfl⟩ := Prod.mk.inj same
      have follows := Link.follows_step (Option.mem_toList.1 hc)
      cases follows with
      | streams => exact absurd rfl (other _)
    · exact h.stages who' c' (now.mem_iff.2 (List.mem_cons_of_mem _ others))
  · intro nobody
    apply h.idle
    intro x hx
    rcases List.mem_cons.1 (now.mem_iff.1 hx) with rfl | others
    · exact on .reader
    · exact nobody x (next.mem_iff.2 (List.mem_append_right _ others))

/-- A call on a message that was never written is refused. -/
theorem Accounted.step_absent (h : m.Accounted k a) {c₀ : MessageCall} (on : c = .stream k c₀)
    (absent : m.link.messages[k]? = none) :
    (⟨(m.link.step pick who c).1, calls⟩ : Machine ρ η).Accounted k
      (a.afterAll ((m.link.events pick who c).filterMap (Event.stream? k))) := by
  subst on
  have refused : m.link.step pick who (.stream k c₀) = (m.link, .done (.error .pipeClosed)) := by
    simp [Link.step, absent]
  have quiet : m.link.events pick who (.stream k c₀) = [] := by
    simp [Link.events, absent]
  rw [refused] at next ⊢
  rw [quiet]
  refine ⟨h.matched, h.absent, ?_, ?_⟩
  · intro who' c' here
    exact h.stages who' c' (now.mem_iff.2 (List.mem_cons_of_mem _ (next.mem_iff.1 here)))
  · intro _
    have none := h.absent absent
    subst none
    rfl

/-- A call on the message goes on as its account says, and leaves the other end alone. -/
theorem Accounted.step_stream (h : m.Accounted k a) (orderly : m.Orderly) {c₀ : MessageCall}
    (on : c = .stream k c₀) {msg : Message} (found : m.link.messages[k]? = some msg) :
    (⟨(m.link.step pick who c).1, calls⟩ : Machine ρ η).Accounted k
      (a.afterAll ((m.link.events pick who c).filterMap (Event.stream? k))) := by
  subst on
  have here : (who, .stream k c₀) ∈ m.calls := now.mem_iff.2 List.mem_cons_self
  have before : (⟨m.link, (who, .stream k c₀) :: rest⟩ : Machine ρ η).Orderly :=
    orderly.of_perm now.symm _
  obtain ⟨-, -, free, staged⟩ := before.uncons
  have served := Message.served_step who (h.matched msg found) staged (h.stages who c₀ here)
  have events : (m.link.events pick who (.stream k c₀)).filterMap (Event.stream? k) =
      msg.events c₀ (msg.step who c₀).2 := by
    simp [Link.events, found, Event.stream?, List.filterMap_map, Function.comp_def]
  have message : (m.link.step pick who (.stream k c₀)).1.messages[k]? =
      some (msg.step who c₀).1 := by
    obtain ⟨inside, rfl⟩ := Array.getElem?_eq_some_iff.1 found
    rw [(Link.step_frame m.link pick who rfl).2.1]
    simp [inside]
  rw [Link.step_stream pick who k c₀ m.link found, Progress.next?_map] at next
  rw [events]
  -- A call on the read end is the only one there.
  have apart : ∀ x ∈ rest, x.2.madeOn? = some (k, .reader) → c₀.madeOn? ≠ some .reader := by
    intro x hx reader mine
    exact free (k, .reader) (by simp [Call.madeOn?, mine]) x hx reader
  refine ⟨?_, ?_, ?_, ?_⟩
  · intro msg' found'
    rw [message] at found'
    obtain rfl := Option.some.inj found'
    exact served.matched
  · intro none
    rw [message] at none
    exact absurd none (Option.some_ne_none _)
  · intro who' c' there
    rcases List.mem_append.1 (next.mem_iff.1 there) with mine | others
    · obtain ⟨c'', hc, same⟩ := List.mem_map.1 mine
      obtain ⟨c₁, later, rfl⟩ := Option.map_eq_some_iff.1 (Option.mem_toList.1 hc)
      obtain ⟨rfl, call⟩ := Prod.mk.inj same
      obtain rfl := (Call.stream.inj call).2
      exact served.stage c₁ later
    -- A call on the other end finds the hand of the reader and the flag as it left them.
    · have stage := h.stages who' c' (now.mem_iff.2 (List.mem_cons_of_mem _ others))
      refine stage.mono ?_ served.flag
      intro reader
      exact served.others (apart _ others (by simp [Call.madeOn?, reader]))
  · intro nobody
    by_cases reader : c₀.madeOn? = some .reader
    · cases later : (msg.step who c₀).2.next? with
      | none => exact served.done later reader
      | some c' =>
        have there : (who, .stream k c') ∈ calls := by
          refine next.mem_iff.2 (List.mem_append_left _ ?_)
          simp [later]
        have onward := (Message.next_step staged later).1
        exact absurd (by simp [Call.madeOn?, onward, reader]) (nobody _ there)
    · rw [served.others reader]
      apply h.idle
      intro x hx
      rcases List.mem_cons.1 (now.mem_iff.1 hx) with rfl | others
      · simp [Call.madeOn?, reader]
      · exact nobody x (next.mem_iff.2 (List.mem_append_right _ others))

end Steps

/-- Every move keeps the account of every message. -/
theorem Accounted.of_moves (h : m.Accounted k a) (orderly : m.Orderly) {mv : Move ρ η}
    {es : List (Event ρ η)} (hm : Moves m mv m' es) :
    m'.Accounted k (a.afterAll (es.filterMap (Event.stream? k))) := by
  cases hm with
  | stays => exact h
  | takes => exact ⟨h.matched, h.absent, h.stages, h.idle⟩
  | begins idle entry free => exact h.begins entry free
  | rouses now => exact h.rouses _ _
  | @steps who pick c rest calls now awake next =>
    by_cases on : ∃ c', c = .stream k c'
    · obtain ⟨c', on⟩ := on
      cases found : m.link.messages[k]? with
      | none => exact h.step_absent now next on found
      | some msg => exact h.step_stream now next orderly on found
    · have other : ∀ c', c ≠ .stream k c' := fun c' same => on ⟨c', same⟩
      rw [Link.stream_events_other other]
      exact h.step_other now next other

theorem accounted_run (config : Config) (first : String) (second : Option String)
    (tokens signals : Nat) (schedule : List (Move ρ η)) (k : Nat) :
    ((fresh config first second tokens signals).run schedule).Accounted k
      (Account.ofHistory k ((fresh config first second tokens signals).history schedule)) := by
  refine run_induction (P := fun h m => m.Accounted k (Account.ofHistory k h))
    (orderly_fresh config first second tokens signals) (accounted_fresh ..) ?_ schedule
  intro h m mv m' es orderly accounted one
  rw [Account.ofHistory_append]
  exact accounted.of_moves orderly one

end Machine

/-! ## The answer to a read -/

/-- A call that takes bytes out of a pipe. -/
def PipeCall.takes : PipeCall → Bool
  | .read _ | .skip _ => true
  | _ => false

/-- A read or a skip, at the stage it has reached. -/
def MessageCall.takes : MessageCall → Bool
  | .start c | .inPipe _ c => c.takes
  | .settle _ => true
  | _ => false

/-- The answer says that no byte was taken. -/
def Reply.isNothing : Reply → Bool
  | .bytes data => data.isEmpty
  | .count n => n == 0
  | _ => false

namespace Message

variable {a : Account} {m : Message}

/-- A read or a skip succeeds only when it has looked at the flag after the pipe. -/
theorem settled_of_takes {who : Nat} {c : MessageCall} {reply : Reply} (staged : c.Staged)
    (takes : c.takes = true) (answer : (m.step who c).2 = .done (.ok reply)) :
    c = .settle (.ok reply) ∧ m.cancelled = false := by
  cases c with
  | settle r =>
    simp only [step, Progress.done.injEq] at answer
    split at answer
    · simp at answer
    · next clear => exact ⟨by rw [answer], Bool.not_eq_true _ ▸ clear⟩
  | start c =>
    cases c with
    | read | skip =>
      simp only [step, PipeCall.flagRule] at answer
      split at answer <;> simp at answer
    | _ => simp [MessageCall.takes, PipeCall.takes] at takes
  | inPipe rule c =>
    have again : rule = .checksTwice := by
      cases c with
      | read | skip => exact rule_of_staged staged (by simp [PipeCall.madeOn, PipeEnd.letGo])
      | _ => simp [MessageCall.takes, PipeCall.takes] at takes
    subst again
    simp only [step, stepPipe] at answer
    split at answer <;> simp [MessageCall.afterPipe] at answer
  | _ => simp [MessageCall.takes] at takes

/-- A reader that is answered with nothing although it asked has read everything. -/
theorem all_read_of_nothing (h : a.Matches m) {reply : Reply}
    (stage : a.Stage (.settle (.ok reply))) (nothing : reply.isNothing = true)
    (clear : m.cancelled = false) :
    ∃ asked, a.inHand = some (asked, []) ∧
      (0 < asked → a.ended = true ∧ a.cancelled = false ∧ a.consumed = a.written) := by
  have empty : ∃ asked, a.inHand = some (asked, []) := by
    cases reply with
    | bytes data =>
      obtain ⟨asked, holds⟩ := stage
      obtain rfl : data = [] := List.isEmpty_iff.1 nothing
      exact ⟨asked, holds⟩
    | count n =>
      obtain ⟨asked, data, holds, rfl⟩ := stage
      obtain rfl : data = [] := List.length_eq_zero_iff.1 (eq_of_beq nothing)
      exact ⟨asked, holds⟩
    | _ => exact stage.elim
  obtain ⟨asked, holds⟩ := empty
  refine ⟨asked, holds, ?_⟩
  intro pos
  have flag : a.cancelled = false := h.flag.trans clear
  obtain ⟨shut, all⟩ := h.drained asked holds pos
  refine ⟨?_, flag, ?_⟩
  -- With the flag clear, only an ending can have closed the write end.
  · rcases h.stopped shut with ended | cancelled
    · exact ended
    · rw [flag] at cancelled
      exact Bool.noConfusion cancelled
  · have kept := h.kept flag
    rw [Account.hand, holds] at kept
    rw [← all, kept]
    exact (List.append_nil _).symm

end Message

namespace Machine

variable {ρ η : Type}

/-- The answer of a step is the answer of its call. -/
theorem answer_of_step {m : Machine ρ η} {who pick : Nat} {c : Call ρ η} {r : Result}
    (call : m.call? who = some c) (answer : (m.step who pick).2 = some r) :
    (m.link.step pick who c).2 = .done r := by
  simp only [step, call] at answer
  split at answer
  · simp at answer
  · split at answer
    · simp at answer
    · simp at answer
    · next done =>
      rw [done]
      exact congrArg _ (Option.some.inj answer)

/-- A call on a message succeeds as its step on the message does. -/
theorem answer_of_stream {l : Link ρ η} {pick who k : Nat} {c : MessageCall} {reply : Reply}
    (answer : (l.step pick who (.stream k c)).2 = .done (.ok reply)) :
    ∃ msg, l.messages[k]? = some msg ∧ (msg.step who c).2 = .done (.ok reply) := by
  cases found : l.messages[k]? with
  | none => simp [Link.step, found] at answer
  | some msg =>
    rw [Link.step_stream pick who k c l found] at answer
    refine ⟨msg, rfl, ?_⟩
    cases outcome : (msg.step who c).2 with
    | done r =>
      rw [outcome] at answer
      exact congrArg _ (Progress.done.inj answer)
    | _ =>
      rw [outcome] at answer
      simp [Progress.map] at answer

/-- The end of a stream is honest, along every schedule. What reads and skips of message `k` were
answered to have taken is a prefix of what its writes were answered to have taken; and a read or
skip that asked for bytes is answered with none only when the writer ended the message, nobody has
cancelled it, and all of it was read. -/
theorem end_of_stream_honest (config : Config) (first : String) (second : Option String)
    (tokens signals : Nat) (schedule : List (Move ρ η)) (k : Nat) :
    let m := (fresh config first second tokens signals : Machine ρ η)
    let a := Account.ofHistory k (m.history schedule)
    a.consumed <+: a.written ∧
      ∀ who pick c reply, (who, .stream k c) ∈ (m.run schedule).calls → c.takes = true →
        ((m.run schedule).step who pick).2 = some (.ok reply) → reply.isNothing = true →
        ∃ asked, a.inHand = some (asked, []) ∧
          (0 < asked → a.ended = true ∧ a.cancelled = false ∧ a.consumed = a.written) := by
  intro m a
  have accounted := accounted_run (ρ := ρ) (η := η) config first second tokens signals schedule k
  have orderly := orderly_run (orderly_fresh (ρ := ρ) (η := η) config first second tokens signals)
    schedule
  constructor
  · cases found : (m.run schedule).link.messages[k]? with
    | none =>
      have none : a = .empty := accounted.absent found
      rw [none]
      exact List.prefix_refl _
    | some msg => exact (accounted.matched msg found).consumed_le
  · intro who pick c reply here takes answer nothing
    have done := answer_of_step (call?_of_mem orderly here) answer
    obtain ⟨msg, found, told⟩ := answer_of_stream done
    obtain ⟨rfl, clear⟩ := Message.settled_of_takes (orderly.staged _ here) takes told
    have stage := accounted.stages who _ here
    exact Message.all_read_of_nothing (accounted.matched msg found) stage nothing clear

/-- Caller 0 writes a message of two bytes and closes it. Caller 1 reads both, then skips, and is
about to look at the flag again. -/
def readingOn : List (Move Nat Nat) :=
  [.begin 0 (.write .a none false), .step 0 0,
    .begin 0 (.stream 0 (.start (.write [1, 2]))), .step 0 0,
    .begin 0 (.stream 0 (.start .closeWriter)), .step 0 0,
    .begin 1 (.stream 0 (.start (.read 5))), .step 1 0, .step 1 0, .step 1 0,
    .begin 1 (.stream 0 (.start (.skip 5))), .step 1 0, .step 1 0]

/-- The skip that ends `readingOn` is answered with none, and both bytes were read. -/
theorem all_read_after_readingOn :
    ∃ (m : Machine Nat Nat) (a : Account), m = fresh ⟨1, 4⟩ "pair" none 0 0 ∧
      a = Account.ofHistory 0 (m.history readingOn) ∧
      ((m.run readingOn).step 1 0).2 = some (.ok (.count 0)) ∧
      a.ended = true ∧ a.cancelled = false ∧ a.consumed = a.written ∧ a.consumed = [1, 2] := by
  refine ⟨_, _, rfl, rfl, ?_⟩
  have answer : (((fresh ⟨1, 4⟩ "pair" none 0 0 : Machine Nat Nat).run readingOn).step 1 0).2 =
      some (.ok (.count 0)) := by decide +kernel
  have read : (Account.ofHistory 0
      ((fresh ⟨1, 4⟩ "pair" none 0 0 : Machine Nat Nat).history readingOn)).consumed = [1, 2] := by
    decide +kernel
  have drew : (Account.ofHistory 0
      ((fresh ⟨1, 4⟩ "pair" none 0 0 : Machine Nat Nat).history readingOn)).inHand =
        some (5, []) := by decide +kernel
  obtain ⟨asked, hand, complete⟩ := (end_of_stream_honest ⟨1, 4⟩ "pair" none 0 0 readingOn 0).2
    1 0 (.settle (.ok (.count 0))) (.count 0) List.mem_cons_self rfl answer rfl
  have pos : 0 < asked := by
    rw [drew] at hand
    have same := (Prod.mk.inj (Option.some.inj hand)).1
    omega
  obtain ⟨ended, clear, all⟩ := complete pos
  exact ⟨answer, ended, clear, all, read⟩

end Machine

end Loopback

import Loopback.Proofs.Conveyance
import Loopback.Proofs.Upkeep

/-!
# The handlers of a sink, step by step

A handler of a sink drains its message, registers the sink again with a new tally, and lets go of
the message; the last one tells the tally. Each of these parts is a state of the script together
with the call that the handler is in: `Draining`, `Asking`, `Leaving` and `Ending`. The lemmas say
what one step of the call comes to. While a message is drained the count of the script is the number
of bytes that reads of the message were answered with, and when it ends, the message was read out.
-/

namespace Loopback

namespace Replay

/-- What happened on a pair. -/
abbrev History := List (Loopback.Event Receiver CloseHandler)

variable {settled mine : List Nat} {t : Tally} {call : Option (Call Receiver CloseHandler)}
  {c c' : Call Receiver CloseHandler} {s : Script Outcome} {k pick who : Nat}
  {l : Link Receiver CloseHandler} {m : Machine Receiver CloseHandler} {h : History}

/-- The caller is about to begin the call `c`, or has begun it and taken no step of it. -/
def Begins (c : Call Receiver CloseHandler) (call : Option (Call Receiver CloseHandler)) : Prop :=
  call = none ∨ call = some c

/-! ## Letting go -/

/-- A handler that has registered the sink again hands over what that came to, lets go of its
message and returns. -/
inductive Leaving (settled : List Nat) :
    Option (Call Receiver CloseHandler) → Script Outcome → Prop where
  | gone (o : Outcome) : Leaving settled none (.done o)
  | letsGo {k : Nat} {call : Option (Call Receiver CloseHandler)} {K : Result → Script Outcome}
      (handled : k ∈ settled) (now : Begins (.stream k (.letGo .reader)) call)
      (ended : ∀ r, ∃ o, K r = .done o) :
      Leaving settled call (.call (.stream k (.letGo .reader)) K)
  | submits {tasks : List (Task Receiver CloseHandler)} {c : Call Receiver CloseHandler}
      {K : Result → Script Outcome} (onward : Leaving settled none (K (.ok .unit))) :
      Leaving settled (some (.submit tasks (.ok .unit))) (.call c K)

theorem Leaving.mono {settled' : List Nat} (h : Leaving settled call s)
    (more : settled ⊆ settled') : Leaving settled' call s := by
  induction h with
  | gone o => exact .gone o
  | letsGo handled now ended => exact .letsGo (more handled) now ended
  | submits onward ih => exact .submits ih

theorem Leaving.begins (h : Leaving settled none s) (next : s.call? = some c) :
    Leaving settled (some c) s := by
  cases h with
  | gone o => cases next
  | letsGo handled now ended =>
    cases next
    exact .letsGo handled (.inr rfl) ended

/-- Letting go of the read end of a message is over at once. -/
theorem step_letGo (l : Link Receiver CloseHandler) (pick who k : Nat) :
    ∃ r, (l.step pick who (.stream k (.letGo .reader))).2 = .done r := by
  cases found : l.messages[k]? with
  | none => exact ⟨.error .pipeClosed, by simp only [Link.step, found]⟩
  | some msg =>
    rw [Link.step_stream pick who k _ l found]
    exact ⟨_, rfl⟩

theorem Leaving.goes_on (h : Leaving settled (some c) s)
    (onward : (l.step pick who c).2.next? = some c') : Leaving settled (some c') s := by
  cases h with
  | letsGo handled now ended =>
    obtain rfl := Option.some.inj (now.resolve_left (Option.some_ne_none c))
    obtain ⟨r, outcome⟩ := step_letGo l pick who _
    rw [outcome] at onward
    cases onward
  | @submits tasks c K after =>
    rcases tasks with _ | ⟨t, _ | ⟨t', tasks⟩⟩
    · cases onward
    · cases onward
    · cases onward
      exact .submits after

theorem Leaving.ends (h : Leaving settled (some c) s) {r : Result}
    (ended : (l.step pick who c).2 = .done r) : Leaving settled none (s.resume r) := by
  cases h with
  | letsGo handled now after =>
    obtain ⟨o, last⟩ := after r
    rw [Script.resume, last]
    exact .gone o
  | @submits tasks c K after =>
    rcases tasks with _ | ⟨t, _ | ⟨t', tasks⟩⟩
    · cases ended
      exact after
    · cases ended
      exact after
    · cases ended

/-- A handler that lets go still does after a step. -/
theorem Leaving.took (h : Leaving settled (m.call? who) s)
    {step : Machine Receiver CloseHandler × Option Result} {es : History}
    (took : m.Took who pick step es) :
    Leaving settled (step.1.call? who) (step.2.elim s s.resume) := by
  cases took with
  | nothing => exact h
  | goesOn call _ onward _ call' =>
    rw [call] at h
    rw [call']
    exact h.goes_on onward
  | ends call _ ended _ gone =>
    rw [call] at h
    rw [gone]
    exact h.ends ended

/-- With nobody registered a registration succeeds, and hands over whatever waited for it. -/
theorem step_receive {r : Receiver} (nobody : (l.endpoint .b).pending = none) :
    (l.step pick who (.receive .b r)).2 = .done (.ok .unit) ∨
      ∃ tasks, (l.step pick who (.receive .b r)).2 = .more (.submit tasks (.ok .unit)) := by
  simp only [Link.step, Link.stepReceive]
  cases answer : ((l.endpoint .b).register pick r).2 with
  | refused =>
    obtain ⟨r', waits⟩ := (Endpoint.register_refused_iff pick _ _).1 answer
    rw [nobody] at waits
    cases waits
  | waits => exact .inl rfl
  | given d => exact .inr ⟨_, rfl⟩

/-- A handler that has registered the sink goes on to let go of its message. -/
theorem Leaving.of_receive {r : Receiver} {K : Result → Script Outcome}
    (call : m.call? who = some (.receive .b r)) (nobody : (m.link.endpoint .b).pending = none)
    (onward : Leaving settled none (K (.ok .unit)))
    {step : Machine Receiver CloseHandler × Option Result} {es : History}
    (took : m.Took who pick step es) :
    Leaving settled (step.1.call? who) (step.2.elim (.call c K) (Script.call c K).resume) := by
  have outcome : (m.link.step pick who (.receive .b r)).2 = .done (.ok .unit) ∨ _ :=
    step_receive nobody
  cases took with
  | nothing stuck => cases stuck _ call
  | goesOn call' _ more _ now =>
    obtain rfl := Option.some.inj (call.symm.trans call')
    rcases outcome with done | ⟨tasks, submits⟩
    · rw [done] at more
      cases more
    · rw [submits] at more
      cases more
      rw [now]
      exact .submits onward
  | ends call' _ ended _ gone =>
    obtain rfl := Option.some.inj (call.symm.trans call')
    rcases outcome with done | ⟨tasks, submits⟩
    · rw [done] at ended
      cases ended
      rw [gone]
      exact onward
    · rw [submits] at ended
      cases ended

/-- Whoever leaves works on no message that is not handled yet. -/
theorem Leaving.apart (h : Leaving settled (some c) s) :
    (∀ r, c ≠ .receive .b r) ∧ c ≠ .closeEndpoint .b ∧
      ∀ k c', c = .stream k c' → c' = .letGo .reader ∧ k ∈ settled := by
  cases h with
  | letsGo handled now ended =>
    obtain rfl := Option.some.inj (now.resolve_left (Option.some_ne_none c))
    refine ⟨nofun, nofun, ?_⟩
    rintro k c' ⟨⟩
    exact ⟨rfl, handled⟩
  | submits => exact ⟨nofun, nofun, nofun⟩

theorem Leaving.gentle (h : Leaving settled (some c) s) : c.Gentle mine settled := by
  obtain ⟨-, closes, streams⟩ := h.apart
  refine ⟨closes, ?_, ?_⟩
  · intro k _ r same
    cases (streams k _ same).1
  · intro k _ unsettled c' same
    exact absurd (streams k _ same).2 unsettled

/-! ## Registering again -/

/-- A handler that has read out its message reports that, then registers the sink with the tally
`t`. -/
inductive Asking (settled : List Nat) (t : Tally) :
    Option (Call Receiver CloseHandler) → Script Outcome → Prop where
  | reports {line : Line} {call : Option (Call Receiver CloseHandler)}
      {K : Result → Script Outcome} (now : Begins (.report line) call)
      (onward : ∀ r, Asking settled t none (K r)) : Asking settled t call (.call (.report line) K)
  | asks {call : Option (Call Receiver CloseHandler)} {K : Result → Script Outcome}
      (now : Begins (.receive .b (.sink 0 t)) call)
      (onward : Leaving settled none (K (.ok .unit))) :
      Asking settled t call (.call (.receive .b (.sink 0 t)) K)

theorem Asking.begins (h : Asking settled t none s) (next : s.call? = some c) :
    Asking settled t (some c) s := by
  cases h with
  | reports now onward =>
    cases next
    exact .reports (.inr rfl) onward
  | asks now onward =>
    cases next
    exact .asks (.inr rfl) onward

theorem asking_reportAll {script : Unit → Script Outcome} (last : Asking settled t none (script ()))
    (lines : List Line) : Asking settled t none ((reportAll lines).bind script) := by
  induction lines with
  | nil => exact last
  | cons line lines ih => exact .reports (.inl rfl) fun r => ih

/-- The call of a handler that asks is a report, or the registration. -/
theorem Asking.call_cases (h : Asking settled t (some c) s) :
    (∃ line, c = .report line ∧ ∀ r, Asking settled t none (s.resume r)) ∨
      (c = .receive .b (.sink 0 t) ∧
        ∃ K, s = .call c K ∧ Leaving settled none (K (.ok .unit))) := by
  cases h with
  | reports now onward =>
    obtain rfl := Option.some.inj (now.resolve_left (Option.some_ne_none c))
    exact .inl ⟨_, rfl, onward⟩
  | asks now onward =>
    obtain rfl := Option.some.inj (now.resolve_left (Option.some_ne_none c))
    exact .inr ⟨rfl, _, rfl, onward⟩

/-! ## Telling the tally -/

/-- A handler that was told the end reports that, then tells the tally `t`. -/
inductive Ending (t : Tally) : Option (Call Receiver CloseHandler) → Script Outcome → Prop where
  | reports {line : Line} {call : Option (Call Receiver CloseHandler)}
      {K : Result → Script Outcome} (now : Begins (.report line) call)
      (onward : ∀ r, Ending t none (K r)) : Ending t call (.call (.report line) K)
  | tells {K : Nat → Script Outcome} (ended : ∀ i, ∃ o, K i = .done o) :
      Ending t none (.note (.tally 0 t) K)

theorem Ending.begins (h : Ending t none s) (next : s.call? = some c) : Ending t (some c) s := by
  cases h with
  | reports now onward =>
    cases next
    exact .reports (.inr rfl) onward
  | tells ended => cases next

theorem Ending.call_cases (h : Ending t (some c) s) :
    ∃ line, c = .report line ∧ ∀ r, Ending t none (s.resume r) := by
  cases h with
  | reports now onward =>
    obtain rfl := Option.some.inj (now.resolve_left (Option.some_ne_none c))
    exact ⟨_, rfl, onward⟩

theorem ending_sinkFinish (t : Tally) : Ending t none (sinkFinish 0 t) :=
  .reports (.inl rfl) fun _ => .tells fun _ => ⟨_, rfl⟩

/-! ## Draining a message -/

/-- Where a handler is with a read of message `k`. -/
inductive Reads (k : Nat) (a : Account) : Option (Call Receiver CloseHandler) → Prop where
  | idle : Reads k a none
  | starts : Reads k a (some (.stream k (.start (.read Sink.chunk))))
  | inPipe : Reads k a (some (.stream k (.inPipe .checksTwice (.read Sink.chunk))))
  | settles {data : Bytes} (hand : a.inHand = some (Sink.chunk, data)) :
      Reads k a (some (.stream k (.settle (.ok (.bytes data)))))

/-- A handler drains message `k`. It has counted what its reads were answered with, and when it is
through it goes on with its tally, which was `t` before. -/
inductive Draining (settled : List Nat) (t : Tally) (k : Nat) (a : Account)
    (m : Machine Receiver CloseHandler) :
    Option (Call Receiver CloseHandler) → Script Outcome → Prop where
  | reads {call : Option (Call Receiver CloseHandler)} {count : Nat}
      {K : StreamAnswer → Script Outcome} (counted : count = a.consumed.length)
      (now : Reads k a call)
      (onward : ∀ n failure,
        Asking (settled ++ [k]) (t.absorb n) none (K (.drained n failure))) :
      Draining settled t k a m call (.transfer k (.drain Sink.chunk count) K)
  | through {count : Nat} {failure : Option IoFailure} {K : StreamAnswer → Script Outcome}
      (counted : count = a.consumed.length) (out : m.ReadOut k a)
      (onward : ∀ n failure,
        Asking (settled ++ [k]) (t.absorb n) none (K (.drained n failure))) :
      Draining settled t k a m none (.transfer k (.finished (.drained count failure)) K)

theorem Draining.begins {a : Account} (h : Draining settled t k a m none s)
    (next : s.call? = some c) : Draining settled t k a m (some c) s := by
  cases h with
  | reads counted now onward =>
    cases next
    exact .reads counted .starts onward
  | through counted out onward => cases next

theorem draining_sinkMessage {a : Account} (none : a.consumed = []) :
    Draining settled t k a m .none (sinkMessage 0 t .b k) := by
  show Draining settled t k a m .none (.transfer k (.drain Sink.chunk 0) _)
  refine .reads (by rw [none]; rfl) .idle ?_
  intro n failure
  refine asking_reportAll (.asks (.inl rfl) (.letsGo ?_ (.inl rfl) fun _ => ⟨_, rfl⟩)) _
  exact List.mem_append_right _ (List.mem_singleton_self k)

section Message

variable {a : Account} {msg : Message} (matched : a.Matches msg)
  (opened : msg.pipe.readerClosed = false)

include matched opened

/-- In the pipe a read falls asleep, or goes on with what it took. -/
theorem step_inPipe_read (who : Nat) :
    (msg.step who (.inPipe .checksTwice (.read Sink.chunk))).2 =
        .asleep (.inPipe .checksTwice (.read Sink.chunk)) ∨
      ∃ data, (msg.step who (.inPipe .checksTwice (.read Sink.chunk))).2 =
        .more (.settle (.ok (.bytes data))) := by
  have some : Sink.chunk ≠ 0 := by decide
  simp only [Message.step, Message.stepPipe]
  have outcome : (msg.pipe.step who (.read Sink.chunk)).2 = .asleep (.read Sink.chunk) ∨ _ :=
    Pipe.read_goes_on matched.valid some opened
  rcases outcome with asleep | ⟨data, -, done⟩ | ⟨-, -, done⟩
  · exact .inl (by rw [asleep])
  · exact .inr ⟨data, by rw [done]; rfl⟩
  · exact .inr ⟨[], by rw [done]; rfl⟩

/-- A read that goes on has not been answered. -/
theorem Reads.goes_on {c c' : MessageCall} (now : Reads k a (some (.stream k c)))
    (onward : (msg.step who c).2.next? = some c') :
    (a.afterAll (msg.events c (msg.step who c).2)).consumed = a.consumed ∧
      Reads k (a.afterAll (msg.events c (msg.step who c).2)) (some (.stream k c')) := by
  cases now with
  | starts =>
    obtain ⟨-, quiet, next⟩ := Message.step_start_reader msg who (c := .read Sink.chunk) rfl
    rw [quiet, next c' onward]
    exact ⟨rfl, .inPipe⟩
  | inPipe =>
    rcases step_inPipe_read matched opened who with asleep | ⟨data, more⟩
    · rw [asleep] at onward ⊢
      cases onward
      exact ⟨rfl, .inPipe⟩
    · rw [more] at onward ⊢
      cases onward
      exact ⟨rfl, .settles rfl⟩
  | settles => cases onward

/-- A read that is answered brought bytes, or found the message read out or cancelled. -/
theorem Reads.ends {c : MessageCall} (now : Reads k a (some (.stream k c))) {r : Result}
    (ended : (msg.step who c).2 = .done r) :
    (∃ data, data ≠ [] ∧ r = .ok (.bytes data) ∧
        (a.afterAll (msg.events c (msg.step who c).2)).consumed = a.consumed ++ data) ∨
      ((r = .ok (.bytes []) ∨ r = .error .cancelled) ∧
        (a.afterAll (msg.events c (msg.step who c).2)).consumed = a.consumed ∧
        ((a.afterAll (msg.events c (msg.step who c).2)).cancelled = true ∨
          ((a.afterAll (msg.events c (msg.step who c).2)).consumed =
              (a.afterAll (msg.events c (msg.step who c).2)).written ∧
            (msg.step who c).1.pipe.writerClosed = true))) := by
  cases now with
  | starts =>
    -- The flag was looked at before the pipe, and it was set.
    obtain ⟨-, quiet, -⟩ := Message.step_start_reader msg who (c := .read Sink.chunk) rfl
    rw [quiet]
    rw [Message.step_gated rfl] at ended
    cases flag : msg.cancelled with
    | true =>
      simp only [flag, if_true, Progress.done.injEq] at ended
      exact .inr ⟨.inr ended.symm, rfl, .inl (matched.flag.trans flag)⟩
    | false => simp [flag] at ended
  | inPipe =>
    rcases step_inPipe_read matched opened who with asleep | ⟨data, more⟩
    · rw [asleep] at ended
      cases ended
    · rw [more] at ended
      cases ended
  | @settles data hand =>
    cases flag : msg.cancelled with
    | true =>
      have answer : (msg.step who (.settle (.ok (.bytes data)))).2 = .done (.error .cancelled) := by
        simp [Message.step, flag]
      rw [answer] at ended ⊢
      cases ended
      exact .inr ⟨.inr rfl, List.append_nil _, .inl (matched.flag.trans flag)⟩
    | false =>
      have answer : (msg.step who (.settle (.ok (.bytes data)))).2 = .done (.ok (.bytes data)) := by
        simp [Message.step, flag]
      rw [answer] at ended ⊢
      cases ended
      by_cases empty : data = []
      · subst empty
        have pos : 0 < Sink.chunk := by decide
        obtain ⟨shut, all⟩ := matched.drained _ hand pos
        have kept := matched.kept (matched.flag.trans flag)
        rw [Account.hand, hand, all] at kept
        have read : a.written = a.consumed := kept.trans (List.append_nil _)
        refine .inr ⟨.inl rfl, List.append_nil _, .inr ⟨?_, shut⟩⟩
        exact (List.append_nil _).trans read.symm
      · exact .inl ⟨data, empty, rfl, rfl⟩

theorem Draining.goes_on {m' : Machine Receiver CloseHandler} {c c' : MessageCall}
    (h : Draining settled t k a m (some (.stream k c)) s)
    (onward : (msg.step who c).2.next? = some c') :
    Draining settled t k (a.afterAll (msg.events c (msg.step who c).2)) m'
      (some (.stream k c')) s := by
  cases h with
  | reads counted now after =>
    obtain ⟨same, now'⟩ := now.goes_on matched opened onward
    exact .reads (by rw [same, counted]) now' after

/-- The answer to a read is counted, or ends the draining with the message read out. -/
theorem Draining.ends {m' : Machine Receiver CloseHandler} {c : MessageCall}
    (h : Draining settled t k a m (some (.stream k c)) s) {r : Result}
    (ended : (msg.step who c).2 = .done r)
    (found' : m'.link.messages[k]? = some (msg.step who c).1) :
    Draining settled t k (a.afterAll (msg.events c (msg.step who c).2)) m' none (s.resume r) := by
  cases h with
  | @reads _ count K counted now after =>
    rcases now.ends matched opened ended with ⟨data, some, rfl, read⟩ | ⟨answer, same, out⟩
    · have fed : Transfer.feed (.ok (.bytes data)) (.drain Sink.chunk count) =
          .drain Sink.chunk (count + data.length) := by
        cases data with
        | nil => exact absurd rfl some
        | cons b data => rfl
      rw [Script.resume, fed]
      exact .reads (by rw [read, List.length_append, counted]) .idle after
    · have fed : ∃ failure,
          Transfer.feed r (.drain Sink.chunk count) = .finished (.drained count failure) := by
        rcases answer with rfl | rfl
        · exact ⟨_, rfl⟩
        · exact ⟨_, rfl⟩
      obtain ⟨failure, fed⟩ := fed
      rw [Script.resume, fed]
      refine .through (by rw [same, counted]) ?_ after
      rcases out with cancelled | ⟨all, shut⟩
      · exact .inl cancelled
      · exact .inr ⟨all, _, found', shut⟩

end Message

/-- The call of a handler that drains is a read of its message. -/
theorem Draining.call_eq {a : Account} (h : Draining settled t k a m (some c) s) :
    ∃ c₀, c = .stream k c₀ ∧ c₀.pipeCall? ≠ some .closeReader := by
  cases h with
  | reads counted now =>
    cases now with
    | starts | inPipe | settles => exact ⟨_, rfl, by simp [MessageCall.pipeCall?]⟩

/-- A handler that drains still does after a step. -/
theorem Draining.took {a : Account} {msg : Message} (h : Draining settled t k a m (m.call? who) s)
    (found : m.link.messages[k]? = some msg) (matched : a.Matches msg)
    (opened : msg.pipe.readerClosed = false)
    {step : Machine Receiver CloseHandler × Option Result} {es : History}
    (took : m.Took who pick step es) :
    Draining settled t k (a.afterAll (es.filterMap (Event.stream? k))) step.1 (step.1.call? who)
      (step.2.elim s s.resume) := by
  cases took with
  | nothing => exact h
  | goesOn call _ onward _ call' =>
    rw [call] at h
    obtain ⟨c₀, rfl, -⟩ := h.call_eq
    rw [Link.step_stream pick who k c₀ _ found, Progress.next?_map] at onward
    obtain ⟨c₁, more, rfl⟩ := Option.map_eq_some_iff.1 onward
    rw [call', Link.stream_events found]
    exact h.goes_on matched opened more
  | ends call _ ended link gone =>
    rw [call] at h
    obtain ⟨c₀, rfl, -⟩ := h.call_eq
    rw [Link.step_stream pick who k c₀ _ found] at ended
    rw [gone, Link.stream_events found]
    refine h.ends matched opened ?_ (by rw [link]; exact Link.messages_step_stream found)
    cases outcome : (msg.step who c₀).2 with
    | done r =>
      rw [outcome] at ended
      cases ended
      rfl
    | more | asleep =>
      rw [outcome] at ended
      cases ended

end Replay

end Loopback

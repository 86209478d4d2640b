import Loopback.Proofs.SinkTicks

/-!
# A sink accounts for everything

Once writes to the side of a sink were shut down and every message there was ended, a run only comes
to rest with the tally told (`OnDuty.told_of_still`): a handler that registers the sink or tells the
tally can always go on, one that drains a message is not asleep once the write end is closed, and a
receiver that waits would have been told the end. So every message was handled, and of each one that
was not cancelled all that was written was read.
-/

namespace Loopback.Replay

open Machine (readCount)

variable {settled mine : List Nat} {k : Nat} {h : History} {duty : Duty} {others : Nat}
  {holder : Option Nat} {reports : List (Nat × Tally)} {r : Replay} {c : Caller}

/-! ## At rest -/

theorem asleep_of_still (still : r.isStill = true) {who : Nat} {c : Call Receiver CloseHandler}
    (here : (who, c) ∈ r.machine.calls) : r.machine.link.isAsleep who c = true := by
  simp only [isStill, Bool.and_eq_true] at still
  exact List.all_eq_true.1 still.1.2 _ here

theorem tasks_of_still (still : r.isStill = true) : r.machine.link.tasks = [] := by
  simp only [isStill, Bool.and_eq_true] at still
  exact List.isEmpty_iff.1 still.1.1

/-- Whoever follows a script sleeps in a call of it. -/
theorem call_of_still (still : r.isStill = true) (hc : c ∈ r.callers) :
    ∃ call, r.machine.call? c.id = some call := by
  simp only [isStill, Bool.and_eq_true] at still
  have stuck := List.all_eq_true.1 still.2 c hc
  simp only [canGoOn, Machine.isIdle, Bool.not_eq_true', Bool.or_eq_false_iff] at stuck
  exact Option.isSome_iff_exists.1 (Option.isNone_eq_false_iff.1 stuck.1)

/-- Nothing is on its way to the executor. -/
theorem underway_of_still (still : r.isStill = true) (s : Side) : r.machine.underway s = [] := by
  have carries : r.machine.calls.flatMap (fun x => x.2.carried) = [] := by
    rw [List.flatMap_eq_nil_iff]
    rintro ⟨who, c⟩ here
    have asleep := asleep_of_still still here
    cases c with
    | submit => cases asleep
    | _ => rfl
  rw [Machine.underway, tasks_of_still still, carries]
  rfl

namespace OnDuty

/-- A run that is at rest after the end of everything has told the tally. -/
theorem told_of_still (on : OnDuty others mine settled duty holder h reports r)
    (still : r.isStill = true) (closed : (r.machine.link.endpoint .b).closed = true)
    (ended : ∀ k ∈ (Ledger.ofHistory .b h).delivered,
      (r.machine.link.messages[k]?).any (·.pipe.writerClosed) = true) : duty = .told := by
  -- The handler that is at it sleeps in a call.
  have atIt (held : duty.isHeld = true) : ∃ x call s, r.machine.call? x = some call ∧
      r.machine.link.isAsleep x call = true ∧ duty.Fits settled h r.machine (some call) s := by
    obtain ⟨c, hc, same⟩ := on.held held
    obtain ⟨call, now⟩ := call_of_still still hc
    have asleep := asleep_of_still still ((Machine.call?_eq_some_iff on.orderly).1 now)
    have fits := (on.posts c hc).1 same
    rw [now] at fits
    exact ⟨c.id, call, c.script, now, asleep, fits⟩
  cases duty with
  | told => rfl
  | asks =>
    obtain ⟨x, call, s, -, asleep, fits⟩ := atIt rfl
    rcases Asking.call_cases fits with ⟨line, rfl, -⟩ | ⟨rfl, -⟩
    · cases asleep
    · cases asleep
  | ends =>
    obtain ⟨x, call, s, -, asleep, fits⟩ := atIt rfl
    obtain ⟨line, rfl, -⟩ := Ending.call_cases fits
    cases asleep
  | drains k =>
    obtain ⟨x, call, s, -, asleep, fits⟩ := atIt rfl
    obtain ⟨c₀, rfl, -⟩ := Draining.call_eq fits
    have stopped := ended k on.counted.drained_mem.1
    obtain ⟨msg, found, shut⟩ := (Option.any_eq_true _ _).1 stopped
    have broken : msg.pipe.isBroken = true := by rw [Pipe.isBroken, shut, Bool.true_or]
    rw [(on.counted.recorded.tethered k).awake_of_broken found broken] at asleep
    cases asleep
  | waits =>
    have one := on.counted.outstanding_eq
    rw [underway_of_still still] at one
    have waiting : (r.machine.link.endpoint .b).pending = some (.sink 0 (tallyOf settled h)) := by
      cases pending : (r.machine.link.endpoint .b).pending with
      | none =>
        rw [pending] at one
        cases one
      | some r' =>
        rw [pending] at one
        exact congrArg some (List.cons.inj one).1
    exact absurd ⟨closed, waiting⟩ (on.counted.served.behind _)

end OnDuty

/-! ## The account -/

/-- The tally `t` accounts for the messages `delivered` and their bytes: each of them counts once,
with all that was accepted of it or, if it was cancelled, with no more than what was accepted before
that. -/
structure AccountsFor (t : Tally) (delivered : List Nat) (h : History) : Prop where
  messages : t.messages = delivered.length
  bytes : t.bytes = (delivered.map (readCount · h)).sum
  whole : ∀ k ∈ delivered, (Account.ofHistory k h).cancelled = false →
    readCount k h = (Account.ofHistory k h).written.length
  cut : ∀ k ∈ delivered, (Account.ofHistory k h).cancelled = true →
    readCount k h ≤ (Account.acceptedFirst (h.filterMap (Event.stream? k))).length

/-- A sink that has told its tally has read out every message. -/
theorem Counted.accountsFor {m : Machine Receiver CloseHandler}
    (counted : Counted settled .told h m) :
    AccountsFor (tallyOf settled h) (Ledger.ofHistory .b h).delivered h := by
  rw [counted.all_handled]
  refine ⟨rfl, rfl, ?_, ?_⟩
  · intro k hk whole
    rcases counted.served.readOut k hk with cancelled | ⟨all, -⟩
    · rw [whole] at cancelled
      cases cancelled
    · rw [readCount, all]
  · intro k hk cancelled
    have flag := cancelled
    rw [Account.ofHistory, Account.cancelled_afterAll] at flag
    obtain ⟨same, msg, found, -⟩ := counted.recorded.sealed k flag
    have matched := (counted.recorded.accounted k).matched msg found
    calc readCount k h ≤ (Account.ofHistory k h).written.length := matched.consumed_le.length_le
      _ = (Account.acceptedFirst (h.filterMap (Event.stream? k))).length := congrArg _ same

/-- Whatever callers, handlers and the executor do on a pair whose side `b` has a sink, and nothing
else, to receive: once writes to that side were shut down, all messages were ended and nobody can go
on, the sink has told one tally, and the tally accounts for all that was delivered. -/
theorem sink_accounts_for_everything (config : Config) (first : String) (second : Option String)
    (tokens signals others : Nat) (ts : List Tick) :
    let start := withSink config first second tokens signals others
    let delivered := (Ledger.ofHistory .b (start.past ts)).delivered
    let r := start.ticks ts
    ts.all (Tick.leaves others delivered) = true →
    (r.link.endpoint .b).closed = true →
    (∀ k ∈ delivered, (r.link.messages[k]?).any (·.pipe.writerClosed) = true) →
    r.isStill = true →
    ∃ t, start.reports ts = [(0, t)] ∧ r.sinks[0]? = some (.reported t) ∧
      AccountsFor t delivered (start.past ts) := by
  intro start delivered r left closed ended still
  obtain ⟨settled, duty, holder, on⟩ := onDuty_ticks config first second tokens signals others
    delivered ts left (List.Subset.refl _)
  obtain rfl := on.told_of_still still closed ended
  exact ⟨_, on.told, on.booked, on.counted.accountsFor⟩

/-- So many steps of one caller. -/
def steps (who n : Nat) : List Tick := List.replicate n (.step who 0)

/-- Two writers send three and two bytes, the second one cancels its message, the first one ends its
own and shuts writes down; the executor runs the sink for each of them and for the end. -/
def servingTwo : List Tick :=
  steps 2 2 ++
  [.begin 0 (.write .a none false), .step 0 0, .step 0 0,
   .begin 0 (.stream 0 (.start (.write [1, 2, 3]))), .step 0 0,
   .begin 1 (.write .a none false), .step 1 0,
   .begin 1 (.stream 1 (.start (.write [4, 5]))), .step 1 0,
   .begin 1 (.stream 1 .cancel), .step 1 0, .step 1 0,
   .begin 0 (.stream 0 (.start .closeWriter)), .step 0 0,
   .begin 0 (.shutDown .a), .step 0 0] ++
  .start 0 :: steps 3 11 ++ .start 0 :: steps 4 7 ++ .start 0 :: steps 5 3

theorem accounted_after_servingTwo :
    let start := withSink ⟨1, 4⟩ "pair" none 0 0 2
    let delivered := (Ledger.ofHistory .b (start.past servingTwo)).delivered
    servingTwo.all (Tick.leaves 2 delivered) = true ∧
    ((start.ticks servingTwo).link.endpoint .b).closed = true ∧
    (start.ticks servingTwo).isStill = true ∧ delivered = [0, 1] ∧
    start.reports servingTwo = [(0, ⟨2, 3⟩)] ∧
    AccountsFor ⟨2, 3⟩ delivered (start.past servingTwo) := by
  intro start delivered
  have left : servingTwo.all (Tick.leaves 2 delivered) = true := by decide +kernel
  have closed : ((start.ticks servingTwo).link.endpoint .b).closed = true := by decide +kernel
  have ended : ∀ k ∈ delivered,
      ((start.ticks servingTwo).link.messages[k]?).any (·.pipe.writerClosed) = true := by
    decide +kernel
  have still : (start.ticks servingTwo).isStill = true := by decide +kernel
  have both : delivered = [0, 1] := by decide +kernel
  have told : start.reports servingTwo = [(0, ⟨2, 3⟩)] := by decide +kernel
  obtain ⟨t, reports, -, accounts⟩ := sink_accounts_for_everything ⟨1, 4⟩ "pair" none 0 0 2
    servingTwo left closed ended still
  obtain ⟨rfl⟩ : t = ⟨2, 3⟩ := by
    have same := reports.symm.trans told
    simpa using same
  exact ⟨left, closed, still, both, told, accounts⟩

end Loopback.Replay

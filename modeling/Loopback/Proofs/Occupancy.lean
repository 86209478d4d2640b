import Loopback.Proofs.Pairing
import Loopback.Proofs.Wakeups

/-!
# What a mailbox holds

A mailbox is touched in two ways only: a writer that found the endpoint open and room in the mailbox
queues its message behind the others, and a receiver takes the message in front. `Endpoint.Shift`
lists the two, and `Machine.Shifts` says who does them along a schedule. So a mailbox never holds
more than it has room for, and after the endpoint was closed it only loses messages from its front
(`Machine.mailbox_within_bounds`).
-/

namespace Loopback

namespace Endpoint

variable {ρ μ : Type} {pick : Nat} {m : μ} {e e' : Endpoint ρ μ}

/-- What one hold of the lock does to the mailbox: nothing, one message is queued, or the message in
front is taken by a receiver. -/
inductive Shift (e : Endpoint ρ μ) (hold : Hold ρ) (e' : Endpoint ρ μ) : Prop where
  | stays (same : e'.mailbox = e.mailbox)
  | queues (x : μ) (writes : hold.isAttempt = true) (opened : e.closed = false)
      (room : e.mailbox.isFull = false) (more : e'.mailbox = e.mailbox.push x)
  | takes (x : μ) (r : ρ) (receives : hold = .register r)
      (capacity : e'.mailbox.capacity = e.mailbox.capacity)
      (front : e.mailbox.queue = x :: e'.mailbox.queue)

theorem Attempt.shift {w : Writer} {interrupted : Bool} {entry : Entry ρ} {hold : Hold ρ}
    (writes : hold.isAttempt = true) (h : Attempt pick w interrupted m e e' entry) :
    e.Shift hold e' := by
  cases h with
  | closed | handed | interrupted | sleeps => exact .stays rfl
  | queued opened room order => exact .queues m writes opened room rfl

theorem Registering.shift {r : ρ} {answer : Registration ρ μ}
    (h : Registering pick r e e' answer) : e.Shift (.register r) e' := by
  cases h with
  | refused | finish | waits => exact .stays rfl
  | @message x rest nobody front => exact .takes x r rfl rfl front

theorem Stopping.mailbox {d? : Option (Dispatch ρ μ)} (h : Stopping e e' d?) :
    e'.mailbox = e.mailbox := by
  cases h <;> rfl

/-- Nothing else is ever done to a mailbox. -/
theorem shift_after (pick : Nat) (m : μ) (e : Endpoint ρ μ) (hold : Hold ρ) :
    e.Shift hold (e.after pick m hold) := by
  cases hold with
  | enter w interrupted => exact (attempt_enter pick w interrupted m e).shift rfl
  | resume w interrupted =>
    cases interrupted with
    | true => exact .stays rfl
    | false =>
      -- A woken writer starts over, at an endpoint that only lost a sleeper.
      have again : Shift { e with writers := e.writers.leave w } (.resume w false) _ :=
        (attempt_enter pick w false m _).shift rfl
      cases again with
      | stays same => exact .stays same
      | queues x writes opened room more => exact .queues x rfl opened room more
      | takes x r receives capacity front => exact absurd receives (by simp)
  | register r => exact (registering_register pick r e).shift
  | shutDown => exact .stays (stopping_shutDown e).mailbox
  | closeOff | wakeWriters | rouse => exact .stays rfl

theorem Shift.capacity {hold : Hold ρ} (h : e.Shift hold e') :
    e'.mailbox.capacity = e.mailbox.capacity := by
  cases h with
  | stays same => rw [same]
  | queues x writes opened room more => rw [more, Mailbox.capacity_push]
  | takes x r receives capacity front => exact capacity

/-- A closed endpoint takes no further message. -/
theorem Shift.suffix {hold : Hold ρ} (h : e.Shift hold e') (shut : e.closed = true) :
    e'.mailbox.queue <:+ e.mailbox.queue := by
  cases h with
  | stays same => exact same ▸ List.suffix_refl e.mailbox.queue
  | queues x writes opened room more =>
    rw [shut] at opened
    exact Bool.noConfusion opened
  | takes x r receives capacity front =>
    rw [front]
    exact List.suffix_cons x _

/-- An endpoint that is closed stays closed. -/
theorem closed_after (pick : Nat) (m : μ) {e : Endpoint ρ μ} (shut : e.closed = true)
    (hold : Hold ρ) : (e.after pick m hold).closed = true := by
  cases hold with
  | enter w interrupted => simp [after, enter, shut]
  | resume w interrupted => cases interrupted <;> simp [after, resume, enter, notifyOne, shut]
  | register r =>
    have registering := registering_register pick r e
    rw [after]
    generalize e.register pick r = turn at registering
    obtain ⟨e', answer⟩ := turn
    cases registering <;> exact shut
  | shutDown => simp [after, shutDown, shut]
  | closeOff => rfl
  | wakeWriters | rouse => exact shut

end Endpoint

namespace Machine

variable {ρ η : Type} {m m' : Machine ρ η}

/-- What one move does to the mailbox of `s`: nothing, a caller that writes towards `s` queues one
message at an open endpoint with room, or a caller that receives on `s` takes the message in
front. -/
inductive Shifts (s : Side) (m : Machine ρ η) (mv : Move ρ η) (m' : Machine ρ η) : Prop where
  | stays (same : (m'.link.endpoint s).mailbox = (m.link.endpoint s).mailbox)
  | queues (who pick : Nat) (source : Side) (token : Option Nat) (woken : Bool) (x : Nat)
      (step : mv = .step who pick) (call : m.call? who = some (.write source token woken))
      (towards : source.other = s) (opened : (m.link.endpoint s).closed = false)
      (room : (m.link.endpoint s).mailbox.isFull = false)
      (more : (m'.link.endpoint s).mailbox = (m.link.endpoint s).mailbox.push x)
  | takes (who pick : Nat) (r : ρ) (x : Nat) (step : mv = .step who pick)
      (call : m.call? who = some (.receive s r))
      (front : (m.link.endpoint s).mailbox.queue = x :: (m'.link.endpoint s).mailbox.queue)

/-- Only a call that writes makes an attempt at an endpoint, and it is the one of the other side. -/
theorem eq_write_of_hold? {l : Link ρ η} {who : Nat} {c : Call ρ η} {s : Side} {hold : Hold ρ}
    (held : c.hold? l who = some (s, hold)) (writes : hold.isAttempt = true) :
    ∃ source token woken, c = .write source token woken ∧ source.other = s := by
  have writes := (Call.isAttempt_of_hold? held).symm.trans writes
  cases c with
  | write source token woken =>
    refine ⟨source, token, woken, rfl, ?_⟩
    cases woken <;> cases held <;> rfl
  | _ => simp [Call.isWrite] at writes

/-- Only a call that receives registers, and it does so on its own side. -/
theorem eq_receive_of_hold? {l : Link ρ η} {who : Nat} {c : Call ρ η} {s : Side} {r : ρ}
    (held : c.hold? l who = some (s, .register r)) : c = .receive s r := by
  cases c with
  | write source token woken => cases woken <;> simp [Call.hold?] at held
  | interruptWake places => cases places <;> simp [Call.hold?] at held
  | receive side r' =>
    cases held
    rfl
  | _ => simp [Call.hold?] at held

theorem Moves.shifts (orderly : m.Orderly) {mv : Move ρ η} {es : List (Event ρ η)}
    (one : Moves m mv m' es) (s : Side) : Shifts s m mv m' := by
  rcases one.held s with same | ⟨i, roused⟩ | ⟨who, pick, c, hold, rfl, here, held, after⟩
  · exact .stays (by rw [same])
  · exact .stays (by rw [roused]; rfl)
  · have call := call?_of_mem orderly here
    cases Endpoint.shift_after pick m.link.messages.size (m.link.endpoint s) hold with
    | stays same => exact .stays (by rw [after, same])
    | queues x writes opened room more =>
      obtain ⟨source, token, woken, rfl, towards⟩ := eq_write_of_hold? held writes
      exact .queues who pick source token woken x rfl call towards opened room (by rw [after, more])
    | takes x r receives capacity front =>
      subst receives
      obtain rfl := eq_receive_of_hold? held
      exact .takes who pick r x rfl call (by rw [after, front])

/-- The mailbox keeps the capacity it was built with. -/
theorem capacity_run (config : Config) (first : String) (second : Option String)
    (tokens signals : Nat) (schedule : List (Move ρ η)) (s : Side) :
    (((fresh config first second tokens signals).run schedule).link.endpoint s).mailbox.capacity =
      max config.queueLength 1 := by
  refine run_induction
    (P := fun _ m => (m.link.endpoint s).mailbox.capacity = max config.queueLength 1)
    (orderly_fresh config first second tokens signals) ?_ ?_ schedule
  · rw [endpoint_fresh]
    rfl
  · intro h m mv m' es orderly capacity one
    rcases one.endpoint s with same | ⟨pick, n, hold, after⟩
    · rw [same]
      exact capacity
    · rw [after, (Endpoint.shift_after pick n _ hold).capacity]
      exact capacity

/-- Once an endpoint is closed it stays closed, and its mailbox only loses messages in front. -/
theorem suffix_run (orderly : m.Orderly) {s : Side} (shut : (m.link.endpoint s).closed = true)
    (later : List (Move ρ η)) :
    ((m.run later).link.endpoint s).closed = true ∧
      ((m.run later).link.endpoint s).mailbox.queue <:+ (m.link.endpoint s).mailbox.queue := by
  refine run_induction
    (P := fun _ m' => (m'.link.endpoint s).closed = true ∧
      (m'.link.endpoint s).mailbox.queue <:+ (m.link.endpoint s).mailbox.queue)
    orderly ⟨shut, List.suffix_refl _⟩ ?_ later
  intro h m₁ mv m₂ es _ held one
  obtain ⟨closed, shorter⟩ := held
  rcases one.endpoint s with same | ⟨pick, n, hold, after⟩
  · rw [same]
    exact ⟨closed, shorter⟩
  · rw [after]
    constructor
    · exact Endpoint.closed_after pick n closed hold
    · have step := (Endpoint.shift_after pick n (m₁.link.endpoint s) hold).suffix closed
      exact step.trans shorter

/-- What a mailbox holds, along every schedule on a pair of any sizes. It holds at most the messages
it was built for, and at least room for one; a receiver waits only while it is empty; a message is
queued only by a write that finds the endpoint open and room for it, and leaves only from the front,
by a registration. After the endpoint was closed it stays closed, and whatever happens later the
mailbox holds a suffix of what it held then. -/
theorem mailbox_within_bounds (config : Config) (first : String) (second : Option String)
    (tokens signals : Nat) (schedule : List (Move ρ η)) (s : Side) :
    let m := (fresh config first second tokens signals : Machine ρ η).run schedule
    let e := m.link.endpoint s
    e.mailbox.size ≤ max config.queueLength 1 ∧
      (e.pending.isSome = true → e.mailbox.queue = []) ∧
      (∀ mv, Shifts s m mv (m.move mv)) ∧
      (e.closed = true → ∀ later,
        ((m.run later).link.endpoint s).closed = true ∧
          ((m.run later).link.endpoint s).mailbox.queue <:+ e.mailbox.queue) := by
  intro m e
  have orderly : m.Orderly :=
    orderly_run (orderly_fresh config first second tokens signals) schedule
  have reached : m.Reachable := ⟨config, first, second, tokens, signals, schedule, rfl⟩
  refine ⟨?_, ?_, ?_, ?_⟩
  · rw [← capacity_run config first second tokens signals schedule s]
    exact (reached.covered s).fits
  · intro waits
    obtain ⟨r, waits⟩ := Option.isSome_iff_exists.1 waits
    obtain ⟨ended, paired⟩ := paired_run config first second tokens signals schedule s
    exact paired.empty_of_pending waits
  · intro mv
    exact (moves orderly mv).shifts orderly s
  · intro shut later
    exact suffix_run orderly shut later

/-- Queue length zero counts as one: caller 0 fills the mailbox of `b` and caller 1 sleeps. A
receiver waits on `a`, and `a` shuts its writes down. -/
def filling : List (Move Nat Nat) :=
  [.begin 0 (.write .a none false), .step 0 0,
    .begin 1 (.write .a none false), .step 1 0,
    .begin 2 (.receive .a 7), .step 2 0,
    .begin 3 (.shutDown .a), .step 3 0]

/-- After `filling` the mailbox of `a` is empty beside its receiver, and that of `b`, which is full
and closed, loses its message to a receiver that comes later. -/
theorem within_bounds_after_filling :
    let m := (fresh ⟨0, 1⟩ "pair" none 0 0 : Machine Nat Nat).run filling
    let m' := m.run [.begin 4 (.receive .b 8), .step 4 0]
    (m.link.endpoint .b).mailbox.size ≤ 1 ∧ (m.link.endpoint .b).mailbox.queue = [0] ∧
      (m.link.endpoint .a).pending = some 7 ∧ (m.link.endpoint .a).mailbox.queue = [] ∧
      (m'.link.endpoint .b).closed = true ∧ (m'.link.endpoint .b).mailbox.queue <:+ [0] := by
  obtain ⟨fits, -, -, later⟩ := mailbox_within_bounds (ρ := Nat) (η := Nat) ⟨0, 1⟩ "pair" none 0 0
    filling .b
  obtain ⟨-, empty, -, -⟩ := mailbox_within_bounds (ρ := Nat) (η := Nat) ⟨0, 1⟩ "pair" none 0 0
    filling .a
  obtain ⟨closed, rest⟩ := later rfl [.begin 4 (.receive .b 8), .step 4 0]
  exact ⟨fits, rfl, rfl, empty rfl, closed, rest⟩

end Machine

end Loopback

import Loopback.Replay.Action

/-!
# Runs on a bare pipe

The two ends of one pipe, each used by one call at a time. After each request both ends go on until
their calls have returned or sleep; a call that has not returned by then answers `blocked`, and its
return is told as an event of the request during which it returned.
-/

namespace Loopback

/-- The name of an end. -/
def PipeEnd.name : PipeEnd → String
  | .writer => "w"
  | .reader => "r"

namespace Replay

/-- The end that an operation is made on. -/
def StreamOp.madeOn : StreamOp → PipeEnd
  | .plain c => c.madeOn
  | .io c => c.madeOn
  | .transfer (.writeAll _) => .writer
  | .transfer _ => .reader
  | .cancel => .writer
  | .wasCancelled => .reader
  | .letGo e => e

/-- A request in progress. -/
inductive PipeJob where
  /-- One call, whose result is told by `tell`. -/
  | single (c : PipeCall) (tell : Result → Outcome)
  /-- A transfer, and the call of it that is in progress. -/
  | transfer (t : Transfer) (c : Option PipeCall)

/-- The request of an operation; a bare pipe has no cancel flag. -/
def PipeJob.ofOp : StreamOp → Option PipeJob
  | .plain c => some (.single c .ofResult)
  | .io c => some (.single c .ofIoResult)
  | .transfer t => some (.transfer t none)
  | .letGo e => some (.single e.letGo fun _ => .dropped)
  | _ => none

/-- A pipe and what is going on at its ends. -/
structure PipeRun where
  pipe : Pipe
  writing : Option PipeJob
  reading : Option PipeJob
  writerGone : Bool
  readerGone : Bool

namespace PipeRun

/-- A fresh pipe. -/
def create (capacity : Nat) : PipeRun := ⟨Pipe.create capacity, none, none, false, false⟩

/-- The request in progress at an end. -/
def job (r : PipeRun) : PipeEnd → Option PipeJob
  | .writer => r.writing
  | .reader => r.reading

/-- Replaces the request at an end. -/
def setJob (e : PipeEnd) (j : Option PipeJob) (r : PipeRun) : PipeRun :=
  match e with
  | .writer => { r with writing := j }
  | .reader => { r with reading := j }

/-- An end was let go of. -/
def isGone (r : PipeRun) : PipeEnd → Bool
  | .writer => r.writerGone
  | .reader => r.readerGone

/-- An end is let go of. -/
def setGone (e : PipeEnd) (r : PipeRun) : PipeRun :=
  match e with
  | .writer => { r with writerGone := true }
  | .reader => { r with readerGone := true }

/-- One step at an end; answers the outcome of a request that is over. -/
def stepEnd (e : PipeEnd) (r : PipeRun) : PipeRun × Option Outcome :=
  match r.job e with
  | none => (r, none)
  | some (.single c tell) =>
      let (pipe, progress) := r.pipe.step e.caller c
      let r := { r with pipe }
      match progress with
      | .more c => (r.setJob e (some (.single c tell)), none)
      | .asleep c => (r.setJob e (some (.single c tell)), none)
      | .done result => (r.setJob e none, some (tell result))
  | some (.transfer t none) =>
      match t.next with
      | .inr answer => (r.setJob e none, some (.stream answer))
      | .inl c => (r.setJob e (some (.transfer t (some c))), none)
  | some (.transfer t (some c)) =>
      let (pipe, progress) := r.pipe.step e.caller c
      let r := { r with pipe }
      match progress with
      | .more c => (r.setJob e (some (.transfer t (some c))), none)
      | .asleep c => (r.setJob e (some (.transfer t (some c))), none)
      | .done result => (r.setJob e (some (.transfer (t.feed result) none)), none)

/-- The request at an end can go on. -/
def canGoOn (e : PipeEnd) (r : PipeRun) : Bool :=
  (r.job e).isSome && !r.pipe.isAsleep e.caller

/-- Steps the end `e` while it can go on, else the other end, until neither can, for at most `fuel`
steps. Answers the outcomes of the requests that are over, in order. -/
def settleWithin : Nat → PipeEnd → PipeRun → List (PipeEnd × Outcome) →
    PipeRun × List (PipeEnd × Outcome)
  | 0, _, r, told => (r, told.reverse)
  | fuel + 1, e, r, told =>
      let e := if r.canGoOn e then e else e.other
      if r.canGoOn e then
        let (r, outcome) := r.stepEnd e
        settleWithin fuel e r (outcome.toList.map (e, ·) ++ told)
      else (r, told.reverse)

/-- Carries out an operation; answers its outcome and what else returned meanwhile. -/
def perform (op : StreamOp) (r : PipeRun) : PipeRun × Outcome × List Event :=
  let e := op.madeOn
  match r.job e, PipeJob.ofOp op with
  | some _, _ => (r, .busy, [])
  | none, none => (r, .missing, [])
  | none, some j =>
      if r.isGone e then (r, .gone, [])
      else
        let r :=
          match op with
          | .letGo e => r.setGone e
          | _ => r
        let (r, told) := settleWithin (1 <<< 62) e (r.setJob e (some j)) []
        let outcome := (told.lookup e).getD .blocked
        let late := told.filter (·.1 != e)
        (r, outcome, late.map fun (e, outcome) => .stream e.name outcome)

end PipeRun

end Replay

end Loopback

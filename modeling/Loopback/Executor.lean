/-!
# Executors

An executor runs tasks away from the thread that hands them over. One kind starts a thread of its
own for each task and numbers them; the other uses a shared pool, whose threads have no name of
their own.
-/

namespace Loopback

/-- Where tasks run. -/
inductive Executor where
  /-- A new thread per task; so many were started before. -/
  | threads (spawned : Nat)
  /-- A shared pool of threads. -/
  | pool
  deriving DecidableEq, Repr

namespace Executor

/-- Starts one task: the executor afterwards and the name of the thread that runs the task. -/
def start : Executor → Executor × Option String
  | .threads n => (.threads (n + 1), some s!"xchannel-task-{n}")
  | .pool => (.pool, none)

end Executor

end Loopback

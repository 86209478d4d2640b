import Loopback.Condition

/-!
# Signals

A signal is raised once and stays raised. Callers wait for it; it stands for a result that is
promised now and arrives later.
-/

namespace Loopback

/-- A signal and who waits for it. -/
structure Signal where
  raised : Bool
  waiting : Condition Nat

namespace Signal

/-- A signal that was not raised. -/
def create : Signal := ⟨false, Condition.empty⟩

/-- Raises the signal and wakes who waits for it. -/
def raise (s : Signal) : Signal := ⟨true, s.waiting.notifyAll⟩

/-- The caller `who` waits for the signal; answers whether it was raised. -/
def wait (who : Nat) (s : Signal) : Signal × Bool :=
  let s := { s with waiting := s.waiting.leave who }
  if s.raised then (s, true) else ({ s with waiting := s.waiting.sleep who }, false)

end Signal

end Loopback

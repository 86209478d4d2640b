import Loopback.Text.Quoted

/-!
# Connections

A pair belongs to a named connection. Its context counts the notifications that a remote side has
closed.
-/

namespace Loopback

/-- The connection that owns a pair. -/
structure Connection where
  name : String
  deriving DecidableEq, Repr

/-- Diagnostic text. -/
def Connection.describe (c : Connection) : String :=
  "LocalConnection \x7b name: " ++ Text.quoted c.name ++ " \x7d"

/-- A connection together with its count of remote-close notifications. -/
structure Context where
  connection : Connection
  remoteClosed : Nat
  deriving DecidableEq, Repr

namespace Context

/-- A context that was never notified. -/
def ofName (name : String) : Context := ⟨⟨name⟩, 0⟩

/-- One more remote side has closed. -/
def notify (c : Context) : Context := { c with remoteClosed := c.remoteClosed + 1 }

/-- Diagnostic text. -/
def describe (c : Context) : String :=
  s!"LocalConnectionContext \x7b connection: {c.connection.describe}, " ++
    s!"remote_closed: {c.remoteClosed} \x7d"

end Context

end Loopback

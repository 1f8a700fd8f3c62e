/-!
# Counters

A phase counts the messages that were acknowledged and those that were given up, the connections
that were opened, and the attempts to repair one. The counts of two phases are added field by
field.

The counts are words of sixty-four bits in use, and begin again from zero at `wideLimit`. Here they have
no limit, so what is said of them holds of counts below it.

## Main definitions

* `LoadRig.Counters` — the four counts.
* `LoadRig.Counters.attempted` — messages that reached an end.
-/

namespace LoadRig

/-- What has happened so far. -/
structure Counters where
  succeeded : Nat := 0
  failed : Nat := 0
  connections : Nat := 0
  reconnections : Nat := 0
deriving DecidableEq, Repr, Inhabited

namespace Counters

/-- Nothing has happened. -/
def zero : Counters := {}

/-- One more message was acknowledged. This count, as the other three, is the one in use as long as it is
below `wideLimit`. -/
def addSuccess (c : Counters) : Counters := { c with succeeded := c.succeeded + 1 }

/-- One more message was given up. -/
def addFailure (c : Counters) : Counters := { c with failed := c.failed + 1 }

/-- One more connection was opened. -/
def addConnection (c : Counters) : Counters := { c with connections := c.connections + 1 }

/-- One more repair was begun. -/
def addReconnection (c : Counters) : Counters := { c with reconnections := c.reconnections + 1 }

/-- Messages that were acknowledged or given up. -/
def attempted (c : Counters) : Nat := c.succeeded + c.failed

/-- The sum of two counts in every field, as long as it is below `wideLimit`. -/
def add (a b : Counters) : Counters :=
  { succeeded := a.succeeded + b.succeeded
    failed := a.failed + b.failed
    connections := a.connections + b.connections
    reconnections := a.reconnections + b.reconnections }

instance : Add Counters := ⟨add⟩

end Counters

end LoadRig

/-!
# What a connection knows of the tables

A connection reads what the tables are when a statement first needs it, and may be kept from it.
What it reads after such a failure is *tentative*: the next work of the connection that ends well
makes it firm, and the next that is undone undoes it too, so that it has to be read again.

For a statement that only computes, it is enough that the tables were read once.
-/

namespace RecordStore.Simulation

/-- Whether a connection knows what the tables are. -/
structure Knowledge where
  isRead : Bool := false
  /-- Whether it ever knew. -/
  wasRead : Bool := isRead
  /-- Whether an attempt to read failed, and no work of the connection has ended since. -/
  isTentative : Bool := false
  deriving DecidableEq, Inhabited

namespace Knowledge

/-- An attempt to read failed. -/
def kept (k : Knowledge) : Knowledge := { k with isTentative := true }

/-- An attempt to read succeeded. -/
def read (k : Knowledge) : Knowledge := { k with isRead := true, wasRead := true }

/-- Work of the connection ended well. -/
def settle (k : Knowledge) : Knowledge := { k with isTentative := false }

/-- Work of the connection was undone. -/
def undo (k : Knowledge) : Knowledge :=
  if k.isTentative then { isRead := false, wasRead := k.wasRead } else k

end Knowledge

end RecordStore.Simulation

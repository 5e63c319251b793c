import RecordStore.Error

/-!
# Identifiers

Names of tables and columns are the only parts of a statement that are assembled from strings, and
each passes one guard first: it is not empty and consists of ASCII letters, digits and underscores.
The guard looks at the whole name, a line break at its end included.
-/

namespace RecordStore

namespace Identifier

/-- ASCII letters, digits and the underscore. -/
def isPlain (c : Char) : Bool := c.isAlphanum || c = '_'

/-- Whether a name may stand in a statement. -/
def isValid (name : String) : Bool := !name.toList.isEmpty && name.toList.all isPlain

/-- The name itself, if it may stand in a statement. -/
def check (name : String) : Except StoreError String :=
  if isValid name then .ok name else .error (.invalidIdentifier name)

theorem check_eq_ok_iff {name name' : String} :
    check name = .ok name' ↔ isValid name = true ∧ name' = name := by
  unfold check
  split
  next h => simp only [Except.ok.injEq, h, true_and]; exact eq_comm
  next h => simp [h]

end Identifier

end RecordStore

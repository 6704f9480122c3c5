/-
  FusedQuery/Key.lean
  ===================
  **Lookup keys.**

  A key stands for a value of plain data in a table.  Keys are told apart by kind and content
  (the number 1 is not the text "1"), except that the two zeros share one key, and all NaNs
  another.  References have no key.
-/
import FusedQuery.Value.Display
import FusedQuery.Number.OfInt

namespace FusedQuery

/-- What a table looks elements up by. -/
inductive Key where
  | undefined
  | null
  | bool (b : Bool)
  | number (n : Number)
  | text (s : String)
deriving DecidableEq, Repr

namespace Key

def ofNumber (n : Number) : Key := .number n.folded

def ofInt (i : Int) : Key := ofNumber (Number.ofInt i)

def ofText (s : String) : Key := .text s

def ofBool (b : Bool) : Key := .bool b

/-- The key of a value; references have none. -/
def ofValue? : Value → Option Key
  | .undefined => some .undefined
  | .null => some .null
  | .bool b => some (.bool b)
  | .number n => some (ofNumber n)
  | .text s => some (.text s)
  | .list .. | .record .. | .func _ => none

def toValue : Key → Value
  | .undefined => .undefined
  | .null => .null
  | .bool b => .bool b
  | .number n => .number n
  | .text s => .text s

def display (k : Key) : String := k.toValue.display

end Key

end FusedQuery

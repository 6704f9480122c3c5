/-
  FusedQuery/Record.lean
  ======================
  **Records: named fields in the order of their first insertion.**

  A record carries an optional class name and its fields.  Writing a name that is already there
  replaces its content where it stands; writing a new one adds it at the end.  A record grown
  this way from an empty one names no field twice.
-/

namespace FusedQuery

/-- Named contents in insertion order, with an optional class name.  No class is not the same
    as a class with an empty name. -/
structure Record (α : Type) where
  class? : Option String := none
  fields : List (String × α) := []
deriving DecidableEq, Repr

namespace Record

variable {α : Type}

def empty : Record α := {}

def ofClass (name : String) : Record α := { class? := some name }

/-- Write one field into a list of fields: in place if the name is there, else at the end. -/
def put (name : String) (content : α) : List (String × α) → List (String × α)
  | [] => [(name, content)]
  | field :: rest =>
    if field.1 = name then (name, content) :: rest else field :: put name content rest

def insert (r : Record α) (name : String) (content : α) : Record α :=
  { r with fields := put name content r.fields }

/-- The content of the first field of that name in a list of fields. -/
def find? (name : String) : List (String × α) → Option α
  | [] => none
  | field :: rest => if field.1 = name then some field.2 else find? name rest

def get? (r : Record α) (name : String) : Option α := find? name r.fields

def size (r : Record α) : Nat := r.fields.length

def isEmpty (r : Record α) : Bool := r.fields.isEmpty

def names (r : Record α) : List String := r.fields.map Prod.fst

/-! ### Writing, seen through reading -/

theorem find?_put (name other : String) (content : α) (fields : List (String × α)) :
    find? other (put name content fields) =
      if name = other then some content else find? other fields := by
  induction fields with
  | nil => simp [put, find?]
  | cons field rest ih =>
    by_cases h : field.1 = name
    · by_cases hn : name = other <;> simp [put, find?, h, hn]
    · rw [put, if_neg h, find?, find?, ih]
      by_cases hn : name = other
      · have hf : ¬ field.1 = other := fun e => h (e.trans hn.symm)
        simp [hn, hf]
      · simp [hn]

theorem get?_insert (r : Record α) (name other : String) (content : α) :
    (r.insert name content).get? other = if name = other then some content else r.get? other :=
  find?_put name other content r.fields

end Record

end FusedQuery

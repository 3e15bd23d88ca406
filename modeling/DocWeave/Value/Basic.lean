/-
The document value that every input format is read into and every output is
written from.  Objects keep their members in insertion order, which the output
shows.
-/
import DocWeave.Entries
import DocWeave.Value.Number

namespace DocWeave

/-- A document, or a part of one. -/
inductive Value where
  | null
  | bool (b : Bool)
  | number (n : Number)
  | string (s : String)
  | array (items : List Value)
  | object (members : List (String × Value))

instance : Inhabited Value := ⟨.null⟩

inductive Kind where
  | null
  | boolean
  | number
  | string
  | array
  | object
deriving Repr, DecidableEq

def Kind.name : Kind → String
  | null => "null"
  | boolean => "boolean"
  | number => "number"
  | string => "string"
  | array => "array"
  | object => "object"

namespace Value

def kind : Value → Kind
  | null => .null
  | bool _ => .boolean
  | number _ => .number
  | string _ => .string
  | array _ => .array
  | object _ => .object

/-- Objects and arrays hold other values. -/
def isContainer (v : Value) : Bool :=
  v.kind = .object || v.kind = .array

def asString? : Value → Option String
  | string s => some s
  | _ => none

def members? : Value → Option (Entries Value)
  | object members => some members
  | _ => none

def items? : Value → Option (List Value)
  | array items => some items
  | _ => none

def get? (key : String) (v : Value) : Option Value :=
  v.members?.bind (Entries.find? key)

/-- A whole number as a value; counts stop at the greatest whole number. -/
def ofCount (n : Nat) : Value :=
  .number (.integer (if (n : Int) ≤ Int64.maxValue.toInt then Int64.ofNat n else Int64.maxValue))

end Value

end DocWeave

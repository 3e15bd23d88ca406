/-
Structural equality of documents.  The order of an object's keys does not count,
a whole number never equals a double, and the two zeros are equal.
-/
import DocWeave.Value.Basic

namespace DocWeave.Value

variable (eq : Number → Number → Bool)

mutual

/-- Whether two documents are equal but for their numbers, of which `eq` tells. -/
def sameBy : Value → Value → Bool
  | .null, .null => true
  | .bool a, .bool b => a == b
  | .number m, .number n => eq m n
  | .string s, .string t => s == t
  | .array xs, .array ys => sameItems xs ys
  | .object m, .object n => m.length == n.length && sameMembers m n
  | _, _ => false

def sameItems : List Value → List Value → Bool
  | [], [] => true
  | x :: xs, y :: ys => sameBy x y && sameItems xs ys
  | _, _ => false

def sameMembers : List (String × Value) → Entries Value → Bool
  | [], _ => true
  | (key, value) :: rest, others =>
      (match Entries.find? key others with
        | some other => sameBy value other
        | none => false)
      && sameMembers rest others

end

def same : Value → Value → Bool :=
  sameBy Number.same

end DocWeave.Value

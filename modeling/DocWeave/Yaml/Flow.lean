/-
Lists and objects between brackets.
-/
import DocWeave.Yaml.Fold

namespace DocWeave.Yaml

open Spot (After From)

abbrev ValueReader := (s : Spot) → Option (Value × After s)

def optionalValue (value : ValueReader) (s : Spot) : Option (Value × From s) :=
  let ⟨t, h⟩ := s.word true
  match t.text.head? with
  | some ',' | some ']' | some '\x7d' => some (.null, ⟨t, h⟩)
  | _ => (value t).map fun r => (r.1, (r.2.within h).toFrom)

def startsBracket (s : Spot) : Bool :=
  s.text.head? = some '[' || s.text.head? = some '\x7b'

/-- A key between brackets and what follows its colon; without a colon, the scalar
alone. -/
def keyAndValue (value : ValueReader) (s : Spot) :
    Option ((Scalar × Option Value) × After s) := do
  let (key, ⟨t, h⟩) ← scalar true 0 s
  match colonAfter? true s t with
  | none => return ((key, none), ⟨t, h⟩)
  | some ⟨u, h'⟩ =>
      let (content, final) ← optionalValue value u
      return ((key, some content), (final.behind h').within (Spot.size_le_of_lt h))

/-- An item of a list between brackets.  A key with a value is an object of its own. -/
def flowItem (value : ValueReader) (s : Spot) : Option (Value × After s) := do
  if startsBracket s then value s
  else
    let ((key, content), rest) ← keyAndValue value s
    match content with
    | some content => return (.object [(String.ofList key.text, content)], rest)
    | none => return (← key.value?, rest)

/-- A member of an object between brackets.  A key alone has no value. -/
def flowMember (value : ValueReader) (s : Spot) : Option ((String × Value) × After s) := do
  let ((key, content), rest) ← keyAndValue value s
  return ((String.ofList key.text, content.getD .null), rest)

/-- A part between brackets with the comma behind it, or the closing bracket, perhaps
with a part in front of it. -/
def flowPart {α : Type} (close : Char) (part : (s : Spot) → Option (α × After s)) (s : Spot) :
    Option (Piece α (Option α) × After s) := do
  let ⟨t, h⟩ := s.word true
  if t.text.head? = some close then
    let (_, u) ← t.next false
    return (.last none, u.within h)
  let (found, ⟨u, h₁⟩) ← part t
  have hlt := Spot.size_lt_of_lt_of_le h₁ h
  let ⟨v, h₂⟩ := u.word true
  have hlt := Spot.size_lt_of_le_of_lt h₂ hlt
  let (c, ⟨w, h₃⟩) ← v.next false
  have hlt := Spot.size_lt_trans h₃ hlt
  if c = ',' then return (.more found, ⟨w, hlt⟩)
  else if c = close then return (.last (some found), ⟨w, hlt⟩)
  else none

/-- The parts between brackets, up to and including the closing one.  A comma may
follow the last. -/
def flowParts {α : Type} (close : Char) (part : (s : Spot) → Option (α × After s))
    (s : Spot) : Option (List α × After s) :=
  (readToLast Spot.size (flowPart close part) s).map fun r => (r.1.1 ++ r.1.2.toList, r.2)

/-- A list or an object between brackets, in which containers lie in one another at
most `depth` deep. -/
def flow (depth : Nat) (s : Spot) : Option (Value × After s) := do
  match depth with
  | 0 => none
  | depth + 1 =>
      let value : ValueReader := fun s => do
        if startsBracket s then flow depth s
        else
          let (found, rest) ← scalar true 0 s
          return (← found.value?, rest)
      let (c, ⟨t, h⟩) ← s.next false
      if c = '[' then
        let (found, final) ← flowParts ']' (flowItem value) t
        return (.array found, final.within (Spot.size_le_of_lt h))
      else if c = '\x7b' then
        let (found, final) ← flowParts '\x7d' (flowMember value) t
        return (.object (Entries.ofPairs found), final.within (Spot.size_le_of_lt h))
      else none

end DocWeave.Yaml

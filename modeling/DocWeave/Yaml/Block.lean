/-
Lists and objects by indentation, and whole documents.  What belongs to an entry
stands further to the right than the entry; only a list that is the value of a key may
stand in the column of the key.
-/
import DocWeave.Yaml.Flow
import DocWeave.Yaml.Lines

namespace DocWeave.Yaml

open Spot (After From)

/-- Reads a value whose words stand in a column or further to the right; it may be
missing. -/
abbrev BlockReader := (least : Nat) → (s : Spot) → Option (Value × From s)

def atEntry (mark : Char) (s : Spot) : Bool :=
  s.opens && markAhead mark s.text

/-- The next entry of a list in the column `column`, unless the list ends here.  Where
it shares the column with a key, it ends in front of the next key. -/
def blockItem (value : BlockReader) (column : Nat) (shared : Bool) (s : Spot) :
    Option (Option (Value × After s)) := do
  if s.ends column then return none
  if s.column ≠ column then failure
  if atEntry '-' s then
    let (_, ⟨t, h⟩) ← s.next true
    let (item, ⟨u, h₁⟩) ← value (column + 1) t
    return some (item, ((u.word false).within h₁).behind h)
  else if shared then return none
  else failure

def blockItems (value : BlockReader) (column : Nat) (shared : Bool) (s : Spot) :
    Option (List Value × From s) :=
  readWhile Spot.size (blockItem value column shared) s

def blockContent (value : BlockReader) (column : Nat) (s : Spot) :
    Option (Value × From s) := do
  let ⟨t, h⟩ := s.word false
  if t.column = column ∧ atEntry '-' t ∧ !t.atMarker then
    let (items, u) ← blockItems value column true t
    return (.array items, u.within h)
  else value (column + 1) s

/-- The text of a key that is marked by a question mark, behind the mark. -/
def markedKey (column : Nat) (s : Spot) : Option (String × From s) := do
  let ⟨t, h⟩ := s.word false
  if t.ends (column + 1) ∨ atEntry ':' t then return ("", ⟨t, h⟩)
  match t.text.head? with
  | some '|' | some '>' =>
      let (c, ⟨u, h'⟩) ← t.next false
      let (found, v) ← linesScalar (c = '>') (column + 1) u
      if h'' : v.size < u.size then
        have hlt := Spot.size_lt_trans h'' h'
        have hlt := Spot.size_lt_of_lt_of_le hlt h
        return (String.ofList found.text, ⟨v, Spot.size_le_of_lt hlt⟩)
      else none
  | _ =>
      let (found, u) ← scalar false (column + 1) t
      if (colonAfter? false t u.1).isSome then none
      return (String.ofList found.text, (u.within h).toFrom)

def blockMember (value : BlockReader) (column : Nat) (s : Spot) :
    Option ((String × Value) × After s) := do
  if atEntry '?' s then
    let (_, ⟨t, h⟩) ← s.next true
    let (key, ⟨u, h₁⟩) ← markedKey column t
    have hlt := Spot.size_lt_of_le_of_lt h₁ h
    let ⟨v, h₂⟩ := u.word false
    have hlt := Spot.size_lt_of_le_of_lt h₂ hlt
    if v.column = column ∧ atEntry ':' v then
      let (_, ⟨w, h₃⟩) ← v.next true
      let (content, final) ← blockContent value column w
      return ((key, content), (final.behind h₃).within (Spot.size_le_of_lt hlt))
    else return ((key, .null), ⟨v, hlt⟩)
  else if atEntry ':' s then
    let (_, ⟨t, h⟩) ← s.next true
    let (content, final) ← blockContent value column t
    return (("", content), final.behind h)
  else
    let (key, ⟨t, h⟩) ← scalar false (column + 1) s
    let ⟨u, h₁⟩ ← colonAfter? false s t
    let (content, final) ← blockContent value column u
    return ((String.ofList key.text, content), (final.behind h₁).within (Spot.size_le_of_lt h))

/-- The next member of an object in the column `column`, unless the object ends
here. -/
def nextMember (value : BlockReader) (column : Nat) (s : Spot) :
    Option (Option ((String × Value) × After s)) := do
  if s.ends column then return none
  if s.column ≠ column ∨ !s.opens then failure
  let (member, ⟨t, h⟩) ← blockMember value column s
  return some (member, (t.word false).behind h)

def blockMembers (value : BlockReader) (column : Nat) (s : Spot) :
    Option (List (String × Value) × From s) :=
  readWhile Spot.size (nextMember value column) s

/-- Whether an object starts here: with a marked entry, or with a scalar that is a
key. -/
def startsObject (least : Nat) (s : Spot) : Bool :=
  atEntry '?' s || atEntry ':' s ||
    (s.opens && match scalar false least s with
      | some (_, t) => (colonAfter? false s t.1).isSome
      | none => false)

/-- A value by indentation, in which containers lie in one another at most `depth`
deep, or nothing if the block ends here. -/
def block (depth : Nat) : BlockReader := fun least s => do
  let ⟨t, h⟩ := s.word false
  if t.ends least then return (.null, ⟨t, h⟩)
  match depth with
  | 0 => none
  | depth + 1 =>
      if atEntry '-' t then
        if depth = 0 then none
        let (items, u) ← blockItems (block depth) t.column false t
        return (.array items, u.within h)
      else if startsObject least t then
        if depth = 0 then none
        let (members, u) ← blockMembers (block depth) t.column t
        return (.object (Entries.ofPairs members), u.within h)
      else if startsBracket t then
        let (found, u) ← flow depth t
        return (found, (u.within h).toFrom)
      else match t.text.head? with
        | some '|' | some '>' =>
            let (c, ⟨u, h'⟩) ← t.next false
            let (found, v) ← linesScalar (c = '>') least u
            if h'' : v.size ≤ u.size then
              have hlt := Spot.size_lt_of_le_of_lt h'' h'
              have hlt := Spot.size_lt_of_lt_of_le hlt h
              return (← found.value?, ⟨v, Spot.size_le_of_lt hlt⟩)
            else none
        | _ =>
            let (found, u) ← scalar false least t
            return (← found.value?, (u.within h).toFrom)

/-- One more than how deep containers may lie in one another. -/
def depthLimit : Nat := 129

def isAllowed (c : Char) : Bool :=
  let n := c.toNat
  n = 0x09 || n = 0x0A || n = 0x0D || (0x20 ≤ n && n ≤ 0x7E) || n = 0x85 ||
    (0xA0 ≤ n && n ≠ 0xFFFE && n ≠ 0xFFFF)

def documentStart (s : Spot) : Spot :=
  if s.atMarker && s.text.head? = some '-' then s.ahead 3 false else s

def nothingFollows (s : Spot) : Bool :=
  let t := (s.word false).1
  if t.text.isEmpty then true
  else if t.atMarker && t.text.head? = some '.' then
    if _ : (t.ahead 3 true).size < s.size then nothingFollows (t.ahead 3 true) else false
  else false
termination_by s.size

/-- Reads a text as one document.  A byte order mark in front does not count, and an
empty text is null. -/
def read? (text : String) : Option Value := do
  let start := match text.toList with
    | '\uFEFF' :: rest => rest
    | text => text
  if !start.all isAllowed then none
  let s := (Spot.newLine (unifyBreaks start)).word false
  let (found, t) ← block depthLimit 0 (documentStart s.1)
  if nothingFollows t.1 then return found else none

end DocWeave.Yaml

/-
Reading JSON text as a document.  The nesting budget is the recursion: each open
container leaves one level less for what it holds, and the lists and objects of
one level are loops over the text.
-/
import DocWeave.Json.Numeral
import DocWeave.Json.Quoted
import DocWeave.Value.Basic

namespace DocWeave.Json

def isBlank (c : Char) : Bool :=
  c = ' ' || c = '\n' || c = '\t' || c = '\r'

def skipBlank (text : List Char) : List Char :=
  text.dropWhile isBlank

theorem length_skipBlank_le (text : List Char) : (skipBlank text).length ≤ text.length :=
  length_dropWhile_le isBlank text

theorem length_lt_of_skipBlank {text rest : List Char} {c : Char}
    (h : skipBlank text = c :: rest) : rest.length < text.length := by
  have := length_skipBlank_le text
  rw [h, List.length_cons] at this
  omega

theorem length_le_of_skipBlank {text rest : List Char} {c : Char}
    (h : skipBlank text = c :: rest) : (c :: rest).length ≤ text.length := by
  rw [← h]
  exact length_skipBlank_le text

theorem length_lt_of_skipBlank_twice {text rest after : List Char} {c d : Char}
    (h : skipBlank text = c :: rest) (h' : skipBlank rest = d :: after) :
    after.length < text.length :=
  Nat.lt_trans (length_lt_of_skipBlank h') (length_lt_of_skipBlank h)

theorem length_le_of_skipBlank_twice {text rest after : List Char} {c d : Char}
    (h : skipBlank text = c :: rest) (h' : skipBlank rest = d :: after) :
    (d :: after).length ≤ text.length :=
  length_lt_of_skipBlank_twice h h'

/-- What follows in a container: its end, which has been consumed, or one more
part. -/
inductive Next (text : List Char) where
  | closed (rest : Remainder text)
  | more (rest : Rest text)

/-- Looks for the next item of a list, with its separator unless it is the
first. -/
def nextItem (first : Bool) (text : List Char) : Except (Fault Reason) (Next text) :=
  match h : skipBlank text with
  | [] => stopOn .endInList []
  | c :: rest =>
      have hlt := length_lt_of_skipBlank h
      if c = ']' then .ok (.closed ⟨rest, hlt⟩)
      else if first then .ok (.more ⟨c :: rest, length_le_of_skipBlank h⟩)
      else if c = ',' then
        match h' : skipBlank rest with
        | [] => stopOn .endInValue []
        | d :: after =>
            if d = ']' then stopOn .trailingComma (d :: after)
            else .ok (.more ⟨d :: after, length_le_of_skipBlank_twice h h'⟩)
      else stopOn .expectedListSeparator (c :: rest)

/-- Looks for the next key of an object, with its separator unless it is the
first, and consumes its opening quotation mark. -/
def nextKey (first : Bool) (text : List Char) : Except (Fault Reason) (Next text) :=
  match h : skipBlank text with
  | [] => stopOn .endInObject []
  | c :: rest =>
      have hlt := length_lt_of_skipBlank h
      if c = '\x7d' then .ok (.closed ⟨rest, hlt⟩)
      else if first then
        if c = '"' then .ok (.more ⟨rest, length_le_of_lt hlt⟩)
        else stopOn .keyNotString (c :: rest)
      else if c = ',' then
        match h' : skipBlank rest with
        | [] => stopOn .endInValue []
        | d :: after =>
            have hlt := length_lt_of_skipBlank_twice h h'
            if d = '"' then .ok (.more ⟨after, length_le_of_lt hlt⟩)
            else if d = '\x7d' then stopOn .trailingComma (d :: after)
            else stopOn .keyNotString (d :: after)
      else stopOn .expectedObjectSeparator (c :: rest)

def colon (text : List Char) : Except (Fault Reason) (Remainder text) :=
  match h : skipBlank text with
  | [] => stopOn .endInObject []
  | c :: rest =>
      if c = ':' then .ok ⟨rest, length_lt_of_skipBlank h⟩
      else stopOn .expectedColon (c :: rest)

section Containers

variable {ρ α : Type} (syntaxError : Reason → ρ) (part : Reader ρ α)

def readItems (first : Bool) (text : List Char) :
    Except (Fault ρ) (List α × Remainder text) := do
  match ← (nextItem first text).mapError (Fault.map syntaxError) with
  | .closed rest => return ([], rest)
  | .more ⟨rest, h⟩ =>
      let (item, ⟨rest₁, h₁⟩) ← part rest
      have hlt := length_lt_of_lt_of_le h₁ h
      let (items, ⟨rest₂, h₂⟩) ← readItems false rest₁
      return (item :: items, ⟨rest₂, length_lt_trans h₂ hlt⟩)
termination_by text.length

def readMembers (first : Bool) (text : List Char) :
    Except (Fault ρ) (List (String × α) × Remainder text) := do
  match ← (nextKey first text).mapError (Fault.map syntaxError) with
  | .closed rest => return ([], rest)
  | .more ⟨rest, h⟩ =>
      let (key, ⟨rest₁, h₁⟩) ← (Quoted.decode rest).mapError (Fault.map syntaxError)
      have hlt := length_lt_of_lt_of_le h₁ h
      let ⟨rest₂, h₂⟩ ← (colon rest₁).mapError (Fault.map syntaxError)
      have hlt := length_lt_trans h₂ hlt
      let (value, ⟨rest₃, h₃⟩) ← part rest₂
      have hlt := length_lt_trans h₃ hlt
      let (members, ⟨rest₄, h₄⟩) ← readMembers false rest₃
      return ((String.ofList key, value) :: members, ⟨rest₄, length_lt_trans h₄ hlt⟩)
termination_by text.length

end Containers

def expectWord : List Char → (text : List Char) →
    Except (Fault Reason) (Rest text)
  | [], text => .ok ⟨text, length_le_self text⟩
  | _ :: _, [] => stopAt .endInValue []
  | letter :: letters, c :: text =>
      if c = letter then
        (expectWord letters text).map fun rest => rest.within (length_le_cons c text)
      else stopOn .expectedWord (c :: text)

/-- A word that stands for a value, after its first letter. -/
def readWord (letters : String) (value : Value) (text : List Char) :
    Except (Fault Reason) (Value × Rest text) :=
  (expectWord letters.toList text).map fun rest => (value, rest)

def readNumber (text : List Char) : Except (Fault Reason) (Value × Remainder text) :=
  match h : Numeral.read text with
  | .error fault => .error fault
  | .ok (numeral, rest) =>
      match numeral.toNumber? with
      | some n => .ok (.number n, ⟨rest, Numeral.length_read_lt h⟩)
      | none => stopAt .numberOutOfRange rest

/-- Reads one value.  Its containers may nest as deep as the budget. -/
def readValue (depth : Nat) (text : List Char) :
    Except (Fault Reason) (Value × Remainder text) :=
  match h : skipBlank text with
  | [] => stopOn .endInValue []
  | c :: rest =>
      have hlt := length_lt_of_skipBlank h
      if c = 'n' then
        (readWord "ull" .null rest).map fun r => (r.1, r.2.behind hlt)
      else if c = 't' then
        (readWord "rue" (.bool true) rest).map fun r => (r.1, r.2.behind hlt)
      else if c = 'f' then
        (readWord "alse" (.bool false) rest).map fun r => (r.1, r.2.behind hlt)
      else if c = '-' ∨ c.isDigit then
        (readNumber (c :: rest)).map fun r => (r.1, r.2.within (length_le_of_skipBlank h))
      else if c = '"' then
        (Quoted.decode rest).map fun r =>
          (.string (String.ofList r.1), r.2.within (length_le_of_lt hlt))
      else if c = '[' then
        match depth with
        | 0 => stopOn .tooDeep (c :: rest)
        | depth + 1 =>
            (readItems id (readValue depth) true rest).map fun r =>
              (.array r.1, r.2.within (length_le_of_lt hlt))
      else if c = '\x7b' then
        match depth with
        | 0 => stopOn .tooDeep (c :: rest)
        | depth + 1 =>
            (readMembers id (readValue depth) true rest).map fun r =>
              (.object (Entries.ofPairs r.1), r.2.within (length_le_of_lt hlt))
      else stopOn .expectedValue (c :: rest)

/-- How many containers may be open at once. -/
def nestingLimit : Nat := 127

def expectEnd (rest : List Char) : Except (Fault Reason) Unit :=
  match skipBlank rest with
  | [] => .ok ()
  | c :: rest => stopOn .trailingCharacters (c :: rest)

/-- A whole text as one document, or the fault that stopped the reading. -/
def document (text : List Char) : Except (Fault Reason) Value := do
  let (value, rest) ← readValue nestingLimit text
  expectEnd rest.1
  return value

def describe (text : List Char) (fault : Fault Reason) : String :=
  (fault.position text).describe fault.reason.message

def parse (text : String) : Except String Value :=
  (document text.toList).mapError (describe text.toList)

end DocWeave.Json

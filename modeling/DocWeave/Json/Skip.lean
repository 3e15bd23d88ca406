/-
Passing over a value that nobody asked for.  Its syntax is checked, but nothing is
built: numbers have no range, escapes need not pair up, and nesting has no limit.
-/
import DocWeave.Json.Reader

namespace DocWeave.Json.Skip

def exponent (text : List Char) : Except (Fault Reason) (List Char) :=
  match (Decimal.takeSign text).2 with
  | [] => stopAt .invalidNumber []
  | c :: rest =>
      if c.isDigit then .ok (rest.dropWhile Char.isDigit)
      else stopOn .invalidNumber (c :: rest)

def optionalExponent (text : List Char) : Except (Fault Reason) (List Char) :=
  match text with
  | c :: rest => if c = 'e' ∨ c = 'E' then exponent rest else .ok (c :: rest)
  | [] => .ok []

def afterWhole (text : List Char) : Except (Fault Reason) (List Char) :=
  match text with
  | '.' :: rest =>
      if (rest.takeWhile Char.isDigit).isEmpty then stopOn .invalidNumber rest
      else optionalExponent (rest.dropWhile Char.isDigit)
  | text => optionalExponent text

def digits (text : List Char) : Except (Fault Reason) (List Char) :=
  match text with
  | [] => stopAt .invalidNumber []
  | c :: rest =>
      if c = '0' then
        if rest.head?.any Char.isDigit then stopOn .invalidNumber rest else afterWhole rest
      else if c.isDigit then afterWhole (rest.dropWhile Char.isDigit)
      else stopOn .invalidNumber (c :: rest)

theorem length_exponent_le {text rest : List Char} (h : exponent text = .ok rest) :
    rest.length ≤ text.length := by
  have hsign := Numeral.length_takeSign_le text
  unfold exponent at h
  split at h
  · simp [stopAt] at h
  next c after heq =>
    rw [heq, List.length_cons] at hsign
    split at h
    · cases h
      exact Nat.le_trans (length_dropWhile_le _ _) (by omega)
    · simp [stopOn] at h

theorem length_optionalExponent_le {text rest : List Char}
    (h : optionalExponent text = .ok rest) : rest.length ≤ text.length := by
  unfold optionalExponent at h
  split at h
  · split at h
    · exact Nat.le_trans (length_exponent_le h) (by simp)
    · cases h
      simp
  · cases h
    simp

theorem length_afterWhole_le {text rest : List Char} (h : afterWhole text = .ok rest) :
    rest.length ≤ text.length := by
  unfold afterWhole at h
  split at h
  next after =>
    have hdrop := length_dropWhile_le Char.isDigit after
    split at h
    · simp [stopOn] at h
    · have := length_optionalExponent_le h
      simp only [List.length_cons]
      omega
  · exact length_optionalExponent_le h

theorem length_digits_lt {text rest : List Char} (h : digits text = .ok rest) :
    rest.length < text.length := by
  unfold digits at h
  split at h
  · simp [stopAt] at h
  next c after =>
    have hdrop := length_dropWhile_le Char.isDigit after
    rw [List.length_cons]
    split at h
    · split at h
      · simp [stopOn] at h
      · have := length_afterWhole_le h
        omega
    · split at h
      · have := length_afterWhole_le h
        omega
      · simp [stopOn] at h

def afterCodeUnit (text : List Char) : Except (Fault Reason) (Remainder text) :=
  (Quoted.codeUnit text).map fun r => r.2

def character (text : List Char) : Except (Fault Reason) (Piece Unit Unit × Remainder text) :=
  match text with
  | [] => stopAt .endInString []
  | c :: rest =>
      if c = '"' then .ok (.last (), ⟨rest, length_lt_cons c rest⟩)
      else if c = '\\' then
        match rest with
        | [] => stopAt .endInString []
        | d :: after =>
            if (Quoted.letter? d).isSome then
              .ok (.more (), ⟨after, length_lt_cons_cons c d after⟩)
            else if d = 'u' then
              (afterCodeUnit after).map fun r =>
                (.more (), r.within (length_le_cons_cons c d after))
            else stopOn .invalidEscape (d :: after)
      else if c.toNat < 0x20 then stopOn .controlCharacter (c :: rest)
      else .ok (.more (), ⟨rest, length_lt_cons c rest⟩)

def string (text : List Char) : Except (Fault Reason) (Remainder text) :=
  (readToLast List.length character text).map fun r => r.2

def scalar (c : Char) (rest : List Char) : Except (Fault Reason) (Remainder (c :: rest)) :=
  let word := fun letters : String =>
    (expectWord letters.toList rest).map fun r => r.behind (length_lt_cons c rest)
  if c = 'n' then word "ull"
  else if c = 't' then word "rue"
  else if c = 'f' then word "alse"
  else if c = '-' then
    match h : digits rest with
    | .error fault => .error fault
    | .ok after =>
        have hlt := length_digits_lt h
        .ok ⟨after, length_lt_cons_of_lt c hlt⟩
  else if c.isDigit then
    match h : digits (c :: rest) with
    | .error fault => .error fault
    | .ok after => .ok ⟨after, length_digits_lt h⟩
  else if c = '"' then (string rest).map fun r => r.within (length_le_cons c rest)
  else stopOn .expectedValue (c :: rest)

/-- What separates the parts of a container, or ends it. -/
structure Brackets where
  close : Char
  /-- The text ends inside the container. -/
  atEnd : Reason
  /-- There is no separator behind a part. -/
  separator : Reason

def list : Brackets := ⟨']', .endInList, .expectedListSeparator⟩

def object : Brackets := ⟨'\x7d', .endInObject, .expectedObjectSeparator⟩

/-- Looks for the next part of a container.  A comma may stand in front of the end
of the container only if the part behind it is then found missing. -/
def nextPart (brackets : Brackets) (first : Bool) (text : List Char) :
    Except (Fault Reason) (Next text) :=
  match h : skipBlank text with
  | [] => stopOn brackets.atEnd []
  | c :: rest =>
      have hlt := length_lt_of_skipBlank h
      if c = brackets.close then .ok (.closed ⟨rest, hlt⟩)
      else if first then .ok (.more ⟨c :: rest, length_le_of_skipBlank h⟩)
      else if c = ',' then .ok (.more ⟨rest, length_le_of_lt hlt⟩)
      else stopOn brackets.separator (c :: rest)

def key (text : List Char) : Except (Fault Reason) (Remainder text) :=
  match h : skipBlank text with
  | [] => stopOn .endInObject []
  | c :: rest => do
      have hlt := length_lt_of_skipBlank h
      if c = '"' then
        let ⟨after, h₁⟩ ← string rest
        have hlt := length_lt_trans h₁ hlt
        let ⟨final, h₂⟩ ← colon after
        return ⟨final, length_lt_trans h₂ hlt⟩
      else stopOn .keyNotString (c :: rest)

mutual

def value (text : List Char) : Except (Fault Reason) (Remainder text) :=
  match h : skipBlank text with
  | [] => stopOn .endInValue []
  | c :: rest =>
      have hlt := length_lt_of_skipBlank h
      if c = '[' then (items true rest).map fun r => r.within (length_le_of_lt hlt)
      else if c = '\x7b' then (members true rest).map fun r => r.within (length_le_of_lt hlt)
      else (scalar c rest).map fun r => r.within (length_le_of_skipBlank h)
termination_by 2 * text.length

def items (first : Bool) (text : List Char) : Except (Fault Reason) (Remainder text) := do
  match ← nextPart list first text with
  | .closed rest => return rest
  | .more ⟨rest, h⟩ =>
      let ⟨rest₁, h₁⟩ ← value rest
      have hlt := length_lt_of_lt_of_le h₁ h
      let ⟨rest₂, h₂⟩ ← items false rest₁
      return ⟨rest₂, length_lt_trans h₂ hlt⟩
termination_by 2 * text.length + 1

def members (first : Bool) (text : List Char) : Except (Fault Reason) (Remainder text) := do
  match ← nextPart object first text with
  | .closed rest => return rest
  | .more ⟨rest, h⟩ =>
      let ⟨rest₁, h₁⟩ ← key rest
      have hlt := length_lt_of_lt_of_le h₁ h
      let ⟨rest₂, h₂⟩ ← value rest₁
      have hlt := length_lt_trans h₂ hlt
      let ⟨rest₃, h₃⟩ ← members false rest₂
      return ⟨rest₃, length_lt_trans h₃ hlt⟩
termination_by 2 * text.length + 1

end

end DocWeave.Json.Skip

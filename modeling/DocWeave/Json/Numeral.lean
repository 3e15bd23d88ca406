/-
Numbers in JSON text.  Whole numbers within 64 bits, with or without a sign, are
kept exactly.  Everything else becomes a double by a fixed recipe that does not
always give the nearest one: the digits that fit in 64 bits are collected, and the
result is multiplied or divided by a power of ten.
-/
import DocWeave.Decimal.Literal
import DocWeave.Json.Fault
import DocWeave.Value.Number

namespace DocWeave.Json

/-- A number as it was written: whole, or with a fraction or an exponent.  Whole
ones run from the least signed to the greatest unsigned number of 64 bits. -/
inductive Numeral where
  | whole (n : Int)
  | real (x : Float)

namespace Numeral

/-- The document number: a whole number too large for a signed one becomes a
double. -/
def toNumber? : Numeral → Option Number
  | whole n => (Number.ofInt? n).orElse fun _ => Number.ofFloat? (Float.ofInt n)
  | real x => Number.ofFloat? x

/-- One past the greatest unsigned number of 64 bits. -/
def wordLimit : Nat := 0x10000000000000000

/-- Appends digits to a number as long as it stays below the word limit, and
counts how many of them it took. -/
def accumulate (n : Nat) : List Char → Nat × Nat
  | [] => (n, 0)
  | c :: rest =>
      let next := 10 * n + (c.toNat - '0'.toNat)
      if next < wordLimit then
        let (total, taken) := accumulate next rest
        (total, taken + 1)
      else (n, 0)

/-- Scales by a power of ten in one step when the table of powers reaches that
far, and by the last power of the table first when it does not.  The result is
none if it would be infinite. -/
def scale (f : Float) (exponent : Int) : Option Float :=
  if exponent.natAbs ≤ 308 then
    if 0 ≤ exponent then
      let product := f * Float.ofScientific 1 false exponent.natAbs
      if product.isFinite then some product else none
    else some (f / Float.ofScientific 1 false exponent.natAbs)
  else if f == 0.0 then some f
  else if 0 < exponent then none
  else scale (f / Float.ofScientific 1 false 308) (exponent + 308)
termination_by exponent.natAbs
decreasing_by omega

def real? (negative : Bool) (significand : Nat) (exponent : Int) : Option Numeral :=
  (scale (Float.ofNat significand) exponent).map fun f => .real (if negative then -f else f)

/-- The value of digits without a fraction or exponent: none if they do not fit in
64 bits. -/
def whole? (negative : Bool) (significand : Nat) : Numeral :=
  if !negative then .whole significand
  else if 0 < significand ∧ significand ≤ 0x8000000000000000 then .whole (-significand)
  else .real (-(Float.ofNat significand))

def exponentLimit : Nat := 0x7FFFFFFF

/-- Reads digits into a number until it passes the exponent limit. -/
def exponentDigits (n : Nat) : List Char → Nat × List Char
  | [] => (n, [])
  | c :: rest =>
      if c.isDigit then
        let next := 10 * n + (c.toNat - '0'.toNat)
        if next ≤ exponentLimit then exponentDigits next rest else (next, rest)
      else (n, c :: rest)

/-- The sum of two exponents, kept within 32 bits. -/
def addExponents (a b : Int) : Int :=
  max (-(exponentLimit : Int) - 1) (min exponentLimit (a + b))

/-- A number whose exponent is beyond counting: zero stays zero and a negative
exponent gives zero. -/
def beyondExponent (negative : Bool) (significand : Nat) (down : Bool) (rest : List Char) :
    Except (Fault Reason) (Numeral × List Char) :=
  if significand ≠ 0 ∧ !down then stopAt .numberOutOfRange rest
  else .ok (.real (if negative then -0.0 else 0.0), rest.dropWhile Char.isDigit)

def finishReal (negative : Bool) (significand : Nat) (exponent : Int) (rest : List Char) :
    Except (Fault Reason) (Numeral × List Char) :=
  match real? negative significand exponent with
  | some numeral => .ok (numeral, rest)
  | none => stopAt .numberOutOfRange rest

def readExponent (negative : Bool) (significand : Nat) (exponent : Int) (text : List Char) :
    Except (Fault Reason) (Numeral × List Char) :=
  let down := (Decimal.takeSign text).1
  match (Decimal.takeSign text).2 with
  | [] => stopAt .endInValue []
  | c :: rest =>
      if !c.isDigit then stopOn .invalidNumber (c :: rest)
      else
        let written := exponentDigits 0 (c :: rest)
        if exponentLimit < written.1 then
          beyondExponent negative significand down written.2
        else
          finishReal negative significand
            (addExponents exponent (if down then -(written.1 : Int) else written.1)) written.2

def readFraction (negative : Bool) (significand : Nat) (exponent : Int) (text : List Char) :
    Except (Fault Reason) (Numeral × List Char) :=
  let digits := text.takeWhile Char.isDigit
  let rest := text.dropWhile Char.isDigit
  if digits.isEmpty then
    stopOn (if rest.isEmpty then .endInValue else .invalidNumber) rest
  else
    let kept := accumulate significand digits
    let exponent := exponent - kept.2
    match rest with
    | c :: after =>
        if c = 'e' ∨ c = 'E' then readExponent negative kept.1 exponent after
        else finishReal negative kept.1 exponent rest
    | [] => finishReal negative kept.1 exponent rest

def finishWhole (negative : Bool) (significand : Nat) (dropped : Int) (rest : List Char) :
    Except (Fault Reason) (Numeral × List Char) :=
  if dropped = 0 then .ok (whole? negative significand, rest)
  else finishReal negative significand dropped rest

/-- Reads what follows the digits in front of a point: digits that did not fit
count as tens. -/
def afterWhole (negative : Bool) (digits rest : List Char) :
    Except (Fault Reason) (Numeral × List Char) :=
  let kept := accumulate 0 digits
  let dropped : Int := digits.length - kept.2
  match rest with
  | c :: after =>
      if c = '.' then readFraction negative kept.1 dropped after
      else if c = 'e' ∨ c = 'E' then readExponent negative kept.1 dropped after
      else finishWhole negative kept.1 dropped rest
  | [] => finishWhole negative kept.1 dropped rest

/-- Reads the digits of a number after its sign.  A leading zero stands alone. -/
def readDigits (negative : Bool) : List Char → Except (Fault Reason) (Numeral × List Char)
  | [] => stopAt .endInValue []
  | c :: rest =>
      if c = '0' then
        match rest with
        | d :: after =>
            if d.isDigit then stopOn .invalidNumber (d :: after)
            else afterWhole negative ['0'] (d :: after)
        | [] => afterWhole negative ['0'] []
      else if c.isDigit then
        afterWhole negative (c :: rest.takeWhile Char.isDigit) (rest.dropWhile Char.isDigit)
      else stopOn .invalidNumber (c :: rest)

def read : List Char → Except (Fault Reason) (Numeral × List Char)
  | '-' :: rest => readDigits true rest
  | text => readDigits false text

theorem length_exponentDigits_le (n : Nat) (text : List Char) :
    (exponentDigits n text).2.length ≤ text.length := by
  induction text generalizing n with
  | nil => simp [exponentDigits]
  | cons c rest ih =>
      simp only [exponentDigits]
      split
      · split
        · exact Nat.le_trans (ih _) (by simp)
        · simp
      · simp

theorem length_beyondExponent_le {negative down : Bool} {significand : Nat}
    {rest : List Char} {result : Numeral × List Char}
    (h : beyondExponent negative significand down rest = .ok result) :
    result.2.length ≤ rest.length := by
  unfold beyondExponent at h
  split at h
  · simp [stopAt] at h
  · cases h
    exact length_dropWhile_le _ _

theorem length_finishReal_le {negative : Bool} {significand : Nat} {exponent : Int}
    {rest : List Char} {result : Numeral × List Char}
    (h : finishReal negative significand exponent rest = .ok result) :
    result.2.length ≤ rest.length := by
  unfold finishReal at h
  split at h
  · cases h
    simp
  · simp [stopAt] at h

theorem length_takeSign_le (text : List Char) :
    (Decimal.takeSign text).2.length ≤ text.length := by
  unfold Decimal.takeSign
  split <;> simp

theorem length_readExponent_le {negative : Bool} {significand : Nat} {exponent : Int}
    {text : List Char} {result : Numeral × List Char}
    (h : readExponent negative significand exponent text = .ok result) :
    result.2.length ≤ text.length := by
  have hsign := length_takeSign_le text
  unfold readExponent at h
  dsimp only at h
  split at h
  · simp [stopAt] at h
  next c rest heq =>
    rw [heq] at hsign
    have hdigits := length_exponentDigits_le 0 (c :: rest)
    split at h
    · simp [stopOn] at h
    · split at h
      · exact Nat.le_trans (length_beyondExponent_le h) (Nat.le_trans hdigits hsign)
      · exact Nat.le_trans (length_finishReal_le h) (Nat.le_trans hdigits hsign)

theorem length_readFraction_le {negative : Bool} {significand : Nat} {exponent : Int}
    {text : List Char} {result : Numeral × List Char}
    (h : readFraction negative significand exponent text = .ok result) :
    result.2.length ≤ text.length := by
  have hdrop := length_dropWhile_le Char.isDigit text
  unfold readFraction at h
  dsimp only at h
  split at h
  · simp [stopOn] at h
  · split at h
    next c after heq =>
      have hcons := hdrop
      rw [heq, List.length_cons] at hcons
      split at h
      · exact Nat.le_trans (length_readExponent_le h) (by omega)
      · exact Nat.le_trans (length_finishReal_le h) hdrop
    next heq =>
      exact Nat.le_trans (length_finishReal_le h) hdrop

theorem length_finishWhole_le {negative : Bool} {significand : Nat} {dropped : Int}
    {rest : List Char} {result : Numeral × List Char}
    (h : finishWhole negative significand dropped rest = .ok result) :
    result.2.length ≤ rest.length := by
  unfold finishWhole at h
  split at h
  · cases h
    simp
  · exact length_finishReal_le h

theorem length_afterWhole_le {negative : Bool} {digits rest : List Char}
    {result : Numeral × List Char} (h : afterWhole negative digits rest = .ok result) :
    result.2.length ≤ rest.length := by
  unfold afterWhole at h
  dsimp only at h
  split at h
  next c after =>
    split at h
    · exact Nat.le_trans (length_readFraction_le h) (by simp)
    · split at h
      · exact Nat.le_trans (length_readExponent_le h) (by simp)
      · exact length_finishWhole_le h
  · exact length_finishWhole_le h

theorem length_readDigits_lt {negative : Bool} {text : List Char}
    {result : Numeral × List Char} (h : readDigits negative text = .ok result) :
    result.2.length < text.length := by
  unfold readDigits at h
  split at h
  · simp [stopAt] at h
  next c rest =>
    rw [List.length_cons]
    split at h
    · split at h
      · split at h
        · simp [stopOn] at h
        · have := length_afterWhole_le h
          omega
      · have := length_afterWhole_le h
        omega
    · split at h
      · have := length_afterWhole_le h
        have := length_dropWhile_le Char.isDigit rest
        omega
      · simp [stopOn] at h

/-- A number that was read is not empty. -/
theorem length_read_lt {text : List Char} {result : Numeral × List Char}
    (h : read text = .ok result) : result.2.length < text.length := by
  unfold read at h
  split at h
  · exact Nat.lt_trans (length_readDigits_lt h) (by simp)
  · exact length_readDigits_lt h

end Numeral

end DocWeave.Json

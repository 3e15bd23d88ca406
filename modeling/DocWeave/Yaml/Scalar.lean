/-
What a plain scalar stands for: null, a truth value, a number, or its own text.
-/
import DocWeave.Decimal.Literal
import DocWeave.Text.Basic

namespace DocWeave.Yaml

inductive Meaning where
  | null
  | bool (b : Bool)
  /-- A whole number of at most 128 bits. -/
  | whole (n : Int)
  | real (x : Float)
  | text

namespace Meaning

/-- The number that a run of digits of a base denotes. -/
def natOfBase? (base : Nat) (digits : List Char) : Option Nat :=
  if digits.isEmpty then none
  else digits.foldlM (fun n c =>
    (hexValue? c).bind fun d => if d < base then some (base * n + d) else none) 0

/-- Whether a text is zeros and other digits, at least two of them, after an
optional sign.  Such a text is not a number. -/
def isZeroPadded (text : List Char) : Bool :=
  match (Decimal.takeSign text).2 with
  | '0' :: d :: rest => (d :: rest).all Char.isDigit
  | _ => false

def marked? (text : List Char) : Option Nat :=
  match text with
  | '0' :: 'x' :: digits => natOfBase? 16 digits
  | '0' :: 'o' :: digits => natOfBase? 8 digits
  | '0' :: 'b' :: digits => natOfBase? 2 digits
  | _ => none

/-- A whole number with an optional sign, in decimal or with the mark of a base. -/
def whole? (text : List Char) : Option Int :=
  let negative := (Decimal.takeSign text).1
  let body := (Decimal.takeSign text).2
  let magnitude := match marked? body with
    | some n => some n
    | none =>
        if isZeroPadded text || !body.all Char.isDigit then none else natOfBase? 10 body
  magnitude.bind fun n =>
    if negative then (if n ≤ Nat.pow 2 127 then some (-(n : Int)) else none)
    else if n < Nat.pow 2 128 then some (n : Int)
    else none

def infinityWords : List String := [".inf", ".Inf", ".INF"]

def nanWords : List String := [".nan", ".NaN", ".NAN"]

/-- A double: a decimal literal that is not too large, or one of the words. -/
def real? (text : List Char) : Option Float :=
  let negative := (Decimal.takeSign text).1
  let body := String.ofList (Decimal.takeSign text).2
  if infinityWords.contains body then some (if negative then -(1.0 / 0.0) else 1.0 / 0.0)
  else if nanWords.contains (String.ofList text) then some (0.0 / 0.0)
  else if isZeroPadded text then none
  else (Decimal.Literal.read? text).bind fun literal =>
    let x := literal.toFloat
    if x.isFinite then some x else none

def ofPlain (text : List Char) : Meaning :=
  let word := String.ofList text
  if text.isEmpty || ["null", "Null", "NULL", "~"].contains word then null
  else if ["true", "True", "TRUE"].contains word then bool true
  else if ["false", "False", "FALSE"].contains word then bool false
  else match whole? text with
    | some n => whole n
    | none =>
        match real? text with
        | some x => real x
        | none => .text

end Meaning

end DocWeave.Yaml

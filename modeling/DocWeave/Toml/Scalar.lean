/-
Values of a settings file that are written without marks: truth values, whole
numbers, doubles, dates and times.
-/
import DocWeave.Decimal.Literal
import DocWeave.Text.Basic
import DocWeave.Toml.Node

namespace DocWeave.Toml

/-- A run of digits in which single low lines may stand between digits; they are
left out of what is read. -/
def digits? (isDigit : Char → Bool) : List Char → Option (List Char)
  | [] => none
  | [c] => if isDigit c then some [c] else none
  | c :: '_' :: d :: rest =>
      if isDigit c then (digits? isDigit (d :: rest)).map (c :: ·) else none
  | c :: rest => if isDigit c then (digits? isDigit rest).map (c :: ·) else none

/-- A run of decimal digits that does not start with a needless zero. -/
def wholeDigits? (text : List Char) : Option (List Char) :=
  (digits? Char.isDigit text).filter fun digits => digits.length = 1 || digits.head? ≠ some '0'

def isDigitOf (base : Nat) (c : Char) : Bool :=
  (hexValue? c).any fun value => value < base

def based? (base : Nat) (text : List Char) : Option Number :=
  (digits? (isDigitOf base) text).bind fun digits =>
    Number.ofInt? (digits.foldl (fun n c => base * n + (hexValue? c).getD 0) 0 : Nat)

/-- A fraction and an exponent behind a whole number, as digits with a point and as a
text that can end a literal.  One of them has to be there. -/
def fractional? (text : List Char) : Option (List Char) :=
  let isMark := fun c : Char => c = 'e' || c = 'E'
  let fraction := text.takeWhile fun c => !isMark c
  let exponent := text.dropWhile fun c => !isMark c
  let fraction? := match fraction with
    | [] => some []
    | '.' :: rest => (digits? Char.isDigit rest).map ('.' :: ·)
    | _ => none
  let exponent? := match exponent with
    | [] => some []
    | mark :: '-' :: rest => (digits? Char.isDigit rest).map fun digits => mark :: '-' :: digits
    | mark :: '+' :: rest => (digits? Char.isDigit rest).map (mark :: ·)
    | mark :: rest => (digits? Char.isDigit rest).map (mark :: ·)
  if text.isEmpty then none
  else fraction?.bind fun fraction => exponent?.map fun exponent => fraction ++ exponent

def whole? (negative : Bool) (text : List Char) : Option Number :=
  (wholeDigits? text).bind fun digits =>
    let magnitude : Int := Decimal.natOfDigits digits
    Number.ofInt? (if negative then -magnitude else magnitude)

/-- A double in decimal, behind its sign.  One that is too large is not allowed,
except for a negative one. -/
def real? (negative : Bool) (text : List Char) : Option Number :=
  let isEnd := fun c : Char => c = '.' || c = 'e' || c = 'E'
  let digits? := (wholeDigits? (text.takeWhile fun c => !isEnd c)).bind fun whole =>
    (fractional? (text.dropWhile fun c => !isEnd c)).map fun rest => whole ++ rest
  (digits?.bind Decimal.Literal.read?).bind fun literal =>
    let x := literal.toFloat
    if negative then some (.float (-x)) else Number.ofFloat? x

/-- Infinity, or what is no number, behind its sign. -/
def special? (negative : Bool) (text : List Char) : Option Number :=
  let signed := fun x : Float => some (Number.float (if negative then -x else x))
  if text = "inf".toList then signed (1.0 / 0.0)
  else if text = "nan".toList then signed (0.0 / 0.0)
  else none

def number? (text : List Char) : Option Number :=
  match text with
  | '0' :: 'x' :: rest => based? 16 rest
  | '0' :: 'o' :: rest => based? 8 rest
  | '0' :: 'b' :: rest => based? 2 rest
  | text =>
      let (negative, body) := Decimal.takeSign text
      ((special? negative body).or (whole? negative body)).or (real? negative body)

def exactly? (count : Nat) (text : List Char) : Option Nat :=
  if text.length = count && text.all Char.isDigit then some (Decimal.natOfDigits text) else none

def daysOf (year month : Nat) : Nat :=
  if month = 2 then
    if (year % 4 = 0 ∧ year % 100 ≠ 0) ∨ year % 400 = 0 then 29 else 28
  else if month = 4 ∨ month = 6 ∨ month = 9 ∨ month = 11 then 30
  else 31

def isDate (text : List Char) : Bool :=
  text.length = 10 && text[4]? = some '-' && text[7]? = some '-' &&
    match exactly? 4 (text.take 4), exactly? 2 ((text.drop 5).take 2),
        exactly? 2 (text.drop 8) with
    | some year, some month, some day =>
        1 ≤ month && month ≤ 12 && 1 ≤ day && day ≤ daysOf year month
    | _, _, _ => false

def isHourMinute (text : List Char) : Bool :=
  text.length = 5 && text[2]? = some ':' &&
    match exactly? 2 (text.take 2), exactly? 2 (text.drop 3) with
    | some hour, some minute => hour ≤ 23 && minute ≤ 59
    | _, _ => false

/-- The text behind a time of day, if a text starts with one.  Sixty seconds leave
room for a leap second. -/
def afterTime? (text : List Char) : Option (List Char) :=
  if isHourMinute (text.take 5) && text[5]? = some ':' &&
      (exactly? 2 ((text.drop 6).take 2)).any fun second => second ≤ 60 then
    match text.drop 8 with
    | '.' :: rest =>
        if (rest.takeWhile Char.isDigit).isEmpty then none
        else some (rest.dropWhile Char.isDigit)
    | rest => some rest
  else none

def isTimeWithOffset (text : List Char) : Bool :=
  match afterTime? text with
  | none => false
  | some [] => true
  | some (c :: rest) =>
      ((c = 'Z' || c = 'z') && rest.isEmpty) || ((c = '+' || c = '-') && isHourMinute rest)

/-- Whether a text is a time of day, or a date with or without one. -/
def isMoment (text : List Char) : Bool :=
  afterTime? text = some [] ||
    (isDate (text.take 10) &&
      match text.drop 10 with
      | [] => true
      | c :: rest => (c = 'T' || c = 't') && isTimeWithOffset rest)

def scalar? (text : List Char) : Option Node :=
  if text = "true".toList then some (.boolean true)
  else if text = "false".toList then some (.boolean false)
  else if isMoment text then some .moment
  else (number? text).map .number

end DocWeave.Toml

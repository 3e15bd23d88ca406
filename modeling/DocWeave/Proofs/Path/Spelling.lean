/-
The spellings of a path.  A text and a path are related when the text is one of the ways
of writing the path down: a dot or brackets, either kind of quotes, escapes, and white
space inside brackets are free.
-/
import Mathlib
import DocWeave.Path.Step
import DocWeave.Decimal.Literal
import DocWeave.Text.Alphanumeric
import DocWeave.Proofs.Text.Trim

namespace DocWeave.Path

/-! ### Quoted names -/

/-- The letters that may follow a backslash, and what they stand for. -/
def escapes : List (Char × Char) :=
  [('\\', '\\'), ('\'', '\''), ('"', '"'), ('n', '\n'), ('t', '\t'), ('r', '\r')]

/-- What stands between quotes for a name: characters other than the quote and the
backslash stand for themselves, and a backslash comes before a letter of an escape. -/
inductive Quoted (quote : Char) : List Char → List Char → Prop
  | nil : Quoted quote [] []
  | plain {c : Char} {name text : List Char} (hquote : c ≠ quote) (hbackslash : c ≠ '\\')
      (h : Quoted quote name text) : Quoted quote (c :: name) (c :: text)
  | escape {letter c : Char} {name text : List Char} (hletter : (letter, c) ∈ escapes)
      (h : Quoted quote name text) : Quoted quote (c :: name) ('\\' :: letter :: text)

/-! ### Segments -/

/-- The index of 64 bits that is nearest to a whole number. -/
def IsNearest (i : Int64) (n : Int) : Prop :=
  i.toInt = max (-2 ^ 63) (min (2 ^ 63 - 1) n)

/-- What stands between the brackets of a step, without the white space around it. -/
inductive Bracketed : Step → List Char → Prop
  | star : Bracketed .wildcard ['*']
  | index {i : Int64} {digits : List Char} (hne : digits ≠ []) (hdigits : ∀ c ∈ digits, c.isDigit)
      (hi : IsNearest i (Decimal.natOfDigits digits)) : Bracketed (.index i) digits
  | negative {i : Int64} {digits : List Char} (hne : digits ≠ [])
      (hdigits : ∀ c ∈ digits, c.isDigit) (hi : IsNearest i (-(Decimal.natOfDigits digits))) :
      Bracketed (.index i) ('-' :: digits)
  | quoted {quote : Char} {name text : List Char} (hquote : quote = '\'' ∨ quote = '"')
      (hne : name ≠ []) (h : Quoted quote name text) :
      Bracketed (.property (String.ofList name)) (quote :: (text ++ [quote]))

def IsIdentifierChar (c : Char) : Prop :=
  isAlphanumeric c ∨ c = '_' ∨ c = '-' ∨ c = '@'

inductive Segment : Step → List Char → Prop
  | star : Segment .wildcard ['.', '*']
  | name {name : List Char} (hne : name ≠ []) (hchars : ∀ c ∈ name, IsIdentifierChar c) :
      Segment (.property (String.ofList name)) ('.' :: name)
  | brackets {step : Step} {before body after : List Char} (hbefore : isBlankText before)
      (hbody : Bracketed step body) (hafter : isBlankText after) :
      Segment step ('[' :: (before ++ (body ++ (after ++ [']']))))

inductive Segments : Path → List Char → Prop
  | nil : Segments [] []
  | cons {step : Step} {path : Path} {segment text : List Char} (hsegment : Segment step segment)
      (h : Segments path text) : Segments (step :: path) (segment ++ text)

/-- A path is spelled with a dollar sign and its segments. -/
inductive Spelled : Path → List Char → Prop
  | root {path : Path} {text : List Char} (h : Segments path text) : Spelled path ('$' :: text)

/-! ### Where the parts of a spelling end -/

theorem Segment.exists_eq_cons {step : Step} {segment : List Char} (h : Segment step segment) :
    ∃ c rest, segment = c :: rest ∧ (c = '.' ∨ c = '[') := by
  cases h with
  | star => exact ⟨'.', _, rfl, Or.inl rfl⟩
  | name _ _ => exact ⟨'.', _, rfl, Or.inl rfl⟩
  | brackets _ _ _ => exact ⟨'[', _, rfl, Or.inr rfl⟩

/-- Behind a segment stands another one, or nothing. -/
theorem Segments.head?_eq {path : Path} {text : List Char} (h : Segments path text) :
    ∀ c ∈ text.head?, c = '.' ∨ c = '[' := by
  intro c hc
  cases h with
  | nil => cases hc
  | cons hsegment _ =>
      obtain ⟨first, rest, rfl, hfirst⟩ := hsegment.exists_eq_cons
      cases hc
      exact hfirst

/-- What stands between brackets starts with no white space. -/
theorem Bracketed.not_isSpace {step : Step} {body : List Char} (h : Bracketed step body)
    (rest : List Char) : ∀ c ∈ (body ++ rest).head?, isSpace c = false := by
  intro c hc
  cases h with
  | star =>
      cases hc
      decide
  | negative _ _ _ =>
      cases hc
      decide
  | quoted hquote _ _ =>
      cases hc
      rcases hquote with rfl | rfl <;> decide
  | index hne hdigits _ =>
      obtain ⟨first, more, rfl⟩ := List.exists_cons_of_ne_nil hne
      have hfirst := hdigits first List.mem_cons_self
      cases hc
      exact not_isSpace_of_isDigit hfirst

end DocWeave.Path

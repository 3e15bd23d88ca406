/-
The outline of an object as text.  Every member has a line of its own with the key in double
quotes, indented by its level.  A member that is an object has its own members on deeper
lines; any other value stands behind the colon.
-/
import DocWeave.Proofs.Value.Parts
import DocWeave.Yaml.Outline

namespace DocWeave.Yaml.Outline

/-- A text on one line that holds no double quote. -/
structure IsQuotable (text : String) : Prop where
  oneLine : '\n' ∉ text.toList
  noQuote : '"' ∉ text.toList

instance (text : String) : Decidable (IsQuotable text) :=
  decidable_of_iff ('\n' ∉ text.toList ∧ '"' ∉ text.toList)
    ⟨fun h => ⟨h.1, h.2⟩, fun h => ⟨h.oneLine, h.noQuote⟩⟩

/-- A key that can be found in front of the first colon of its line. -/
def IsKey (key : String) : Prop :=
  IsQuotable key ∧ ':' ∉ key.toList

instance (key : String) : Decidable (IsKey key) :=
  inferInstanceAs (Decidable (_ ∧ _))

/-- The values that can stand behind a colon: null, truth values, whole numbers, and strings
that can be put between double quotes. -/
def IsScalar : Value → Prop
  | .null | .bool _ | .number (.integer _) => True
  | .string s => IsQuotable s
  | .number (.float _) | .array _ | .object _ => False

/-- What an outline asks of a single value: it is a scalar, or an object with different keys
that can be found again. -/
def IsPlain : Value → Prop
  | .object members =>
      (Entries.keys members).Nodup ∧ ∀ key ∈ Entries.keys members, IsKey key
  | v => IsScalar v

instance : DecidablePred IsPlain
  | .object members =>
      inferInstanceAs (Decidable ((Entries.keys members).Nodup ∧
        ∀ key ∈ Entries.keys members, IsKey key))
  | .string s => inferInstanceAs (Decidable (IsQuotable s))
  | .null | .bool _ | .number (.integer _) => inferInstanceAs (Decidable True)
  | .number (.float _) | .array _ => inferInstanceAs (Decidable False)

def HasOutline : Value → Prop :=
  Value.Everywhere IsPlain

instance : DecidablePred HasOutline :=
  inferInstanceAs (DecidablePred (Value.Everywhere _))

theorem isScalar_of_isPlain {v : Value} (h : IsPlain v)
    (hobject : ∀ members, v ≠ .object members) : IsScalar v := by
  cases v with
  | object members => exact absurd rfl (hobject members)
  | null | bool _ | number _ | string _ | array _ => exact h

/-! ### Lines -/

def inQuotes (text : String) : List Char :=
  '"' :: (text.toList ++ ['"'])

def scalarText : Value → List Char
  | .null => "null".toList
  | .bool b => (if b then "true" else "false").toList
  | .number n => n.display.toList
  | .string s => inQuotes s
  | .array _ | .object _ => []

def Line.keyText (line : Line) : List Char :=
  List.replicate line.indent ' ' ++ inQuotes line.key

def Line.valueText (line : Line) : List Char :=
  match line.value with
  | none => []
  | some value => ' ' :: scalarText value

def Line.text (line : Line) : List Char :=
  line.keyText ++ ':' :: line.valueText

mutual

/-- The line of a member, and the deeper lines of an object behind it. -/
def memberLines (width level : Nat) (key : String) : Value → List Line
  | .object members =>
      ⟨width * level, key, none⟩ :: outline width (level + 1) members
  | scalar => [⟨width * level, key, some scalar⟩]

/-- The lines of the members of an object, each level indented by one more width. -/
def outline (width level : Nat) : List (String × Value) → List Line
  | [] => []
  | (key, value) :: rest =>
      memberLines width level key value ++ outline width level rest

end

theorem memberLines_of_isScalar {v : Value} (h : IsScalar v) (width level : Nat)
    (key : String) :
    memberLines width level key v = [⟨width * level, key, some v⟩] := by
  rw [memberLines]
  rintro members rfl
  exact h

/-- Lines with a comment behind some of them, and with blank lines and lines that are nothing
but a comment among them. -/
inductive Annotated : List (List Char) → List (List Char) → Prop
  | nil : Annotated [] []
  | same {line : List Char} {ls ws : List (List Char)} (h : Annotated ls ws) :
      Annotated (line :: ls) (line :: ws)
  | comment {line c : List Char} {ls ws : List (List Char)} (hfeed : '\n' ∉ c)
      (h : Annotated ls ws) : Annotated (line :: ls) ((line ++ ' ' :: '#' :: c) :: ws)
  | blank {blank : List Char} {ls ws : List (List Char)} (hblank : isBlankText blank)
      (hfeed : '\n' ∉ blank) (h : Annotated ls ws) : Annotated ls (blank :: ws)
  | remark {blank c : List Char} {ls ws : List (List Char)} (hblank : isBlankText blank)
      (hfeed : '\n' ∉ blank ++ c) (h : Annotated ls ws) :
      Annotated ls ((blank ++ '#' :: c) :: ws)

/-- Lines put together to a text, with line feeds between them.  If the last line is empty,
the text ends with a line feed. -/
def joinLines (ws : List (List Char)) : String :=
  String.ofList (['\n'].intercalate ws)

end DocWeave.Yaml.Outline

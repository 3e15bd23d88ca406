/-
Quotes and comments of a line.  By rule a quote opens only as the first character of a key or
of a value, and a number sign behind a blank starts a comment unless a quote is open.  The
reader of lines opens a quote at the start of every token, and a token starts behind any
blank.
-/
import DocWeave.Proofs.Outline.Cut
import DocWeave.Proofs.Outline.Line

namespace DocWeave.Yaml.Outline

/-! ### The rule -/

def IsQuote (c : Char) : Prop :=
  c = '"' ∨ c = '\''

instance : DecidablePred IsQuote :=
  fun _ => inferInstanceAs (Decidable (_ ∨ _))

/-- The quote that a key or a value leaves open: its first character that is not blank, if
that is a quote and does not come again. -/
def openQuote? (text : List Char) : Option Char :=
  match trimStart text with
  | [] => none
  | q :: inner => if IsQuote q ∧ q ∉ inner then some q else none

/-- What stands behind the first colon of a line outside the quotes of its key, of which `key`
has been passed. -/
def valuePart? (key : List Char) : List Char → Option (List Char)
  | [] => none
  | c :: rest =>
      if c = ':' ∧ openQuote? key = none then some rest else valuePart? (key ++ [c]) rest

/-- The quote that is open behind the beginning of a line. -/
def quoteBehind? (before : List Char) : Option Char :=
  (openQuote? before).or ((valuePart? [] before).bind openQuote?)

/-- The beginning of a line is empty or ends with white space. -/
def isAtBlank (before : List Char) : Bool :=
  before.getLast?.all isSpace

/-- A number sign behind the beginning of a line starts a comment. -/
def StartsComment (before : List Char) : Prop :=
  isAtBlank before ∧ quoteBehind? before = none

instance : DecidablePred StartsComment :=
  fun _ => inferInstanceAs (Decidable (_ ∧ _))

/-! ### The reader of lines -/

/-- The beginning of a line is empty or ends with white space or a colon. -/
def isAtToken (before : List Char) : Bool :=
  before.getLast?.all fun c => isSpace c || c = ':'

/-- The quote that is open behind one more character, if one may open there. -/
def nextQuote? (opens : Prop) [Decidable opens] (quote : Option Char) (c : Char) :
    Option Char :=
  match quote with
  | some q => if c = q then none else some q
  | none => if opens ∧ IsQuote c then some c else none

/-- The quote that a text leaves open if one may open at the start of every token: `passed`
stands in front of the text and has left `quote` open. -/
def tokenQuote? (passed : List Char) (quote : Option Char) : List Char → Option Char
  | [] => quote
  | c :: rest => tokenQuote? (passed ++ [c]) (nextQuote? (isAtToken passed) quote c) rest

def tokenQuoteBehind? (before : List Char) : Option Char :=
  tokenQuote? [] none before

/-- The reader takes a number sign behind the beginning of a line for the start of a
comment. -/
def EndsReading (before : List Char) : Prop :=
  isAtBlank before ∧ tokenQuoteBehind? before = none

instance : DecidablePred EndsReading :=
  fun _ => inferInstanceAs (Decidable (_ ∧ _))

theorem isQuote_iff (c : Char) : IsQuote c ↔ (c = '"' || c = '\'') = true := by
  simp [IsQuote]

theorem IsQuote.not_isSpace {c : Char} (h : IsQuote c) : isSpace c = false := by
  rcases h with rfl | rfl
  · decide
  · decide

theorem IsQuote.ne_sign {c : Char} (h : IsQuote c) : c ≠ '#' := by
  rcases h with rfl | rfl
  · decide
  · decide

theorem IsQuote.ne_colon {c : Char} (h : IsQuote c) : c ≠ ':' := by
  rcases h with rfl | rfl
  · decide
  · decide

theorem tokenQuote?_append (passed : List Char) (quote : Option Char) (text : List Char)
    (c : Char) :
    tokenQuote? passed quote (text ++ [c]) =
      nextQuote? (isAtToken (passed ++ text)) (tokenQuote? passed quote text) c := by
  induction text generalizing passed quote with
  | nil => simp [tokenQuote?]
  | cons d text ih =>
      rw [List.cons_append, tokenQuote?, tokenQuote?, ih, List.append_assoc,
        List.singleton_append]

theorem tokenQuoteBehind?_append (before : List Char) (c : Char) :
    tokenQuoteBehind? (before ++ [c]) =
      nextQuote? (isAtToken before) (tokenQuoteBehind? before) c :=
  tokenQuote?_append [] none before c

theorem isQuote_of_tokenQuoteBehind? {before : List Char} {q : Char}
    (h : tokenQuoteBehind? before = some q) : IsQuote q := by
  induction before using List.reverseRecOn with
  | nil => cases h
  | append_singleton before c ih =>
      rw [tokenQuoteBehind?_append] at h
      rcases hopen : tokenQuoteBehind? before with _ | p
      · rw [hopen] at h
        obtain ⟨⟨-, hquote⟩, hc⟩ := Option.ite_none_right_eq_some.1 h
        exact Option.some.inj hc ▸ hquote
      · rw [hopen] at h
        obtain ⟨-, hp⟩ := Option.ite_none_left_eq_some.1 h
        exact ih (hopen.trans hp)

theorem isAtToken_append (before : List Char) (c : Char) :
    isAtToken (before ++ [c]) = (isSpace c || decide (c = ':')) := by
  rw [isAtToken, List.getLast?_concat]
  rfl

theorem isAtBlank_append (before : List Char) (c : Char) :
    isAtBlank (before ++ [c]) = isSpace c := by
  rw [isAtBlank, List.getLast?_concat]
  rfl

/-- The rest of a line without its comment, read with the flags that the reader has behind the
beginning of the line. -/
def restBehind (before rest : List Char) : List Char :=
  stripComment (tokenQuoteBehind? before) (isAtToken before) (isAtBlank before) rest

/-- While a quote is open the flags do not count. -/
theorem stripComment_some (q : Char) (start blank start' blank' : Bool) (text : List Char) :
    stripComment (some q) start blank text = stripComment (some q) start' blank' text := by
  rcases text with _ | ⟨c, rest⟩
  · rfl
  · rfl

theorem restBehind_of_some {before : List Char} {q : Char}
    (h : tokenQuoteBehind? before = some q) (start blank : Bool) (rest : List Char) :
    restBehind before rest = stripComment (some q) start blank rest := by
  rw [restBehind, h]
  exact stripComment_some q _ _ start blank rest

theorem restBehind_cons_of_some {before : List Char} {q : Char}
    (h : tokenQuoteBehind? before = some q) (c : Char) (rest : List Char) :
    restBehind before (c :: rest) = c :: restBehind (before ++ [c]) rest := by
  have hnext := tokenQuoteBehind?_append before c
  rw [h, nextQuote?] at hnext
  rw [restBehind, h, stripComment]
  by_cases hc : c = q
  · have hcolon : c ≠ ':' := hc ▸ (isQuote_of_tokenQuoteBehind? h).ne_colon
    rw [if_pos hc] at hnext ⊢
    rw [restBehind, hnext, isAtToken_append, isAtBlank_append]
    simp [hcolon]
  · rw [if_neg hc] at hnext ⊢
    rw [restBehind_of_some hnext]

theorem restBehind_cons_of_none {before : List Char} (h : tokenQuoteBehind? before = none)
    (c : Char) (rest : List Char) :
    restBehind before (c :: rest) =
      if c = '#' ∧ isAtBlank before then [] else c :: restBehind (before ++ [c]) rest := by
  have hnext := tokenQuoteBehind?_append before c
  rw [h, nextQuote?] at hnext
  rw [restBehind, h, stripComment]
  by_cases hopens : isAtToken before ∧ IsQuote c
  · have hsign : ¬ (c = '#' ∧ isAtBlank before) := fun hsign => hopens.2.ne_sign hsign.1
    rw [if_pos hopens] at hnext
    rw [if_neg hsign, (isQuote_iff c).1 hopens.2, hopens.1, restBehind_of_some hnext]
    rfl
  · have hplain : ¬ ((c = '"' || c = '\'') && isAtToken before) = true := fun hboth =>
      hopens ((Bool.and_eq_true_iff.1 hboth).symm.imp_right (isQuote_iff c).2)
    rw [if_neg hopens] at hnext
    rw [if_neg hplain, restBehind, hnext, isAtToken_append, isAtBlank_append]
    simp

/-- The reader goes on until a comment starts. -/
theorem restBehind_cons (before : List Char) (c : Char) (rest : List Char) :
    restBehind before (c :: rest) =
      if c = '#' ∧ EndsReading before then [] else c :: restBehind (before ++ [c]) rest := by
  rcases hopen : tokenQuoteBehind? before with _ | q
  · rw [restBehind_cons_of_none hopen]
    simp [EndsReading, hopen]
  · rw [restBehind_cons_of_some hopen]
    simp [EndsReading, hopen]

theorem isCut_append_restBehind {before : List Char} (h : ¬ HasComment EndsReading before)
    (rest : List Char) :
    IsCut EndsReading (before ++ rest) (before ++ restBehind before rest) := by
  induction rest generalizing before with
  | nil =>
      have hnil : restBehind before [] = [] := by rw [restBehind, stripComment]
      rw [hnil, List.append_nil]
      exact ⟨Or.inl rfl, h⟩
  | cons c rest ih =>
      rw [restBehind_cons]
      by_cases hcut : c = '#' ∧ EndsReading before
      · rw [if_pos hcut, List.append_nil]
        obtain ⟨rfl, hends⟩ := hcut
        exact ⟨Or.inr ⟨rest, rfl, hends⟩, h⟩
      · have hnext : ¬ HasComment EndsReading (before ++ [c]) := by
          rw [hasComment_concat]
          exact not_or.2 ⟨h, hcut⟩
        rw [if_neg hcut, List.append_cons before c rest,
          List.append_cons before c (restBehind _ rest)]
        exact ih hnext

/-- A line is read up to the first number sign that the reader takes for a comment. -/
theorem isCut_stripComment (line : List Char) :
    IsCut EndsReading line (stripComment none true true line) :=
  isCut_append_restBehind not_hasComment_nil line

theorem stripComment_eq_self {line : List Char} (h : ¬ HasComment EndsReading line) :
    stripComment none true true line = line :=
  (isCut_stripComment line).unique ⟨Or.inl rfl, h⟩

/-- While a quote is open no comment starts. -/
theorem not_hasComment_append_of_open {before : List Char} {q : Char}
    (h : tokenQuoteBehind? before = some q) (hfirst : ¬ HasComment EndsReading before)
    {text : List Char} (hq : q ∉ text) : ¬ HasComment EndsReading (before ++ text) := by
  induction text generalizing before with
  | nil => rwa [List.append_nil]
  | cons c text ih =>
      obtain ⟨hc, htext⟩ := not_or.1 (mt List.mem_cons.2 hq)
      have hnext : tokenQuoteBehind? (before ++ [c]) = some q := by
        rw [tokenQuoteBehind?_append, h]
        exact if_neg (Ne.symm hc)
      have hends : ¬ EndsReading before := by
        rintro ⟨-, hclosed⟩
        exact Option.some_ne_none q (h.symm.trans hclosed)
      rw [List.append_cons]
      refine ih hnext ?_ htext
      rw [hasComment_concat]
      exact not_or.2 ⟨hfirst, fun hsign => hends hsign.2⟩

end DocWeave.Yaml.Outline

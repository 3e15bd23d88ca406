/-
Where the reader of lines cuts a line by the rule: exactly if the two agree, at each number
sign up to the first comment, on whether a quote is open.  A quote is stray where a token
starts inside plain text: by rule it is a character like any other, but the reader opens it.
Up to the first stray quote rule and reader agree, and one that does not come again hides
every comment behind it.
-/
import DocWeave.Proofs.Outline.Quotes

namespace DocWeave.Yaml.Outline

/-- A key or a value starts behind the beginning of a line. -/
def Opens (before : List Char) : Prop :=
  isBlankText before ∨ (valuePart? [] before).any isBlankText

instance : DecidablePred Opens :=
  fun _ => inferInstanceAs (Decidable (_ ∨ _))

/-- A quote in plain text that stands where a token starts. -/
structure IsStray (before : List Char) (c : Char) : Prop where
  isQuote : IsQuote c
  outside : quoteBehind? before = none
  atToken : isAtToken before
  inText : ¬ Opens before

theorem isStray_iff {before : List Char} {c : Char} :
    IsStray before c ↔
      IsQuote c ∧ quoteBehind? before = none ∧ isAtToken before ∧ ¬ Opens before := by
  constructor
  · rintro ⟨hquote, houtside, htoken, htext⟩
    exact ⟨hquote, houtside, htoken, htext⟩
  · rintro ⟨hquote, houtside, htoken, htext⟩
    exact ⟨hquote, houtside, htoken, htext⟩

instance (before : List Char) : DecidablePred (IsStray before) :=
  fun _ => decidable_of_iff _ isStray_iff.symm

def HasStray (before : List Char) : Prop :=
  ∃ earlier c later, before = earlier ++ c :: later ∧ IsStray earlier c

instance : DecidablePred HasStray := fun before =>
  decidable_of_iff (∃ n, ∃ h : n < before.length, IsStray (before.take n) before[n]) <| by
    constructor
    · rintro ⟨n, hn, hstray⟩
      exact ⟨before.take n, before[n], before.drop (n + 1), by simp, hstray⟩
    · rintro ⟨earlier, c, later, rfl, hstray⟩
      exact ⟨earlier.length, by simp, by simpa using hstray⟩

/-- A line in which no stray quote stands in front of a number sign behind a blank, but for
those inside its first comment. -/
def IsTidy (line : List Char) : Prop :=
  ∀ before rest, line = before ++ '#' :: rest → isAtBlank before → HasStray before →
    HasComment StartsComment before

instance : DecidablePred IsTidy := fun line =>
  decidable_of_iff (¬ HasComment (fun before => isAtBlank before ∧ HasStray before ∧
      ¬ HasComment StartsComment before) line) <| by
    constructor
    · intro h before rest hline hblank hstray
      by_contra hfirst
      exact h ⟨before, rest, hline, hblank, hstray, hfirst⟩
    · rintro h ⟨before, rest, hline, hblank, hstray, hfirst⟩
      exact hfirst (h before rest hline hblank hstray)

/-! ### The rule, one character further -/

theorem openQuote?_of_isBlankText {text : List Char} (h : isBlankText text) :
    openQuote? text = none := by
  rw [openQuote?, (trimStart_eq_nil_iff text).2 h]

theorem openQuote?_append_of_isBlankText {text : List Char} (h : isBlankText text) (c : Char) :
    openQuote? (text ++ [c]) = if IsQuote c then some c else none := by
  rw [openQuote?, trimStart_append_of_isBlankText h]
  by_cases hspace : isSpace c
  · have hquote : ¬ IsQuote c := fun hquote => by simp [hquote.not_isSpace] at hspace
    simp [trimStart, hspace, hquote]
  · simp [trimStart, hspace]

theorem openQuote?_append_of_not_isBlankText {text : List Char} (h : ¬ isBlankText text)
    (c : Char) : openQuote? (text ++ [c]) =
      (openQuote? text).bind fun q => if c = q then none else some q := by
  rw [openQuote?, openQuote?, trimStart_append_of_not_isBlankText h]
  rcases htext : trimStart text with _ | ⟨q, inner⟩
  · exact absurd ((trimStart_eq_nil_iff text).1 htext) h
  · by_cases hclosed : IsQuote q ∧ q ∉ inner
    · by_cases hc : c = q
      · simp [hclosed, hc]
      · simp [hclosed, hc, Ne.symm hc]
    · have hstill : ¬ (IsQuote q ∧ q ∉ inner ++ [c]) := fun hopen =>
        hclosed ⟨hopen.1, fun hmem => hopen.2 (List.mem_append_left [c] hmem)⟩
      simp only [List.cons_append]
      rw [if_neg hclosed, if_neg hstill, Option.bind_none]

/-- A quote stays open until it comes again. -/
theorem openQuote?_append_of_some {text : List Char} {q : Char} (h : openQuote? text = some q)
    (c : Char) : openQuote? (text ++ [c]) = if c = q then none else some q := by
  have hblank : ¬ isBlankText text := fun hblank => by
    simp [openQuote?_of_isBlankText hblank] at h
  rw [openQuote?_append_of_not_isBlankText hblank, h, Option.bind_some]

theorem openQuote?_append_of_none {text : List Char} (h : openQuote? text = none) (c : Char) :
    openQuote? (text ++ [c]) = if isBlankText text ∧ IsQuote c then some c else none := by
  by_cases hblank : isBlankText text
  · rw [openQuote?_append_of_isBlankText hblank]
    simp [hblank]
  · rw [openQuote?_append_of_not_isBlankText hblank, h, if_neg (fun hopen => hblank hopen.1)]
    rfl

theorem valuePart?_append (key text : List Char) (c : Char) :
    valuePart? key (text ++ [c]) =
      match valuePart? key text with
      | some value => some (value ++ [c])
      | none => if c = ':' ∧ openQuote? (key ++ text) = none then some [] else none := by
  induction text generalizing key with
  | nil => simp [valuePart?]
  | cons d text ih =>
      rw [List.cons_append, valuePart?, valuePart?]
      split
      · rfl
      · rw [ih]
        simp

theorem exists_eq_append_of_valuePart? {key text value : List Char}
    (h : valuePart? key text = some value) : ∃ front, text = front ++ ':' :: value := by
  induction text generalizing key with
  | nil => cases h
  | cons c text ih =>
      rw [valuePart?] at h
      split at h
      next hcolon =>
        obtain rfl := Option.some.inj h
        exact ⟨[], by rw [hcolon.1]; rfl⟩
      next =>
        obtain ⟨front, rfl⟩ := ih h
        exact ⟨c :: front, rfl⟩

/-- Once the value has begun, the key is over. -/
theorem openQuote?_of_valuePart? {before value : List Char}
    (h : valuePart? [] before = some value) :
    openQuote? before = none ∧ ¬ isBlankText before := by
  induction before using List.reverseRecOn generalizing value with
  | nil => cases h
  | append_singleton before c ih =>
      rw [valuePart?_append, List.nil_append] at h
      split at h
      next earlier hearlier =>
        obtain ⟨hnone, hblank⟩ := ih hearlier
        rw [openQuote?_append_of_none hnone, if_neg (fun hopen => hblank hopen.1)]
        refine ⟨rfl, fun hall => hblank ?_⟩
        simp only [isBlankText, List.all_append, Bool.and_eq_true] at hall
        exact hall.1
      next =>
        obtain ⟨⟨rfl, hnone⟩, -⟩ := Option.ite_none_right_eq_some.1 h
        rw [openQuote?_append_of_none hnone, if_neg (fun hopen => hopen.2.ne_colon rfl)]
        refine ⟨rfl, fun hall => ?_⟩
        simp [isBlankText, isSpace] at hall

theorem quoteBehind?_append_of_some {before : List Char} {q : Char}
    (h : quoteBehind? before = some q) (c : Char) :
    quoteBehind? (before ++ [c]) = if c = q then none else some q := by
  rw [quoteBehind?, valuePart?_append, List.nil_append]
  rw [quoteBehind?] at h
  rcases hvalue : valuePart? [] before with _ | value
  · rw [hvalue, Option.bind_none, Option.or_none] at h
    simp [h, openQuote?_append_of_some h]
  · obtain ⟨hnone, hblank⟩ := openQuote?_of_valuePart? hvalue
    rw [hvalue, hnone, Option.none_or, Option.bind_some] at h
    simp only [Option.bind_some]
    rw [openQuote?_append_of_none hnone, if_neg (fun hopen => hblank hopen.1), Option.none_or,
      openQuote?_append_of_some h]

theorem quoteBehind?_append_of_none {before : List Char} (h : quoteBehind? before = none)
    (c : Char) :
    quoteBehind? (before ++ [c]) = if Opens before ∧ IsQuote c then some c else none := by
  rw [quoteBehind?, Option.or_eq_none_iff] at h
  obtain ⟨hkey, hvalue⟩ := h
  rw [quoteBehind?, openQuote?_append_of_none hkey, valuePart?_append, List.nil_append]
  rcases hpart : valuePart? [] before with _ | value
  · by_cases hcolon : c = ':'
    · subst hcolon
      have hquote : ¬ IsQuote ':' := fun hquote => hquote.ne_colon rfl
      have hnothing : openQuote? [] = none := rfl
      simp [hquote, hkey, hnothing]
    · simp [Opens, hpart, hcolon]
  · have hblank := (openQuote?_of_valuePart? hpart).2
    rw [hpart, Option.bind_some] at hvalue
    simp [Opens, hpart, hblank, openQuote?_append_of_none hvalue]

/-- By rule a quote opens where a key or a value starts, and nowhere else. -/
theorem quoteBehind?_append (before : List Char) (c : Char) :
    quoteBehind? (before ++ [c]) = nextQuote? (Opens before) (quoteBehind? before) c := by
  rcases hopen : quoteBehind? before with _ | q
  · exact quoteBehind?_append_of_none hopen c
  · exact quoteBehind?_append_of_some hopen c

/-! ### The reader up to a stray quote -/

/-- Where a key or a value starts, a token starts. -/
theorem Opens.isAtToken {before : List Char} (h : Opens before) : isAtToken before := by
  rw [Outline.isAtToken, Option.all_eq_true]
  intro c hc
  rcases h with hblank | hvalue
  · simp [List.all_eq_true.1 hblank c (List.mem_of_getLast? hc)]
  · obtain ⟨value, hpart, hblank⟩ := (Option.any_eq_true _ _).1 hvalue
    obtain ⟨front, rfl⟩ := exists_eq_append_of_valuePart? hpart
    rw [List.getLast?_append, List.getLast?_cons] at hc
    rcases hlast : value.getLast? with _ | d
    · obtain rfl : ':' = c := by simpa [hlast] using hc
      simp
    · obtain rfl : d = c := by simpa [hlast] using hc
      simp [List.all_eq_true.1 hblank d (List.mem_of_getLast? hlast)]

/-- Up to a stray quote the reader knows what is open. -/
theorem tokenQuoteBehind?_eq {before : List Char} (h : ¬ HasStray before) :
    tokenQuoteBehind? before = quoteBehind? before := by
  induction before using List.reverseRecOn with
  | nil => rfl
  | append_singleton before c ih =>
      have hbefore : ¬ HasStray before := by
        rintro ⟨earlier, d, later, rfl, hstray⟩
        exact h ⟨earlier, d, later ++ [c], by simp, hstray⟩
      have hstray : ¬ IsStray before c := fun hstray => h ⟨before, c, [], rfl, hstray⟩
      rw [tokenQuoteBehind?_append, quoteBehind?_append, ih hbefore]
      rcases hopen : quoteBehind? before with _ | q
      · refine if_congr (and_congr_left fun hquote => ?_) rfl rfl
        constructor
        · intro htoken
          exact Decidable.byContradiction fun hopens => hstray ⟨hquote, hopen, htoken, hopens⟩
        · exact Opens.isAtToken
      · rfl

theorem endsReading_iff {before : List Char} (h : isAtBlank before → ¬ HasStray before) :
    EndsReading before ↔ StartsComment before :=
  and_congr_right fun hblank => by rw [tokenQuoteBehind?_eq (h hblank)]

/-- A tidy line is read up to its first comment. -/
theorem isCut_stripComment_of_isTidy {line : List Char} (h : IsTidy line) :
    IsCut StartsComment line (stripComment none true true line) := by
  refine (isCut_stripComment line).isCut_iff.2 fun before rest hline hfirst => ?_
  exact endsReading_iff fun hblank hstray => hfirst (h before rest hline hblank hstray)

/-- A stray quote that does not come again hides every comment behind it. -/
theorem stripComment_of_isStray {before rest : List Char} {q : Char}
    (h : ¬ HasStray before) (hfirst : ¬ HasComment StartsComment before)
    (hstray : IsStray before q) (hrest : q ∉ rest) :
    stripComment none true true (before ++ q :: rest) = before ++ q :: rest := by
  have hopen : tokenQuoteBehind? (before ++ [q]) = some q := by
    rw [tokenQuoteBehind?_append, tokenQuoteBehind?_eq h, hstray.outside]
    exact if_pos ⟨hstray.atToken, hstray.isQuote⟩
  have hread : ¬ HasComment EndsReading (before ++ [q]) := by
    rw [hasComment_concat]
    rintro (⟨earlier, later, rfl, hends⟩ | ⟨hsign, -⟩)
    · refine hfirst ⟨earlier, later, rfl, (endsReading_iff fun _ => ?_).1 hends⟩
      rintro ⟨front, d, behind, rfl, hearlier⟩
      exact h ⟨front, d, behind ++ '#' :: later, by simp, hearlier⟩
    · exact hstray.isQuote.ne_sign hsign
  rw [List.append_cons]
  exact stripComment_eq_self (not_hasComment_append_of_open hopen hread hrest)

/-- A line is cut by the rule exactly if, at each number sign behind a blank and in front of
any comment, the reader is right about whether a quote is open.  So a tidy line is, while a
stray quote that does not come again leaves every comment behind it in the line. -/
theorem isCut_stripComment_iff (line : List Char) :
    (IsCut StartsComment line (stripComment none true true line) ↔
      ∀ before rest, line = before ++ '#' :: rest → ¬ HasComment StartsComment before →
        isAtBlank before → (tokenQuoteBehind? before = none ↔ quoteBehind? before = none)) ∧
    (IsTidy line → IsCut StartsComment line (stripComment none true true line)) ∧
    ∀ before q rest, line = before ++ q :: rest → ¬ HasStray before →
      ¬ HasComment StartsComment before → IsStray before q → q ∉ rest →
      stripComment none true true line = line := by
  refine ⟨?_, isCut_stripComment_of_isTidy, ?_⟩
  · rw [(isCut_stripComment line).isCut_iff]
    simp only [EndsReading, StartsComment, and_congr_right_iff]
  · rintro before q rest rfl hnone hfirst hstray hrest
    exact stripComment_of_isStray hnone hfirst hstray hrest

/-- An apostrophe inside a key and a number sign inside a quoted value do no harm, but the
apostrophe in front of a word is stray. -/
theorem isCut_stripComment_iff_of_apostrophes :
    let tidy := "don't: 'a # b' # c".toList
    let untidy := "note: rock 'n roll # hidden".toList
    IsTidy tidy ∧ IsCut StartsComment tidy (stripComment none true true tidy) ∧
      stripComment none true true tidy = "don't: 'a # b' ".toList ∧
      ¬ IsTidy untidy ∧ stripComment none true true untidy = untidy := by
  intro tidy untidy
  have htidy : IsTidy tidy := by decide
  have hhidden : stripComment none true true untidy = untidy :=
    (isCut_stripComment_iff untidy).2.2 "note: rock ".toList '\'' "n roll # hidden".toList rfl
      (by decide) (by decide) (by decide) (by decide)
  exact ⟨htidy, (isCut_stripComment_iff tidy).2.1 htidy, rfl, by decide, hhidden⟩

/-- The apostrophe in front of a word opens a quote for the reader, and the comment stays. -/
theorem not_isCut_stripComment_of_apostrophe :
    IsCut StartsComment "note: rock 'n roll # hidden".toList "note: rock 'n roll ".toList ∧
      ¬ IsCut StartsComment "note: rock 'n roll # hidden".toList
        (stripComment none true true "note: rock 'n roll # hidden".toList) := by
  have hcut : IsCut StartsComment "note: rock 'n roll # hidden".toList
      "note: rock 'n roll ".toList :=
    ⟨Or.inr ⟨" hidden".toList, by decide, by decide⟩, by decide⟩
  have hread : stripComment none true true "note: rock 'n roll # hidden".toList =
      "note: rock 'n roll # hidden".toList := by decide
  refine ⟨hcut, fun hwhole => ?_⟩
  have heq := hcut.unique hwhole
  rw [hread] at heq
  exact absurd heq (by decide)

end DocWeave.Yaml.Outline

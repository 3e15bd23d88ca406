/-
The lexemes of a text cover it.  A round that starts where a character begins passes a lexeme
or meets a flaw, so the position always moves, stays where a character begins and never leaves
the text; the loop ends, cuts the text only where it can be cut, and gives the tokens of the
text.  The lexemes that its rounds pass, one behind the other, are the text.
-/
import Mathlib
import DocWeave.Proofs.Xml.Scan
import DocWeave.Xml.Tree

namespace DocWeave.Xml.Scan

/-! ### Rows of lexemes -/

/-- A lexeme, with the token that it gives and the text behind it: markup, or a run of text up
to the next bracket. -/
inductive IsLexeme : Option Token → List Char → List Char → Prop
  | markup {token : Option Token} {m : List Char} (hm : Markup token m) (rest : List Char) :
      IsLexeme token ('<' :: m) rest
  | run {s t rest : List Char} (hne : s ≠ []) (hs : ∀ c ∈ s, isPlain c)
      (hdecode : decode s = .ok t) (hrest : StartsWithTag rest) :
      IsLexeme (some (.text (String.ofList t))) s rest

structure Passed where
  token : Option Token
  text : List Char
deriving DecidableEq

def tokensOf (row : List Passed) : List Token :=
  row.filterMap Passed.token

def textOf (row : List Passed) : List Char :=
  row.flatMap Passed.text

@[simp] theorem tokensOf_cons (passed : Passed) (row : List Passed) :
    tokensOf (passed :: row) = passed.token.toList ++ tokensOf row := by
  obtain ⟨token, text⟩ := passed
  cases token <;> rfl

@[simp] theorem textOf_cons (passed : Passed) (row : List Passed) :
    textOf (passed :: row) = passed.text ++ textOf row :=
  List.flatMap_cons

/-- A row of lexemes, each of them one in front of the text of those behind it. -/
inductive IsRow : List Passed → Prop
  | nil : IsRow []
  | cons {passed : Passed} {row : List Passed}
      (hlexeme : IsLexeme passed.token passed.text (textOf row)) (hrow : IsRow row) :
      IsRow (passed :: row)

variable {token : Option Token} {w rest : List Char}

theorem IsLexeme.ne_nil (h : IsLexeme token w rest) : w ≠ [] := by
  cases h with
  | markup hm => exact List.cons_ne_nil _ _
  | run hne => exact hne

/-- What was read as a lexeme is one. -/
theorem exists_isLexeme {c : Char} {after : Remainder (c :: rest)}
    (h : lexeme c rest = .ok (token, after)) :
    ∃ w, IsLexeme token w after.1 ∧ c :: rest = w ++ after.1 := by
  rcases exists_of_lexeme h with
    ⟨m, hm, htext⟩ | ⟨s, t, hne, hs, hdecode, hstop, rfl, htext⟩
  · exact ⟨'<' :: m, .markup hm after.1, htext⟩
  · exact ⟨s, .run hne hs hdecode hstop, htext⟩

/-- A lexeme is read as what it is. -/
theorem IsLexeme.lexeme_eq (h : IsLexeme token w rest) :
    ∃ c behind hlt, w ++ rest = c :: behind ∧
      lexeme c behind = .ok (token, ⟨rest, hlt⟩) := by
  cases h with
  | @markup _ m hm =>
      obtain ⟨hlt, hmarked⟩ := hm.marked_eq rest
      exact ⟨'<', m ++ rest, _, rfl, lexeme_of_marked hmarked⟩
  | run hne hs hdecode hrest =>
      obtain ⟨c, more, rfl⟩ := List.exists_cons_of_ne_nil hne
      obtain ⟨hlt, hlexeme⟩ := lexeme_run hs hdecode hrest
      exact ⟨c, more ++ rest, hlt, rfl, hlexeme⟩

/-- A text begins with one lexeme at most. -/
theorem IsLexeme.eq_of_append {token' : Option Token} {w' rest' : List Char}
    (h : IsLexeme token w rest) (h' : IsLexeme token' w' rest') (htext : w ++ rest = w' ++ rest') :
    token = token' ∧ w = w' ∧ rest = rest' := by
  obtain ⟨c, behind, hlt, hcons, hlexeme⟩ := h.lexeme_eq
  obtain ⟨c', behind', hlt', hcons', hlexeme'⟩ := h'.lexeme_eq
  obtain ⟨rfl, rfl⟩ := List.cons.inj (hcons.symm.trans (htext.trans hcons'))
  cases hlexeme.symm.trans hlexeme'
  exact ⟨rfl, List.append_cancel_right htext, rfl⟩

theorem IsRow.eq_of_textOf {row row' : List Passed} (h : IsRow row) (h' : IsRow row')
    (htext : textOf row = textOf row') : row = row' := by
  induction h generalizing row' with
  | nil =>
      cases h' with
      | nil => rfl
      | cons hlexeme hrow =>
          rw [textOf_cons] at htext
          exact absurd (List.append_eq_nil_iff.1 htext.symm).1 hlexeme.ne_nil
  | @cons passed row hlexeme hrow ih =>
      rw [textOf_cons] at htext
      cases h' with
      | nil => exact absurd (List.append_eq_nil_iff.1 htext).1 hlexeme.ne_nil
      | @cons passed' row' hlexeme' hrow' =>
          rw [textOf_cons] at htext
          obtain ⟨htoken, hw, hbehind⟩ := hlexeme.eq_of_append hlexeme' htext
          obtain ⟨token, w⟩ := passed
          cases htoken
          cases hw
          rw [ih hrow' hbehind]

/-! ### Rounds -/

/-- A round passes the lexeme at its position. -/
theorem IsLexeme.round_eq (h : IsLexeme token w rest) (front : List Char) :
    round (front ++ (w ++ rest)) (utf8Length front) =
      .ok (token, utf8Length front + utf8Length w) := by
  obtain ⟨c, behind, hlt, hcons, hlexeme⟩ := h.lexeme_eq
  have houtcome := outcome_append (utf8Length front) token w rest
  rw [hcons] at houtcome ⊢
  rw [Scan.round_eq, hlexeme]
  exact houtcome

theorem IsLexeme.tokenize_append (h : IsLexeme token w rest) :
    tokenize (w ++ rest) = (tokenize rest).map (token.toList ++ ·) := by
  obtain ⟨c, behind, hlt, hcons, hlexeme⟩ := h.lexeme_eq
  rw [hcons]
  exact tokenize_of_lexeme hlexeme

/-- A round where a character begins meets a flaw or passes a lexeme. -/
theorem round_cases (front : List Char) {rest : List Char} (hne : rest ≠ []) :
    (∃ flaw, round (front ++ rest) (utf8Length front) = .error (.flaw flaw) ∧
        tokenize rest = .error flaw) ∨
      ∃ token w after, rest = w ++ after ∧ IsLexeme token w after := by
  obtain ⟨c, more, rfl⟩ := List.exists_cons_of_ne_nil hne
  cases hlexeme : lexeme c more with
  | error flaw =>
      refine .inl ⟨flaw, ?_, tokenize_of_flaw hlexeme⟩
      rw [Scan.round_eq, hlexeme]
      rfl
  | ok found =>
      obtain ⟨token, after⟩ := found
      obtain ⟨w, hw, htext⟩ := exists_isLexeme hlexeme
      exact .inr ⟨token, w, after.1, htext, hw⟩

/-- A round that passes something moves the position. -/
theorem lt_of_round {input : List Char} {pos next : Nat} (hpos : pos < utf8Length input)
    (h : round input pos = .ok (token, next)) : pos < next := by
  obtain ⟨rest, hslice, -⟩ := exists_of_bind_eq_ok h
  obtain ⟨front, rfl, rfl⟩ := exists_of_sliceFrom hslice
  have hne := (utf8Length_lt_append_iff front rest).1 hpos
  rcases round_cases front hne with ⟨flaw, hround, -⟩ | ⟨token', w, after, rfl, hw⟩
  · cases hround.symm.trans h
  · cases (hw.round_eq front).symm.trans h
    exact Nat.lt_add_of_pos_right (utf8Length_pos_of_ne_nil hw.ne_nil)

/-! ### The loop -/

/-- The loop from a position on, with what each of its rounds passes. -/
def scan (input : List Char) (pos : Nat) : Except Stop (List Passed) :=
  if _hpos : pos < utf8Length input then
    match _h : round input pos with
    | .error stop => .error stop
    | .ok (token, next) => do
        let text ← slice input pos next
        return ⟨token, text⟩ :: (← scan input next)
  else .ok []
termination_by utf8Length input - pos
decreasing_by
  have hlt := lt_of_round _hpos _h
  omega

theorem scan_of_not_lt {input : List Char} {pos : Nat} (h : ¬ pos < utf8Length input) :
    scan input pos = .ok [] := by
  rw [scan, dif_neg h]

theorem scan_of_round_error {input : List Char} {pos : Nat} (hpos : pos < utf8Length input)
    {stop : Stop} (h : round input pos = .error stop) : scan input pos = .error stop := by
  rw [scan, dif_pos hpos]
  split
  next stop' h' =>
    cases h.symm.trans h'
    rfl
  next h' => cases h.symm.trans h'

theorem scan_of_round {input : List Char} {pos next : Nat} (hpos : pos < utf8Length input)
    (h : round input pos = .ok (token, next)) :
    scan input pos = do
      let text ← slice input pos next
      return ⟨token, text⟩ :: (← scan input next) := by
  rw [scan, dif_pos hpos]
  split
  next h' => cases h.symm.trans h'
  next h' =>
    cases h.symm.trans h'
    rfl

/-- Where a lexeme stands, the loop passes it and goes on behind it. -/
theorem IsLexeme.scan_append (h : IsLexeme token w rest) (front : List Char) :
    scan (front ++ (w ++ rest)) (utf8Length front) =
      (scan ((front ++ w) ++ rest) (utf8Length (front ++ w))).map (⟨token, w⟩ :: ·) := by
  have hne : w ++ rest ≠ [] := List.append_ne_nil_of_left_ne_nil h.ne_nil rest
  rw [scan_of_round ((utf8Length_lt_append_iff _ _).2 hne) (h.round_eq front), slice_append,
    List.append_assoc, utf8Length_append]
  cases scan (front ++ (w ++ rest)) (utf8Length front + utf8Length w) <;> rfl

/-- From where a character begins, the loop meets the flaw that the rest of the text has, or
passes lexemes that are the rest of the text and give its tokens. -/
theorem scan_cases (front rest : List Char) :
    (∃ flaw, tokenize rest = .error flaw ∧
        scan (front ++ rest) (utf8Length front) = .error (.flaw flaw)) ∨
      ∃ row, tokenize rest = .ok (tokensOf row) ∧
        scan (front ++ rest) (utf8Length front) = .ok row ∧ IsRow row ∧ textOf row = rest := by
  by_cases hne : rest = []
  · subst hne
    have hend := mt (utf8Length_lt_append_iff front []).1 (not_not_intro rfl)
    exact .inr ⟨[], tokenize_nil, scan_of_not_lt hend, .nil, rfl⟩
  rcases round_cases front hne with ⟨flaw, hround, htokens⟩ | ⟨token, w, after, rfl, hw⟩
  · have hpos := (utf8Length_lt_append_iff front rest).2 hne
    exact .inl ⟨flaw, htokens, scan_of_round_error hpos hround⟩
  rw [hw.scan_append, hw.tokenize_append]
  have hshorter : after.length < (w ++ after).length := by
    rw [List.length_append]
    exact Nat.lt_add_of_pos_left (List.length_pos_iff.2 hw.ne_nil)
  rcases scan_cases (front ++ w) after with
    ⟨flaw, htokens, hscan⟩ | ⟨row, htokens, hscan, hrow, rfl⟩
  · exact .inl ⟨flaw, by rw [htokens]; rfl, by rw [hscan]; rfl⟩
  · refine .inr ⟨⟨token, w⟩ :: row, ?_, by rw [hscan]; rfl, .cons hw hrow, textOf_cons _ _⟩
    rw [htokens, tokensOf_cons]
    rfl
termination_by rest.length

/-! ### Texts -/

/-- A round at a character of the text meets a flaw, or passes at least one character and
leaves the position at another one or at the end. -/
theorem round_of_isValid {input : List Char} {pos : Nat} (hpos : pos < utf8Length input)
    (hvalid : String.Pos.Raw.IsValid (String.ofList input) ⟨pos⟩) :
    (∃ flaw, round input pos = .error (.flaw flaw)) ∨
      ∃ token next w, round input pos = .ok (token, next) ∧ slice input pos next = .ok w ∧
        w ≠ [] ∧ next = pos + utf8Length w ∧ next ≤ utf8Length input ∧
          String.Pos.Raw.IsValid (String.ofList input) ⟨next⟩ := by
  obtain ⟨front, rest, rfl, rfl⟩ := (isValid_iff input pos).1 hvalid
  have hne := (utf8Length_lt_append_iff front rest).1 hpos
  rcases round_cases front hne with ⟨flaw, hround, -⟩ | ⟨token, w, after, rfl, hw⟩
  · exact .inl ⟨flaw, hround⟩
  have hnext : utf8Length (front ++ w) = utf8Length front + utf8Length w := utf8Length_append _ _
  have hvalid' : String.Pos.Raw.IsValid (String.ofList (front ++ (w ++ after)))
      ⟨utf8Length front + utf8Length w⟩ :=
    (isValid_iff _ _).2 ⟨front ++ w, after, (List.append_assoc front w after).symm, hnext.symm⟩
  have hend : utf8Length front + utf8Length w ≤ utf8Length (front ++ (w ++ after)) := by
    rw [← List.append_assoc, utf8Length_append, hnext]
    exact Nat.le_add_right _ _
  exact .inr ⟨token, _, w, hw.round_eq front, slice_append front w after, hw.ne_nil, rfl, hend,
    hvalid'⟩

/-- Each round of the loop moves the position by what it passes, from one character of the text
to another or to the end.  So the loop ends, never cuts the text where it cannot be cut, and
gives the tokens of the text or its flaw; when it gives tokens, what its rounds pass is the one
row of lexemes that the text is. -/
theorem scan_covers (text : String) :
    let input := dropMark text.toList
    (∀ pos < utf8Length input, String.Pos.Raw.IsValid (String.ofList input) ⟨pos⟩ →
      (∃ flaw, round input pos = .error (.flaw flaw)) ∨
        ∃ token next w, round input pos = .ok (token, next) ∧ slice input pos next = .ok w ∧
          w ≠ [] ∧ next = pos + utf8Length w ∧ next ≤ utf8Length input ∧
            String.Pos.Raw.IsValid (String.ofList input) ⟨next⟩) ∧
    (scan input 0).map tokensOf = (tokenize input).mapError .flaw ∧
    ∀ tokens, tokenize input = .ok tokens →
      ∃ row, scan input 0 = .ok row ∧ tokensOf row = tokens ∧ IsRow row ∧ textOf row = input ∧
        ∀ other, IsRow other → textOf other = input → other = row := by
  intro input
  refine ⟨fun pos hpos hvalid => round_of_isValid hpos hvalid, ?_, fun tokens htokens => ?_⟩
  · rcases scan_cases [] input with ⟨flaw, htokens, hscan⟩ | ⟨row, htokens, hscan, -, -⟩
    · rw [htokens]
      exact congrArg (Except.map tokensOf) hscan
    · rw [htokens]
      exact congrArg (Except.map tokensOf) hscan
  · rcases scan_cases [] input with ⟨flaw, hflaw, -⟩ | ⟨row, hfound, hscan, hrow, htext⟩
    · cases hflaw.symm.trans htokens
    · cases hfound.symm.trans htokens
      exact ⟨row, hscan, rfl, hrow, htext, fun other hother heq =>
        hother.eq_of_textOf hrow (heq.trans htext.symm)⟩

/-- Behind a mark, a tag of eleven bytes, a character of two and a closing tag; inside the
character there is no round. -/
theorem scan_covers_of_wide_characters :
    let input := dropMark "\uFEFF<é x=\"ß\">ü</é>".toList
    round input 12 = .error .outOfRange ∧
      (∃ w, round input 11 = .ok (some (.text "ü"), 13) ∧ slice input 11 13 = .ok w ∧
        utf8Length w = 2 ∧ String.Pos.Raw.IsValid (String.ofList input) ⟨13⟩) ∧
      ∃ row, scan input 0 = .ok row ∧ IsRow row ∧ textOf row = input ∧
        tokensOf row = [.opening "é" [("x", "ß")], .text "ü", .closing "é"] := by
  intro input
  have hinside : round (dropMark "\uFEFF<é x=\"ß\">ü</é>".toList) 12 = .error .outOfRange := by
    cbv
  have hround : round (dropMark "\uFEFF<é x=\"ß\">ü</é>".toList) 11 =
      .ok (some (.text "ü"), 13) := by
    cbv
  have htokens : tokenize (dropMark "\uFEFF<é x=\"ß\">ü</é>".toList) =
      .ok [.opening "é" [("x", "ß")], .text "ü", .closing "é"] := by
    cbv
  have hvalid : String.Pos.Raw.IsValid (String.ofList input) ⟨11⟩ :=
    (isValid_iff input 11).2 ⟨"<é x=\"ß\">".toList, "ü</é>".toList, rfl, by decide⟩
  obtain ⟨hrounds, -, hrow⟩ := scan_covers "\uFEFF<é x=\"ß\">ü</é>"
  obtain ⟨row, hscan, hrowTokens, hlexemes, htext, -⟩ := hrow _ htokens
  refine ⟨hinside, ?_, row, hscan, hlexemes, htext, hrowTokens⟩
  rcases hrounds 11 (by decide) hvalid with
    ⟨flaw, hflaw⟩ | ⟨token, next, w, hpass, hslice, -, hnext, -, hvalid'⟩
  · cases hround.symm.trans hflaw
  · cases hround.symm.trans hpass
    exact ⟨w, hround, hslice, by omega, hvalid'⟩

end DocWeave.Xml.Scan

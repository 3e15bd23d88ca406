/-
Reading paths.  A text is read exactly when it is a spelling of a path, and what is read is
the one path that it spells.  Of every part of a spelling it is shown that the reader of
the part takes it in front of whatever may follow, and that the reader takes nothing else.
-/
import DocWeave.Path.Reader
import DocWeave.Proofs.Path.Spelling
import DocWeave.Proofs.Text.Repeat
import DocWeave.Proofs.Text.Search

namespace DocWeave.Path

/-! ### Quoted names -/

theorem unescape?_eq_some_iff (letter c : Char) :
    unescape? letter = some c ↔ (letter, c) ∈ escapes := by
  constructor
  · intro h
    unfold unescape? at h
    split at h <;> simp_all [escapes, eq_comm]
  · intro h
    simp only [escapes, List.mem_cons, Prod.mk.injEq, List.not_mem_nil, or_false] at h
    rcases h with ⟨rfl, rfl⟩ | ⟨rfl, rfl⟩ | ⟨rfl, rfl⟩ | ⟨rfl, rfl⟩ | ⟨rfl, rfl⟩ | ⟨rfl, rfl⟩ <;>
      rfl

theorem quotedName_close (quote : Char) (rest : List Char) :
    quotedName quote (quote :: rest) = .ok ([], ⟨rest, length_le_cons quote rest⟩) := by
  cases rest <;> simp [quotedName]

theorem quotedName_escape {quote letter c : Char} (hquote : '\\' ≠ quote)
    (hletter : unescape? letter = some c) (rest : List Char) :
    quotedName quote ('\\' :: letter :: rest) =
      (quotedName quote rest).map fun r =>
        (c :: r.1, r.2.within (length_le_cons_cons '\\' letter rest)) := by
  simp [quotedName, hquote, hletter]

theorem quotedName_plain {quote c : Char} (hquote : c ≠ quote) (hbackslash : c ≠ '\\')
    (rest : List Char) :
    quotedName quote (c :: rest) =
      (quotedName quote rest).map fun r => (c :: r.1, r.2.within (length_le_cons c rest)) := by
  cases rest with
  | nil => simp [quotedName, hquote, Except.map]
  | cons d rest => simp [quotedName, hquote, hbackslash]

theorem quotedName_complete {quote : Char} (hquote : '\\' ≠ quote) {name body : List Char}
    (h : Quoted quote name body) (rest : List Char) :
    ∃ hle, quotedName quote (body ++ quote :: rest) = .ok (name, ⟨rest, hle⟩) := by
  induction h with
  | nil => exact ⟨_, quotedName_close quote rest⟩
  | @plain c _ body hne hbackslash _ ih =>
      obtain ⟨hle, hread⟩ := ih
      have hfirst := quotedName_plain hne hbackslash (body ++ quote :: rest)
      rw [hread] at hfirst
      exact ⟨_, hfirst⟩
  | @escape letter c _ body hletter _ ih =>
      obtain ⟨hle, hread⟩ := ih
      have hfirst := quotedName_escape hquote ((unescape?_eq_some_iff letter c).2 hletter)
        (body ++ quote :: rest)
      rw [hread] at hfirst
      exact ⟨_, hfirst⟩

theorem quotedName_sound {quote : Char} (hquote : '\\' ≠ quote) {text name : List Char}
    {after : Rest text} (h : quotedName quote text = .ok (name, after)) :
    ∃ body, text = body ++ quote :: after.1 ∧ Quoted quote name body := by
  match text with
  | [] => cases h
  | [c] =>
      by_cases hclose : c = quote
      · subst hclose
        rw [quotedName_close] at h
        cases h
        exact ⟨[], rfl, .nil⟩
      · simp [quotedName, hclose] at h
  | c :: d :: rest =>
      by_cases hclose : c = quote
      · subst hclose
        rw [quotedName_close] at h
        cases h
        exact ⟨[], rfl, .nil⟩
      · by_cases hbackslash : c = '\\'
        · subst hbackslash
          cases hletter : unescape? d with
          | none => simp [quotedName, hquote, hletter] at h
          | some char =>
              rw [quotedName_escape hquote hletter] at h
              obtain ⟨⟨inner, final⟩, hread, heq⟩ := exists_of_map_eq_ok h
              cases heq
              obtain ⟨body, hbody, hquoted⟩ := quotedName_sound hquote hread
              exact ⟨'\\' :: d :: body, congrArg ('\\' :: d :: ·) hbody,
                .escape ((unescape?_eq_some_iff _ _).1 hletter) hquoted⟩
        · rw [quotedName_plain hclose hbackslash] at h
          obtain ⟨⟨inner, final⟩, hread, heq⟩ := exists_of_map_eq_ok h
          cases heq
          obtain ⟨body, hbody, hquoted⟩ := quotedName_sound hquote hread
          exact ⟨c :: body, congrArg (c :: ·) hbody, .plain hclose hbackslash hquoted⟩
termination_by text.length

/-! ### Indices -/

theorem isNearest_clampIndex (n : Int) : IsNearest (clampIndex n) n := by
  have hleast : Int64.minValue.toInt = -2 ^ 63 := by decide
  have hgreatest : Int64.maxValue.toInt = 2 ^ 63 - 1 := by decide
  rw [IsNearest, clampIndex, hleast, hgreatest]
  rw [Int64.toInt_ofInt_of_le] <;> omega

theorem eq_clampIndex_of_isNearest {i : Int64} {n : Int} (h : IsNearest i n) :
    i = clampIndex n :=
  Int64.toInt_inj.1 (h.trans (isNearest_clampIndex n).symm)

theorem ne_minus_of_isDigit {c : Char} (h : c.isDigit) : c ≠ '-' := by
  rintro rfl
  exact absurd h (by decide)

theorem indexLiteral_complete {digits rest : List Char} (hne : digits ≠ [])
    (hdigits : ∀ c ∈ digits, c.isDigit) (hrest : ∀ c ∈ rest.head?, c.isDigit = false) :
    ∃ hle, indexLiteral (digits ++ rest) =
      .ok (clampIndex (Decimal.natOfDigits digits), ⟨rest, hle⟩) := by
  obtain ⟨htake, hdrop⟩ := span_append hdigits rest hrest
  obtain ⟨first, more, rfl⟩ := List.exists_cons_of_ne_nil hne
  have hminus := ne_minus_of_isDigit (hdigits first List.mem_cons_self)
  rw [List.cons_append] at htake hdrop
  refine ⟨by simp; omega, ?_⟩
  change indexLiteral (first :: (more ++ rest)) = _
  rw [indexLiteral]
  · simp [htake, hdrop]
  · intro other heq
    exact hminus (List.cons.inj heq).1

theorem indexLiteral_negative_complete {digits rest : List Char} (hne : digits ≠ [])
    (hdigits : ∀ c ∈ digits, c.isDigit) (hrest : ∀ c ∈ rest.head?, c.isDigit = false) :
    ∃ hle, indexLiteral ('-' :: (digits ++ rest)) =
      .ok (clampIndex (-(Decimal.natOfDigits digits)), ⟨rest, hle⟩) := by
  obtain ⟨htake, hdrop⟩ := span_append hdigits rest hrest
  refine ⟨by simp; omega, ?_⟩
  simp [indexLiteral, htake, hdrop, hne]

theorem indexLiteral_sound {text : List Char} {i : Int64} {after : Rest text}
    (h : indexLiteral text = .ok (i, after)) :
    ∃ body, text = body ++ after.1 ∧ Bracketed (.index i) body := by
  unfold indexLiteral at h
  split at h
  next rest =>
    dsimp only at h
    split at h
    · cases h
    next hne =>
      cases h
      exact ⟨'-' :: rest.takeWhile Char.isDigit,
        by rw [List.cons_append, List.takeWhile_append_dropWhile],
        .negative (mt List.isEmpty_iff.2 hne) (fun c hc => List.mem_takeWhile_imp hc)
          (isNearest_clampIndex _)⟩
  next =>
    dsimp only at h
    split at h
    · cases h
    next hne =>
      cases h
      exact ⟨text.takeWhile Char.isDigit, by rw [List.takeWhile_append_dropWhile],
        .index (mt List.isEmpty_iff.2 hne) (fun c hc => List.mem_takeWhile_imp hc)
          (isNearest_clampIndex _)⟩

/-! ### Brackets -/

theorem bracketBody_complete {step : Step} {body : List Char} (h : Bracketed step body)
    {rest : List Char} (hrest : ∀ c ∈ rest.head?, c.isDigit = false) :
    ∃ hle, bracketBody (body ++ rest) = .ok (step, ⟨rest, hle⟩) := by
  cases h with
  | star =>
      refine ⟨length_le_cons '*' rest, ?_⟩
      simp [bracketBody]
  | @index i digits hne hdigits hi =>
      obtain ⟨hle, hread⟩ := indexLiteral_complete hne hdigits hrest
      obtain ⟨first, more, rfl⟩ := List.exists_cons_of_ne_nil hne
      have hfirst := hdigits first List.mem_cons_self
      have hstar : first ≠ '*' := by
        rintro rfl
        exact absurd hfirst (by decide)
      have hquote : ¬ (first = '\'' ∨ first = '"') := by
        rintro (rfl | rfl) <;> exact absurd hfirst (by decide)
      refine ⟨hle, ?_⟩
      change bracketBody (first :: (more ++ rest)) = _
      rw [bracketBody, if_neg hstar, if_neg hquote, if_pos (Or.inr hfirst)]
      change (indexLiteral (first :: more ++ rest)).map _ = _
      rw [hread, eq_clampIndex_of_isNearest hi]
      rfl
  | @negative i digits hne hdigits hi =>
      obtain ⟨hle, hread⟩ := indexLiteral_negative_complete hne hdigits hrest
      refine ⟨hle, ?_⟩
      change bracketBody ('-' :: (digits ++ rest)) = _
      rw [bracketBody, if_neg (by decide), if_neg (by decide), if_pos (Or.inl rfl), hread,
        eq_clampIndex_of_isNearest hi]
      rfl
  | @quoted quote name text hquote hne h =>
      obtain ⟨hle, hread⟩ :=
        quotedName_complete (by rcases hquote with rfl | rfl <;> decide) h rest
      have hstar : quote ≠ '*' := by rcases hquote with rfl | rfl <;> decide
      have hname : name.isEmpty = false := by simpa using hne
      have hbody : bracketBody (quote :: (text ++ quote :: rest)) =
          .ok (.property (String.ofList name), ⟨rest, length_le_trans hle (length_le_cons _ _)⟩) := by
        rw [bracketBody, if_neg hstar, if_pos hquote, hread]
        simp [hname]
        rfl
      have hsame : quote :: (text ++ [quote]) ++ rest = quote :: (text ++ quote :: rest) := by
        simp
      rw [hsame]
      exact ⟨_, hbody⟩

theorem bracketBody_sound {text : List Char} {step : Step} {after : Rest text}
    (h : bracketBody text = .ok (step, after)) :
    ∃ body, text = body ++ after.1 ∧ Bracketed step body := by
  match text with
  | [] => cases h
  | c :: rest =>
      rw [bracketBody] at h
      split at h
      next hstar =>
        cases h
        exact ⟨['*'], by rw [hstar]; rfl, .star⟩
      next =>
        split at h
        next hquote =>
          split at h
          · cases h
          next name final hread =>
            split at h
            · cases h
            next hne =>
              cases h
              obtain ⟨body, hbody, hquoted⟩ :=
                quotedName_sound (by rcases hquote with rfl | rfl <;> decide) hread
              refine ⟨c :: (body ++ [c]), ?_, .quoted hquote (by simpa using hne) hquoted⟩
              have hsame : c :: (body ++ [c]) ++ final.1 = c :: (body ++ c :: final.1) := by simp
              exact (congrArg (c :: ·) hbody).trans hsame.symm
        next =>
          split at h
          · obtain ⟨⟨i, final⟩, hread, heq⟩ := exists_of_map_eq_ok h
            cases heq
            exact indexLiteral_sound hread
          · split at h <;> cases h

theorem closeBracket_complete {blank : List Char} (hblank : isBlankText blank)
    (rest : List Char) : ∃ hle, closeBracket (blank ++ ']' :: rest) = .ok ⟨rest, hle⟩ := by
  have htrim : trimStart (blank ++ ']' :: rest) = ']' :: rest := by
    rw [trimStart_append_of_isBlankText hblank]
    exact trimStart_eq_self_of_not_isSpace (by simp; decide)
  refine ⟨length_le_of_trimStart htrim, ?_⟩
  unfold closeBracket
  split
  next hnil =>
    rw [htrim] at hnil
    cases hnil
  next c found hfound =>
    rw [htrim] at hfound
    cases hfound
    rfl

theorem closeBracket_sound {text : List Char} {after : Rest text}
    (h : closeBracket text = .ok after) :
    ∃ blank, isBlankText blank ∧ text = blank ++ ']' :: after.1 := by
  refine ⟨text.takeWhile isSpace, isBlankText_takeWhile text, ?_⟩
  have hsplit := takeWhile_append_trimStart text
  unfold closeBracket at h
  split at h
  · cases h
  next c rest htrim =>
    rw [htrim] at hsplit
    split at h
    next hclose =>
      cases h
      rw [← hclose, hsplit]
    · cases h

theorem not_isDigit_of_isBlankText {blank : List Char} (h : isBlankText blank)
    (rest : List Char) : ∀ c ∈ (blank ++ ']' :: rest).head?, c.isDigit = false := by
  intro c hc
  cases blank with
  | nil =>
      cases hc
      decide
  | cons d more =>
      cases hc
      have hspace : isSpace c = true := List.all_eq_true.1 h c List.mem_cons_self
      rw [Bool.eq_false_iff]
      intro hdigit
      rw [not_isSpace_of_isDigit hdigit] at hspace
      cases hspace

theorem bracketSegment_complete {step : Step} {before body blank : List Char}
    (hbefore : isBlankText before) (hbody : Bracketed step body) (hblank : isBlankText blank)
    (rest : List Char) :
    ∃ hle, bracketSegment (before ++ (body ++ (blank ++ ']' :: rest))) =
      .ok (step, ⟨rest, hle⟩) := by
  have htrim : trimStart (before ++ (body ++ (blank ++ ']' :: rest))) =
      body ++ (blank ++ ']' :: rest) := by
    rw [trimStart_append_of_isBlankText hbefore]
    exact trimStart_eq_self_of_not_isSpace (hbody.not_isSpace _)
  obtain ⟨hle, hread⟩ : ∃ hle, bracketBody (trimStart (before ++ (body ++ (blank ++ ']' :: rest)))) =
      .ok (step, ⟨blank ++ ']' :: rest, hle⟩) := by
    rw [htrim]
    exact bracketBody_complete hbody (not_isDigit_of_isBlankText hblank rest)
  obtain ⟨hclose, hend⟩ := closeBracket_complete hblank rest
  refine ⟨length_le_trans (length_le_trans hclose hle) (length_trimStart_le _), ?_⟩
  rw [bracketSegment, hread]
  simp only [bind, Except.bind, hend]
  rfl

theorem bracketSegment_sound {text : List Char} {step : Step} {after : Rest text}
    (h : bracketSegment text = .ok (step, after)) :
    ∃ before body blank, isBlankText before ∧ Bracketed step body ∧ isBlankText blank ∧
      text = before ++ (body ++ (blank ++ ']' :: after.1)) := by
  rw [bracketSegment] at h
  cases hread : bracketBody (trimStart text) with
  | error stop =>
      rw [hread] at h
      cases h
  | ok found =>
      obtain ⟨found, rest⟩ := found
      rw [hread] at h
      simp only [bind, Except.bind] at h
      cases hclose : closeBracket rest.1 with
      | error stop => simp [hclose] at h
      | ok final =>
          simp only [hclose] at h
          cases h
          obtain ⟨body, hbody, hstep⟩ := bracketBody_sound hread
          obtain ⟨blank, hblank, hrest⟩ := closeBracket_sound hclose
          refine ⟨text.takeWhile isSpace, body, blank, isBlankText_takeWhile text, hstep, hblank,
            ?_⟩
          calc text = text.takeWhile isSpace ++ trimStart text :=
                (takeWhile_append_trimStart text).symm
            _ = text.takeWhile isSpace ++ (body ++ rest.1) := by rw [← hbody]
            _ = _ := congrArg (fun rest => text.takeWhile isSpace ++ (body ++ rest)) hrest

/-! ### Segments -/

theorem isNameChar_iff (c : Char) : isNameChar c ↔ IsIdentifierChar c := by
  simp [isNameChar, IsIdentifierChar, or_assoc]

theorem dotSegment_complete {name : List Char} (hne : name ≠ [])
    (hchars : ∀ c ∈ name, IsIdentifierChar c) {rest : List Char}
    (hrest : ∀ c ∈ rest.head?, isNameChar c = false) :
    ∃ hle, dotSegment (name ++ rest) =
      .ok (.property (String.ofList name), ⟨rest, hle⟩) := by
  have hname : ∀ c ∈ name, isNameChar c := fun c hc => (isNameChar_iff c).2 (hchars c hc)
  obtain ⟨htake, hdrop⟩ := span_append hname rest hrest
  obtain ⟨first, more, rfl⟩ := List.exists_cons_of_ne_nil hne
  have hfirst := hname first List.mem_cons_self
  rw [List.cons_append] at htake hdrop
  refine ⟨by simp; omega, ?_⟩
  change dotSegment (first :: (more ++ rest)) = _
  rw [dotSegment]
  · simp [htake, hdrop]
  · intro other heq
    rw [(List.cons.inj heq).1] at hfirst
    exact absurd hfirst (by decide)
  · intro other heq
    rw [(List.cons.inj heq).1] at hfirst
    exact absurd hfirst (by decide)

theorem dotSegment_sound {text : List Char} {step : Step} {after : Rest text}
    (h : dotSegment text = .ok (step, after)) :
    ∃ body, text = body ++ after.1 ∧ Segment step ('.' :: body) := by
  unfold dotSegment at h
  split at h
  next rest =>
    cases h
    exact ⟨['*'], rfl, .star⟩
  next => cases h
  next =>
    dsimp only at h
    split at h
    · cases h
    next hne =>
      cases h
      exact ⟨text.takeWhile isNameChar, by rw [List.takeWhile_append_dropWhile],
        .name (mt List.isEmpty_iff.2 hne) fun c hc =>
          (isNameChar_iff c).1 (List.mem_takeWhile_imp hc)⟩

/-- A segment is read in front of another one and at the end. -/
theorem segment_complete {step : Step} {c : Char} {body : List Char}
    (h : Segment step (c :: body)) {rest : List Char}
    (hrest : ∀ c ∈ rest.head?, c = '.' ∨ c = '[') :
    ∃ hlt, segment c (body ++ rest) = .ok (step, ⟨rest, hlt⟩) := by
  have hboundary : ∀ c ∈ rest.head?, isNameChar c = false := by
    intro d hd
    rcases hrest d hd with rfl | rfl <;> decide
  cases h with
  | star => exact ⟨Nat.lt_succ_of_le (length_le_cons '*' rest), rfl⟩
  | name hne hchars =>
      obtain ⟨hle, hread⟩ := dotSegment_complete hne hchars hboundary
      refine ⟨Nat.lt_succ_of_le hle, ?_⟩
      rw [segment, if_pos rfl, hread]
      rfl
  | @brackets _ before body after hbefore hbody hafter =>
      obtain ⟨hle, hread⟩ := bracketSegment_complete hbefore hbody hafter rest
      have hsegment : segment '[' (before ++ (body ++ (after ++ ']' :: rest))) =
          .ok (step, ⟨rest, Nat.lt_succ_of_le hle⟩) := by
        rw [segment, if_neg (by decide), if_pos rfl, hread]
        rfl
      have hsame : before ++ (body ++ (after ++ [']'])) ++ rest =
          before ++ (body ++ (after ++ ']' :: rest)) := by simp
      rw [hsame]
      exact ⟨_, hsegment⟩

theorem segment_sound {c : Char} {rest : List Char} {step : Step} {after : Remainder (c :: rest)}
    (h : segment c rest = .ok (step, after)) :
    ∃ body, c :: rest = body ++ after.1 ∧ Segment step body := by
  rw [segment] at h
  split at h
  next hdot =>
    subst hdot
    obtain ⟨⟨found, final⟩, hread, heq⟩ := exists_of_map_eq_ok h
    cases heq
    obtain ⟨body, hbody, hstep⟩ := dotSegment_sound hread
    exact ⟨'.' :: body, congrArg ('.' :: ·) hbody, hstep⟩
  next =>
    split at h
    next hbracket =>
      subst hbracket
      obtain ⟨⟨found, final⟩, hread, heq⟩ := exists_of_map_eq_ok h
      cases heq
      obtain ⟨before, body, blank, hbefore, hstep, hblank, htext⟩ := bracketSegment_sound hread
      refine ⟨_, ?_, .brackets hbefore hstep hblank⟩
      have hsame : '[' :: (before ++ (body ++ (blank ++ [']']))) ++ final.1 =
          '[' :: (before ++ (body ++ (blank ++ ']' :: final.1))) := by simp
      exact (congrArg ('[' :: ·) htext).trans hsame.symm
    · cases h

theorem segments_complete {path : Path} {text : List Char} (h : Segments path text) :
    segments text = .ok path := by
  induction h with
  | nil => exact readToEnd_nil segment
  | cons hsegment hrest ih =>
      obtain ⟨c, body, rfl, -⟩ := hsegment.exists_eq_cons
      obtain ⟨hlt, hread⟩ := segment_complete hsegment hrest.head?_eq
      rw [segments, List.cons_append, readToEnd_of_ok hread]
      rw [segments] at ih
      rw [ih]
      rfl

theorem segments_sound {text : List Char} {path : Path} (h : segments text = .ok path) :
    Segments path text := by
  match text with
  | [] =>
      rw [segments, readToEnd_nil] at h
      cases h
      exact .nil
  | c :: rest =>
      obtain ⟨step, after, others, hread, hothers, rfl⟩ := exists_of_readToEnd_cons h
      obtain ⟨body, hbody, hstep⟩ := segment_sound hread
      have hlt : after.1.length < (c :: rest).length := after.2
      have hrest := segments_sound hothers
      rw [hbody]
      exact .cons hstep hrest
termination_by text.length
decreasing_by exact hlt

/-! ### Whole paths -/

theorem read_eq_ok_iff (text : List Char) (path : Path) :
    read text = .ok path ↔ Spelled path text := by
  constructor
  · intro h
    unfold read at h
    split at h
    next rest => exact .root (segments_sound h)
    next => cases h
    next => cases h
  · rintro ⟨h⟩
    exact segments_complete h

/-- A text is read as a path exactly when it is a spelling of that path; it is the spelling
of one path at most, and an error keeps the text. -/
theorem parse_eq_ok_iff_spelled (text : String) :
    (∀ path, parse text = .ok path ↔ Spelled path text.toList) ∧
      (∀ path other, Spelled path text.toList → Spelled other text.toList → path = other) ∧
      ∀ e, parse text = .error e → e.path = text := by
  refine ⟨?_, ?_, ?_⟩
  · intro path
    rw [← read_eq_ok_iff, parse]
    cases read text.toList <;> simp [Except.mapError]
  · intro path other h h'
    have hread := (read_eq_ok_iff _ _).2 h
    rw [(read_eq_ok_iff _ _).2 h'] at hread
    cases hread
    rfl
  · intro e h
    rw [parse] at h
    cases hread : read text.toList with
    | ok path =>
        rw [hread] at h
        cases h
    | error stop =>
        rw [hread] at h
        cases h
        rfl

/-- White space and an escape in brackets, an index that is minus zero, one beyond 64 bits,
and a star in front of a name. -/
theorem parse_eq_ok_iff_spelled_of_mixed_segments :
    let path : Path := [.property "it's", .index 0, .index Int64.maxValue, .wildcard,
      .property "a@b"]
    let text := "$[ 'it\\'s'\t][-0][9223372036854775808].*.a@b"
    parse text = .ok path ∧ Spelled path text.toList := by
  intro path text
  have hparse : parse text = .ok path := by cbv
  exact ⟨hparse, ((parse_eq_ok_iff_spelled text).1 path).1 hparse⟩

end DocWeave.Path

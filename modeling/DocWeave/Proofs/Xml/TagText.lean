/-
The texts that tags are read from.  Reading a tag succeeds exactly where a text of this form
stands: a name, attributes with their values in quotes, and the end of the tag, with white
space in front of each attribute, of its value and of the end.
-/
import Mathlib.Data.List.Infix
import DocWeave.Proofs.Text.Repeat
import DocWeave.Proofs.Text.Search
import DocWeave.Proofs.Text.Trim
import DocWeave.Xml.Token

namespace DocWeave.Xml

/-! ### The parts of a tag -/

theorem isName_iff (name : List Char) :
    isName name ↔ name ≠ [] ∧ ∀ c ∈ name, isForbiddenInName c = false := by
  simp [isName]

/-- The characters that end a name wherever it stands. -/
theorem not_isSpace_of_isName {name : List Char} (h : isName name) {c : Char} (hc : c ∈ name) :
    isSpace c = false ∧ c ≠ '<' ∧ c ≠ '>' ∧ c ≠ '/' ∧ c ≠ '=' := by
  have hallowed := ((isName_iff name).1 h).2 c hc
  simp only [isForbiddenInName, Bool.or_eq_false_iff, decide_eq_false_iff_not] at hallowed
  obtain ⟨⟨⟨⟨⟨⟨⟨hspace, hlt⟩, hgt⟩, hslash⟩, heq⟩, -⟩, -⟩, -⟩ := hallowed
  exact ⟨hspace, hlt, hgt, hslash, heq⟩

def TagEnd.mark : TagEnd → List Char
  | opening => ['>']
  | selfClosing => ['/', '>']

def TagEnd.token (name : String) (pairs : Entries String) : TagEnd → Token
  | opening => .opening name pairs
  | selfClosing => .empty name pairs

/-- The names under which attributes are read.  Nothing in them is white space, a slash or a
closing bracket, and nothing behind their first character is an equals sign. -/
def IsAttributeName : List Char → Prop
  | [] => False
  | first :: more => isTagNameChar first ∧ ∀ c ∈ more, isAttributeChar c

inductive ValueText (raw : List Char) : List Char → Prop
  | intro {blank blank' : List Char} {quote : Char} (hblank : isBlankText blank)
      (hblank' : isBlankText blank') (hquote : quote = '"' ∨ quote = '\'')
      (hraw : quote ∉ raw) :
      ValueText raw (blank ++ '=' :: (blank' ++ quote :: (raw ++ [quote])))

inductive AttributeText : String × String → List Char → Prop
  | intro {blank key raw w value : List Char} (hblank : isBlankText blank)
      (hkey : IsAttributeName key) (hw : ValueText raw w) (hvalue : decode raw = .ok value) :
      AttributeText (String.ofList key, String.ofList value) (blank ++ (key ++ w))

inductive AttributesText (e : TagEnd) : List (String × String) → List Char → Prop
  | last {blank : List Char} (hblank : isBlankText blank) : AttributesText e [] (blank ++ e.mark)
  | more {pair : String × String} {pairs : List (String × String)} {w w' : List Char}
      (hw : AttributeText pair w) (h : AttributesText e pairs w') :
      AttributesText e (pair :: pairs) (w ++ w')

inductive TagText (name : List Char) (pairs : List (String × String)) (e : TagEnd) :
    List Char → Prop
  | intro {w : List Char} (hname : isName name) (hw : AttributesText e pairs w)
      (hnext : ∀ c ∈ w.head?, isTagNameChar c = false) : TagText name pairs e (name ++ w)

/-! ### Values -/

theorem ValueText.attributeValue_eq {raw w : List Char} (h : ValueText raw w)
    (tag key : String) (rest : List Char) :
    ∃ hle, attributeValue tag key (w ++ rest) = .ok (raw, ⟨rest, hle⟩) := by
  obtain @⟨blank, blank', quote, hblank, hblank', hquote, hraw⟩ := h
  have hsame : blank ++ '=' :: (blank' ++ quote :: (raw ++ [quote])) ++ rest =
      blank ++ '=' :: (blank' ++ quote :: (raw ++ quote :: rest)) := by simp
  have hspace : isSpace quote = false := by rcases hquote with rfl | rfl <;> decide
  have hequals : trimStart (blank ++ '=' :: (blank' ++ quote :: (raw ++ quote :: rest))) =
      '=' :: (blank' ++ quote :: (raw ++ quote :: rest)) := by
    rw [trimStart_append_of_isBlankText hblank]
    exact trimStart_eq_self_of_not_isSpace (by simp; decide)
  have hvalue : trimStart (blank' ++ quote :: (raw ++ quote :: rest)) =
      quote :: (raw ++ quote :: rest) := by
    rw [trimStart_append_of_isBlankText hblank']
    exact trimStart_eq_self_of_not_isSpace (by simpa using hspace)
  have hbreak := breakOn_singleton_append hraw rest
  rw [hsame]
  refine ⟨by simp only [List.length_append, List.length_cons]; omega, ?_⟩
  unfold attributeValue
  split
  next body hbody =>
    rw [hequals] at hbody
    cases hbody
    dsimp only
    split
    next hnil =>
      rw [hvalue] at hnil
      cases hnil
    next found body hfound =>
      rw [hvalue] at hfound
      cases hfound
      rw [if_pos hquote]
      split
      next hnone =>
        rw [hbreak] at hnone
        cases hnone
      next before after hsome =>
        rw [hbreak] at hsome
        cases hsome
        rfl
  next hno => exact absurd hequals (hno _)

/-- White space in front is what trimming takes away. -/
theorem exists_eq_append_of_trimStart {text rest : List Char} (h : trimStart text = rest) :
    ∃ blank, isBlankText blank ∧ text = blank ++ rest :=
  ⟨_, isBlankText_takeWhile text, h ▸ (takeWhile_append_trimStart text).symm⟩

theorem exists_valueText {tag key : String} {text raw : List Char} {rest : Rest text}
    (h : attributeValue tag key text = .ok (raw, rest)) :
    ∃ w, ValueText raw w ∧ text = w ++ rest.1 := by
  unfold attributeValue at h
  split at h
  next body hbody =>
    dsimp only at h
    split at h
    next => cases h
    next quote inner hinner =>
      split at h
      next hquote =>
        split at h
        next => cases h
        next before after hbreak =>
          cases h
          obtain ⟨blank, hblank, rfl⟩ := exists_eq_append_of_trimStart hbody
          obtain ⟨blank', hblank', rfl⟩ := exists_eq_append_of_trimStart hinner
          have hraw : quote ∉ raw := fun hmem =>
            not_isInfix_of_breakOn (List.cons_ne_nil quote []) hbreak
              ((List.singleton_infix_iff _ _).2 hmem)
          obtain rfl := eq_append_of_breakOn hbreak
          exact ⟨_, .intro hblank hblank' hquote hraw, by simp⟩
      next => cases h
  next => cases h

/-! ### Attributes -/

theorem ValueText.not_isAttributeChar {raw w : List Char} (h : ValueText raw w)
    (rest : List Char) : ∀ c ∈ (w ++ rest).head?, isAttributeChar c = false := by
  obtain @⟨blank, blank', quote, hblank, -, -, -⟩ := h
  intro c hc
  cases blank with
  | nil =>
      cases hc
      rfl
  | cons d more =>
      cases hc
      have hspace : isSpace c = true := List.all_eq_true.1 hblank c List.mem_cons_self
      simp [isAttributeChar, hspace]

theorem AttributeText.attributeOrEnd_eq {pair : String × String} {w : List Char}
    (h : AttributeText pair w) (tag : String) (rest : List Char) :
    ∃ hlt, attributeOrEnd tag (w ++ rest) = .ok (.more pair, ⟨rest, hlt⟩) := by
  obtain @⟨blank, key, raw, w, value, hblank, hkey, hw, hvalue⟩ := h
  obtain _ | ⟨first, more⟩ := key
  · exact absurd hkey id
  obtain ⟨hfirst, hmore⟩ := hkey
  simp only [isTagNameChar, Bool.not_eq_true', Bool.or_eq_false_iff,
    decide_eq_false_iff_not] at hfirst
  obtain ⟨⟨hspace, hslash⟩, hgt⟩ := hfirst
  have hsame : blank ++ (first :: more ++ w) ++ rest = blank ++ first :: (more ++ (w ++ rest)) := by
    simp
  have htrim : trimStart (blank ++ first :: (more ++ (w ++ rest))) =
      first :: (more ++ (w ++ rest)) := by
    rw [trimStart_append_of_isBlankText hblank]
    exact trimStart_eq_self_of_not_isSpace (by simpa using hspace)
  obtain ⟨htake, hdrop⟩ := span_append hmore (w ++ rest) (hw.not_isAttributeChar rest)
  obtain ⟨hle, hattribute⟩ : ∃ hle, attributeValue tag (String.ofList (first :: more))
      ((more ++ (w ++ rest)).dropWhile isAttributeChar) = .ok (raw, ⟨rest, hle⟩) := by
    rw [hdrop]
    exact hw.attributeValue_eq tag (String.ofList (first :: more)) rest
  rw [hsame]
  refine ⟨by simp only [List.length_append, List.length_cons]; omega, ?_⟩
  unfold attributeOrEnd
  split
  next hnil =>
    rw [htrim] at hnil
    cases hnil
  next c found hfound =>
    rw [htrim] at hfound
    cases hfound
    rw [if_neg hgt, if_neg hslash]
    dsimp only
    rw [htake, hattribute]
    simp only [bind, Except.bind, hvalue]
    rfl

theorem attributeOrEnd_of_end {blank : List Char} (hblank : isBlankText blank) (tag : String)
    (e : TagEnd) (rest : List Char) :
    ∃ hlt, attributeOrEnd tag (blank ++ e.mark ++ rest) = .ok (.last e, ⟨rest, hlt⟩) := by
  have htrim : trimStart (blank ++ e.mark ++ rest) = e.mark ++ rest := by
    rw [List.append_assoc, trimStart_append_of_isBlankText hblank]
    apply trimStart_eq_self_of_not_isSpace
    cases e <;> simp [TagEnd.mark] <;> decide
  have hlt : rest.length < (blank ++ e.mark ++ rest).length := by
    cases e <;> simp [TagEnd.mark] <;> omega
  refine ⟨hlt, ?_⟩
  unfold attributeOrEnd
  split
  next hnil =>
    rw [htrim] at hnil
    cases e <;> cases hnil
  next c found hfound =>
    rw [htrim] at hfound
    cases e with
    | opening =>
        cases hfound
        rfl
    | selfClosing =>
        cases hfound
        rfl

/-- What was read is an attribute or the end of the tag. -/
theorem exists_text_of_attributeOrEnd {tag : String} {text : List Char}
    {piece : Piece (String × String) TagEnd} {rest : Remainder text}
    (h : attributeOrEnd tag text = .ok (piece, rest)) :
    (∃ pair w, piece = .more pair ∧ AttributeText pair w ∧ text = w ++ rest.1) ∨
      ∃ e blank, piece = .last e ∧ isBlankText blank ∧ text = blank ++ e.mark ++ rest.1 := by
  unfold attributeOrEnd at h
  split at h
  next => cases h
  next first body hbody =>
    have hspace : isSpace first = false := by
      have hnot := List.head?_dropWhile_not isSpace text
      rw [trimStart] at hbody
      rw [hbody] at hnot
      exact hnot
    obtain ⟨blank, hblank, rfl⟩ := exists_eq_append_of_trimStart hbody
    split at h
    next hgt =>
      cases h
      subst hgt
      exact .inr ⟨.opening, blank, rfl, hblank, by simp [TagEnd.mark]⟩
    split at h
    next hslash =>
      dsimp only at h
      split at h
      next =>
        cases h
        subst hslash
        exact .inr ⟨.selfClosing, blank, rfl, hblank, by simp [TagEnd.mark]⟩
      next => cases h
    next hgt hslash =>
      obtain ⟨⟨raw, after⟩, hraw, h⟩ := exists_of_bind_eq_ok h
      obtain ⟨value, hvalue, h⟩ := exists_of_bind_eq_ok h
      cases h
      obtain ⟨w, hw, hrest⟩ := exists_valueText hraw
      have hkey : IsAttributeName (first :: body.takeWhile isAttributeChar) :=
        ⟨by simp [isTagNameChar, hspace, hgt, hslash], fun c hc => List.mem_takeWhile_imp hc⟩
      refine .inl ⟨_, _, rfl, .intro hblank hkey hw hvalue, ?_⟩
      have hsplit : body = body.takeWhile isAttributeChar ++ (w ++ after.1) := by
        rw [← hrest, List.takeWhile_append_dropWhile]
      simp only [Rest.behind, Rest.within]
      rw [List.append_assoc, List.append_assoc, List.cons_append, ← hsplit]

theorem AttributesText.attributes_eq {e : TagEnd} {pairs : List (String × String)}
    {w : List Char} (h : AttributesText e pairs w) (tag : String) (rest : List Char) :
    ∃ hlt, attributes tag (w ++ rest) = .ok ((pairs, e), ⟨rest, hlt⟩) := by
  unfold attributes
  induction h with
  | last hblank =>
      obtain ⟨hlt, hend⟩ := attributeOrEnd_of_end hblank tag e rest
      exact ⟨hlt, readToLast_of_last hend⟩
  | @more _ _ w w' hw _ ih =>
      obtain ⟨hlt, hrest⟩ := ih
      obtain ⟨hlt', hfirst⟩ := hw.attributeOrEnd_eq tag (w' ++ rest)
      rw [List.append_assoc]
      exact ⟨_, readToLast_of_more hfirst hrest⟩

theorem exists_attributesText {tag : String} {text : List Char}
    {pairs : List (String × String)} {e : TagEnd} {rest : Remainder text}
    (h : attributes tag text = .ok ((pairs, e), rest)) :
    ∃ w, AttributesText e pairs w ∧ text = w ++ rest.1 := by
  unfold attributes at h
  induction pairs generalizing text with
  | nil =>
      obtain ⟨after, hlast, -, hafter⟩ | ⟨_, _, _, _, _, _, hcons, _⟩ := readToLast_eq_ok h
      · obtain ⟨_, _, hmore, _⟩ | ⟨e', blank, heq, hblank, htext⟩ :=
          exists_text_of_attributeOrEnd hlast
        · cases hmore
        · cases heq
          exact ⟨_, .last hblank, hafter ▸ htext⟩
      · cases hcons
  | cons pair pairs ih =>
      obtain ⟨_, _, hnil, _⟩ | ⟨a, after, others, final, hmore, hothers, hcons, hfinal⟩ :=
        readToLast_eq_ok h
      · cases hnil
      · cases hcons
        obtain ⟨w', hw', hbehind⟩ := ih hothers
        obtain ⟨_, w, heq, hw, htext⟩ | ⟨_, _, hlast, _⟩ := exists_text_of_attributeOrEnd hmore
        · cases heq
          refine ⟨w ++ w', .more hw hw', ?_⟩
          rw [hfinal, List.append_assoc, ← hbehind]
          exact htext
        · cases hlast

/-! ### Tags -/

theorem AttributesText.ne_nil {e : TagEnd} {pairs : List (String × String)} {w : List Char}
    (h : AttributesText e pairs w) : w ≠ [] := by
  induction h with
  | last => cases e <;> simp [TagEnd.mark]
  | more _ _ ih => simp [ih]

theorem isTagNameChar_of_isName {name : List Char} (h : isName name) :
    ∀ c ∈ name, isTagNameChar c := by
  intro c hc
  obtain ⟨hspace, -, hgt, hslash, -⟩ := not_isSpace_of_isName h hc
  simp [isTagNameChar, hspace, hgt, hslash]

theorem TagText.openingTag_eq {name : List Char} {pairs : List (String × String)} {e : TagEnd}
    {w : List Char} (h : TagText name pairs e w) (rest : List Char) :
    ∃ hlt, openingTag (w ++ rest) =
      .ok (some (e.token (String.ofList name) (Entries.ofPairs pairs)), ⟨rest, hlt⟩) := by
  obtain @⟨w, hname, hw, hnext⟩ := h
  have hstop : ∀ c ∈ (w ++ rest).head?, isTagNameChar c = false := by
    rwa [List.head?_append_of_ne_nil _ hw.ne_nil]
  obtain ⟨htake, hdrop⟩ := span_append (isTagNameChar_of_isName hname) (w ++ rest) hstop
  obtain ⟨hlt, hattributes⟩ : ∃ hlt, attributes (String.ofList name)
      ((name ++ (w ++ rest)).dropWhile isTagNameChar) = .ok ((pairs, e), ⟨rest, hlt⟩) := by
    rw [hdrop]
    exact hw.attributes_eq (String.ofList name) rest
  rw [List.append_assoc]
  refine ⟨length_lt_of_lt_of_le hlt (length_dropWhile_le _ _), ?_⟩
  unfold openingTag
  dsimp only
  rw [htake, if_pos hname, hattributes]
  cases e <;> rfl

/-- A tag that was read stands in front of the rest. -/
theorem exists_tagText {text : List Char} {token : Option Token} {rest : Remainder text}
    (h : openingTag text = .ok (token, rest)) :
    ∃ name pairs e w, TagText name pairs e w ∧ text = w ++ rest.1 ∧
      token = some (e.token (String.ofList name) (Entries.ofPairs pairs)) := by
  unfold openingTag at h
  dsimp only at h
  split at h
  next hname =>
    obtain ⟨⟨⟨pairs, e⟩, after⟩, hattributes, h⟩ := exists_of_bind_eq_ok h
    obtain ⟨w, hw, hdrop⟩ := exists_attributesText hattributes
    have hnext : ∀ c ∈ w.head?, isTagNameChar c = false := by
      intro c hc
      have hnot := List.head?_dropWhile_not isTagNameChar text
      rw [hdrop, List.head?_append_of_ne_nil _ hw.ne_nil, hc] at hnot
      exact hnot
    have hsplit : text = text.takeWhile isTagNameChar ++ w ++ after.1 := by
      rw [List.append_assoc, ← hdrop, List.takeWhile_append_dropWhile]
    refine ⟨_, pairs, e, _, .intro hname hw hnext, ?_⟩
    cases e <;> cases h <;> exact ⟨hsplit, rfl⟩
  next => cases h

/-- A tag ends with a closing bracket. -/
theorem AttributesText.exists_bracket {e : TagEnd} {pairs : List (String × String)}
    {w : List Char} (h : AttributesText e pairs w) : ∃ front, w = front ++ ['>'] := by
  induction h with
  | @last blank _ =>
      cases e with
      | opening => exact ⟨blank, rfl⟩
      | selfClosing => exact ⟨blank ++ ['/'], by rw [List.append_assoc]; rfl⟩
  | @more _ _ w _ _ _ ih =>
      obtain ⟨front, rfl⟩ := ih
      exact ⟨w ++ front, by rw [List.append_assoc]⟩

theorem exists_bracket_of_openingTag {text : List Char} {token : Option Token}
    {rest : Remainder text} (h : openingTag text = .ok (token, rest)) :
    ∃ w, text = w ++ '>' :: rest.1 := by
  obtain ⟨name, pairs, e, tag, htag, htext, -⟩ := exists_tagText h
  obtain @⟨w, -, hw, -⟩ := htag
  obtain ⟨front, rfl⟩ := hw.exists_bracket
  refine ⟨name ++ front, htext.trans ?_⟩
  rw [← List.append_assoc, ← List.append_cons]

end DocWeave.Xml

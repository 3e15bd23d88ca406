/-
Reading an outline that was written.  A line says the key and the value that it was written
for, and nesting the lines gives the object back.
-/
import Mathlib
import DocWeave.Proofs.Entries.Order
import DocWeave.Proofs.Json.Digits
import DocWeave.Proofs.Outline.Block
import DocWeave.Proofs.Outline.Comment

namespace DocWeave.Yaml.Outline

/-! ### Scalars -/

theorem unquote_inQuotes (text : String) : unquote (inQuotes text) = text.toList := by
  rw [inQuotes, unquote, if_pos ⟨Or.inl rfl, List.getLast?_concat⟩, List.dropLast_concat]

theorem trim_inQuotes (text : String) : trim (inQuotes text) = inQuotes text := by
  have hlast : (inQuotes text).getLast? = some '"' := by
    rw [inQuotes, ← List.cons_append, List.getLast?_concat]
  rw [trim, trimStart_eq_self_of_not_isSpace (by simp [inQuotes, isSpace]),
    trimEnd_eq_self_of_not_isSpace (by simp [hlast, isSpace])]

theorem isWord_eq_false {word : String} {c d : Char} {rest more : List Char}
    (hword : word.toList = d :: more) (h : c.toLower ≠ d) :
    isWord word (c :: rest) = false := by
  simp [isWord, hword, h]

/-- A text that starts as no word does is read as a number, or as it is. -/
theorem scalar_of_head {c : Char} (rest : List Char)
    (h : c.toLower ≠ 'n' ∧ c.toLower ≠ 't' ∧ c.toLower ≠ 'f') :
    scalar (c :: rest) = match Number.read? (c :: rest) with
      | some n => .number n
      | none => .string (String.ofList (unquote (c :: rest))) := by
  obtain ⟨hnull, htrue, hfalse⟩ := h
  have hnull : isWord "null" (c :: rest) = false := isWord_eq_false rfl hnull
  have htrue : isWord "true" (c :: rest) = false := isWord_eq_false rfl htrue
  have hfalse : isWord "false" (c :: rest) = false := isWord_eq_false rfl hfalse
  rw [scalar, hnull, htrue, hfalse]
  rfl

theorem read?_inQuotes (text : String) : Number.read? (inQuotes text) = none := by
  have hinteger : Decimal.readInteger? (inQuotes text) = none := rfl
  have hliteral : Decimal.Literal.read? (inQuotes text) = none := rfl
  rw [Number.read?, hinteger, hliteral]
  rfl

theorem scalar_inQuotes (text : String) : scalar (inQuotes text) = .string text := by
  have hread := read?_inQuotes text
  have hunquote := unquote_inQuotes text
  rw [inQuotes] at hread hunquote ⊢
  rw [scalar_of_head _ (by decide), hread, hunquote, String.ofList_toList]

/-- The digits of a natural number, behind a sign, are read as the number with that sign. -/
theorem readInteger?_of_takeSign {text : List Char} {negative : Bool} {m : Nat}
    (h : Decimal.takeSign text = (negative, Nat.toDigits 10 m)) :
    Decimal.readInteger? text = some (if negative then -(m : Int) else m) := by
  have hall : (Nat.toDigits 10 m).all Char.isDigit := List.all_eq_true.2 fun c hc =>
    Nat.isDigit_of_mem_toDigits (b := 10) (n := m) (by decide) (by decide) hc
  have hne : (Nat.toDigits 10 m).isEmpty = false := by simp
  have hvalue : Decimal.natOfDigits (Nat.toDigits 10 m) = m := Nat.ofDigitChars_ten_toDigits
  simp only [Decimal.readInteger?, h, hall, hne, hvalue]
  rfl

theorem readInteger?_toString (n : Int) :
    Decimal.readInteger? (toString n).toList = some n := by
  cases n with
  | ofNat m =>
      rw [Json.Numeral.toList_toString_ofNat]
      apply @readInteger?_of_takeSign _ false m
      obtain ⟨c, more, hcons, hall⟩ := Json.Numeral.exists_toDigits_eq_cons m
      have hc := hall c List.mem_cons_self
      rw [hcons, Decimal.takeSign]
      · rintro rest heq
        rw [(List.cons.inj heq).1] at hc
        exact absurd hc (by decide)
      · rintro rest heq
        rw [(List.cons.inj heq).1] at hc
        exact absurd hc (by decide)
  | negSucc m =>
      rw [Json.Numeral.toList_toString_negSucc, Int.negSucc_eq]
      exact @readInteger?_of_takeSign _ true (m + 1) rfl

theorem read?_toString (n : Int64) :
    Number.read? (toString n.toInt).toList = some (.integer n) := by
  have hinteger : Number.ofInt? n.toInt = some (.integer n) := by
    rw [Number.ofInt?, if_pos ⟨n.minValue_le_toInt, n.toInt_le⟩, Int64.ofInt_toInt]
  rw [Number.read?, readInteger?_toString]
  simp [hinteger]

theorem scalar_toString (n : Int64) :
    scalar (toString n.toInt).toList = .number (.integer n) := by
  have hread := read?_toString n
  obtain ⟨c, more, hcons, hfirst⟩ := Json.exists_numberText_eq_cons n
  rw [Json.numberText] at hcons
  have hhead : c.toLower ≠ 'n' ∧ c.toLower ≠ 't' ∧ c.toLower ≠ 'f' := by
    rcases hfirst with rfl | hdigit
    · decide
    · rw [toLower_of_isDigit hdigit]
      refine ⟨?_, ?_, ?_⟩ <;> rintro rfl <;> exact absurd hdigit (by decide)
  rw [hcons] at hread ⊢
  rw [scalar_of_head more hhead, hread]

/-- A scalar is read from its text. -/
theorem scalar_scalarText {v : Value} (h : IsScalar v) : scalar (scalarText v) = v := by
  cases v with
  | null => rfl
  | bool b => cases b <;> rfl
  | number n =>
      cases n with
      | integer n => exact scalar_toString n
      | float x => exact absurd h id
  | string s => exact scalar_inQuotes s
  | array items => exact absurd h id
  | object members => exact absurd h id

theorem isOrdinary_of_isDigit {c : Char} (h : c.isDigit) : IsOrdinary c := by
  refine ⟨not_isSpace_of_isDigit h, fun hmem => ?_⟩
  simp only [List.mem_cons, List.not_mem_nil, or_false] at hmem
  rcases hmem with rfl | rfl | rfl | rfl <;> exact absurd h (by decide)

theorem isOrdinary_of_mem_toDigits {m : Nat} {c : Char} (h : c ∈ Nat.toDigits 10 m) :
    IsOrdinary c :=
  isOrdinary_of_isDigit
    (Nat.isDigit_of_mem_toDigits (b := 10) (n := m) (by decide) (by decide) h)

theorem isOrdinary_of_mem_toString {n : Int} {c : Char} (h : c ∈ (toString n).toList) :
    IsOrdinary c := by
  cases n with
  | ofNat m =>
      rw [Json.Numeral.toList_toString_ofNat] at h
      exact isOrdinary_of_mem_toDigits h
  | negSucc m =>
      rw [Json.Numeral.toList_toString_negSucc] at h
      rcases List.mem_cons.1 h with rfl | hc
      · decide
      · exact isOrdinary_of_mem_toDigits hc

/-- A scalar is written as a word or between double quotes. -/
theorem scalarText_cases {v : Value} (h : IsScalar v) :
    (scalarText v ≠ [] ∧ ∀ c ∈ scalarText v, IsOrdinary c) ∨
      ∃ s, IsQuotable s ∧ scalarText v = inQuotes s := by
  cases v with
  | null => exact Or.inl (by simp [scalarText, IsOrdinary, isSpace])
  | bool b => cases b <;> exact Or.inl (by simp [scalarText, IsOrdinary, isSpace])
  | number n =>
      cases n with
      | integer n =>
          obtain ⟨c, more, hcons, -⟩ := Json.exists_numberText_eq_cons n
          rw [Json.numberText] at hcons
          refine Or.inl ⟨fun hnil => ?_, fun c hc => isOrdinary_of_mem_toString hc⟩
          exact List.cons_ne_nil c more (hcons.symm.trans hnil)
      | float x => exact absurd h id
  | string s => exact Or.inr ⟨s, h, rfl⟩
  | array items => exact absurd h id
  | object members => exact absurd h id

theorem scalarText_ne_nil {v : Value} (h : IsScalar v) : scalarText v ≠ [] := by
  rcases scalarText_cases h with ⟨hne, -⟩ | ⟨s, -, heq⟩
  · exact hne
  · rw [heq]
    exact List.cons_ne_nil _ _

theorem trim_scalarText {v : Value} (h : IsScalar v) : trim (scalarText v) = scalarText v := by
  rcases scalarText_cases h with ⟨-, hword⟩ | ⟨s, -, heq⟩
  · exact trim_eq_self_of_not_isSpace fun c hc => (hword c hc).1
  · rw [heq, trim_inQuotes]

theorem not_mem_feed_inQuotes {text : String} (h : IsQuotable text) :
    '\n' ∉ inQuotes text := by
  simp [inQuotes, h.oneLine]

theorem not_mem_feed_scalarText {v : Value} (h : IsScalar v) : '\n' ∉ scalarText v := by
  rcases scalarText_cases h with ⟨-, hword⟩ | ⟨s, hs, heq⟩
  · intro hmem
    exact absurd (hword '\n' hmem) (by decide)
  · rw [heq]
    exact not_mem_feed_inQuotes hs

theorem exists_stripComment_scalarText {v : Value} (h : IsScalar v) :
    ∃ start blank, ∀ rest, stripComment none true true (scalarText v ++ rest) =
      scalarText v ++ stripComment none start blank rest := by
  rcases scalarText_cases h with ⟨-, hword⟩ | ⟨s, hs, heq⟩
  · exact exists_stripComment_word hword true true
  · refine ⟨false, false, fun rest => ?_⟩
    rw [heq, stripComment_inQuotes hs]

/-! ### Lines -/

/-- A line that can be written: it is indented at least so far, its key is found again, and
so is its value. -/
structure Line.Fits (least : Nat) (line : Line) : Prop where
  le_indent : least ≤ line.indent
  key : IsKey line.key
  value : ∀ v ∈ line.value, IsScalar v

theorem Line.Fits.mono {least lower : Nat} {line : Line} (h : line.Fits least)
    (hle : lower ≤ least) : line.Fits lower :=
  ⟨Nat.le_trans hle h.le_indent, h.key, h.value⟩

variable {least : Nat} {line : Line}

theorem isBlankText_replicate (n : Nat) : isBlankText (List.replicate n ' ') := by
  simp [isBlankText, isSpace]

theorem utf8Length_replicate (n : Nat) : utf8Length (List.replicate n ' ') = n := by
  induction n with
  | zero => rfl
  | succ n ih =>
      have hsize : (' ').utf8Size = 1 := by decide
      rw [List.replicate_succ, utf8Length_cons, ih, hsize, Nat.add_comm]

theorem Line.Fits.exists_stripComment_valueText (h : line.Fits least) :
    ∃ start blank, ∀ rest, stripComment none true false (line.valueText ++ rest) =
      line.valueText ++ stripComment none start blank rest := by
  rw [Line.valueText]
  cases hvalue : line.value with
  | none => exact ⟨true, false, fun rest => rfl⟩
  | some v =>
      obtain ⟨start, blank, hpassed⟩ := exists_stripComment_scalarText (h.value v hvalue)
      refine ⟨start, blank, fun rest => ?_⟩
      have hspace : stripComment none true false (' ' :: (scalarText v ++ rest)) =
          ' ' :: stripComment none true true (scalarText v ++ rest) := rfl
      rw [List.cons_append, hspace, hpassed]
      rfl

theorem Line.Fits.getLast?_text (h : line.Fits least) :
    ∀ c ∈ line.text.getLast?, isSpace c = false := by
  intro c hc
  rw [Line.text, Line.valueText] at hc
  cases hvalue : line.value with
  | none =>
      rw [hvalue, List.getLast?_concat] at hc
      cases hc
      decide
  | some v =>
      have hv := h.value v hvalue
      have hlast : (scalarText v).getLast? = some c := by
        simpa [hvalue, List.getLast?_append, List.getLast?_cons,
          List.getLast?_eq_some_getLast (scalarText_ne_nil hv)] using hc
      rw [← trim_scalarText hv] at hlast
      exact not_isSpace_of_getLast?_trim hlast

theorem Line.Fits.isWhole_text (h : line.Fits least) : IsWhole line.text where
  oneLine := by
    have hkey := not_mem_feed_inQuotes h.key.1
    have hvalue : '\n' ∉ line.valueText := by
      rw [Line.valueText]
      cases hvalue : line.value with
      | none => exact List.not_mem_nil
      | some v => simp [not_mem_feed_scalarText (h.value v hvalue)]
    simp [Line.text, Line.keyText, hkey, hvalue]
  passed := by
    obtain ⟨start, blank, hpassed⟩ := h.exists_stripComment_valueText
    refine ⟨start, blank, fun rest => ?_⟩
    have hcolon (rest : List Char) : stripComment none false false (':' :: rest) =
        ':' :: stripComment none true false rest := rfl
    rw [Line.text, Line.keyText, List.append_assoc, List.append_assoc, List.append_assoc,
      stripComment_blank (isBlankText_replicate _), stripComment_inQuotes h.key.1,
      List.cons_append, hcolon, hpassed]
    simp
  notBlank := by
    simp [Line.text, isBlankText, isSpace]
  trimmed := trimEnd_eq_self_of_not_isSpace h.getLast?_text

theorem Line.Fits.not_mem_colon_keyText (h : line.Fits least) : ':' ∉ line.keyText := by
  intro hmem
  simp only [Line.keyText, inQuotes, List.mem_append, List.mem_replicate, List.mem_cons,
    List.not_mem_nil, or_false] at hmem
  rcases hmem with ⟨-, hspace⟩ | hquote | hkey | hquote
  · exact absurd hspace (by decide)
  · exact absurd hquote (by decide)
  · exact h.key.2 hkey
  · exact absurd hquote (by decide)

theorem takeWhile_isSpace_text (line : Line) :
    line.text.takeWhile isSpace = List.replicate line.indent ' ' := by
  have hspaces : ∀ c ∈ List.replicate line.indent ' ', isSpace c = true := by
    intro c hc
    rw [List.eq_of_mem_replicate hc]
    rfl
  rw [Line.text, Line.keyText, List.append_assoc]
  exact (span_append hspaces _ (by simp [inQuotes, isSpace])).1

theorem unquote_trim_keyText (line : Line) :
    unquote (trim line.keyText) = line.key.toList := by
  rw [Line.keyText, trim_append_of_isBlankText (isBlankText_replicate _), trim_inQuotes,
    unquote_inQuotes]

/-- What stands behind the colon is read as the value of the line. -/
theorem Line.Fits.scalar_valueText (h : line.Fits least) :
    (if isBlankText line.valueText then none else some (scalar (trim line.valueText))) =
      line.value := by
  rw [Line.valueText]
  cases hvalue : line.value with
  | none => rfl
  | some v =>
      have hv := h.value v hvalue
      have htrim : trim (' ' :: scalarText v) = scalarText v :=
        (trim_append_of_isBlankText (show isBlankText [' '] by decide) (scalarText v)).trans
          (trim_scalarText hv)
      have hblank : ¬ isBlankText (' ' :: scalarText v) := by
        rw [← trim_eq_nil_iff, htrim]
        exact scalarText_ne_nil hv
      simp only [htrim, scalar_scalarText hv, if_neg hblank]

/-- A written line says what it was written for. -/
theorem Line.Fits.lineOf_text (h : line.Fits least) : lineOf line.text = line := by
  rw [Line.text, lineOf_append_colon h.not_mem_colon_keyText, ← Line.text,
    takeWhile_isSpace_text, utf8Length_replicate, unquote_trim_keyText, String.ofList_toList,
    h.scalar_valueText]

/-! ### Nesting -/

theorem hasOutline_object_iff (members : Entries Value) :
    HasOutline (.object members) ↔
      ((Entries.keys members).Nodup ∧ ∀ key ∈ Entries.keys members, IsKey key) ∧
        ∀ member ∈ members, HasOutline member.2 :=
  Value.everywhere_object_iff members

theorem isScalar_of_hasOutline {v : Value} (h : HasOutline v)
    (hobject : ∀ members, v ≠ .object members) : IsScalar v :=
  isScalar_of_isPlain ((Value.everywhere_iff v).1 h).1 hobject

mutual

theorem fits_of_mem_memberLines (width level : Nat) {key : String} (hkey : IsKey key) :
    (v : Value) → HasOutline v →
      ∀ line ∈ memberLines width level key v, line.Fits (width * level)
  | .object members, h => by
      obtain ⟨⟨-, hkeys⟩, hmembers⟩ := (hasOutline_object_iff members).1 h
      rw [memberLines, List.forall_mem_cons]
      constructor
      · exact ⟨Nat.le_refl _, hkey, by simp⟩
      · intro line hline
        exact (fits_of_mem_outline width (level + 1) members hkeys hmembers line hline).mono
          (Nat.mul_le_mul_left width (Nat.le_succ level))
  | .null, h | .bool _, h | .number _, h | .string _, h | .array _, h => by
      have hscalar := isScalar_of_hasOutline h (by simp)
      rw [memberLines_of_isScalar hscalar, List.forall_mem_singleton]
      refine ⟨Nat.le_refl _, hkey, ?_⟩
      rintro v hv
      cases hv
      exact hscalar

theorem fits_of_mem_outline (width level : Nat) :
    (members : List (String × Value)) → (∀ key ∈ Entries.keys members, IsKey key) →
      (∀ member ∈ members, HasOutline member.2) →
      ∀ line ∈ outline width level members, line.Fits (width * level)
  | [], _, _ => by simp [outline]
  | (key, value) :: rest, hkeys, hmembers => by
      obtain ⟨hkey, hkeys⟩ := List.forall_mem_cons.1 hkeys
      obtain ⟨hvalue, hrest⟩ := List.forall_mem_cons.1 hmembers
      rw [outline, List.forall_mem_append]
      constructor
      · exact fits_of_mem_memberLines width level hkey value hvalue
      · exact fits_of_mem_outline width level rest hkeys hrest

end

/-- The first of the lines of an object is not deeper than its level. -/
theorem not_isDeeper_of_head?_outline (width level : Nat) (members : List (String × Value)) :
    ∀ line ∈ (outline width level members).head?, isDeeper (width * level) line = false := by
  cases members with
  | nil => simp [outline]
  | cons member rest =>
      obtain ⟨key, value⟩ := member
      cases value <;> simp [outline, memberLines, isDeeper]

variable {width : Nat}

mutual

/-- The lines of a member write it into the object. -/
theorem nest_memberLines (hwidth : 0 < width) (level : Nat) (key : String)
    (entries : Entries Value) {rest : List Line}
    (hrest : ∀ line ∈ rest.head?, isDeeper (width * level) line = false) :
    (v : Value) → HasOutline v →
      nest entries (memberLines width level key v ++ rest) =
        nest (Entries.insert key v entries) rest
  | .object members, h => by
      obtain ⟨⟨hnodup, hkeys⟩, hmembers⟩ := (hasOutline_object_iff members).1 h
      have hdeeper : ∀ line ∈ outline width (level + 1) members,
          isDeeper (width * level) line = true := by
        intro line hline
        have hfits := fits_of_mem_outline width (level + 1) members hkeys hmembers line hline
        have hle := hfits.le_indent
        rw [Nat.mul_succ] at hle
        rw [isDeeper, decide_eq_true_eq]
        omega
      obtain ⟨htake, hdrop⟩ := span_append hdeeper rest hrest
      have hinner := nest_outline hwidth (level + 1) [] members hnodup hmembers
      rw [memberLines, List.cons_append, nest_cons_of_opener rfl, htake, hdrop, hinner,
        List.nil_append]
  | .null, h | .bool _, h | .number _, h | .string _, h | .array _, h => by
      have hscalar := isScalar_of_hasOutline h (by simp)
      rw [memberLines_of_isScalar hscalar, List.singleton_append, nest_cons_of_value rfl]

/-- The lines of new members put them behind the others. -/
theorem nest_outline (hwidth : 0 < width) (level : Nat) (entries : Entries Value) :
    (members : List (String × Value)) → (Entries.keys (entries ++ members)).Nodup →
      (∀ member ∈ members, HasOutline member.2) →
      nest entries (outline width level members) = entries ++ members
  | [], _, _ => by rw [outline, nest_nil, List.append_nil]
  | (key, value) :: rest, hnodup, hmembers => by
      obtain ⟨hvalue, hrest⟩ := List.forall_mem_cons.1 hmembers
      have hsplit : entries ++ (key, value) :: rest = (entries ++ [(key, value)]) ++ rest := by
        simp
      have hfresh : key ∉ Entries.keys entries := by
        intro hmem
        rw [Entries.keys, List.map_append] at hnodup
        exact (List.nodup_append.1 hnodup).2.2 key hmem key (by simp) rfl
      rw [outline, nest_memberLines hwidth level key entries
          (not_isDeeper_of_head?_outline width level rest) value hvalue,
        Entries.insert_of_not_mem hfresh,
        nest_outline hwidth level _ rest (hsplit ▸ hnodup) hrest, ← hsplit]

end

/-- The outline of an object is read as the object, with its keys in their order, wherever
comments stand behind its lines and wherever blank lines and comments stand between them. -/
theorem parse_outline {members : Entries Value} {ws : List (List Char)} (hwidth : 0 < width)
    (houtline : HasOutline (.object members))
    (h : Annotated ((outline width 0 members).map Line.text) ws) :
    parse (joinLines ws) = .ok (.object members) := by
  obtain ⟨⟨hnodup, hkeys⟩, hmembers⟩ := (hasOutline_object_iff members).1 houtline
  have hfits := fits_of_mem_outline width 0 members hkeys hmembers
  have hlines : contentLines (joinLines ws) = (outline width 0 members).map Line.text := by
    apply h.contentLines_eq
    rw [List.forall_mem_map]
    exact fun line hline => (hfits line hline).isWhole_text
  have hcolons : ((outline width 0 members).map Line.text).find?
      (fun content => ':' ∉ content) = none := by
    rw [List.find?_eq_none, List.forall_mem_map]
    intro line _
    simp [Line.text]
  have hread : ((outline width 0 members).map Line.text).map lineOf =
      outline width 0 members := by
    rw [List.map_map]
    exact (List.map_congr_left fun line hline => (hfits line hline).lineOf_text).trans
      (List.map_id _)
  change (State.run ([], []) (contentLines (joinLines ws)) >>= fun state =>
    pure (Value.object state.finish)) = _
  rw [State.run_eq, hlines, hcolons, hread]
  change Except.ok (Value.object _) = _
  rw [State.finish_foldl_step, nest_outline hwidth 0 [] members hnodup hmembers,
    List.nil_append]

/-- Keys and strings that look like comments, numbers and quoted texts, an empty object, the
least whole number, comments and blank lines. -/
theorem parse_outline_of_misleading_texts :
    let members := [("a # b", Value.object [("'k'", .string "12"), ("", .object [])]),
      ("n", .number (.integer Int64.minValue)), ("t", .bool true),
      ("s", .string " x: 'y' # z ")]
    let ws := ["\t# first", "\"a # b\": # \"opens\"", "  \"'k'\": \"12\"", " ", "  \"\":",
      "\"n\": -9223372036854775808", "\"t\": true #", "\"s\": \" x: 'y' # z \"", ""]
    HasOutline (.object members) ∧
      Annotated ((outline 2 0 members).map Line.text) (ws.map String.toList) ∧
      parse (joinLines (ws.map String.toList)) = .ok (.object members) := by
  intro members ws
  have houtline : HasOutline (.object members) := by decide
  have hlines : (outline 2 0 members).map Line.text = ["\"a # b\":".toList,
      "  \"'k'\": \"12\"".toList, "  \"\":".toList, "\"n\": -9223372036854775808".toList,
      "\"t\": true".toList, "\"s\": \" x: 'y' # z \"".toList] := by cbv
  have hannotated : Annotated ((outline 2 0 members).map Line.text) (ws.map String.toList) := by
    rw [hlines]
    apply Annotated.remark (show isBlankText ['\t'] by decide) (c := " first".toList) (by decide)
    apply Annotated.comment (c := " \"opens\"".toList) (by decide)
    apply Annotated.same
    apply Annotated.blank (by decide) (by decide)
    apply Annotated.same
    apply Annotated.same
    apply Annotated.comment (c := []) (by decide)
    apply Annotated.same
    exact .blank (by decide) (by decide) .nil
  exact ⟨houtline, hannotated, parse_outline (by decide) houtline hannotated⟩

end DocWeave.Yaml.Outline

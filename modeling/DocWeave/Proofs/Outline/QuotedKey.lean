/-
Keys between quotes.  The quotes of a key keep a number sign from starting a comment, but a
line is split at its first colon wherever that stands.  So a key between quotes is read as it
is exactly if it holds no colon.
-/
import DocWeave.Proofs.Outline.Block
import DocWeave.Proofs.Outline.Quotes
import DocWeave.Proofs.Text.Lines

namespace DocWeave.Yaml.Outline

/-! ### A text of one line -/

theorem content_append_colon {front behind : List Char} (hbehind : ¬ isBlankText behind)
    (hcomment : ¬ HasComment EndsReading (front ++ ':' :: behind)) :
    content (front ++ ':' :: behind) = front ++ ':' :: trimEnd behind := by
  rw [content, stripComment_eq_self hcomment, List.append_cons,
    trimEnd_append_of_not_isBlankText _ hbehind, ← List.append_cons]

/-- A line with a value is an object with one member. -/
theorem parse_append_colon {front behind : List Char} (hline : '\n' ∉ front ++ ':' :: behind)
    (hfront : ':' ∉ front) (hbehind : ¬ isBlankText behind)
    (hcomment : ¬ HasComment EndsReading (front ++ ':' :: behind)) :
    parse (String.ofList (front ++ ':' :: behind)) =
      .ok (.object [(String.ofList (unquote (trim front)), scalar (trim behind))]) := by
  have hlines : contentLines (String.ofList (front ++ ':' :: behind)) =
      [front ++ ':' :: trimEnd behind] := by
    rw [contentLines, String.toList_ofList, lines_of_not_mem_feed hline (by simp),
      List.map_singleton, content_append_colon hbehind hcomment,
      List.filter_cons_of_pos (by simp [isBlankText, isSpace]), List.filter_nil]
  have hcolon : [front ++ ':' :: trimEnd behind].find? (fun content => ':' ∉ content) =
      none := by simp
  have hvalue : (lineOf (front ++ ':' :: trimEnd behind)).value =
      some (scalar (trim behind)) := by
    have hrest : ¬ isBlankText (trimEnd behind) := by
      rwa [← trim_eq_nil_iff, trim_trimEnd, trim_eq_nil_iff]
    rw [lineOf_append_colon hfront, if_neg hrest, trim_trimEnd]
  change (State.run ([], []) (contentLines _) >>= fun state =>
    pure (Value.object state.finish)) = _
  rw [State.run_eq, hlines, hcolon]
  change Except.ok (Value.object _) = _
  rw [State.finish_foldl_step, List.map_singleton, nest_cons_of_value hvalue, nest_nil,
    lineOf_append_colon hfront]
  rfl

/-! ### Keys between quotes -/

def quotedLine (q : Char) (key value : List Char) : List Char :=
  q :: (key ++ q :: ':' :: ' ' :: value)

/-- A number sign stands at the start of a text or behind a blank. -/
def HasSign (text : List Char) : Prop :=
  HasComment (fun front => isAtBlank front) text

instance : DecidablePred HasSign :=
  fun _ => inferInstanceAs (Decidable (HasComment _ _))

theorem isAtBlank_of_append {before text : List Char} (h : isAtBlank (before ++ text)) :
    isAtBlank text := by
  rcases text.eq_nil_or_concat with rfl | ⟨front, c, rfl⟩
  · rfl
  · rw [List.concat_eq_append, ← List.append_assoc, isAtBlank_append] at h
    rw [List.concat_eq_append, isAtBlank_append, h]

theorem unquote_quoted {q : Char} (h : IsQuote q) (text : List Char) :
    unquote (q :: (text ++ [q])) = text := by
  rw [unquote, if_pos ⟨h, List.getLast?_concat⟩, List.dropLast_concat]

theorem unquote_cons_of_not_mem {q : Char} {text : List Char} (h : q ∉ text) :
    unquote (q :: text) = q :: text :=
  if_neg fun hlast => h (List.mem_of_getLast? hlast.2)

variable {q : Char} {key value : List Char}

/-- Between the quotes of a key no comment starts. -/
theorem not_hasComment_quotedLine (hquote : IsQuote q) (hkey : q ∉ key)
    (hsign : ¬ HasSign value) : ¬ HasComment EndsReading (quotedLine q key value) := by
  have hfirst : ¬ HasComment EndsReading [q] := by
    rw [hasComment_singleton]
    exact fun hsign => hquote.ne_sign hsign.1
  have hopen : tokenQuoteBehind? [q] = some q := if_pos ⟨rfl, hquote⟩
  have hinner := not_hasComment_append_of_open hopen hfirst hkey
  have hsplit : quotedLine q key value = ([q] ++ key) ++ ([q, ':', ' '] ++ value) := by
    simp [quotedLine]
  rw [hsplit, hasComment_append ([q] ++ key), hasComment_append [q, ':', ' ']]
  rintro (hkeyPart | hbetween | hvaluePart)
  · exact hinner hkeyPart
  · simpa [hquote.ne_sign.symm] using hbetween.sign_mem
  · refine hsign (hvaluePart.mono fun front hends => ?_)
    exact isAtBlank_of_append (isAtBlank_of_append hends.1)

theorem not_mem_feed_quotedLine (hquote : IsQuote q) (hkey : '\n' ∉ key)
    (hvalue : '\n' ∉ value) : '\n' ∉ quotedLine q key value := by
  have hq : '\n' ≠ q := by
    rintro rfl
    exact absurd hquote (by decide)
  simp [quotedLine, hq, hkey, hvalue]

/-- A key between quotes is read as it is if it holds no colon. -/
theorem parse_quotedLine (hquote : IsQuote q) (hkey : q ∉ key) (hcolon : ':' ∉ key)
    (hline : '\n' ∉ key ∧ '\n' ∉ value) (hvalue : ¬ isBlankText value)
    (hsign : ¬ HasSign value) :
    parse (String.ofList (quotedLine q key value)) =
      .ok (.object [(String.ofList key, scalar (trim value))]) := by
  have hsplit : quotedLine q key value = q :: (key ++ [q]) ++ ':' :: ' ' :: value := by
    simp [quotedLine]
  have hread := not_hasComment_quotedLine hquote hkey hsign
  have hfeed := not_mem_feed_quotedLine hquote hline.1 hline.2
  have hfront : ':' ∉ q :: (key ++ [q]) := by simp [hcolon, hquote.ne_colon.symm]
  have hbehind : ¬ isBlankText (' ' :: value) := by simpa [isBlankText] using fun _ => hvalue
  have htrim : trim (q :: (key ++ [q])) = q :: (key ++ [q]) := by
    rw [trim, trimStart_eq_self_of_not_isSpace (by simp [hquote.not_isSpace]),
      trimEnd_eq_self_of_not_isSpace]
    rw [← List.cons_append, List.getLast?_concat]
    simp [hquote.not_isSpace]
  have hvalueTrim : trim (' ' :: value) = trim value :=
    trim_append_of_isBlankText (show isBlankText [' '] by decide) value
  rw [hsplit] at hread hfeed ⊢
  rw [parse_append_colon hfeed hfront hbehind hread, htrim, unquote_quoted hquote, hvalueTrim]

/-- A key between quotes is read up to its first colon, with its opening quote. -/
theorem parse_quotedLine_of_colon {front behind : List Char} (hquote : IsQuote q)
    (hkey : q ∉ front ++ ':' :: behind) (hfront : ':' ∉ front)
    (hline : '\n' ∉ front ++ ':' :: behind ∧ '\n' ∉ value) (hsign : ¬ HasSign value) :
    parse (String.ofList (quotedLine q (front ++ ':' :: behind) value)) =
      .ok (.object [(String.ofList (q :: trimEnd front),
        scalar (trim (behind ++ q :: ':' :: ' ' :: value)))]) := by
  have hsplit : quotedLine q (front ++ ':' :: behind) value =
      (q :: front) ++ ':' :: (behind ++ q :: ':' :: ' ' :: value) := by
    simp [quotedLine]
  have hread := not_hasComment_quotedLine hquote hkey hsign
  have hfeed := not_mem_feed_quotedLine hquote hline.1 hline.2
  have hcolon : ':' ∉ q :: front := by simp [hfront, hquote.ne_colon.symm]
  have hbehind : ¬ isBlankText (behind ++ q :: ':' :: ' ' :: value) := by
    simp [isBlankText, isSpace]
  have htrim : trim (q :: front) = q :: trimEnd front := by
    rw [trim, trimStart_eq_self_of_not_isSpace (by simp [hquote.not_isSpace]),
      trimEnd_cons_of_not_isSpace hquote.not_isSpace]
  have hopen : q ∉ trimEnd front := fun hmem =>
    hkey (List.mem_append_left _ (mem_of_mem_trimEnd hmem))
  rw [hsplit] at hread hfeed ⊢
  rw [parse_append_colon hfeed hcolon hbehind hread, htrim, unquote_cons_of_not_mem hopen]

/-- A key between quotes is read as it is exactly if it holds no colon. -/
theorem parse_quotedLine_iff (hquote : IsQuote q) (hkey : q ∉ key)
    (hline : '\n' ∉ key ∧ '\n' ∉ value) (hvalue : ¬ isBlankText value)
    (hsign : ¬ HasSign value) :
    parse (String.ofList (quotedLine q key value)) =
      .ok (.object [(String.ofList key, scalar (trim value))]) ↔ ':' ∉ key := by
  constructor
  · intro hparse hcolon
    obtain ⟨front, behind, rfl, hfront⟩ := List.eq_append_cons_of_mem hcolon
    rw [parse_quotedLine_of_colon hquote hkey hfront hline hsign] at hparse
    have hmember := List.head_eq_of_cons_eq (Value.object.inj (Except.ok.inj hparse))
    have hsame := String.ofList_injective (congrArg Prod.fst hmember)
    exact hkey (hsame ▸ List.mem_cons_self)
  · intro hcolon
    exact parse_quotedLine hquote hkey hcolon hline hvalue hsign

theorem parse_quotedLine_iff_of_number_sign :
    parse "\"it's # one\": x#y 'z" = .ok (.object [("it's # one", .string "x#y 'z")]) := by
  have hread := @parse_quotedLine_iff '"' "it's # one".toList "x#y 'z".toList
    (by decide) (by decide) (by decide) (by decide) (by decide)
  exact hread.2 (by decide)

/-- The key is cut at the colon between its quotes, and the value starts there. -/
theorem parse_of_colon_in_quotes :
    parse "\"a:b\": 1" = .ok (.object [("\"a", .string "b\": 1")]) ∧
      parse "\"a:b\": 1" ≠ .ok (.object [("a:b", .number (.integer 1))]) := by
  have hread : parse "\"a:b\": 1" = .ok (.object [("\"a", .string "b\": 1")]) := rfl
  refine ⟨hread, fun hwhole => ?_⟩
  have hmember := Value.object.inj (Except.ok.inj (hread.symm.trans hwhole))
  exact absurd (congrArg Entries.keys hmember) (by decide)

end DocWeave.Yaml.Outline

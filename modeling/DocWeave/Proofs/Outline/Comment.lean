/-
Comments and blank lines of an outline.  A line without a comment is passed as a whole, and a
comment behind it is cut off; among the lines with content nothing else is changed by
comments and blank lines.
-/
import DocWeave.Proofs.Outline.Line
import DocWeave.Proofs.Outline.Written
import DocWeave.Proofs.Text.Lines

namespace DocWeave.Yaml.Outline

/-! ### Parts of a line -/

/-- At the start of a token white space is passed, and another token can start behind it. -/
theorem stripComment_blank {blank : List Char} (h : isBlankText blank) (rest : List Char) :
    stripComment none true true (blank ++ rest) = blank ++ stripComment none true true rest := by
  induction blank with
  | nil => rfl
  | cons c blank ih =>
      simp only [isBlankText, List.all_cons, Bool.and_eq_true] at h
      obtain ⟨hspace, hblank⟩ := h
      have hquote : (c = '"' || c = '\'') = false := by
        simp only [Bool.or_eq_false_iff, decide_eq_false_iff_not]
        constructor
        · rintro rfl
          exact absurd hspace (by decide)
        · rintro rfl
          exact absurd hspace (by decide)
      have hsign : c ≠ '#' := by
        rintro rfl
        exact absurd hspace (by decide)
      rw [List.cons_append, stripComment]
      simp [hquote, hsign, hspace, ih hblank]

theorem stripComment_in_quotes {text : List Char} (h : '"' ∉ text) (start blank : Bool)
    (rest : List Char) :
    stripComment (some '"') start blank (text ++ '"' :: rest) =
      text ++ '"' :: stripComment none false false rest := by
  induction text generalizing start blank with
  | nil => rfl
  | cons c text ih =>
      obtain ⟨hc, htext⟩ := not_or.1 (mt List.mem_cons.2 h)
      rw [List.cons_append, stripComment, if_neg (Ne.symm hc), ih htext, List.cons_append]

/-- A text between double quotes is passed, whatever it holds. -/
theorem stripComment_inQuotes {text : String} (h : IsQuotable text) (blank : Bool)
    (rest : List Char) :
    stripComment none true blank (inQuotes text ++ rest) =
      inQuotes text ++ stripComment none false false rest := by
  have hopen : stripComment none true blank (inQuotes text ++ rest) =
      '"' :: stripComment (some '"') false false (text.toList ++ '"' :: rest) := by
    simp [inQuotes, stripComment]
  rw [hopen, stripComment_in_quotes h.noQuote]
  simp [inQuotes]

/-- A character that means nothing to a reader of comments and keys. -/
def IsOrdinary (c : Char) : Prop :=
  isSpace c = false ∧ c ∉ ['"', '\'', '#', ':']

instance : DecidablePred IsOrdinary :=
  fun _ => inferInstanceAs (Decidable (_ ∧ _))

theorem exists_stripComment_word {word : List Char} (h : ∀ c ∈ word, IsOrdinary c)
    (start blank : Bool) :
    ∃ start' blank', ∀ rest, stripComment none start blank (word ++ rest) =
      word ++ stripComment none start' blank' rest := by
  induction word generalizing start blank with
  | nil => exact ⟨start, blank, fun _ => rfl⟩
  | cons c word ih =>
      obtain ⟨⟨-, hc⟩, hword⟩ := List.forall_mem_cons.1 h
      obtain ⟨start', blank', hrest⟩ := ih hword (isSpace c || c = ':') (isSpace c)
      simp only [List.mem_cons, List.not_mem_nil, or_false, not_or] at hc
      obtain ⟨hdouble, hsingle, hsign, -⟩ := hc
      refine ⟨start', blank', fun rest => ?_⟩
      rw [List.cons_append, List.cons_append, ← hrest, stripComment]
      simp [hdouble, hsingle, hsign]

/-! ### Lines without a comment -/

/-- A line that holds no comment, ends without white space and is not blank. -/
structure IsWhole (line : List Char) : Prop where
  oneLine : '\n' ∉ line
  passed : ∃ start blank, ∀ rest,
    stripComment none true true (line ++ rest) = line ++ stripComment none start blank rest
  notBlank : isBlankText line = false
  trimmed : trimEnd line = line

theorem IsWhole.content_eq {line : List Char} (h : IsWhole line) : content line = line := by
  obtain ⟨start, blank, hpassed⟩ := h.passed
  have hline := hpassed []
  rw [List.append_nil, stripComment, List.append_nil] at hline
  rw [content, hline, h.trimmed]

/-- A comment behind a line is cut off with the blank in front of it. -/
theorem IsWhole.content_append_comment {line : List Char} (h : IsWhole line)
    (c : List Char) : content (line ++ ' ' :: '#' :: c) = line := by
  obtain ⟨start, blank, hpassed⟩ := h.passed
  have hcut : stripComment none start blank (' ' :: '#' :: c) = [' '] := by
    simp [stripComment, isSpace]
  rw [content, hpassed, hcut, trimEnd_append_of_isBlankText _ (by decide), h.trimmed]

theorem isBlankText_content_blank {blank : List Char} (h : isBlankText blank) :
    isBlankText (content blank) := by
  have hline := stripComment_blank h []
  rw [List.append_nil, stripComment, List.append_nil] at hline
  rw [content, hline, (trimEnd_eq_nil_iff blank).2 h]
  rfl

theorem isBlankText_content_remark {blank : List Char} (h : isBlankText blank)
    (c : List Char) : isBlankText (content (blank ++ '#' :: c)) := by
  have hcut : stripComment none true true ('#' :: c) = [] := by
    simp [stripComment]
  rw [content, stripComment_blank h, hcut, List.append_nil, (trimEnd_eq_nil_iff blank).2 h]
  rfl

/-- Comments and blank lines leave the lines with content as they are. -/
theorem Annotated.filter_map_content {ls ws : List (List Char)} (h : Annotated ls ws)
    (hwhole : ∀ line ∈ ls, IsWhole line) :
    ((ws.map content).filter fun line => !isBlankText line) = ls := by
  induction h with
  | nil => rfl
  | same _ ih =>
      obtain ⟨hline, hls⟩ := List.forall_mem_cons.1 hwhole
      rw [List.map_cons, hline.content_eq, List.filter_cons_of_pos (by simp [hline.notBlank]),
        ih hls]
  | comment _ _ ih =>
      obtain ⟨hline, hls⟩ := List.forall_mem_cons.1 hwhole
      rw [List.map_cons, hline.content_append_comment,
        List.filter_cons_of_pos (by simp [hline.notBlank]), ih hls]
  | blank hblank _ _ ih =>
      have hgone := isBlankText_content_blank hblank
      rw [List.map_cons, List.filter_cons_of_neg (by simp [hgone]), ih hwhole]
  | remark hblank _ _ ih =>
      have hgone := isBlankText_content_remark hblank
      rw [List.map_cons, List.filter_cons_of_neg (by simp [hgone]), ih hwhole]

theorem Annotated.not_mem_feed {ls ws : List (List Char)} (h : Annotated ls ws)
    (hwhole : ∀ line ∈ ls, IsWhole line) : ∀ w ∈ ws, '\n' ∉ w := by
  induction h with
  | nil => simp
  | same _ ih =>
      obtain ⟨hline, hls⟩ := List.forall_mem_cons.1 hwhole
      exact List.forall_mem_cons.2 ⟨hline.oneLine, ih hls⟩
  | comment hfeed _ ih =>
      obtain ⟨hline, hls⟩ := List.forall_mem_cons.1 hwhole
      exact List.forall_mem_cons.2 ⟨by simp [hline.oneLine, hfeed], ih hls⟩
  | blank _ hfeed _ ih => exact List.forall_mem_cons.2 ⟨hfeed, ih hwhole⟩
  | remark _ hfeed _ ih =>
      exact List.forall_mem_cons.2 ⟨by simpa using hfeed, ih hwhole⟩

/-! ### Lines of a text -/

/-- A carriage return at the end of a line is cut off with the comment, or it stays. -/
theorem exists_stripComment_append_return (line : List Char) (quote : Option Char)
    (start blank : Bool) :
    ∃ space, isBlankText space ∧
      stripComment quote start blank (line ++ ['\r']) =
        stripComment quote start blank line ++ space := by
  induction line generalizing quote start blank with
  | nil =>
      refine ⟨['\r'], by decide, ?_⟩
      rcases quote with _ | q
      · rfl
      · rfl
  | cons c line ih =>
      rcases quote with _ | q
      · by_cases hquote : ((c = '"' || c = '\'') && start) = true
        · obtain ⟨space, hspace, hline⟩ := ih (some c) false false
          refine ⟨space, hspace, ?_⟩
          simp only [List.cons_append, stripComment, if_pos hquote, hline]
        · by_cases hsign : (c = '#' && blank) = true
          · refine ⟨[], rfl, ?_⟩
            simp only [List.cons_append, stripComment, if_neg hquote, if_pos hsign,
              List.append_nil]
          · obtain ⟨space, hspace, hline⟩ := ih none (isSpace c || c = ':') (isSpace c)
            refine ⟨space, hspace, ?_⟩
            simp only [List.cons_append, stripComment, if_neg hquote, if_neg hsign, hline]
      · obtain ⟨space, hspace, hline⟩ :=
          ih (if c = q then none else some q) (isSpace c) (isSpace c)
        refine ⟨space, hspace, ?_⟩
        simp only [List.cons_append, stripComment, hline]

theorem content_dropReturn (line : List Char) : content (dropReturn line) = content line := by
  by_cases hreturn : line.getLast? = some '\r'
  · obtain ⟨front, rfl⟩ := List.getLast?_eq_some_iff.1 hreturn
    obtain ⟨space, hspace, hline⟩ := exists_stripComment_append_return front none true true
    rw [dropReturn_append_return, content, content, hline,
      trimEnd_append_of_isBlankText _ hspace]
  · rw [dropReturn_eq_self hreturn]

/-- Lines that were put together to a text are found again. -/
theorem contentLines_joinLines {ws : List (List Char)} (h : ∀ w ∈ ws, '\n' ∉ w) :
    contentLines (joinLines ws) = (ws.map content).filter fun line => !isBlankText line := by
  rw [contentLines, joinLines, String.toList_ofList]
  induction ws with
  | nil => rfl
  | cons w ws ih =>
      obtain ⟨hw, hws⟩ := List.forall_mem_cons.1 h
      cases ws with
      | nil =>
          by_cases hnil : w = []
          · subst hnil
            rfl
          · rw [List.intercalate_singleton, lines_of_not_mem_feed hw hnil]
      | cons next ws =>
          have hjoin : ['\n'].intercalate (w :: next :: ws) =
              w ++ '\n' :: ['\n'].intercalate (next :: ws) := by
            simp [List.intercalate]
          rw [hjoin, lines_append_feed hw, List.map_cons, List.map_cons, content_dropReturn,
            List.filter_cons, List.filter_cons, ih hws]

theorem Annotated.contentLines_eq {ls ws : List (List Char)} (h : Annotated ls ws)
    (hwhole : ∀ line ∈ ls, IsWhole line) : contentLines (joinLines ws) = ls := by
  rw [contentLines_joinLines (h.not_mem_feed hwhole), h.filter_map_content hwhole]

end DocWeave.Yaml.Outline

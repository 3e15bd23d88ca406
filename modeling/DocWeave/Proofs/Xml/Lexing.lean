/-
Tokens of written text, one lexeme at a time: tags and sections give their token whatever
follows, comments and instructions give none, and a run of text gives one when a tag
follows it.
-/
import DocWeave.Proofs.Entries.Order
import DocWeave.Proofs.Xml.Lexeme
import DocWeave.Proofs.Xml.Tag

namespace DocWeave.Xml

/-! ### Comments, instructions and sections -/

/-- Comments and instructions leave no trace. -/
theorem Aside.tokenize_append {m : List Char} (h : Aside m) (rest : List Char) :
    tokenize (m ++ rest) = tokenize rest := by
  cases h with
  | comment hc => exact (Markup.comment hc).tokenize_append_of_none rest
  | instruction hp => exact (Markup.instruction hp).tokenize_append_of_none rest

theorem tokenize_literal {s : List Char} (hs : ¬ "]]>".toList <:+: s) (rest : List Char) :
    tokenize ("<![CDATA[".toList ++ (s ++ "]]>".toList) ++ rest) =
      (tokenize rest).map (.text (String.ofList s) :: ·) :=
  (Markup.literal hs).tokenize_append rest

/-! ### Text -/

theorem tokenize_escaped {s w : List Char} (h : Escaped '<' s w) (hne : w ≠ [])
    {rest : List Char} (hrest : StartsWithTag rest) :
    tokenize (w ++ rest) = (tokenize rest).map (.text (String.ofList s) :: ·) := by
  have hplain : ∀ c ∈ w, isPlain c := by
    intro c hc
    have hnot := h.not_mem (by decide) (by decide) (by decide)
    have hne : c ≠ '<' := fun heq => hnot (heq ▸ hc)
    simp [isPlain, hne]
  exact tokenize_run hne hplain h.decode_eq hrest

/-- Text without an ampersand and without its end can be written as it is. -/
theorem Escaped.of_plain {stop : Char} {s : List Char} (hstop : stop ∉ s)
    (hamp : '&' ∉ s) : Escaped stop s s := by
  induction s with
  | nil => exact .nil
  | cons c rest ih =>
      obtain ⟨hstop, hstops⟩ := not_or.1 (mt List.mem_cons.2 hstop)
      obtain ⟨hamp, hamps⟩ := not_or.1 (mt List.mem_cons.2 hamp)
      exact .plain (Ne.symm hstop) (Ne.symm hamp) (ih hstops hamps)

theorem Escaped.of_isBlankText {blank : List Char} (h : isBlankText blank) :
    Escaped '<' blank blank := by
  apply Escaped.of_plain
  · intro hmem
    exact absurd (List.all_eq_true.1 h _ hmem) (by decide)
  · intro hmem
    exact absurd (List.all_eq_true.1 h _ hmem) (by decide)

theorem Run.tokenize_append {s r : List Char} (h : Run s r) (hne : r ≠ [])
    {rest : List Char} (hrest : StartsWithTag rest) :
    tokenize (r ++ rest) = (tokenize rest).map (.text (String.ofList s) :: ·) := by
  cases h with
  | escaped h => exact tokenize_escaped h hne hrest
  | literal hs => exact tokenize_literal hs rest

theorem Run.eq_nil {s : List Char} (h : Run s []) : s = [] := by
  generalize hr : [] = r at h
  cases h with
  | escaped h =>
      subst hr
      cases h
      rfl
  | literal => simp at hr

/-! ### Tags -/

theorem tokenize_tag {name : String} {pairs : Entries String} {a blank : List Char}
    (hname : isName name.toList)
    (hmark : name.toList.head? ≠ some '!' ∧ name.toList.head? ≠ some '?')
    (ha : WrittenAttributes pairs a) (hkeys : ∀ key ∈ Entries.keys pairs, isName key.toList)
    (hnodup : (Entries.keys pairs).Nodup) (hblank : isBlankText blank) (e : TagEnd)
    (rest : List Char) :
    tokenize ('<' :: (name.toList ++ (a ++ (blank ++ (e.mark ++ rest))))) =
      (tokenize rest).map (e.token name pairs :: ·) := by
  have htag := Markup.tag (ha.tagText hname hkeys hblank e) hmark
  rw [String.ofList_toList, Entries.ofPairs_of_nodup hnodup] at htag
  have hread := htag.tokenize_append rest
  rw [List.append_assoc, List.append_assoc, List.append_assoc] at hread
  exact hread

theorem tokenize_closing {name : String} (hname : isName name.toList) {blank : List Char}
    (hblank : isBlankText blank) (rest : List Char) :
    tokenize ('<' :: '/' :: (name.toList ++ (blank ++ '>' :: rest))) =
      (tokenize rest).map (.closing name :: ·) := by
  obtain ⟨hmem, htrim⟩ := not_mem_and_trim_eq_of_isName hname hblank
  have hclosing := Markup.closing hmem (htrim.symm ▸ hname)
  rw [htrim, String.ofList_toList] at hclosing
  have hread := hclosing.tokenize_append rest
  rw [List.cons_append, List.append_assoc, List.append_assoc] at hread
  exact hread

end DocWeave.Xml

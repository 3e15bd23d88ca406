/-
Reading what was written.  However a forest of elements is written out, reading the text
gives the documented value of the forest.
-/
import DocWeave.Proofs.Xml.Building
import DocWeave.Proofs.Xml.Conversion
import DocWeave.Proofs.Xml.Nesting

namespace DocWeave.Xml

/-- A text that starts with white space or with a tag starts with no byte order mark. -/
theorem Written.dropMark_eq {free : Bool} {roots : List Node} {w : List Char}
    (h : Written .outside free roots w) : dropMark w = w := by
  have hhead : ∀ c ∈ w.head?, c = '<' ∨ isSpace c := by
    intro c hc
    cases h with
    | nil => cases hc
    | aside hm _ => exact Or.inl (hm.startsWithTag _ c hc)
    | @blank blank w _ hblank h =>
        cases blank with
        | nil => exact Or.inl (h.startsWithTag c hc)
        | cons d rest =>
            cases hc
            exact Or.inr (List.all_eq_true.1 hblank c List.mem_cons_self)
    | element _ _ _ _ _ => exact Or.inl (startsWithTag_cons _ c hc)
    | empty _ _ _ => exact Or.inl (startsWithTag_cons _ c hc)
  unfold dropMark
  split
  next rest =>
    rcases hhead '\uFEFF' rfl with h | h
    · exact absurd h (by decide)
    · exact absurd h (by decide)
  next => rfl

theorem Kept.childValues_eq {content nodes : List Node} (h : Kept content nodes) :
    childValues nodes = childValues content := by
  induction h with
  | nil => rfl
  | text _ ih => simpa only [childValues] using ih
  | gone _ ih => simpa only [childValues] using ih
  | element hc _ ihcontent ih =>
      simp only [childValues, Node.value, joinedText_eq, hc.textRuns_eq, ihcontent, ih]

/-- However a forest is written, its text is read as the members of its roots. -/
theorem Written.parse_eq {roots : List Node} {w : List Char}
    (h : Written .outside true roots w) (hconforming : Conforming roots)
    (hheight : height roots ≤ nestingLimit) :
    parse (String.ofList w) = .ok (.object ((childValues roots).foldl addChild [])) := by
  obtain ⟨tokens, nodes, hgives, hbuilds, hkept⟩ := h.exists_tokens hconforming
  have htokens : tokenize w = .ok tokens := by
    have hall := hgives [] (fun c hc => nomatch hc)
    rw [List.append_nil] at hall
    rw [hall, tokenize_nil]
    simp [Except.map]
  have hnodes : height nodes ≤ nestingLimit := hkept.height_eq ▸ hheight
  rw [← h.dropMark_eq, ← String.toList_ofList (l := w)] at htokens
  rw [parse_of_build htokens (hbuilds.build_eq hnodes) hnodes, hkept.childValues_eq]

/-- However a forest is written, its text is read as the documented value. -/
theorem parse_written {roots : List Node} {w : List Char} (h : Written .outside true roots w)
    (hconforming : Conforming roots) (hheight : height roots ≤ nestingLimit) :
    parse (String.ofList w) = .ok (.object (grouped (childDocuments roots))) := by
  have hmembers : (childValues roots).foldl addChild [] = grouped (childDocuments roots) := by
    rw [childValues_eq_childDocuments hconforming,
      foldl_addChild_eq (by simp) (kind_ne_array_of_mem_childDocuments roots),
      List.nil_append]
  rw [h.parse_eq hconforming hheight, hmembers]

/-- Quotes of both kinds, references, an instruction, a comment, an empty element and one
that is closed with white space, and text between them. -/
theorem parse_written_of_mixed_content :
    let roots := [Node.element "r" [("a", "1<2"), ("b", "x")]
      [.text "hi ", .element "k" [] [], .element "k" [] [.text "v"], .text "!"]]
    let text := "<?q?><r a=\"1&lt;2\" b='x'>hi <!--c--><k /><k>v</k>&#x21;</r >\n"
    Written .outside true roots text.toList ∧ Conforming roots ∧ height roots ≤ nestingLimit ∧
      parse text = .ok (.object [("r", .object [("@a", .string "1<2"), ("@b", .string "x"),
        ("k", .array [.object [], .string "v"]), ("_text", .string "hi !")])]) := by
  intro roots text
  have hvalue : Escaped '"' ['1', '<', '2'] _ :=
    .plain (by decide) (by decide) (.reference .lt (.plain (by decide) (by decide) .nil))
  have hother : Escaped '\'' ['x'] _ := .plain (by decide) (by decide) .nil
  have hattributes : WrittenAttributes [("a", "1<2"), ("b", "x")] _ :=
    .cons (show [' '] ≠ [] by decide) (by decide) (Or.inl rfl) hvalue
      (.cons (show [' '] ≠ [] by decide) (by decide) (Or.inr rfl) hother .nil)
  have hbang : Run ['!'] _ :=
    .escaped (.reference (.hexadecimal (Or.inl rfl) (show ['2', '1'] ≠ [] by decide) (by decide))
      .nil)
  have hempty : isBlankText [] := rfl
  have hspace : isBlankText [' '] := rfl
  have hinner : Written .inside true
      [.text "hi ", .element "k" [] [], .element "k" [] [.text "v"], .text "!"] _ :=
    .run (.escaped (.of_plain (s := ['h', 'i', ' ']) (by decide) (by decide)))
      (.aside (.comment (c := ['c']) (by decide))
        (.empty .nil hspace
          (.element .nil hempty
            (.run (.escaped (.of_plain (s := ['v']) (by decide) (by decide))) .nil) hempty
            (.run hbang .nil))))
  have hroots : Written .outside true roots _ :=
    .aside (.instruction (p := ['q']) (by decide))
      (.element hattributes hempty hinner hspace
        (.blank (show isBlankText ['\n'] by decide) .nil))
  have hwritten : Written .outside true roots text.toList := by
    simpa [text] using hroots
  have hconforming : Conforming roots := by
    apply Conforming.element <;> try decide
    · apply Conforming.text
      apply Conforming.element <;> try decide
      · exact .nil
      apply Conforming.element <;> try decide
      · exact .text .nil
      · exact .text .nil
    · exact .nil
  have hheight : height roots ≤ nestingLimit := by
    cbv
  refine ⟨hwritten, hconforming, hheight, ?_⟩
  have hdocument : grouped (childDocuments roots) = [("r", .object [("@a", .string "1<2"),
      ("@b", .string "x"), ("k", .array [.object [], .string "v"]),
      ("_text", .string "hi !")])] := by
    cbv
  rw [← hdocument, ← parse_written hwritten hconforming hheight, String.ofList_toList]

end DocWeave.Xml

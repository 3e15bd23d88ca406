/-
Written tags: a name with attributes in either kind of quotes, and with white space where it
may stand, is the text of a tag with that name and these attributes.
-/
import DocWeave.Proofs.Xml.Reference
import DocWeave.Proofs.Xml.TagText

namespace DocWeave.Xml

/-! ### Attributes -/

theorem isAttributeName_of_isName {name : List Char} (h : isName name) :
    IsAttributeName name := by
  obtain ⟨hne, -⟩ := (isName_iff name).1 h
  obtain ⟨first, more, rfl⟩ := List.exists_cons_of_ne_nil hne
  refine ⟨isTagNameChar_of_isName h first List.mem_cons_self, fun c hc => ?_⟩
  obtain ⟨hspace, -, hgt, hslash, heq⟩ :=
    not_isSpace_of_isName h (List.mem_cons_of_mem first hc)
  simp [isAttributeChar, hspace, hgt, hslash, heq]

/-- Written attributes are read in their order, up to the end of the tag. -/
theorem WrittenAttributes.attributesText {pairs : Entries String} {a blank : List Char}
    (h : WrittenAttributes pairs a) (hkeys : ∀ key ∈ Entries.keys pairs, isName key.toList)
    (hblank : isBlankText blank) (e : TagEnd) :
    AttributesText e pairs (a ++ (blank ++ e.mark)) := by
  induction h with
  | nil => exact .last hblank
  | @cons key value pairs quote blank' raw w _ hblank' hquote hvalue _ ih =>
      obtain ⟨hkey, hkeys⟩ := List.forall_mem_cons.1 hkeys
      have hraw : quote ∉ raw := hvalue.not_mem (by rcases hquote with rfl | rfl <;> decide)
        (by rcases hquote with rfl | rfl <;> decide) (by rcases hquote with rfl | rfl <;> decide)
      have hnone : isBlankText [] := rfl
      have hpair := AttributeText.intro hblank' (isAttributeName_of_isName hkey)
        (.intro hnone hnone hquote hraw) hvalue.decode_eq
      rw [String.ofList_toList, String.ofList_toList] at hpair
      have hsame : blank' ++ (key.toList ++ '=' :: quote :: (raw ++ quote :: w)) ++
          (blank ++ e.mark) =
          blank' ++ (key.toList ++ ([] ++ '=' :: ([] ++ quote :: (raw ++ [quote])))) ++
            (w ++ (blank ++ e.mark)) := by simp
      rw [hsame]
      exact .more hpair (ih hkeys)

/-! ### Tags -/

/-- What stands behind the name of a tag is not taken for a part of it. -/
theorem WrittenAttributes.not_isTagNameChar {pairs : Entries String} {a blank : List Char}
    (h : WrittenAttributes pairs a) (hblank : isBlankText blank) (e : TagEnd) :
    ∀ c ∈ (a ++ (blank ++ e.mark)).head?, isTagNameChar c = false := by
  have of_blank {c : Char} {more : List Char} (hcons : isBlankText (c :: more)) :
      isTagNameChar c = false := by
    have hspace : isSpace c = true := List.all_eq_true.1 hcons c List.mem_cons_self
    simp [isTagNameChar, hspace]
  intro c hc
  cases h with
  | nil =>
      cases blank with
      | nil => cases e <;> (cases hc; rfl)
      | cons d more =>
          cases hc
          exact of_blank hblank
  | @cons _ _ _ _ blank' _ _ hne hblank' _ _ _ =>
      obtain ⟨d, more, rfl⟩ := List.exists_cons_of_ne_nil hne
      cases hc
      exact of_blank hblank'

theorem WrittenAttributes.tagText {name : String} {pairs : Entries String} {a blank : List Char}
    (hname : isName name.toList) (ha : WrittenAttributes pairs a)
    (hkeys : ∀ key ∈ Entries.keys pairs, isName key.toList) (hblank : isBlankText blank)
    (e : TagEnd) : TagText name.toList pairs e (name.toList ++ (a ++ (blank ++ e.mark))) :=
  .intro hname (ha.attributesText hkeys hblank e) (ha.not_isTagNameChar hblank e)

/-- The name of a closing tag may have white space behind it. -/
theorem not_mem_and_trim_eq_of_isName {name blank : List Char} (hname : isName name)
    (hblank : isBlankText blank) : '>' ∉ name ++ blank ∧ trim (name ++ blank) = name := by
  constructor
  · intro hmem
    rcases List.mem_append.1 hmem with hmem | hmem
    · exact (not_isSpace_of_isName hname hmem).2.2.1 rfl
    · exact absurd (List.all_eq_true.1 hblank '>' hmem) (by decide)
  · rw [trim_append_blank _ hblank]
    exact trim_eq_self_of_not_isSpace fun c hc => (not_isSpace_of_isName hname hc).1

end DocWeave.Xml

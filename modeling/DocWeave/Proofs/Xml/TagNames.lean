/-
The names that tags are read under.  Names of elements are checked, and names of attributes
are not: they end where white space, an equals sign, a slash or a bracket stands, and begin
with whatever else stands there.  An attribute that a tag gives again is read once.
-/
import Mathlib
import DocWeave.Proofs.Entries.Order
import DocWeave.Proofs.Xml.Lexeme
import DocWeave.Proofs.Xml.Nesting

namespace DocWeave.Xml

/-- What the name and the attributes of a tag were read from: its text, with pairs of which
the last one with a name counts. -/
structure ReadAs (w : List Char) (e : TagEnd) (name : String) (attributes : Entries String)
    (pairs : List (String × String)) : Prop where
  tagText : TagText name.toList pairs e w
  isName_name : isName name.toList
  isAttributeName : ∀ pair ∈ pairs, IsAttributeName pair.1.toList
  keys_eq : Entries.keys attributes = (pairs.map Prod.fst).eraseDups
  find?_eq (key : String) : Entries.find? key attributes = Entries.find? key pairs.reverse

theorem AttributesText.isAttributeName {e : TagEnd} {pairs : List (String × String)}
    {w : List Char} (h : AttributesText e pairs w) :
    ∀ pair ∈ pairs, IsAttributeName pair.1.toList := by
  induction h with
  | last => exact fun _ hpair => nomatch hpair
  | more hpair _ ih =>
      obtain ⟨-, hkey, -, -⟩ := hpair
      refine List.forall_mem_cons.2 ⟨?_, ih⟩
      rwa [String.toList_ofList]

theorem TagText.readAs {name : String} {pairs : List (String × String)} {e : TagEnd}
    {w : List Char} (h : TagText name.toList pairs e w) :
    ReadAs w e name (Entries.ofPairs pairs) pairs := by
  have htag := h
  obtain ⟨hname, hw, -⟩ := h
  exact ⟨htag, hname, hw.isAttributeName, Entries.keys_ofPairs pairs,
    fun key => Entries.find?_ofPairs key pairs⟩

/-- In a text that is read, every tag has a name.  Its attributes are read from a place of the
text that is its own, under texts without white space, slashes and closing brackets; one that
is given again is read once, in the place where it was given first and with the value that was
given last. -/
theorem tags_of_parse {text : String} {v : Value} (h : parse text = .ok v) :
    ∃ tokens roots, tokenize (dropMark text.toList) = .ok tokens ∧ build tokens = .ok roots ∧
      v = .object ((childValues roots).foldl addChild []) ∧
      (∀ name, .closing name ∈ tokens → isName name.toList) ∧
      ∀ first e name attributes last, tokens = first ++ TagEnd.token name attributes e :: last →
        ∃ before w after pairs, dropMark text.toList = before ++ '<' :: (w ++ after) ∧
          tokenize before = .ok first ∧ tokenize after = .ok last ∧
          ReadAs w e name attributes pairs := by
  obtain ⟨tokens, roots, htokens, hroots, hv⟩ := exists_of_parse h
  have hlexed := lexed_of_tokenize htokens
  refine ⟨tokens, roots, htokens, hroots, hv, fun name hname => ?_,
    fun first e name attributes last hsplit => ?_⟩
  · obtain ⟨m, hm⟩ := hlexed.exists_markup hname nofun
    exact hm.isName_closing
  · obtain ⟨before, w, after, htext, hbefore, hw, hafter⟩ :=
      hlexed.exists_split hsplit (e.token_ne_text name attributes)
    obtain ⟨pairs, htag, rfl⟩ := hw.exists_pairs
    exact ⟨before, w, after, pairs, htext, hbefore.tokenize_eq, hafter.tokenize_eq, htag.readAs⟩

/-- An attribute that is given twice, around another one. -/
theorem tags_of_parse_of_repeated_attribute :
    let text := "<a x=\"1\" y=\"2\" x='3'><b/></a>"
    parse text = .ok (.object [("a", .object [("@x", .string "3"), ("@y", .string "2"),
        ("b", .object [])])]) ∧
      isName "a".toList ∧ ∃ w pairs, ReadAs w .opening "a" [("x", "3"), ("y", "2")] pairs := by
  intro text
  have hparse : parse text = .ok (.object [("a", .object [("@x", .string "3"),
      ("@y", .string "2"), ("b", .object [])])]) := by
    cbv
  have htokenize : tokenize (dropMark text.toList) = .ok [.opening "a" [("x", "3"), ("y", "2")],
      .empty "b" [], .closing "a"] := by
    cbv
  obtain ⟨tokens, roots, htokens, -, -, hclosing, htags⟩ := tags_of_parse hparse
  cases htokenize.symm.trans htokens
  obtain ⟨-, w, -, pairs, -, -, -, hread⟩ := htags [] .opening "a" [("x", "3"), ("y", "2")] _ rfl
  exact ⟨hparse, hclosing "a" (by simp), w, pairs, hread⟩

/-- A tag may give an attribute twice, and the name of an attribute need not be a name. -/
theorem not_distinct_and_named_of_parse :
    (parse "<a x=\"1\" x=\"2\"/>" = .ok (.object [("a", .object [("@x", .string "2")])]) ∧
      TagText "a".toList [("x", "1"), ("x", "2")] .selfClosing
        ("a".toList ++ " x=\"1\" x=\"2\"/>".toList) ∧
      ¬ (Entries.keys [("x", "1"), ("x", "2")]).Nodup) ∧
    parse "<a &=\"1\"/>" = .ok (.object [("a", .object [("@&", .string "1")])]) ∧
      TagText "a".toList [("&", "1")] .selfClosing ("a".toList ++ " &=\"1\"/>".toList) ∧
      ¬ isName "&".toList := by
  have hnone : isBlankText [] := rfl
  have hspace : isBlankText [' '] := rfl
  have pair {key value : Char} (hkey : isTagNameChar key) (hquote : '"' ∉ [value])
      (hdecode : decode [value] = .ok [value]) :
      AttributeText (String.ofList [key], String.ofList [value])
        [' ', key, '=', '"', value, '"'] := by
    have hname : IsAttributeName [key] := ⟨hkey, nofun⟩
    exact .intro hspace hname (.intro hnone hnone (.inl rfl) hquote) hdecode
  have hend : AttributesText .selfClosing [] ['/', '>'] := .last hnone
  have hrepeated : AttributesText .selfClosing [("x", "1"), ("x", "2")]
      " x=\"1\" x=\"2\"/>".toList :=
    .more (pair (by decide) (by decide) (by cbv))
      (.more (pair (by decide) (by decide) (by cbv)) hend)
  have hunnamed : AttributesText .selfClosing [("&", "1")] " &=\"1\"/>".toList :=
    .more (pair (by decide) (by decide) (by cbv)) hend
  have hname : isName "a".toList := by decide
  have hnext (more : List Char) : ∀ c ∈ (' ' :: more).head?, isTagNameChar c = false := by
    rintro c ⟨⟩
    rfl
  refine ⟨⟨by cbv, ?_, by decide⟩, by cbv, ?_, by decide⟩
  · exact .intro hname hrepeated (hnext _)
  · exact .intro hname hunnamed (hnext _)

end DocWeave.Xml

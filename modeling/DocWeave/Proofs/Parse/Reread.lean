/-
Reading output again.  A document that was read in any format and holds no double is written
as JSON; the JSON text is read as the same document if at most as many containers are open
at once as the JSON reader allows, and refused otherwise.  Marked-up text and outlines may
nest deeper than that.
-/
import DocWeave.Proofs.Json.TooDeep
import DocWeave.Proofs.Parse.WellFormed
import DocWeave.Proofs.Xml.RoundTrip

namespace DocWeave

theorem parse_withFinalNewline_of_deep (config : Config) {v : Value} {text : List Char}
    (h : Json.Written v text) (hkeys : v.DistinctKeys)
    (hnesting : Json.nestingLimit < v.nesting) :
    ∃ position, parse config .json (String.ofList (withFinalNewline text)) =
      .error (.json .tooDeep position) := by
  obtain ⟨blank, -, heq⟩ := exists_withFinalNewline_eq text
  obtain ⟨left, hstop⟩ := Json.document_of_written_of_deep h hkeys hnesting blank
  refine ⟨Json.Fault.position (text ++ blank) ⟨Json.Reason.tooDeep, left, 1⟩, ?_⟩
  rw [parse, parseJson, heq, String.toList_ofList, hstop]
  rfl

/-- JSON text and tables are read as documents that the JSON reader can read again. -/
theorem nesting_le_of_parse {config : Config} {format : Format} {text : String} {v : Value}
    (h : parse config format text = .ok v) (hformat : format = .json ∨ format = .csv) :
    v.nesting ≤ Json.nestingLimit := by
  rcases hformat with rfl | rfl
  · exact (Json.readable_of_document (eq_ok_of_mapError_eq_ok h)).nesting_le
  · cases h
    exact Nat.le_trans (Csv.readable_parse config.sanitizeCell text).nesting_le (by decide)

/-! ### Elements inside one another -/

namespace Xml

/-- Elements, each the only one in the one around it. -/
def nestedElements : Nat → List Node
  | 0 => []
  | n + 1 => [.element "a" [] (nestedElements n)]

def nestedTags : Nat → List Char
  | 0 => []
  | n + 1 => '<' :: 'a' :: '>' :: (nestedTags n ++ ['<', '/', 'a', '>'])

def nestedObjects : Nat → Value
  | 0 => .object []
  | n + 1 => .object [("a", nestedObjects n)]

theorem written_nestedElements (place : Place) (free : Bool) (n : Nat) :
    Written place free (nestedElements n) (nestedTags n) := by
  induction n generalizing place free with
  | zero => exact .nil
  | succ n ih =>
      have hblank : isBlankText [] := rfl
      have helement : Written place free (nestedElements (n + 1)) _ :=
        .element .nil hblank (ih .inside true) hblank .nil
      simpa [nestedTags] using helement

theorem conforming_nestedElements (n : Nat) : Conforming (nestedElements n) := by
  induction n with
  | zero => exact .nil
  | succ n ih =>
      have hat : ∀ child ∈ childNames (nestedElements n), child.toList.head? ≠ some '@' := by
        cases n <;> simp [nestedElements, childNames]
      have htext : textRuns (nestedElements n) ≠ [] → textKey ∉ childNames (nestedElements n) := by
        cases n <;> simp [nestedElements, textRuns]
      exact .element (by decide) (by decide) (by simp) (by simp) hat htext ih .nil

theorem height_nestedElements (n : Nat) : height (nestedElements n) = n := by
  induction n with
  | zero => simp [nestedElements, height]
  | succ n ih => simp [nestedElements, height, ih]

theorem object_childValues_nestedElements (n : Nat) :
    Value.object ((childValues (nestedElements n)).foldl addChild []) = nestedObjects n := by
  induction n with
  | zero => simp [nestedElements, nestedObjects, childValues]
  | succ n ih =>
      have htext : joinedText (nestedElements n) = [] := by cases n <;> rfl
      have hinner : assemble [] [] (childValues (nestedElements n)) = nestedObjects n := by
        rw [← ih, assemble]
        cases childValues (nestedElements n) <;> rfl
      rw [nestedElements, childValues, childValues, Node.value, htext, hinner]
      rfl

theorem parse_nestedTags {n : Nat} (h : n ≤ nestingLimit) :
    parse (String.ofList (nestedTags n)) = .ok (nestedObjects n) := by
  rw [(written_nestedElements .outside true n).parse_eq (conforming_nestedElements n)
    (by rwa [height_nestedElements]), object_childValues_nestedElements]

theorem nesting_nestedObjects (n : Nat) : (nestedObjects n).nesting = n + 1 := by
  induction n with
  | zero => rfl
  | succ n ih => simp [nestedObjects, Value.nesting, Value.nestingOfMembers, ih]

theorem wholeNumbers_nestedObjects (n : Nat) : (nestedObjects n).WholeNumbers := by
  induction n with
  | zero => decide
  | succ n ih => exact (Value.everywhere_object_iff _).2 ⟨rfl, List.forall_mem_singleton.2 ih⟩

end Xml

theorem parse_xml_nestedTags (config : Config) {n : Nat} (h : n ≤ Xml.nestingLimit) :
    parse config .xml (String.ofList (Xml.nestedTags n)) = .ok (Xml.nestedObjects n) := by
  rw [parse, Xml.parse_nestedTags h]
  rfl

/-! ### Both sides of the limit -/

/-- Elements may nest deeper than the containers of JSON text: a document that was read from
such elements is refused when its own JSON text is read. -/
theorem not_reread_of_nested_elements :
    let text := String.ofList (Xml.nestedTags 127)
    let v := Xml.nestedObjects 127
    parse {} .xml text = .ok v ∧ v.WholeNumbers ∧
      ∀ w, parse {} .json (render .json v) ≠ .ok w := by
  intro text v
  have hread : parse {} .xml text = .ok v := parse_xml_nestedTags {} (by decide)
  have hnumbers : v.WholeNumbers := Xml.wholeNumbers_nestedObjects 127
  have hnesting : Json.nestingLimit < v.nesting := by
    rw [Xml.nesting_nestedObjects]
    decide
  obtain ⟨position, hrefused⟩ := parse_withFinalNewline_of_deep {}
    (Json.written_compact hnumbers) (wellFormed_of_parse hread).distinctKeys hnesting
  refine ⟨hread, hnumbers, fun w hw => ?_⟩
  rw [render, hrefused] at hw
  cases hw

/-- What was read without doubles, in whichever format, is written as JSON text that is read
as the same document again, under any settings, if at most 127 containers are open at once;
otherwise that text is refused for its depth.  What was read from JSON text or from a table
never nests too deep. -/
theorem reread_of_parse {config : Config} {format : Format} {text : String} {v : Value}
    (h : parse config format text = .ok v) (hnumbers : v.WholeNumbers) (reader : Config) :
    (v.nesting ≤ 127 → parse reader .json (render .json v) = .ok v) ∧
      (127 < v.nesting → ∃ position,
        parse reader .json (render .json v) = .error (.json .tooDeep position)) ∧
      (format = .json ∨ format = .csv → v.nesting ≤ 127) := by
  have hwritten := Json.written_compact hnumbers
  have hkeys := (wellFormed_of_parse h).distinctKeys
  refine ⟨fun hnesting => ?_, fun hnesting => ?_, fun hformat => nesting_le_of_parse h hformat⟩
  · exact parse_withFinalNewline reader hwritten hkeys hnesting
  · exact parse_withFinalNewline_of_deep reader hwritten hkeys hnesting

/-- An outline of two levels, and 127 elements inside one another. -/
theorem reread_of_parse_of_both_depths :
    let shallow := Value.object [("a", .object [("b", .number (.integer 1))])]
    let deep := Xml.nestedObjects 127
    parse {} .yaml "a:\n  b: 1\n" = .ok shallow ∧ shallow.WholeNumbers ∧
      shallow.nesting ≤ 127 ∧ parse {} .json (render .json shallow) = .ok shallow ∧
      parse {} .xml (String.ofList (Xml.nestedTags 127)) = .ok deep ∧ deep.WholeNumbers ∧
      127 < deep.nesting ∧
      ∃ position, parse {} .json (render .json deep) = .error (.json .tooDeep position) := by
  intro shallow deep
  have houtline : Yaml.Outline.parse "a:\n  b: 1\n" = .ok shallow := by cbv
  have hshallow : parse {} .yaml "a:\n  b: 1\n" = .ok shallow := by
    rw [parse, houtline]
    rfl
  have hdeep : parse {} .xml (String.ofList (Xml.nestedTags 127)) = .ok deep :=
    parse_xml_nestedTags {} (by decide)
  have hnumbers : shallow.WholeNumbers := by decide
  have hnumbers' : deep.WholeNumbers := Xml.wholeNumbers_nestedObjects 127
  have hnesting : shallow.nesting ≤ 127 := by decide
  have hnesting' : 127 < deep.nesting := by
    rw [Xml.nesting_nestedObjects]
    decide
  exact ⟨hshallow, hnumbers, hnesting, (reread_of_parse hshallow hnumbers {}).1 hnesting,
    hdeep, hnumbers', hnesting', (reread_of_parse hdeep hnumbers' {}).2.1 hnesting'⟩

end DocWeave

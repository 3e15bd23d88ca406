/-
No cell of a table comes out of the program as a formula.  The cells are neutralized after
trimming, and whatever merging, following paths and shaping put into the result is made of
whole cells; only a note names a field of the template, which is no cell.
-/
import DocWeave.Combine
import DocWeave.Proofs.Projection.WellFormed

namespace DocWeave

theorem Entries.mem_keys_insert {α : Type} (key : String) (value : α) {entries : Entries α}
    {other : String} (h : other ∈ keys entries) : other ∈ keys (insert key value entries) := by
  by_cases hkey : key ∈ keys entries
  · rwa [keys_insert_of_mem hkey]
  · rw [insert_of_not_mem hkey, keys, List.map_append]
    exact List.mem_append_left _ h

/-! ### Texts that are formulas -/

/-- A spreadsheet would take a text for a formula. -/
def LooksLikeFormula (text : String) : Prop :=
  ∃ mark ∈ ['=', '+', '-', '@'], text.toList.head? = some mark

/-- A value is no text that looks like a formula. -/
def Value.IsPlain : Value → Prop
  | .string text => ¬ LooksLikeFormula text
  | .null | .bool _ | .number _ | .array _ | .object _ => True

/-- A member is the note of its object on a field that was cut. -/
def IsTruncationNote (members : Entries Value) (member : String × Value) : Prop :=
  member.1 = "__meta" ∧ ∃ field ∈ Entries.keys members, ∃ count, member.2 = .object [
    ("truncated", .bool true),
    ("truncatedField", .string field),
    ("returnedItems", .ofCount count)]

/-- No text in a document looks like a formula, whatever fields the notes of its objects
name. -/
inductive Value.Defused : Value → Prop
  | null : Defused .null
  | bool (b : Bool) : Defused (.bool b)
  | number (n : Number) : Defused (.number n)
  | string {text : String} (h : ¬ LooksLikeFormula text) : Defused (.string text)
  | array {items : List Value} (h : ∀ item ∈ items, Defused item) : Defused (.array items)
  | object {members : Entries Value}
      (h : ∀ member ∈ members, ¬ IsTruncationNote members member → Defused member.2) :
      Defused (.object members)

theorem isFormula_of_looksLikeFormula {text : String} (h : LooksLikeFormula text) :
    Formula.isFormula text = true := by
  obtain ⟨mark, hmark, hhead⟩ := h
  obtain ⟨rest, hrest⟩ := List.head?_eq_some_iff.1 hhead
  rw [Formula.isFormula, hrest]
  exact List.contains_iff_mem.2 hmark

theorem not_looksLikeFormula_neutralize (cell : String) :
    ¬ LooksLikeFormula (Formula.neutralize cell) := by
  intro h
  have hformula := isFormula_of_looksLikeFormula h
  rw [Formula.isFormula_neutralize] at hformula
  cases hformula

namespace Value

/-- What a value holds does not matter to whether it is a text. -/
theorem keptByWriting_isPlain : KeptByWriting IsPlain where
  array _ := trivial
  empty := trivial
  insert _ _ _ := trivial

theorem Defused.of_everywhere {v : Value} (h : v.Everywhere IsPlain) : v.Defused := by
  induction h with
  | @intro v here inside ih =>
      cases v with
      | null => exact .null
      | bool b => exact .bool b
      | number n => exact .number n
      | string text => exact .string here
      | array items => exact .array ih
      | object members =>
          exact .object fun member hmember _ => ih member.2 (List.mem_map_of_mem hmember)

end Value

/-! ### Tables -/

open Value (IsPlain Defused keptByWriting_isPlain everywhere_iff_of_parts_eq_nil)

namespace Csv

variable {cell : String → String} (hcell : ∀ field, ¬ LooksLikeFormula (cell field))

include hcell

theorem isPlain_row (headers fields : List String) :
    (row cell headers fields).Everywhere IsPlain := by
  apply keptByWriting_isPlain.everywhere_ofPairs
  rw [List.forall_mem_map]
  exact fun pair _ => (everywhere_iff_of_parts_eq_nil rfl).2 (hcell pair.2)

theorem isPlain_rows (lines : List (List Char)) :
    ∀ v ∈ rows cell lines, v.Everywhere IsPlain := by
  cases lines with
  | nil => simp [rows]
  | cons header lines =>
      rw [rows, List.forall_mem_map]
      exact fun line _ => isPlain_row hcell (fields header) (fields line)

/-- If no cell that is stored looks like a formula, no text of the document does. -/
theorem isPlain_parse (text : String) : (parse cell text).Everywhere IsPlain := by
  rw [parse, Value.everywhere_object_iff, List.forall_mem_singleton,
    keptByWriting_isPlain.everywhere_array_iff]
  exact ⟨trivial, isPlain_rows hcell _⟩

end Csv

namespace Combine

theorem isPlain_of_readAll {config : Config}
    (hcell : ∀ field, ¬ LooksLikeFormula (config.sanitizeCell field)) {index : Nat}
    {inputs : List Input} (hcsv : ∀ input ∈ inputs, input.format = .csv) {docs : List Value}
    (h : readAll config index inputs = .ok docs) :
    ∀ doc ∈ docs, doc.Everywhere IsPlain := by
  induction inputs generalizing index docs with
  | nil =>
      cases h
      simp
  | cons input rest ih =>
      obtain ⟨hinput, hrest⟩ := List.forall_mem_cons.1 hcsv
      rw [readAll, hinput] at h
      obtain ⟨others, hothers, h⟩ := exists_of_bind_eq_ok h
      cases h
      exact List.forall_mem_cons.2 ⟨Csv.isPlain_parse hcell input.data, ih hrest hothers⟩

end Combine

/-! ### Shaping -/

namespace Projection

theorem defused_leafValue (cap : Nat) {found : List Value} (h : ∀ v ∈ found, v.Defused) :
    (leafValue cap found).Defused := by
  match found with
  | [] => exact .null
  | [only] => exact h only List.mem_cons_self
  | first :: second :: rest =>
      simp only [leafValue]
      split
      next => exact .array fun v hv => h v (List.mem_of_mem_take hv)
      next => exact .array h

theorem defused_of_mem_matchesOf {doc : Value} (hdoc : doc.Everywhere IsPlain)
    (path : String) : ∀ v ∈ matchesOf doc path, v.Defused := by
  unfold matchesOf
  split
  next found hfound =>
    obtain ⟨steps, -, rfl⟩ := exists_of_map_eq_ok hfound
    exact fun v hv => .of_everywhere (Path.everywhere_of_mem_select hdoc v hv)
  next => simp

/-- The field that an object's note names is one of its keys. -/
theorem mem_keys_of_mem_note {caps : Caps} {doc : Value} {depth : Nat}
    {members : Entries Value} {note : Note}
    (h : note ∈ (shapeMembers caps doc depth members).note) :
    note.field ∈ Entries.keys members := by
  rw [shapeMembers_note] at h
  obtain ⟨member, hmember, rfl⟩ := Option.map_eq_some_iff.1 h
  have hmem := List.mem_of_getLast? hmember
  exact List.mem_map_of_mem (List.mem_filter.1 hmem).1

theorem defused_annotate {members : Entries Value} (h : ∀ member ∈ members, member.2.Defused)
    {note : Option Note} (hnote : ∀ n ∈ note, n.field ∈ Entries.keys members) :
    (Value.object (annotate note members)).Defused := by
  cases note with
  | none => exact .object fun member hmember _ => h member hmember
  | some note =>
      have hfield := Entries.mem_keys_insert Note.key note.toValue (hnote note rfl)
      apply Defused.object
      intro member hmember hother
      rcases Entries.mem_of_mem_insert hmember with rfl | hmember
      · exact absurd ⟨rfl, note.field, hfield, note.returned, rfl⟩ hother
      · exact h member hmember

mutual

theorem defused_shape (caps : Caps) {doc : Value} (hdoc : doc.Everywhere IsPlain)
    (depth : Nat) (qualifier : String) :
    (template : Value) → (shape caps doc depth qualifier template).output.Defused
  | .string path => by
      rw [shape]
      split
      next => exact .null
      next =>
        rw [leaf_eq_ofMatches, ofMatches_output]
        exact defused_leafValue caps.items (defused_of_mem_matchesOf hdoc path)
  | .array items => by
      rw [shape]
      split
      next => exact .null
      next => exact .array (defused_shapeItems caps hdoc (depth + 1) 0 items)
  | .object members => by
      rw [shape]
      split
      next => exact .null
      next =>
        apply defused_annotate (defused_shapeMembers caps hdoc (depth + 1) members)
        intro note hnote
        rw [keys_shapeMembers]
        exact mem_keys_of_mem_note hnote
  | .null | .bool _ | .number _ => by
      simp only [shape]
      split
      next => exact .null
      next => constructor

theorem defused_shapeItems (caps : Caps) {doc : Value} (hdoc : doc.Everywhere IsPlain)
    (depth place : Nat) :
    (items : List Value) →
      ∀ item ∈ (shapeItems caps doc depth place items).output, item.Defused
  | [] => by simp [shapeItems, plain]
  | item :: rest => by
      rw [shapeItems, List.forall_mem_cons]
      exact ⟨defused_shape caps hdoc depth _ item,
        defused_shapeItems caps hdoc depth (place + 1) rest⟩

theorem defused_shapeMembers (caps : Caps) {doc : Value} (hdoc : doc.Everywhere IsPlain)
    (depth : Nat) :
    (members : List (String × Value)) →
      ∀ member ∈ (shapeMembers caps doc depth members).output, member.2.Defused
  | [] => by simp [shapeMembers, plain]
  | (key, value) :: rest => by
      rw [shapeMembers, List.forall_mem_cons]
      exact ⟨defused_shape caps hdoc depth key value, defused_shapeMembers caps hdoc depth rest⟩

end

end Projection

/-! ### Requests -/

/-- When all inputs of a request are tables and cells are neutralized, no text in the result
looks like a formula, whatever the template and the caps are; the only texts that are left out
of account are the names of fields in notes. -/
theorem defused_of_combine {config : Config} (hsanitize : config.sanitizeCsv = true)
    (hhook : config.cellHook = none) {request : Request}
    (hcsv : ∀ input ∈ request.inputs, input.format = .csv) {response : Response}
    (h : combine config request = .ok response) : response.result.Defused := by
  have hcell : ∀ field, ¬ LooksLikeFormula (config.sanitizeCell field) := by
    intro field
    rw [Config.sanitizeCell, Config.cellSanitizer, hhook, hsanitize]
    exact not_looksLikeFormula_neutralize field
  obtain ⟨-, -, h⟩ := exists_of_bind_eq_ok h
  obtain ⟨docs, hdocs, h⟩ := exists_of_bind_eq_ok h
  have hmerged := keptByWriting_isPlain.everywhere_mergeAll trivial
    (Combine.isPlain_of_readAll hcell hcsv hdocs)
  cases h
  split
  next => exact .of_everywhere hmerged
  next template _ => exact Projection.defused_shape _ hmerged 0 _ template

/-- Quotes and blanks in front of the marks, a short row, a second table, and a leaf that is
cut under a key that looks like a formula itself. -/
theorem defused_of_combine_of_hidden_marks :
    let config : Config := { arrayCap := 2 }
    let request : Request := ⟨[⟨.csv, "a,b\n \"=1\" ,+2\n@x"⟩, ⟨.csv, "a\n\" -3\""⟩],
      some (.object [("=all", .string "$.rows[*].a"), ("b", .string "$.rows[*].b")])⟩
    let response : Response := ⟨.object [("=all", .array [.string "'=1", .string "'@x"]),
      ("b", .array [.string "'+2", .string ""]), ("__meta", .object [("truncated", .bool true),
        ("truncatedField", .string "=all"), ("returnedItems", .number (.integer 2))])],
      some ⟨true, ["=all"], false⟩⟩
    config.sanitizeCsv = true ∧ config.cellHook = none ∧
      (∀ input ∈ request.inputs, input.format = .csv) ∧
      combine config request = .ok response ∧ response.result.Defused := by
  intro config request response
  have hcsv : ∀ input ∈ request.inputs, input.format = .csv := by decide
  have htext : Combine.firstBinary? config request.inputs = none := by decide
  have hvalid : Combine.validate config request = .ok () := by
    rw [Combine.validate, htext]
    rfl
  have hinputs : Combine.readAll config 0 request.inputs = .ok [
      .object [("rows", .array [.object [("a", .string "'=1"), ("b", .string "'+2")],
        .object [("a", .string "'@x"), ("b", .string "")]])],
      .object [("rows", .array [.object [("a", .string "'-3")]])]] := by
    have hcell : config.sanitizeCell = Formula.neutralize := rfl
    simp only [Combine.readAll, request, parse, hcell]
    cbv
  have hshaped : project ⟨10, 2⟩ (.object [("=all", .string "$.rows[*].a"),
      ("b", .string "$.rows[*].b")]) (Value.mergeAll [
        .object [("rows", .array [.object [("a", .string "'=1"), ("b", .string "'+2")],
          .object [("a", .string "'@x"), ("b", .string "")]])],
        .object [("rows", .array [.object [("a", .string "'-3")]])]]) =
      ⟨response.result, ⟨true, ["=all"], false⟩⟩ := by cbv
  have hrun : combine config request = .ok response := by
    rw [combine, hvalid, hinputs]
    change Except.ok (⟨(project ⟨10, 2⟩ _ _).value,
      some (project ⟨10, 2⟩ _ _).report⟩ : Response) = _
    rw [hshaped]
  exact ⟨rfl, rfl, hcsv, hrun, defused_of_combine rfl rfl hcsv hrun⟩

end DocWeave

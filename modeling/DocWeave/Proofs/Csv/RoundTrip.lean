/-
Reading what was written.  However a table is written, each of its rows is read as an object
of its fields under the headers.
-/
import DocWeave.Proofs.Csv.Written
import DocWeave.Proofs.Entries.Order
import DocWeave.Proofs.Text.Lines
import DocWeave.Proofs.Text.Trim

namespace DocWeave.Csv

/-! ### Fields -/

theorem doubled_cons_quote (field : List Char) :
    doubled ('"' :: field) = '"' :: '"' :: doubled field := rfl

theorem doubled_cons {c : Char} (h : c ≠ '"') (field : List Char) :
    doubled (c :: field) = c :: doubled field := by
  simp [doubled, h]

theorem mem_doubled {c : Char} {field : List Char} (h : c ∈ doubled field) : c ∈ field := by
  obtain ⟨d, hd, hc⟩ := List.mem_flatMap.1 h
  split at hc
  next hquote => simp_all
  next => simpa [List.mem_singleton.1 hc] using hd

theorem foldr_consField (front field : List Char) (fields : List (List Char)) :
    front.foldr consField (field :: fields) = (front ++ field) :: fields := by
  induction front with
  | nil => rfl
  | cons c front ih => rw [List.foldr_cons, ih, consField, List.cons_append]

theorem rawFields_cons {inQuotes : Bool} {c : Char} (hquote : c ≠ '"')
    (hcomma : c = ',' → inQuotes = true) (rest : List Char) :
    rawFields inQuotes (c :: rest) = consField c (rawFields inQuotes rest) := by
  have hfield : (c = ',' && !inQuotes) = false := by
    by_cases h : c = ','
    · simp [hcomma h]
    · simp [h]
  rw [rawFields, hfield]
  · rfl
  · exact hquote

/-- Without commas and quotes, characters outside quotes go into the field. -/
theorem rawFields_bare {field : List Char} (h : ∀ c ∈ field, c ≠ ',' ∧ c ≠ '"')
    (rest : List Char) :
    rawFields false (field ++ rest) = field.foldr consField (rawFields false rest) := by
  induction field with
  | nil => rfl
  | cons c field ih =>
      obtain ⟨⟨hcomma, hquote⟩, hfield⟩ := List.forall_mem_cons.1 h
      rw [List.cons_append, rawFields_cons hquote fun heq => absurd heq hcomma, ih hfield,
        List.foldr_cons]

theorem rawFields_opening (rest : List Char) :
    rawFields false ('"' :: rest) = rawFields true rest := by
  rcases rest with _ | ⟨c, rest⟩
  · rfl
  · by_cases hquote : c = '"'
    · subst hquote
      rw [rawFields, if_neg Bool.false_ne_true]
    · rw [rawFields, if_neg Bool.false_ne_true]
      rintro after heq
      exact hquote (List.cons.inj heq).1

theorem rawFields_closing {rest : List Char} (h : rest.head? ≠ some '"') :
    rawFields true ('"' :: rest) = rawFields false rest := by
  rw [rawFields, if_pos rfl]
  rintro after rfl
  exact h rfl

/-- Between quotes every character goes into the field, and a doubled quote once. -/
theorem rawFields_doubled (field : List Char) {rest : List Char} (h : rest.head? ≠ some '"') :
    rawFields true (doubled field ++ '"' :: rest) =
      field.foldr consField (rawFields false rest) := by
  induction field with
  | nil => exact rawFields_closing h
  | cons c field ih =>
      by_cases hquote : c = '"'
      · subst hquote
        rw [doubled_cons_quote, List.cons_append, List.cons_append, rawFields, if_pos rfl, ih,
          List.foldr_cons]
      · rw [doubled_cons hquote, List.cons_append, rawFields_cons hquote fun _ => rfl, ih,
          List.foldr_cons]

theorem WrittenField.rawFields_append {field : String} {w : List Char}
    (h : WrittenField field w) {rest : List Char} (hrest : rest.head? ≠ some '"') :
    rawFields false (w ++ rest) = field.toList.foldr consField (rawFields false rest) := by
  cases h with
  | bare hbare => exact rawFields_bare hbare rest
  | quoted =>
      have hdoubled := rawFields_doubled field.toList hrest
      rw [List.cons_append, rawFields_opening, List.append_assoc]
      exact hdoubled

/-- The fields of a line are the ones that were written. -/
theorem WrittenLine.rawFields_eq {fields : List String} {line : List Char}
    (h : WrittenLine fields line) : rawFields false line = fields.map String.toList := by
  induction h with
  | @last field w h =>
      have hend := h.rawFields_append (show ([] : List Char).head? ≠ some '"' by simp)
      rw [List.append_nil] at hend
      rw [hend, rawFields, foldr_consField, List.append_nil]
      rfl
  | @more field fields w line h _ ih =>
      have hcomma : rawFields false (',' :: line) = [] :: rawFields false line := by
        rw [rawFields]
        · rfl
        · decide
      rw [h.rawFields_append (by simp), hcomma, foldr_consField, List.append_nil, ih]
      rfl

theorem WrittenLine.fields_eq {fields : List String} {line : List Char}
    (h : WrittenLine fields line) (hcells : ∀ field ∈ fields, IsCell field) :
    Csv.fields line = fields := by
  have htrim : ∀ field ∈ fields, String.ofList (trim field.toList) = field := by
    intro field hfield
    rw [(hcells field hfield).trimmed, String.ofList_toList]
  rw [Csv.fields, h.rawFields_eq, List.map_map]
  exact (List.map_congr_left htrim).trans (List.map_id fields)

/-! ### Lines -/

theorem WrittenField.mem_of_mem {field : String} {w : List Char} (h : WrittenField field w)
    {c : Char} (hc : c ∈ w) : c = '"' ∨ c ∈ field.toList := by
  cases h with
  | bare _ => exact Or.inr hc
  | quoted =>
      simp only [List.mem_cons, List.mem_append, List.not_mem_nil, or_false] at hc
      rcases hc with rfl | hc | rfl
      · exact Or.inl rfl
      · exact Or.inr (mem_doubled hc)
      · exact Or.inl rfl

theorem WrittenField.not_mem_feed {field : String} {w : List Char} (h : WrittenField field w)
    (hcell : IsCell field) : '\n' ∉ w := by
  intro hmem
  rcases h.mem_of_mem hmem with hquote | hfield
  · exact absurd hquote (by decide)
  · exact hcell.oneLine hfield

theorem WrittenLine.not_mem_feed {fields : List String} {line : List Char}
    (h : WrittenLine fields line) (hcells : ∀ field ∈ fields, IsCell field) : '\n' ∉ line := by
  induction h with
  | last hw => exact hw.not_mem_feed (hcells _ List.mem_cons_self)
  | more hw _ ih =>
      obtain ⟨hcell, hcells⟩ := List.forall_mem_cons.1 hcells
      have hfirst := hw.not_mem_feed hcell
      have hrest := ih hcells
      simp [hfirst, hrest]

/-- No line ends with a carriage return, since no field ends with white space. -/
theorem WrittenLine.getLast?_ne_return {fields : List String} {line : List Char}
    (h : WrittenLine fields line) (hcells : ∀ field ∈ fields, IsCell field) :
    line.getLast? ≠ some '\r' := by
  induction h with
  | @last field w hw =>
      intro hlast
      cases hw with
      | bare _ =>
          rw [← (hcells field List.mem_cons_self).trimmed] at hlast
          exact absurd (not_isSpace_of_getLast?_trim hlast) (by decide)
      | quoted =>
          rw [← List.cons_append, List.getLast?_concat] at hlast
          exact absurd hlast (by decide)
  | @more field fields w line _ _ ih =>
      intro hlast
      have hline := ih (List.forall_mem_cons.1 hcells).2
      cases line with
      | nil => simp at hlast
      | cons c line => exact hline (by simpa using hlast)

theorem lines_append_lineEnd {line lineEnd : List Char} (hend : LineEnd lineEnd)
    (hfeed : '\n' ∉ line) (hreturn : line.getLast? ≠ some '\r') (rest : List Char) :
    lines (line ++ (lineEnd ++ rest)) = line :: lines rest := by
  cases hend with
  | feed => exact (lines_append_feed hfeed rest).trans (by rw [dropReturn_eq_self hreturn])
  | returnFeed =>
      have hfeed : '\n' ∉ line ++ ['\r'] := by simp [hfeed]
      have hline := lines_append_feed hfeed rest
      rwa [List.append_assoc, dropReturn_append_return] at hline

/-- A blank line stays blank, whether or not it loses a carriage return. -/
theorem exists_lines_append_lineEnd {blank lineEnd : List Char} (hend : LineEnd lineEnd)
    (hblank : isBlankText blank) (hfeed : '\n' ∉ blank) (rest : List Char) :
    ∃ line, isBlankText line ∧ lines (blank ++ (lineEnd ++ rest)) = line :: lines rest := by
  cases hend with
  | feed =>
      refine ⟨dropReturn blank, ?_, lines_append_feed hfeed rest⟩
      exact List.all_eq_true.2 fun c hc => List.all_eq_true.1 hblank c (mem_of_mem_dropReturn hc)
  | returnFeed =>
      have hfeed : '\n' ∉ blank ++ ['\r'] := by simp [hfeed]
      have hline := lines_append_feed hfeed rest
      rw [List.append_assoc, dropReturn_append_return] at hline
      exact ⟨blank, hblank, hline⟩

/-- The lines of a table that are not blank hold the fields that were written. -/
theorem WrittenTable.map_fields_eq {table : List (List String)} {w : List Char}
    (h : WrittenTable table w) (hcells : ∀ fields ∈ table, ∀ field ∈ fields, IsCell field) :
    ((lines w).filter fun line => !isBlankText line).map fields = table := by
  induction h with
  | @nil blank hblank hfeed =>
      by_cases hnil : blank = []
      · subst hnil
        rfl
      · rw [lines_of_not_mem_feed hfeed hnil, List.filter_cons_of_neg (by simp [hblank])]
        rfl
  | @unended fields line hline hblank =>
      have hfields := hcells fields List.mem_cons_self
      have hne : line ≠ [] := by
        rintro rfl
        exact hblank rfl
      rw [lines_of_not_mem_feed (hline.not_mem_feed hfields) hne]
      simp [hblank, hline.fields_eq hfields]
  | @blank table blank lineEnd w hblank hfeed hend _ ih =>
      obtain ⟨line, hline, hlines⟩ := exists_lines_append_lineEnd hend hblank hfeed w
      rw [hlines, List.filter_cons_of_neg (by simp [hline]), ih hcells]
  | @line fields table line lineEnd w hline hblank hend _ ih =>
      obtain ⟨hfields, htable⟩ := List.forall_mem_cons.1 hcells
      rw [lines_append_lineEnd hend (hline.not_mem_feed hfields)
        (hline.getLast?_ne_return hfields), List.filter_cons_of_pos (by simp [hblank]),
        List.map_cons, ih htable, hline.fields_eq hfields]

/-! ### Rows -/

theorem map_fst_pairUp (headers fields : List String) :
    (pairUp headers fields).map Prod.fst = headers := by
  induction headers generalizing fields with
  | nil => rfl
  | cons header headers ih =>
      rcases fields with _ | ⟨field, fields⟩
      · rw [pairUp, List.map_cons, ih]
      · rw [pairUp, List.map_cons, ih]

theorem map_pairUp {α : Type} (f : String × String → α) (headers fields : List String) :
    (pairUp headers fields).map f =
      headers.mapIdx fun i header => f (header, fields.getD i "") := by
  induction headers generalizing fields with
  | nil => rfl
  | cons header headers ih =>
      rcases fields with _ | ⟨field, fields⟩
      · rw [pairUp, List.map_cons, ih, List.mapIdx_cons]
        rfl
      · rw [pairUp, List.map_cons, ih, List.mapIdx_cons]
        rfl

theorem row_eq_mapIdx {headers : List String} (h : headers.Nodup) (cell : String → String)
    (fields : List String) :
    row cell headers fields =
      .object (headers.mapIdx fun i header => (header, .string (cell (fields.getD i "")))) := by
  have hkeys : Entries.keys ((pairUp headers fields).map fun pair =>
      (pair.1, Value.string (cell pair.2))) = headers := by
    rw [Entries.keys, List.map_map]
    exact map_fst_pairUp headers fields
  rw [row, Entries.ofPairs_of_nodup (by rwa [hkeys]), map_pairUp]

/-- However a table is written, it is read as the list of its rows: each is an object with the
headers as its keys, in their order, and under each header the cell of the field at its place,
or of the empty field where the row is too short. -/
theorem parse_writtenTable {headers : List String} {table : List (List String)} {text : String}
    (h : WrittenTable (headers :: table) text.toList) (hnodup : headers.Nodup)
    (hcells : ∀ fields ∈ headers :: table, ∀ field ∈ fields, IsCell field)
    (cell : String → String) :
    parse cell text = .object [("rows", .array (table.map fun fields =>
      .object (headers.mapIdx fun i header => (header, .string (cell (fields.getD i ""))))))] := by
  have hfields := h.map_fields_eq hcells
  rw [parse]
  cases hlines : (lines text.toList).filter fun line => !isBlankText line with
  | nil => simp [hlines] at hfields
  | cons first others =>
      rw [hlines, List.map_cons] at hfields
      obtain ⟨rfl, rfl⟩ := List.cons.inj hfields
      simp only [rows, List.map_map, Function.comp_def, row_eq_mapIdx hnodup]
      rfl

/-- A quoted comma, doubled quotes, an empty quoted field, both ends of a line, blank lines,
a row that is too short and one that is too long. -/
theorem parse_writtenTable_of_quoted_fields :
    let headers := ["name", "a,b"]
    let table := [["say \"hi\"", "1"], ["only"], ["", "\"", "extra"]]
    let text := "name,\"a,b\"\r\n \n\"say \"\"hi\"\"\",1\nonly\r\n\"\",\"\"\"\",extra\n\t"
    WrittenTable (headers :: table) text.toList ∧ headers.Nodup ∧
      (∀ fields ∈ headers :: table, ∀ field ∈ fields, IsCell field) ∧
      parse (fun field => field) text = .object [("rows", .array
        [.object [("name", .string "say \"hi\""), ("a,b", .string "1")],
          .object [("name", .string "only"), ("a,b", .string "")],
          .object [("name", .string ""), ("a,b", .string "\"")]])] := by
  intro headers table text
  have hheaders : WrittenLine headers _ := .more (.bare (by simp)) (.last .quoted)
  have hsay : WrittenLine ["say \"hi\"", "1"] _ := .more .quoted (.last (.bare (by simp)))
  have honly : WrittenLine ["only"] _ := .last (.bare (by simp))
  have hextra : WrittenLine ["", "\"", "extra"] _ :=
    .more .quoted (.more .quoted (.last (.bare (by simp))))
  have htext : WrittenTable (headers :: table) _ :=
    .line hheaders (by decide) .returnFeed
      (.blank (show isBlankText [' '] by decide) (by decide) .feed
        (.line hsay (by decide) .feed
          (.line honly (by decide) .returnFeed
            (.line hextra (by decide) .feed
              (.nil (show isBlankText ['\t'] by decide) (by decide))))))
  have hwritten : WrittenTable (headers :: table) text.toList := by
    simpa [text, doubled] using htext
  have hnodup : headers.Nodup := by decide
  have hcells : ∀ fields ∈ headers :: table, ∀ field ∈ fields, IsCell field := by decide
  refine ⟨hwritten, hnodup, hcells, ?_⟩
  rw [parse_writtenTable hwritten hnodup hcells]
  rfl

end DocWeave.Csv

/-
The cells of a table.  A function for cells is given the fields as they stand in the rows and
nothing else, so that with it or without it a text has the same rows under the same keys.
-/
import Mathlib.Data.List.Forall2
import DocWeave.Parse
import DocWeave.Proofs.Csv.RoundTrip

namespace DocWeave.Csv

def document (rows : List (Entries String)) : Value :=
  .object [(rowsKey, .array (rows.map fun row => .object (row.mapValues .string)))]

def mapCells (s : String → String) (rows : List (Entries String)) : List (Entries String) :=
  rows.map (Entries.mapValues s)

/-- The lines of a text that are not blank. -/
def contentLines (text : String) : List (List Char) :=
  (lines text.toList).filter fun line => !isBlankText line

def headers (text : String) : List String :=
  ((contentLines text).head?.map fields).getD []

/-- The fields of a line under the headers; of equal headers the last one counts. -/
def plainRow (headers fields : List String) : Entries String :=
  Entries.ofPairs (pairUp headers fields)

/-- The rows of a text, before anything is done to their cells. -/
def plainRows (text : String) : List (Entries String) :=
  (contentLines text).tail.map fun line => plainRow (headers text) (fields line)

theorem row_eq_mapValues (s : String → String) (headers fields : List String) :
    row s headers fields =
      .object (((plainRow headers fields).mapValues s).mapValues .string) := by
  rw [plainRow, ← Entries.ofPairs_mapValues, ← Entries.ofPairs_mapValues, row]
  simp only [Entries.mapValues, List.map_map]
  rfl

theorem parse_eq_document (s : String → String) (text : String) :
    parse s text = document (mapCells s (plainRows text)) := by
  rw [parse, ← contentLines, document, mapCells, plainRows, headers]
  cases contentLines text with
  | nil => rfl
  | cons header others =>
      simp only [rows, row_eq_mapValues, List.map_map, Function.comp_def]
      rfl

/-! ### Rows -/

/-- A row has the headers as its keys, in the order in which they come up.  Under each of them,
at the last place where it stands, it has what becomes of the field at that place, and of the
empty field where the line is too short. -/
structure IsRow (s : String → String) (headers fields : List String) (row : Entries String) :
    Prop where
  keys : row.keys = headers.eraseDups
  cell : ∀ i header field, headers[i]? = some header → header ∉ headers.drop (i + 1) →
    fields[i]? = some field → row.find? header = some (s field)
  padding : ∀ i header, headers[i]? = some header → header ∉ headers.drop (i + 1) →
    fields[i]? = none → row.find? header = some (s "")

theorem find?_plainRow {headers fields : List String} {i : Nat} {header : String}
    (h : headers[i]? = some header) (hlast : header ∉ headers.drop (i + 1)) :
    (plainRow headers fields).find? header = some (fields.getD i "") := by
  have hpair : (pairUp headers fields)[i]? = some (header, fields.getD i "") := by
    have hpairs := map_pairUp id headers fields
    rw [List.map_id] at hpairs
    rw [hpairs, List.getElem?_mapIdx, h]
    rfl
  obtain ⟨hi, hpair⟩ := List.getElem?_eq_some_iff.1 hpair
  have hlater : header ∉ Entries.keys ((pairUp headers fields).drop (i + 1)).reverse := by
    rwa [Entries.keys, List.map_reverse, List.mem_reverse, List.map_drop, map_fst_pairUp]
  rw [plainRow, Entries.find?_ofPairs, ← List.take_append_drop i (pairUp headers fields),
    List.drop_eq_getElem_cons hi, hpair, List.reverse_append, List.reverse_cons,
    List.append_assoc, Entries.find?_append_of_not_mem hlater]
  exact if_pos rfl

theorem isRow_mapValues_plainRow (s : String → String) (headers fields : List String) :
    IsRow s headers fields ((plainRow headers fields).mapValues s) := by
  refine ⟨?_, ?_, ?_⟩
  · rw [Entries.keys_mapValues, plainRow, Entries.keys_ofPairs, map_fst_pairUp]
  · intro i header field h hlast hfield
    rw [Entries.find?_mapValues, find?_plainRow h hlast, List.getD_eq_getElem?_getD, hfield]
    rfl
  · intro i header h hlast hshort
    rw [Entries.find?_mapValues, find?_plainRow h hlast, List.getD_eq_getElem?_getD, hshort]
    rfl

/-- A function for cells changes the cells and nothing else.  The rows that a text has without
one are the rows that it has with one, but for each cell, which is what the function makes of
it: there is one for each line behind the headers, in their order, with the headers as they
stand for its keys, and cells that the line lacks are what becomes of the empty one. -/
theorem parse_eq_document_mapCells (text : String) :
    ∃ rows : List (Entries String),
      parse id text = document rows ∧
      (∀ s, parse s text = document (mapCells s rows)) ∧
      (∀ config : Config, DocWeave.parse config .csv text =
        .ok (document (config.cellSanitizer.elim rows fun s => mapCells s rows))) ∧
      ∀ s, List.Forall₂ (fun line row => IsRow s (headers text) (fields line) row)
        (contentLines text).tail (mapCells s rows) := by
  have hid : Entries.mapValues (id : String → String) = id := funext fun row => List.map_id row
  have hplain : mapCells id (plainRows text) = plainRows text := by
    rw [mapCells, hid, List.map_id]
  refine ⟨plainRows text, ?_, fun s => parse_eq_document s text, fun config => ?_, fun s => ?_⟩
  · rw [parse_eq_document, hplain]
  · rw [DocWeave.parse]
    cases hsanitizer : config.cellSanitizer with
    | none =>
        have hcell : config.sanitizeCell = id := by
          funext cell
          rw [Config.sanitizeCell, hsanitizer]
          rfl
        rw [hcell, parse_eq_document, hplain]
        rfl
    | some s =>
        have hcell : config.sanitizeCell = s := by
          funext cell
          rw [Config.sanitizeCell, hsanitizer]
        rw [hcell, parse_eq_document]
        rfl
  · rw [mapCells, plainRows, List.map_map, List.forall₂_map_right_iff, List.forall₂_same]
    exact fun line _ => isRow_mapValues_plainRow s (headers text) (fields line)

example : parse (fun cell => cell ++ "!") "a,b,a\n\n1,2\n" =
    document [[("a", "!"), ("b", "2!")]] := by cbv

end DocWeave.Csv

/-
Reading gives well-formed documents.  In every format the objects are made by writing one
member after another, and numbers are checked before they are stored.
-/
import DocWeave.Parse
import DocWeave.Proofs.Json.Readable
import DocWeave.Proofs.Outline.Block
import DocWeave.Proofs.Value.WellFormed
import DocWeave.Proofs.Xml.Values

namespace DocWeave

open Value (WellFormed wellFormed_string wellFormed_object_nil)

/-! ### Marked-up text -/

namespace Xml

theorem keptByElements_isSound : KeptByElements Value.IsSound where
  string _ := trivial
  empty := List.nodup_nil
  insert h key v := Entries.nodup_keys_insert h key v
  pair _ _ := trivial
  append _ _ := trivial

theorem wellFormed_of_parse {text : String} {v : Value} (h : parse text = .ok v) :
    v.WellFormed :=
  keptByElements_isSound.everywhere_of_parse h

end Xml

/-! ### Outlines -/

namespace Yaml.Outline

theorem wellFormed_of_read? {text : List Char} {n : Number} (h : Number.read? text = some n) :
    (Value.number n).WellFormed := by
  unfold Number.read? at h
  split at h
  next m hinteger =>
    cases h
    obtain ⟨i, -, hi⟩ := Option.bind_eq_some_iff.1 hinteger
    exact Value.wellFormed_of_ofInt? hi
  next =>
    obtain ⟨literal, -, hfloat⟩ := Option.bind_eq_some_iff.1 h
    exact Value.wellFormed_of_ofFloat? hfloat

theorem wellFormed_scalar (text : List Char) : (scalar text).WellFormed := by
  unfold scalar
  split
  next => exact Value.wellFormed_null
  split
  next => exact Value.wellFormed_bool true
  split
  next => exact Value.wellFormed_bool false
  split
  next n hn => exact wellFormed_of_read? hn
  next => exact wellFormed_string _

theorem wellFormed_of_mem_value_lineOf (content : List Char) :
    ∀ v ∈ (lineOf content).value, v.WellFormed := by
  intro v hv
  simp only [lineOf] at hv
  split at hv
  next => cases hv
  next =>
    cases hv
    exact wellFormed_scalar _

/-- Lines with well-formed values give a well-formed object. -/
theorem wellFormed_nest {entries : Entries Value} (h : (Value.object entries).WellFormed)
    {ls : List Line} (hls : ∀ line ∈ ls, ∀ v ∈ line.value, v.WellFormed) :
    (Value.object (nest entries ls)).WellFormed := by
  induction entries, ls using nest.induct with
  | case1 entries => rwa [nest_nil]
  | case2 entries line rest value hvalue ih =>
      obtain ⟨hline, hrest⟩ := List.forall_mem_cons.1 hls
      rw [nest_cons_of_value hvalue]
      exact ih (h.insert line.key (hline value hvalue)) hrest
  | case3 entries line rest hvalue inner ihinner ih =>
      obtain ⟨-, hrest⟩ := List.forall_mem_cons.1 hls
      have hinner : (Value.object inner).WellFormed :=
        ihinner wellFormed_object_nil fun l hl =>
          hrest l ((List.takeWhile_sublist _).mem hl)
      rw [nest_cons_of_opener hvalue]
      exact ih (h.insert line.key hinner) fun l hl => hrest l ((List.dropWhile_sublist _).mem hl)

theorem wellFormed_of_parse {text : String} {v : Value} (h : parse text = .ok v) :
    v.WellFormed := by
  obtain ⟨state, hstate, h⟩ := exists_of_bind_eq_ok h
  cases h
  rw [State.run_eq] at hstate
  split at hstate
  next => cases hstate
  next =>
    cases hstate
    rw [State.finish_foldl_step]
    apply wellFormed_nest wellFormed_object_nil
    rw [List.forall_mem_map]
    exact fun content _ => wellFormed_of_mem_value_lineOf content

end Yaml.Outline

/-! ### Tables -/

namespace Csv

open Json (Readable)

theorem readable_row (cell : String → String) (headers fields : List String) :
    Readable 1 (row cell headers fields) := by
  apply Readable.object
  rw [List.forall_mem_map]
  exact fun pair _ => .string (cell pair.2)

theorem readable_rows (cell : String → String) (lines : List (List Char)) :
    Readable 2 (.array (rows cell lines)) := by
  apply Readable.array
  cases lines with
  | nil => simp [rows]
  | cons header lines =>
      rw [rows, List.forall_mem_map]
      exact fun line _ => readable_row cell (fields header) (fields line)

/-- A table becomes an object with a list of objects, however long it is. -/
theorem readable_parse (cell : String → String) (text : String) :
    Readable 3 (parse cell text) := by
  have hrows := readable_rows cell ((lines text.toList).filter fun line => !isBlankText line)
  exact @Readable.object 2 [(rowsKey, _)] (List.forall_mem_singleton.2 hrows)

end Csv

/-! ### Every format -/

/-- Whatever is read in whichever format is well formed. -/
theorem wellFormed_of_parse {config : Config} {format : Format} {text : String} {v : Value}
    (h : parse config format text = .ok v) : v.WellFormed := by
  cases format with
  | json => exact (Json.readable_of_document (eq_ok_of_mapError_eq_ok h)).wellFormed
  | xml => exact Xml.wellFormed_of_parse (eq_ok_of_mapError_eq_ok h)
  | yaml => exact Yaml.Outline.wellFormed_of_parse (eq_ok_of_mapError_eq_ok h)
  | csv =>
      cases h
      exact (Csv.readable_parse config.sanitizeCell text).wellFormed

end DocWeave

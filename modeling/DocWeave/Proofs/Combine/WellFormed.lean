/-
Every document that comes out of the program is well formed: what is read is, merging and
shaping keep it so, and a combined document is made in no other way.
-/
import DocWeave.Combine
import DocWeave.Proofs.Projection.WellFormed

namespace DocWeave

namespace Combine

theorem wellFormed_of_readAll {config : Config} {index : Nat} {inputs : List Input}
    {docs : List Value} (h : readAll config index inputs = .ok docs) :
    ∀ doc ∈ docs, doc.WellFormed := by
  induction inputs generalizing index docs with
  | nil =>
      cases h
      simp
  | cons input rest ih =>
      rw [readAll] at h
      split at h
      next => cases h
      next doc hdoc =>
        obtain ⟨others, hothers, h⟩ := exists_of_bind_eq_ok h
        cases h
        exact List.forall_mem_cons.2 ⟨wellFormed_of_parse hdoc, ih hothers⟩

end Combine

theorem wellFormed_of_combine {config : Config} {request : Request} {response : Response}
    (htemplate : ∀ template ∈ request.template, template.WellFormed)
    (h : combine config request = .ok response) : response.result.WellFormed := by
  obtain ⟨-, -, h⟩ := exists_of_bind_eq_ok h
  obtain ⟨docs, hdocs, h⟩ := exists_of_bind_eq_ok h
  have hmerged := Value.wellFormed_mergeAll (Combine.wellFormed_of_readAll hdocs)
  cases h
  split
  next => exact hmerged
  next template hsome => exact Projection.wellFormed_project _ (htemplate template hsome) hmerged

/-- Well-formedness is kept throughout: every document that is read in any format and under
any settings is well formed, merging and projecting well-formed documents gives well-formed
ones, and so does every request whose template is well formed. -/
theorem wellFormed_throughout :
    (∀ (config : Config) (format : Format) (text : String) (v : Value),
        parse config format text = .ok v → v.WellFormed) ∧
      (∀ older newer : Value, older.WellFormed → newer.WellFormed →
        (Value.merge older newer).WellFormed) ∧
      (∀ docs : List Value, (∀ doc ∈ docs, doc.WellFormed) →
        (Value.mergeAll docs).WellFormed) ∧
      (∀ (caps : Caps) (template doc : Value), template.WellFormed → doc.WellFormed →
        (project caps template doc).value.WellFormed) ∧
      ∀ (config : Config) (request : Request) (response : Response),
        (∀ template ∈ request.template, template.WellFormed) →
        combine config request = .ok response → response.result.WellFormed := by
  refine ⟨?_, ?_, ?_, ?_, ?_⟩
  · exact fun _ _ _ _ h => wellFormed_of_parse h
  · exact fun _ newer holder hnewer => holder.merge newer hnewer
  · exact fun _ h => Value.wellFormed_mergeAll h
  · exact fun caps _ _ htemplate hdoc => Projection.wellFormed_project caps htemplate hdoc
  · exact fun _ _ _ htemplate h => wellFormed_of_combine htemplate h

/-- A key that the text repeats, a document merged with itself, a projection with a note, and
a request with a template. -/
theorem wellFormed_throughout_of_repeated_keys :
    let text := "\x7b\"a\":1,\"a\":[true,null]\x7d"
    let doc := Value.object [("a", .array [.bool true, .null])]
    let template := Value.object [("xs", .string "$.a[*]")]
    let request : Request := ⟨[⟨.csv, ""⟩, ⟨.yaml, ""⟩], some template⟩
    let response : Response := ⟨.object [("xs", .null)], some .clean⟩
    parse {} .json text = .ok doc ∧ doc.WellFormed ∧ (Value.merge doc doc).WellFormed ∧
      (Value.mergeAll [doc, doc]).WellFormed ∧ template.WellFormed ∧
      (project ⟨1, 1⟩ template doc).value = .object [("xs", .array [.bool true]),
        ("__meta", .object [("truncated", .bool true), ("truncatedField", .string "xs"),
          ("returnedItems", .number (.integer 1))])] ∧
      (project ⟨1, 1⟩ template doc).value.WellFormed ∧
      combine {} request = .ok response ∧ response.result.WellFormed := by
  intro text doc template request response
  obtain ⟨hparse, hmerge, hmergeAll, hproject, hcombine⟩ := wellFormed_throughout
  have hread : parse {} .json text = .ok doc := by
    change parseJson text = .ok doc
    cbv
  have hdoc : doc.WellFormed := hparse {} .json text doc hread
  have hdocs : ∀ d ∈ [doc, doc], d.WellFormed := by simp [hdoc]
  have htemplate : template.WellFormed := by decide
  have hshaped : (project ⟨1, 1⟩ template doc).value = .object [("xs", .array [.bool true]),
      ("__meta", .object [("truncated", .bool true), ("truncatedField", .string "xs"),
        ("returnedItems", .number (.integer 1))])] := by cbv
  have htemplates : ∀ t ∈ request.template, t.WellFormed := by
    intro t ht
    cases ht
    exact htemplate
  -- the settings are left open, since the threshold among them is a double
  have hvalid (config : Config) : Combine.validate config request = .ok () := rfl
  have hinputs (config : Config) : Combine.readAll config 0 request.inputs =
      .ok [.object [("rows", .array [])], .object []] := rfl
  have hcaps : project ⟨10, 1000⟩ template (Value.mergeAll [.object [("rows", .array [])],
      .object []]) = ⟨.object [("xs", .null)], .clean⟩ := by cbv
  have hrun : combine {} request = .ok response := by
    rw [combine, hvalid, hinputs]
    change Except.ok (⟨(project ⟨10, 1000⟩ template _).value,
      some (project ⟨10, 1000⟩ template _).report⟩ : Response) = _
    rw [hcaps]
  exact ⟨hread, hdoc, hmerge doc doc hdoc hdoc, hmergeAll [doc, doc] hdocs, htemplate, hshaped,
    hproject ⟨1, 1⟩ template doc htemplate hdoc, hrun,
    hcombine {} request response htemplates hrun⟩

end DocWeave

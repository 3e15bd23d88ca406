/-
Requests travel as JSON text.  Each field is found under its key and read back, so a request
without doubles in its template arrives as it was sent.  One template cannot be told from a
missing one on the way: null.
-/
import DocWeave.Proofs.Json.RoundTrip
import DocWeave.Request.Reader
import DocWeave.Request.Writer

namespace DocWeave.Request

open Json (AllBlank Follows ReadsAs allBlank_nil colon compact compactItems memberText nextKey
  match_skipBlank_eq quoted readValue row skipBlank)

/-! ### Keys -/

/-- A key and its colon come next in an object, and behind them stands the given text. -/
def KeyAhead (first : Bool) (text : List Char) (key : String) (behind : List Char) : Prop :=
  ∃ rest behindKey hcolon, nextKey first text = .ok (.more rest) ∧
    Json.Quoted.decode rest.1 = .ok (key.toList, behindKey) ∧
    colon behindKey.1 = .ok ⟨behind, hcolon⟩

theorem KeyAhead.length_lt {first : Bool} {text : List Char} {key : String}
    {behind : List Char} (h : KeyAhead first text key behind) : behind.length < text.length := by
  obtain ⟨rest, behindKey, hcolon, -⟩ := h
  exact length_lt_trans hcolon (length_lt_of_lt_of_le behindKey.2 rest.2)

theorem keyAhead_of_nextKey {first : Bool} {text : List Char} (key : String)
    (behind : List Char)
    (h : ∃ hle, nextKey first text =
      .ok (.more ⟨key.toList.flatMap Json.Quoted.escape ++ '"' :: ':' :: behind, hle⟩)) :
    KeyAhead first text key behind := by
  obtain ⟨hle, hnext⟩ := h
  obtain ⟨hlt, hdecode⟩ := Json.Quoted.decode_flatMap_escape key.toList (':' :: behind)
  obtain ⟨hlt', hcolon⟩ := @Json.colon_eq (':' :: behind) behind rfl
  exact ⟨_, _, hlt', hnext, hdecode, hcolon⟩

theorem quoted_append (key : String) (behind : List Char) :
    quoted key ++ behind = '"' :: (key.toList.flatMap Json.Quoted.escape ++ '"' :: behind) := by
  simp [quoted, Json.Quoted.encode]

/-- The first key of an object. -/
theorem keyAhead_first (key : String) (behind : List Char) :
    KeyAhead true (quoted key ++ ':' :: behind) key behind := by
  apply keyAhead_of_nextKey
  rw [quoted_append]
  exact Json.nextKey_of_first rfl

/-- A later key of an object, behind a comma. -/
theorem keyAhead_comma (key : String) (behind : List Char) :
    KeyAhead false (',' :: (quoted key ++ ':' :: behind)) key behind := by
  apply keyAhead_of_nextKey
  rw [quoted_append]
  exact Json.nextKey_of_comma rfl rfl

/-! ### Inputs -/

theorem readsAs_text (s : String) : ReadsAs readText (quoted s) s := by
  apply ReadsAs.of_skipBlank (by decide) (by decide)
  intro text rest h _
  rw [List.append_assoc, List.singleton_append] at h
  obtain ⟨hlt, hstring⟩ := Json.Quoted.decode_flatMap_escape s.toList rest
  refine ⟨length_lt_trans hlt (Json.length_lt_of_skipBlank h), ?_⟩
  unfold readText
  refine (match_skipBlank_eq h _ _).trans ?_
  rw [if_pos rfl, hstring]
  simp only [lift, Except.mapError, Except.map, String.ofList_toList]
  rfl

theorem ofTag?_name (format : Format) : Format.ofTag? format.name = some format := by
  cases format <;> cbv

section Fields

variable {first : Bool} {text behind after final : List Char} {fields : InputFields}
  {input : Input}

theorem inputObject_of_type (hkey : KeyAhead first text "type" behind)
    (hnone : fields.format = none) {format : Format}
    (htag : ∃ hlt, readText behind = .ok (format.name, ⟨after, hlt⟩))
    (hrest : ∃ hlt, inputObject false { fields with format := some format } after =
      .ok (input, ⟨final, hlt⟩)) :
    ∃ hlt, inputObject first fields text = .ok (input, ⟨final, hlt⟩) := by
  have hshorter := hkey.length_lt
  obtain ⟨rest, behindKey, hcolon, hnext, hdecode, hskip⟩ := hkey
  obtain ⟨hlt, htag⟩ := htag
  obtain ⟨hlt', hrest⟩ := hrest
  refine ⟨length_lt_trans hlt' (length_lt_trans hlt hshorter), ?_⟩
  rw [inputObject, hnext]
  simp only [lift, Except.mapError, bind, Except.bind, hdecode, ↓reduceIte, hnone,
    Option.isSome_none, Bool.false_eq_true, hskip, htag, ofTag?_name, hrest]
  rfl

theorem inputObject_of_data (hkey : KeyAhead first text "data" behind)
    (hnone : fields.data = none) {data : String}
    (hdata : ∃ hlt, readText behind = .ok (data, ⟨after, hlt⟩))
    (hrest : ∃ hlt, inputObject false { fields with data := some data } after =
      .ok (input, ⟨final, hlt⟩)) :
    ∃ hlt, inputObject first fields text = .ok (input, ⟨final, hlt⟩) := by
  have hshorter := hkey.length_lt
  obtain ⟨rest, behindKey, hcolon, hnext, hdecode, hskip⟩ := hkey
  obtain ⟨hlt, hdata⟩ := hdata
  obtain ⟨hlt', hrest⟩ := hrest
  refine ⟨length_lt_trans hlt' (length_lt_trans hlt hshorter), ?_⟩
  rw [inputObject, hnext]
  simp only [lift, Except.mapError, bind, Except.bind, hdecode, hnone,
    Option.isSome_none, Bool.false_eq_true, ↓reduceIte, hskip, hdata, hrest]
  rfl

theorem inputObject_of_close (hfinish : fields.finish = .ok input) :
    ∃ hlt, inputObject first fields ('\x7d' :: final) = .ok (input, ⟨final, hlt⟩) := by
  obtain ⟨hlt, hclose⟩ := @Json.nextKey_of_close ('\x7d' :: final) final first rfl
  refine ⟨hlt, ?_⟩
  rw [inputObject, hclose]
  simp only [lift, Except.mapError, bind, Except.bind, hfinish]
  rfl

end Fields

theorem compact_input (input : Input) :
    compact input.toValue = '\x7b' :: (quoted "type" ++ ':' :: (quoted input.format.name ++
      ',' :: (quoted "data" ++ ':' :: (quoted input.data ++ ['\x7d'])))) := by
  simp [Input.toValue, compact, Json.compactMembers]

/-- The text of an input is read as the input. -/
theorem readsAs_input (input : Input) : ReadsAs readInput (compact input.toValue) input := by
  rw [compact_input]
  apply ReadsAs.of_skipBlank (by decide) (by decide)
  intro text rest h _
  simp only [List.append_assoc, List.cons_append, List.nil_append] at h
  have hclose : ∃ hlt, inputObject false ⟨some input.format, some input.data⟩
      ('\x7d' :: rest) = .ok (input, ⟨rest, hlt⟩) := inputObject_of_close rfl
  have hdata : ∃ hlt, inputObject false ⟨some input.format, none⟩
      (',' :: (quoted "data" ++ ':' :: (quoted input.data ++ '\x7d' :: rest))) =
        .ok (input, ⟨rest, hlt⟩) :=
    inputObject_of_data (keyAhead_comma "data" _) rfl
      ((readsAs_text input.data).reads [] _ allBlank_nil
        (Json.follows_cons (Or.inr (Or.inr rfl)) rest)) hclose
  have htype : ∃ hlt, inputObject true {} (quoted "type" ++ ':' ::
      (quoted input.format.name ++ ',' :: (quoted "data" ++ ':' ::
        (quoted input.data ++ '\x7d' :: rest)))) = .ok (input, ⟨rest, hlt⟩) :=
    inputObject_of_type (keyAhead_first "type" _) rfl
      ((readsAs_text input.format.name).reads [] _ allBlank_nil
        (Json.follows_cons (Or.inl rfl) _)) hdata
  obtain ⟨hlt, hread⟩ := htype
  refine ⟨length_lt_trans hlt (Json.length_lt_of_skipBlank h), ?_⟩
  unfold readInput
  refine (match_skipBlank_eq h _ _).trans ?_
  rw [if_neg (by decide), if_pos rfl, hread]
  rfl

theorem row_map {α β : Type} (f : α → β) (write : β → List Char) (xs : List α) :
    row [] write (xs.map f) = row [] (fun x => write (f x)) xs := by
  cases xs with
  | nil => rfl
  | cons x xs => simp [row, Json.behindCommas, List.flatMap_map]

theorem compact_inputs (inputs : List Input) :
    compact (.array (inputs.map Input.toValue)) =
      '[' :: (row [] (fun input => compact input.toValue) inputs ++ [']']) := by
  rw [compact, Json.compactItems_eq_row, row_map]
  rfl

theorem readsAs_inputs (inputs : List Input) :
    ReadsAs readInputs (compact (.array (inputs.map Input.toValue))) inputs := by
  rw [compact_inputs]
  apply ReadsAs.of_skipBlank (by decide) (by decide)
  intro text rest h _
  rw [List.append_assoc, List.singleton_append] at h
  obtain ⟨hlt, hread⟩ := Json.readItems_row Reason.malformed allBlank_nil allBlank_nil
    (fun input _ => readsAs_input input) rest
  refine ⟨length_lt_trans hlt (Json.length_lt_of_skipBlank h), ?_⟩
  unfold readInputs
  refine (match_skipBlank_eq h _ _).trans ?_
  change Json.readItems Reason.malformed readInput true (_ ++ ']' :: rest) = _ at hread
  rw [if_pos rfl, hread]
  rfl

/-! ### Templates -/

/-- What a template arrives as: null as no template, and everything else as it is. -/
def arriving : Option Value → Option Value :=
  Option.filter fun template => template.kind ≠ .null

theorem arriving_of_ne_null {template : Option Value} (h : template ≠ some .null) :
    arriving template = template := by
  cases template with
  | none => rfl
  | some template =>
      cases template with
      | null => exact absurd rfl h
      | bool _ | number _ | string _ | array _ | object _ => rfl

/-- A template is read back, but null is read as no template. -/
theorem readsAs_template {template : Value} (hnumbers : template.WholeNumbers)
    (hkeys : template.DistinctKeys) (hnesting : template.nesting < Json.nestingLimit) :
    ReadsAs readTemplate (compact template) (arriving (some template)) := by
  have hread : ReadsAs (readValue (Json.nestingLimit - 1)) (compact template) template :=
    (Json.written_compact hnumbers).readsAs hkeys (Nat.le_sub_one_of_lt hnesting)
  refine ⟨hread.starts, fun blank rest hblank hrest => ?_⟩
  obtain ⟨hlt, hvalue⟩ := hread.reads blank rest hblank hrest
  refine ⟨hlt, ?_⟩
  rw [readTemplate, hvalue]
  cases template <;> rfl

/-! ### Requests -/

section Fields

variable {first : Bool} {text behind after final : List Char} {fields : Fields}
  {request : Request}

theorem requestObject_of_inputs (hkey : KeyAhead first text "inputs" behind)
    (hnone : fields.inputs = none) {inputs : List Input}
    (hinputs : ∃ hlt, readInputs behind = .ok (inputs, ⟨after, hlt⟩))
    (hrest : ∃ hlt, requestObject false { fields with inputs := some inputs } after =
      .ok (request, ⟨final, hlt⟩)) :
    ∃ hlt, requestObject first fields text = .ok (request, ⟨final, hlt⟩) := by
  have hshorter := hkey.length_lt
  obtain ⟨rest, behindKey, hcolon, hnext, hdecode, hskip⟩ := hkey
  obtain ⟨hlt, hinputs⟩ := hinputs
  obtain ⟨hlt', hrest⟩ := hrest
  refine ⟨length_lt_trans hlt' (length_lt_trans hlt hshorter), ?_⟩
  rw [requestObject, hnext]
  simp only [lift, Except.mapError, bind, Except.bind, hdecode, ↓reduceIte, hnone,
    Option.isSome_none, Bool.false_eq_true, hskip, hinputs, hrest]
  rfl

theorem requestObject_of_template (hkey : KeyAhead first text "output_format" behind)
    (hnone : fields.template = none) {template : Option Value}
    (htemplate : ∃ hlt, readTemplate behind = .ok (template, ⟨after, hlt⟩))
    (hrest : ∃ hlt, requestObject false { fields with template := some template } after =
      .ok (request, ⟨final, hlt⟩)) :
    ∃ hlt, requestObject first fields text = .ok (request, ⟨final, hlt⟩) := by
  have hshorter := hkey.length_lt
  obtain ⟨rest, behindKey, hcolon, hnext, hdecode, hskip⟩ := hkey
  obtain ⟨hlt, htemplate⟩ := htemplate
  obtain ⟨hlt', hrest⟩ := hrest
  refine ⟨length_lt_trans hlt' (length_lt_trans hlt hshorter), ?_⟩
  rw [requestObject, hnext]
  simp only [lift, Except.mapError, bind, Except.bind, hdecode, hnone,
    Option.isSome_none, Bool.false_eq_true, ↓reduceIte, hskip, htemplate, hrest]
  rfl

theorem requestObject_of_close {inputs : List Input} (hinputs : fields.inputs = some inputs) :
    ∃ hlt, requestObject first fields ('\x7d' :: final) =
      .ok (⟨inputs, fields.template.getD none⟩, ⟨final, hlt⟩) := by
  obtain ⟨hlt, hclose⟩ := @Json.nextKey_of_close ('\x7d' :: final) final first rfl
  refine ⟨hlt, ?_⟩
  rw [requestObject, hclose]
  simp only [lift, Except.mapError, bind, Except.bind, hinputs]
  rfl

end Fields

def templateText : Option Value → List Char
  | some template => ',' :: (quoted "output_format" ++ ':' :: compact template)
  | none => []

theorem compact_request (request : Request) :
    compact request.toValue = '\x7b' :: (quoted "inputs" ++ ':' ::
      (compact (.array (request.inputs.map Input.toValue)) ++
        (templateText request.template ++ ['\x7d']))) := by
  cases h : request.template <;>
    simp [Request.toValue, compact, Json.compactMembers, templateText, h]

theorem read_object {rest : List Char} {request : Request} {hlt : [].length < rest.length}
    (h : requestObject true {} rest = .ok (request, ⟨[], hlt⟩)) :
    read ('\x7b' :: rest) = .ok request := by
  have hskip : skipBlank ('\x7b' :: rest) = '\x7b' :: rest := rfl
  rw [read, hskip]
  dsimp only
  rw [if_neg (by decide), if_pos rfl, h]
  rfl

/-- A request whose template, if there is one, holds no doubles and nests within the limit is
read back from its text, but with null for its template as one without a template. -/
theorem parse_text {request : Request} (htemplate : ∀ template ∈ request.template,
      template.WholeNumbers ∧ template.DistinctKeys ∧ template.nesting < Json.nestingLimit) :
    parse request.text = .ok ⟨request.inputs, arriving request.template⟩ := by
  obtain ⟨inputs, template⟩ := request
  have hbehind : ∃ hlt, requestObject false ⟨some inputs, none⟩
      (templateText template ++ ['\x7d']) =
        .ok (⟨inputs, arriving template⟩, ⟨[], hlt⟩) := by
    cases template with
    | none => exact requestObject_of_close rfl
    | some template =>
        obtain ⟨hnumbers, hkeys, hnesting⟩ := htemplate template rfl
        have hread := (readsAs_template hnumbers hkeys hnesting).reads [] ['\x7d'] allBlank_nil
          (Json.follows_cons (Or.inr (Or.inr rfl)) [])
        rw [templateText, List.cons_append, List.append_assoc, List.cons_append]
        exact requestObject_of_template (keyAhead_comma "output_format" _) rfl hread
          (requestObject_of_close rfl)
  have hfollows : Follows (templateText template ++ ['\x7d']) := by
    cases template with
    | none => exact Json.follows_cons (Or.inr (Or.inr rfl)) []
    | some template => exact Json.follows_cons (Or.inl rfl) _
  have hall : ∃ hlt, requestObject true {} (quoted "inputs" ++ ':' ::
      (compact (.array (inputs.map Input.toValue)) ++ (templateText template ++ ['\x7d']))) =
        .ok (⟨inputs, arriving template⟩, ⟨[], hlt⟩) :=
    requestObject_of_inputs (keyAhead_first "inputs" _) rfl
      ((readsAs_inputs inputs).reads [] _ allBlank_nil hfollows) hbehind
  obtain ⟨hlt, hread⟩ := hall
  rw [parse, Request.text, Json.compactText, String.toList_ofList, compact_request,
    read_object hread]
  rfl

/-- A request arrives as it was sent, and is carried out with the same outcome or refused for
the same reason, when its template, if there is one, holds no doubles, has no key twice in an
object and nests at most 126 containers, and is not null.  With null for a template it arrives
as the request without one. -/
theorem parse_text_of_template {request : Request} (htemplate : ∀ template ∈ request.template,
      template.WholeNumbers ∧ template.DistinctKeys ∧ template.nesting ≤ 126) :
    (request.template ≠ some .null → ∃ decoded, parse request.text = .ok decoded ∧
      decoded = request ∧ ∀ config, combine config decoded = combine config request) ∧
    (request.template = some .null →
      parse request.text = .ok { request with template := none }) := by
  have hread := parse_text fun template hmem =>
    (htemplate template hmem).imp_right fun h => h.imp_right Nat.lt_succ_of_le
  constructor
  · intro hnull
    rw [arriving_of_ne_null hnull] at hread
    exact ⟨request, hread, rfl, fun _ => rfl⟩
  · intro hnull
    rw [hnull] at hread
    exact hread

/-- Inputs of two formats with awkward characters, and a template with nested containers,
whole numbers and an escaped key. -/
theorem parse_text_of_template_of_awkward_parts :
    let request : Request := ⟨[⟨.yaml, "a: \"\\\n\x00😀"⟩, ⟨.csv, ""⟩], some (.object [
      ("\"k\"", .array [.null, .number (.integer Int64.minValue)]), ("", .string "$.a")])⟩
    (∀ template ∈ request.template,
      template.WholeNumbers ∧ template.DistinctKeys ∧ template.nesting ≤ 126) ∧
    ∃ decoded, parse request.text = .ok decoded ∧ decoded = request ∧
      ∀ config, combine config decoded = combine config request := by
  intro request
  have htemplate : ∀ template ∈ request.template,
      template.WholeNumbers ∧ template.DistinctKeys ∧ template.nesting ≤ 126 := by
    intro template hmem
    cases hmem
    decide
  refine ⟨htemplate, (parse_text_of_template htemplate).1 fun hnull => ?_⟩
  cases hnull

/-- With null for its template a request does not arrive as it was sent: it is refused, and
what arrives is carried out. -/
theorem not_parse_text_of_null_template :
    let request : Request := ⟨[⟨.csv, ""⟩], some .null⟩
    (∀ template ∈ request.template,
      template.WholeNumbers ∧ template.DistinctKeys ∧ template.nesting ≤ 100) ∧
    parse request.text ≠ .ok request ∧
    combine {} request = .error .templateNotObject ∧
    ∃ decoded, parse request.text = .ok decoded ∧
      combine {} decoded = .ok ⟨.object [("rows", .array [])], none⟩ := by
  intro request
  have htemplate : ∀ template ∈ request.template,
      template.WholeNumbers ∧ template.DistinctKeys ∧ template.nesting ≤ 100 := by
    intro template hmem
    cases hmem
    decide
  have hread : parse request.text = .ok ⟨[⟨.csv, ""⟩], none⟩ := by
    apply parse_text
    intro template hmem
    obtain ⟨hnumbers, hkeys, hnesting⟩ := htemplate template hmem
    exact ⟨hnumbers, hkeys, Nat.lt_of_le_of_lt hnesting (by decide)⟩
  refine ⟨htemplate, fun hsame => ?_, rfl, _, hread, rfl⟩
  rw [hread] at hsame
  cases congrArg Request.template (Except.ok.inj hsame)

end DocWeave.Request

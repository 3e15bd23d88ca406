/-
Which answer a request gets.  What can be wrong with it is looked for in a fixed order, and among
the inputs the first one counts: all of them have to look like text before any is read.
-/
import Mathlib
import DocWeave.Combine
import DocWeave.Proofs.Outcome

namespace DocWeave

/-- A text that cannot be read is refused in the format that it was to be read in. -/
theorem format_of_parse_eq_error {config : Config} {format : Format} {text : String}
    {error : ParseError} (h : parse config format text = .error error) :
    error.format = format := by
  cases format with
  | json =>
      obtain ⟨fault, -, rfl⟩ := exists_of_mapError_eq_error h
      rfl
  | xml =>
      obtain ⟨flaw, -, rfl⟩ := exists_of_mapError_eq_error h
      rfl
  | yaml =>
      obtain ⟨line, -, rfl⟩ := exists_of_mapError_eq_error h
      rfl
  | csv => cases h

namespace Combine

def IsBinaryAt (config : Config) (inputs : List Input) (i : Nat) : Prop :=
  ∃ input, inputs[i]? = some input ∧
    ¬ TextCheck.isLikelyText input.data config.nonprintableThreshold

def IsUnreadableAt (config : Config) (inputs : List Input) (i : Nat) : Prop :=
  ∃ input error, inputs[i]? = some input ∧ parse config input.format input.data = .error error

/-- Nothing is wrong with a request that shows before its inputs are looked at. -/
structure IsProper (request : Request) : Prop where
  inputs : request.inputs ≠ []
  template : ∀ template ∈ request.template, template.kind = .object

/-- The answers to a request.  An answer is a refusal for the first reason there is, in the order
of the constructors, and for the first input to which it applies; or it is the combined document,
which is shaped if and only if there is a template. -/
inductive Answer (config : Config) (request : Request) : Except CombineError Response → Prop
  | noInputs (hinputs : request.inputs = []) : Answer config request (.error .noInputs)
  | templateNotObject {template : Value} (hinputs : request.inputs ≠ [])
      (htemplate : request.template = some template) (hkind : template.kind ≠ .object) :
      Answer config request (.error .templateNotObject)
  | binaryInput {i : Nat} (hproper : IsProper request)
      (hfirst : IsLeast {i | IsBinaryAt config request.inputs i} i) :
      Answer config request (.error (.binaryInput i))
  | unreadable {i : Nat} {input : Input} {error : ParseError} (hproper : IsProper request)
      (htext : ∀ i, ¬ IsBinaryAt config request.inputs i)
      (hfirst : IsLeast {i | IsUnreadableAt config request.inputs i} i)
      (hinput : request.inputs[i]? = some input)
      (herror : parse config input.format input.data = .error error)
      (hformat : error.format = input.format) :
      Answer config request (.error (.unreadable i error))
  | merged {docs : List Value} (hproper : IsProper request)
      (htext : ∀ i, ¬ IsBinaryAt config request.inputs i)
      (hdocs : List.Forall₂ (fun input doc => parse config input.format input.data = .ok doc)
        request.inputs docs)
      (htemplate : request.template = none) :
      Answer config request (.ok ⟨Value.mergeAll docs, none⟩)
  | shaped {docs : List Value} {template : Value} (hproper : IsProper request)
      (htext : ∀ i, ¬ IsBinaryAt config request.inputs i)
      (hdocs : List.Forall₂ (fun input doc => parse config input.format input.data = .ok doc)
        request.inputs docs)
      (htemplate : request.template = some template) :
      Answer config request (.ok ⟨(project config.caps template (Value.mergeAll docs)).value,
        some (project config.caps template (Value.mergeAll docs)).report⟩)

variable {config : Config}

/-! ### Looking for binary inputs -/

theorem firstBinary?_eq_some {inputs : List Input} {i : Nat}
    (h : IsLeast {i | IsBinaryAt config inputs i} i) : firstBinary? config inputs = some i := by
  obtain ⟨⟨input, hinput, hbinary⟩, hleast⟩ := h
  obtain ⟨hi, rfl⟩ := List.getElem?_eq_some_iff.1 hinput
  rw [firstBinary?, List.findIdx?_eq_some_iff_getElem]
  refine ⟨hi, by simpa using hbinary, fun j hj hbefore => ?_⟩
  have hj' : inputs[j]? = some inputs[j] := List.getElem?_eq_getElem (Nat.lt_trans hj hi)
  have hle : i ≤ j := hleast ⟨_, hj', by simpa using hbefore⟩
  exact Nat.not_lt_of_le hle hj

theorem firstBinary?_eq_none {inputs : List Input} (h : ∀ i, ¬ IsBinaryAt config inputs i) :
    firstBinary? config inputs = none := by
  rw [firstBinary?, List.findIdx?_eq_none_iff]
  intro input hinput
  obtain ⟨i, hi⟩ := List.getElem?_of_mem hinput
  by_contra hbinary
  exact h i ⟨input, hi, by simpa using hbinary⟩

theorem IsProper.not_any {request : Request} (h : IsProper request) :
    ¬ request.template.any fun template => template.kind ≠ .object := by
  cases htemplate : request.template with
  | none => simp
  | some template => simp [h.template template htemplate]

theorem IsProper.validate_eq_error {request : Request} (h : IsProper request) {i : Nat}
    (hfirst : IsLeast {i | IsBinaryAt config request.inputs i} i) :
    validate config request = .error (.binaryInput i) := by
  rw [validate, if_neg (mt List.isEmpty_iff.1 h.inputs), if_neg h.not_any,
    firstBinary?_eq_some hfirst]

theorem IsProper.validate_eq_ok {request : Request} (h : IsProper request)
    (htext : ∀ i, ¬ IsBinaryAt config request.inputs i) : validate config request = .ok () := by
  rw [validate, if_neg (mt List.isEmpty_iff.1 h.inputs), if_neg h.not_any,
    firstBinary?_eq_none htext]

/-! ### Reading -/

theorem readAll_eq_ok {inputs : List Input} {docs : List Value}
    (h : List.Forall₂ (fun input doc => parse config input.format input.data = .ok doc)
      inputs docs) (start : Nat) : readAll config start inputs = .ok docs := by
  induction h generalizing start with
  | nil => rfl
  | cons hinput _ ih =>
      rw [readAll, hinput]
      simp only [ih]
      rfl

theorem readAll_append_of_error {earlier later : List Input} {input : Input} {error : ParseError}
    (hearlier : ∀ other ∈ earlier, ∃ doc, parse config other.format other.data = .ok doc)
    (h : parse config input.format input.data = .error error) (start : Nat) :
    readAll config start (earlier ++ input :: later) =
      .error (.unreadable (start + earlier.length) error) := by
  induction earlier generalizing start with
  | nil =>
      rw [List.nil_append, readAll, h]
      rfl
  | cons other earlier ih =>
      obtain ⟨⟨doc, hdoc⟩, hearlier⟩ := List.forall_mem_cons.1 hearlier
      rw [List.cons_append, readAll, hdoc]
      simp only [ih hearlier]
      rw [List.length_cons, Nat.add_comm earlier.length 1, ← Nat.add_assoc]
      rfl

theorem readAll_eq_error {inputs : List Input} {input : Input} {error : ParseError} {i : Nat}
    (hfirst : IsLeast {i | IsUnreadableAt config inputs i} i) (hinput : inputs[i]? = some input)
    (herror : parse config input.format input.data = .error error) :
    readAll config 0 inputs = .error (.unreadable i error) := by
  obtain ⟨hi, rfl⟩ := List.getElem?_eq_some_iff.1 hinput
  have hsplit : inputs = inputs.take i ++ inputs[i] :: inputs.drop (i + 1) := by simp
  have hlength : (inputs.take i).length = i := List.length_take_of_le (Nat.le_of_lt hi)
  have hearlier : ∀ other ∈ inputs.take i,
      ∃ doc, parse config other.format other.data = .ok doc := by
    intro other hother
    obtain ⟨j, hj, rfl⟩ := List.mem_take_iff_getElem.1 hother
    have hbefore : j < i := Nat.lt_of_lt_of_le hj (Nat.min_le_left _ _)
    cases hparse : parse config inputs[j].format inputs[j].data with
    | ok doc => exact ⟨doc, rfl⟩
    | error e =>
        have hle : i ≤ j := hfirst.2 ⟨_, e, List.getElem?_eq_getElem _, hparse⟩
        exact absurd hbefore (Nat.not_lt_of_le hle)
  rw [hsplit, readAll_append_of_error hearlier herror, hlength, Nat.zero_add]

theorem exists_forall₂_parse {inputs : List Input} (h : ∀ i, ¬ IsUnreadableAt config inputs i) :
    ∃ docs, List.Forall₂ (fun input doc => parse config input.format input.data = .ok doc)
      inputs docs := by
  induction inputs with
  | nil => exact ⟨[], .nil⟩
  | cons input inputs ih =>
      obtain ⟨docs, hdocs⟩ := ih fun i hi => h (i + 1) hi
      cases hinput : parse config input.format input.data with
      | error error => exact absurd ⟨input, error, rfl, hinput⟩ (h 0)
      | ok doc => exact ⟨doc :: docs, .cons hinput hdocs⟩

/-! ### Answers -/

theorem Answer.combine_eq {request : Request} {result : Except CombineError Response}
    (h : Answer config request result) : combine config request = result := by
  cases h with
  | noInputs hinputs =>
      have hvalidate : validate config request = .error .noInputs := by
        rw [validate, if_pos (List.isEmpty_iff.2 hinputs)]
      rw [combine, hvalidate]
      rfl
  | @templateNotObject template hinputs htemplate hkind =>
      have hany : request.template.any fun template => template.kind ≠ .object := by
        simp [htemplate, hkind]
      have hvalidate : validate config request = .error .templateNotObject := by
        rw [validate, if_neg (mt List.isEmpty_iff.1 hinputs), if_pos hany]
      rw [combine, hvalidate]
      rfl
  | binaryInput hproper hfirst =>
      rw [combine, hproper.validate_eq_error hfirst]
      rfl
  | unreadable hproper htext hfirst hinput herror hformat =>
      rw [combine, hproper.validate_eq_ok htext]
      simp only [readAll_eq_error hfirst hinput herror]
      rfl
  | merged hproper htext hdocs htemplate =>
      rw [combine, hproper.validate_eq_ok htext]
      simp only [readAll_eq_ok hdocs, htemplate]
      rfl
  | shaped hproper htext hdocs htemplate =>
      rw [combine, hproper.validate_eq_ok htext]
      simp only [readAll_eq_ok hdocs, htemplate]
      rfl

/-- Every request has an answer. -/
theorem exists_answer (config : Config) (request : Request) :
    ∃ result, Answer config request result := by
  classical
  by_cases hinputs : request.inputs = []
  · exact ⟨_, .noInputs hinputs⟩
  by_cases htemplate : ∀ template ∈ request.template, template.kind = .object
  swap
  · push Not at htemplate
    obtain ⟨template, htemplate, hkind⟩ := htemplate
    exact ⟨_, .templateNotObject hinputs htemplate hkind⟩
  have hproper : IsProper request := ⟨hinputs, htemplate⟩
  by_cases hbinary : ∃ i, IsBinaryAt config request.inputs i
  · exact ⟨_, .binaryInput hproper (Nat.isLeast_find hbinary)⟩
  have htext : ∀ i, ¬ IsBinaryAt config request.inputs i := not_exists.1 hbinary
  by_cases hunreadable : ∃ i, IsUnreadableAt config request.inputs i
  · have hfirst := Nat.isLeast_find hunreadable
    obtain ⟨input, error, hinput, herror⟩ := Nat.find_spec hunreadable
    exact ⟨_, .unreadable hproper htext hfirst hinput herror (format_of_parse_eq_error herror)⟩
  obtain ⟨docs, hdocs⟩ := exists_forall₂_parse (not_exists.1 hunreadable)
  cases hshape : request.template with
  | none => exact ⟨_, .merged hproper htext hdocs hshape⟩
  | some template => exact ⟨_, .shaped hproper htext hdocs hshape⟩

theorem answer_combine (config : Config) (request : Request) :
    Answer config request (combine config request) := by
  obtain ⟨result, hresult⟩ := exists_answer config request
  rwa [hresult.combine_eq]

/-! ### Inputs behind the one that counts -/

theorem getElem?_of_take_eq {inputs inputs' : List Input} {i j : Nat}
    (h : inputs'.take (i + 1) = inputs.take (i + 1)) (hj : j ≤ i) : inputs'[j]? = inputs[j]? := by
  have hlt : j < i + 1 := Nat.lt_succ_of_le hj
  rw [← List.getElem?_take_of_lt hlt, h, List.getElem?_take_of_lt hlt]

/-- What is least among the places with a property does not depend on those behind it. -/
theorem isLeast_of_agree {p q : Nat → Prop} {i : Nat} (h : IsLeast {j | p j} i)
    (hagree : ∀ j ≤ i, q j ↔ p j) : IsLeast {j | q j} i := by
  refine ⟨(hagree i le_rfl).2 h.1, fun j hj => ?_⟩
  by_contra hlt
  have hle : j ≤ i := Nat.le_of_not_le hlt
  exact hlt (h.2 ((hagree j hle).1 hj))

theorem IsProper.of_take_eq {request : Request} (h : IsProper request) {inputs : List Input}
    {i : Nat} (hsame : inputs.take (i + 1) = request.inputs.take (i + 1)) :
    IsProper { request with inputs } := by
  refine ⟨?_, h.template⟩
  rintro rfl
  rw [List.take_nil, eq_comm, List.take_eq_nil_iff] at hsame
  rcases hsame with hzero | hnil
  · cases hzero
  · exact h.inputs hnil

theorem forall_not_isBinaryAt {inputs : List Input}
    (h : ∀ input ∈ inputs, TextCheck.isLikelyText input.data config.nonprintableThreshold)
    (i : Nat) : ¬ IsBinaryAt config inputs i := by
  rintro ⟨input, hinput, hbinary⟩
  exact hbinary (h input (List.mem_of_getElem? hinput))

/-- A request fails for the first thing that is wrong with it: that it has no inputs, that its
template is no object, that an input does not look like text, that an input cannot be read; and
of several inputs the first one counts, whatever stands behind it.  If nothing is wrong, the
inputs are merged, and shaped exactly if there is a template. -/
theorem combine_eq_iff_answer (config : Config) (request : Request) :
    (∀ result, combine config request = result ↔ Answer config request result) ∧
      (∀ i inputs, inputs.take (i + 1) = request.inputs.take (i + 1) →
        combine config request = .error (.binaryInput i) →
        combine config { request with inputs } = .error (.binaryInput i)) ∧
      ∀ i error inputs, inputs.take (i + 1) = request.inputs.take (i + 1) →
        (∀ input ∈ inputs, TextCheck.isLikelyText input.data config.nonprintableThreshold) →
        combine config request = .error (.unreadable i error) →
        combine config { request with inputs } = .error (.unreadable i error) := by
  refine ⟨fun result => ⟨?_, Answer.combine_eq⟩, ?_, ?_⟩
  · rintro rfl
    exact answer_combine config request
  · intro i inputs hsame h
    have hanswer := answer_combine config request
    rw [h] at hanswer
    cases hanswer with
    | binaryInput hproper hfirst =>
        refine (Answer.binaryInput (hproper.of_take_eq hsame) ?_).combine_eq
        refine isLeast_of_agree hfirst fun j hj => ?_
        rw [IsBinaryAt, IsBinaryAt, getElem?_of_take_eq hsame hj]
  · intro i error inputs hsame htext h
    have hanswer := answer_combine config request
    rw [h] at hanswer
    cases hanswer with
    | unreadable hproper _ hfirst hinput herror hformat =>
        refine (Answer.unreadable (hproper.of_take_eq hsame) (forall_not_isBinaryAt htext) ?_ ?_
          herror hformat).combine_eq
        · refine isLeast_of_agree hfirst fun j hj => ?_
          rw [IsUnreadableAt, IsUnreadableAt, getElem?_of_take_eq hsame hj]
        · rw [getElem?_of_take_eq hsame le_rfl, hinput]

/-- A text that cannot be read, in front of one that is binary and by itself; and two texts that
can be read, without a template and with one. -/
theorem combine_eq_iff_answer_of_late_binary_input :
    let wrong : Input := ⟨.json, "?"⟩
    let binary : Input := ⟨.csv, "\x00\x01"⟩
    let error : ParseError := .json .expectedValue ⟨1, 1⟩
    let inputs : List Input := [⟨.json, "\x7b\"a\":1\x7d"⟩, ⟨.json, "\x7b\"b\":2\x7d"⟩]
    let template : Value := .object [("x", .string "$.b")]
    let merged : Response :=
      ⟨.object [("a", .number (.integer 1)), ("b", .number (.integer 2))], none⟩
    let shaped : Response := ⟨.object [("x", .number (.integer 2))], some .clean⟩
    (combine {} ⟨[wrong, binary], none⟩ = .error (.binaryInput 1) ∧
      Answer {} ⟨[wrong, binary], none⟩ (.error (.binaryInput 1)) ∧
      combine {} ⟨[wrong, binary, binary, wrong], none⟩ = .error (.binaryInput 1)) ∧
    (combine {} ⟨[wrong], none⟩ = .error (.unreadable 0 error) ∧
      Answer {} ⟨[wrong], none⟩ (.error (.unreadable 0 error)) ∧
      combine {} ⟨[wrong, wrong, wrong], none⟩ = .error (.unreadable 0 error)) ∧
    (combine {} ⟨inputs, none⟩ = .ok merged ∧ Answer {} ⟨inputs, none⟩ (.ok merged)) ∧
    combine {} ⟨inputs, some template⟩ = .ok shaped ∧
      Answer {} ⟨inputs, some template⟩ (.ok shaped) := by
  have hlate : combine {} ⟨[⟨.json, "?"⟩, ⟨.csv, "\x00\x01"⟩], none⟩ = .error (.binaryInput 1) := by
    rfl
  have hearly : combine {} ⟨[⟨.json, "?"⟩], none⟩ =
      .error (.unreadable 0 (.json .expectedValue ⟨1, 1⟩)) := by
    rfl
  intro wrong binary error inputs template merged shaped
  obtain ⟨hbinary, hbehind, -⟩ := combine_eq_iff_answer {} ⟨[wrong, binary], none⟩
  obtain ⟨hwrong, -, hbehind'⟩ := combine_eq_iff_answer {} ⟨[wrong], none⟩
  have htext : ∀ input ∈ [wrong, wrong, wrong],
      TextCheck.isLikelyText input.data ({} : Config).nonprintableThreshold := by decide +kernel
  have hfirst : parse {} .json "\x7b\"a\":1\x7d" =
      .ok (.object [("a", .number (.integer 1))]) := by
    change parseJson _ = _
    cbv
  have hsecond : parse {} .json "\x7b\"b\":2\x7d" =
      .ok (.object [("b", .number (.integer 2))]) := by
    change parseJson _ = _
    cbv
  have hread : readAll {} 0 inputs =
      .ok [.object [("a", .number (.integer 1))], .object [("b", .number (.integer 2))]] := by
    apply readAll_eq_ok
    rw [List.forall₂_cons, List.forall₂_cons]
    exact ⟨hfirst, hsecond, .nil⟩
  have hmerged : combine {} ⟨inputs, none⟩ = .ok merged := by
    have hvalid : validate {} ⟨inputs, none⟩ = .ok () := rfl
    rw [combine, hvalid]
    simp only [hread]
    rfl
  have hshaped : combine {} ⟨inputs, some template⟩ = .ok shaped := by
    have hvalid : validate {} ⟨inputs, some template⟩ = .ok () := rfl
    have hproject : project ⟨10, 1000⟩ template (Value.mergeAll
        [.object [("a", .number (.integer 1))], .object [("b", .number (.integer 2))]]) =
        ⟨.object [("x", .number (.integer 2))], .clean⟩ := by
      unfold template
      cbv
    rw [combine, hvalid]
    simp only [hread]
    change Except.ok (⟨(project ⟨10, 1000⟩ template _).value,
      some (project ⟨10, 1000⟩ template _).report⟩ : Response) = _
    rw [hproject]
  exact ⟨⟨hlate, (hbinary _).1 hlate, hbehind 1 [wrong, binary, binary, wrong] rfl hlate⟩,
    ⟨hearly, (hwrong _).1 hearly, hbehind' 0 error [wrong, wrong, wrong] rfl htext hearly⟩,
    ⟨hmerged, ((combine_eq_iff_answer {} ⟨inputs, none⟩).1 _).1 hmerged⟩,
    hshaped, ((combine_eq_iff_answer {} ⟨inputs, some template⟩).1 _).1 hshaped⟩

end Combine

end DocWeave

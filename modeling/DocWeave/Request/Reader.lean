/-
Reading requests from JSON text.  A request and an input are records: objects with
named fields, or lists of the fields in order.  Fields that are not known are
passed over.
-/
import DocWeave.Combine
import DocWeave.Json.Skip
import DocWeave.Request.Mismatch

namespace DocWeave.Request

open Json (Fault Next Numeral skipBlank nextItem nextKey colon stopAt stopOn)

abbrev Part (α : Type) (text : List Char) := Except (Fault Reason) (α × Remainder text)

def lift {α : Type} (result : Except (Fault Json.Reason) α) : Except (Fault Reason) α :=
  result.mapError (Fault.map .malformed)

/-- Reports a reason where an object is left: behind its end if that comes next. -/
def leaveObject {α : Type} (reason : Reason) (rest : List Char) :
    Except (Fault Reason) α :=
  match skipBlank rest with
  | '\x7d' :: after => stopAt reason after
  | rest => stopAt reason rest

/-- Reports a reason where a list is left: behind its end if that comes next, or
behind the next separator. -/
def leaveList {α : Type} (reason : Reason) (rest : List Char) : Except (Fault Reason) α :=
  match skipBlank rest with
  | ']' :: after => stopAt reason after
  | ',' :: after => stopAt reason (skipBlank after)
  | rest => stopAt reason rest

def endList (text : List Char) : Except (Fault Json.Reason) (Remainder text) :=
  match h : skipBlank text with
  | [] => stopOn .endInList []
  | c :: rest =>
      if c = ']' then .ok ⟨rest, Json.length_lt_of_skipBlank h⟩
      else if c = ',' then
        match skipBlank rest with
        | ']' :: after => stopOn .trailingComma (']' :: after)
        | after => stopOn .trailingCharacters after
      else stopOn .trailingCharacters (c :: rest)

def foundNumber : Numeral → Found
  | .whole n => .whole n
  | .real x => .real x

/-- Reports that something else was expected.  A scalar is read first, so that its
own faults count before its type. -/
def mismatch {α : Type} (expected : Expected) (text : List Char) :
    Except (Fault Reason) α :=
  let report := fun (found : Found) (rest : List Char) =>
    stopAt (α := α) (Reason.wrongType found expected) rest
  match text with
  | [] => stopOn (.malformed .endInValue) []
  | c :: rest =>
      if c = 'n' then do report .null (← lift (Json.expectWord "ull".toList rest)).1
      else if c = 't' then do report (.bool true) (← lift (Json.expectWord "rue".toList rest)).1
      else if c = 'f' then do
        report (.bool false) (← lift (Json.expectWord "alse".toList rest)).1
      else if c = '-' ∨ c.isDigit then do
        let (numeral, after) ← lift (Numeral.read (c :: rest))
        report (foundNumber numeral) after
      else if c = '"' then do
        let (s, after) ← lift (Json.Quoted.decode rest)
        report (.text (String.ofList s)) after.1
      else if c = '[' then report .list (c :: rest)
      else if c = '\x7b' then report .object (c :: rest)
      else stopOn (.malformed .expectedValue) (c :: rest)

def readText (text : List Char) : Part String text :=
  match h : skipBlank text with
  | [] => stopOn (.malformed .endInValue) []
  | c :: rest =>
      have hlt := Json.length_lt_of_skipBlank h
      if c = '"' then
        (lift (Json.Quoted.decode rest)).map fun r =>
          (String.ofList r.1, r.2.within (length_le_of_lt hlt))
      else mismatch .text (c :: rest)

structure InputFields where
  format : Option Format := none
  data : Option String := none

def InputFields.finish (fields : InputFields) : Except Reason Input :=
  match fields.format, fields.data with
  | none, _ => .error (.missingField "type")
  | _, none => .error (.missingField "data")
  | some format, some data => .ok ⟨format, data⟩

/-- The fields of an input, up to and including the end of the object. -/
def inputObject (first : Bool) (fields : InputFields) (text : List Char) :
    Part Input text := do
  match ← lift (nextKey first text) with
  | .closed rest =>
      match fields.finish with
      | .ok input => return (input, rest)
      | .error reason => stopAt reason rest.1
  | .more ⟨rest, h⟩ =>
      let (name, ⟨rest₁, h₁⟩) ← lift (Json.Quoted.decode rest)
      have hlt := length_lt_of_lt_of_le h₁ h
      if name = "type".toList then
        if fields.format.isSome then leaveObject (.duplicateField "type") rest₁
        else
          let ⟨rest₂, h₂⟩ ← lift (colon rest₁)
          have hlt := length_lt_trans h₂ hlt
          let (tag, ⟨rest₃, h₃⟩) ← readText rest₂
          have hlt := length_lt_trans h₃ hlt
          match Format.ofTag? tag with
          | none => leaveObject (.unknownFormat tag) rest₃
          | some format =>
              let (input, ⟨rest₄, h₄⟩) ←
                inputObject false { fields with format := some format } rest₃
              return (input, ⟨rest₄, length_lt_trans h₄ hlt⟩)
      else if name = "data".toList then
        if fields.data.isSome then leaveObject (.duplicateField "data") rest₁
        else
          let ⟨rest₂, h₂⟩ ← lift (colon rest₁)
          have hlt := length_lt_trans h₂ hlt
          let (data, ⟨rest₃, h₃⟩) ← readText rest₂
          have hlt := length_lt_trans h₃ hlt
          let (input, ⟨rest₄, h₄⟩) ← inputObject false { fields with data := some data } rest₃
          return (input, ⟨rest₄, length_lt_trans h₄ hlt⟩)
      else
        let ⟨rest₂, h₂⟩ ← lift (colon rest₁)
        have hlt := length_lt_trans h₂ hlt
        let ⟨rest₃, h₃⟩ ← lift (Json.Skip.value rest₂)
        have hlt := length_lt_trans h₃ hlt
        let (input, ⟨rest₄, h₄⟩) ← inputObject false fields rest₃
        return (input, ⟨rest₄, length_lt_trans h₄ hlt⟩)
termination_by text.length

/-- The next field of a record written as a list.  A list that has ended is too
short. -/
def nextField (record : Expected) (place : Nat) (text : List Char) :
    Except (Fault Reason) (Rest text) := do
  match ← lift (nextItem (place = 0) text) with
  | .closed rest => stopAt (.tooShort place record) rest.1
  | .more rest => return rest

def inputList (text : List Char) : Part Input text := do
  let ⟨rest, h⟩ ← nextField .input 0 text
  let (tag, ⟨rest₁, h₁⟩) ← readText rest
  have hlt := length_lt_of_lt_of_le h₁ h
  match Format.ofTag? tag with
  | none => leaveList (.unknownFormat tag) rest₁
  | some format =>
      let ⟨rest₂, h₂⟩ ← nextField .input 1 rest₁
      have hlt := length_lt_of_le_of_lt h₂ hlt
      let (data, ⟨rest₃, h₃⟩) ← readText rest₂
      have hlt := length_lt_trans h₃ hlt
      let ⟨rest₄, h₄⟩ ← lift (endList rest₃)
      return (⟨format, data⟩, ⟨rest₄, length_lt_trans h₄ hlt⟩)

def readInput (text : List Char) : Part Input text :=
  match h : skipBlank text with
  | [] => stopOn (.malformed .endInValue) []
  | c :: rest =>
      have hlt := Json.length_lt_of_skipBlank h
      if c = '[' then (inputList rest).map fun r => (r.1, r.2.within (length_le_of_lt hlt))
      else if c = '\x7b' then
        (inputObject true {} rest).map fun r => (r.1, r.2.within (length_le_of_lt hlt))
      else mismatch .input (c :: rest)

def readInputs (text : List Char) : Part (List Input) text :=
  match h : skipBlank text with
  | [] => stopOn (.malformed .endInValue) []
  | c :: rest =>
      have hlt := Json.length_lt_of_skipBlank h
      if c = '[' then
        (Json.readItems Reason.malformed readInput true rest).map fun r =>
          (r.1, r.2.within (length_le_of_lt hlt))
      else mismatch .inputs (c :: rest)

/-- The template: any value, of which null means that there is none.  The request
around it is one open container. -/
def readTemplate (text : List Char) : Part (Option Value) text :=
  (lift (Json.readValue (Json.nestingLimit - 1) text)).map fun r =>
    (match r.1 with
      | .null => none
      | template => some template, r.2)

/-- The fields of a request that have been read.  A template may be known to be
missing. -/
structure Fields where
  inputs : Option (List Input) := none
  template : Option (Option Value) := none

def requestObject (first : Bool) (fields : Fields) (text : List Char) :
    Part Request text := do
  match ← lift (nextKey first text) with
  | .closed rest =>
      match fields.inputs with
      | some inputs => return (⟨inputs, fields.template.getD none⟩, rest)
      | none => stopAt (.missingField "inputs") rest.1
  | .more ⟨rest, h⟩ =>
      let (name, ⟨rest₁, h₁⟩) ← lift (Json.Quoted.decode rest)
      have hlt := length_lt_of_lt_of_le h₁ h
      if name = "inputs".toList then
        if fields.inputs.isSome then leaveObject (.duplicateField "inputs") rest₁
        else
          let ⟨rest₂, h₂⟩ ← lift (colon rest₁)
          have hlt := length_lt_trans h₂ hlt
          let (inputs, ⟨rest₃, h₃⟩) ← readInputs rest₂
          have hlt := length_lt_trans h₃ hlt
          let (request, ⟨rest₄, h₄⟩) ←
            requestObject false { fields with inputs := some inputs } rest₃
          return (request, ⟨rest₄, length_lt_trans h₄ hlt⟩)
      else if name = "output_format".toList then
        if fields.template.isSome then leaveObject (.duplicateField "output_format") rest₁
        else
          let ⟨rest₂, h₂⟩ ← lift (colon rest₁)
          have hlt := length_lt_trans h₂ hlt
          let (template, ⟨rest₃, h₃⟩) ← readTemplate rest₂
          have hlt := length_lt_trans h₃ hlt
          let (request, ⟨rest₄, h₄⟩) ←
            requestObject false { fields with template := some template } rest₃
          return (request, ⟨rest₄, length_lt_trans h₄ hlt⟩)
      else
        let ⟨rest₂, h₂⟩ ← lift (colon rest₁)
        have hlt := length_lt_trans h₂ hlt
        let ⟨rest₃, h₃⟩ ← lift (Json.Skip.value rest₂)
        have hlt := length_lt_trans h₃ hlt
        let (request, ⟨rest₄, h₄⟩) ← requestObject false fields rest₃
        return (request, ⟨rest₄, length_lt_trans h₄ hlt⟩)
termination_by text.length

def requestList (text : List Char) : Part Request text := do
  let ⟨rest, h⟩ ← nextField .request 0 text
  let (inputs, ⟨rest₁, h₁⟩) ← readInputs rest
  have hlt := length_lt_of_lt_of_le h₁ h
  match ← lift (nextItem false rest₁) with
  | .closed ⟨rest₂, h₂⟩ => return (⟨inputs, none⟩, ⟨rest₂, length_lt_trans h₂ hlt⟩)
  | .more ⟨rest₂, h₂⟩ =>
      have hlt := length_lt_of_le_of_lt h₂ hlt
      let (template, ⟨rest₃, h₃⟩) ← readTemplate rest₂
      have hlt := length_lt_trans h₃ hlt
      let ⟨rest₄, h₄⟩ ← lift (endList rest₃)
      return (⟨inputs, template⟩, ⟨rest₄, length_lt_trans h₄ hlt⟩)

def read (text : List Char) : Except (Fault Reason) Request := do
  match skipBlank text with
  | [] => stopOn (.malformed .endInValue) []
  | c :: rest =>
      let (request, after) ←
        if c = '[' then (requestList rest).map fun r => (r.1, r.2.1)
        else if c = '\x7b' then (requestObject true {} rest).map fun r => (r.1, r.2.1)
        else mismatch .request (c :: rest)
      lift (Json.expectEnd after)
      return request

def parse (text : String) : Except String Request :=
  (read text.toList).mapError fun fault =>
    (fault.position text.toList).describe fault.reason.message

end DocWeave.Request

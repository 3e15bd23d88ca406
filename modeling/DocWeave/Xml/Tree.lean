/-
Elements and the text between them.  Tokens are put together with a stack of open
elements; the finished trees become document values in which attributes and child
elements stand side by side under different keys.
-/
import DocWeave.Value.Basic
import DocWeave.Xml.Token

namespace DocWeave.Xml

inductive Node where
  | text (s : String)
  | element (name : String) (attributes : Entries String) (content : List Node)

/-- How many elements may be open at once. -/
def nestingLimit : Nat := 256

/-- An element whose end has not been read.  Its content so far stands newest
first. -/
structure OpenElement where
  name : String
  attributes : Entries String
  content : List Node

def OpenElement.close (e : OpenElement) : Node :=
  .element e.name e.attributes e.content.reverse

/-- The open elements, innermost first, and the finished roots, newest first. -/
structure Builder where
  stack : List OpenElement
  roots : List Node

namespace Builder

def attach (node : Node) (b : Builder) : Builder :=
  match b.stack with
  | [] => { b with roots := node :: b.roots }
  | top :: rest => { b with stack := { top with content := node :: top.content } :: rest }

def step (b : Builder) : Token → Except Flaw Builder
  | .opening name attributes =>
      if nestingLimit ≤ b.stack.length then .error .tooDeep
      else .ok { b with stack := ⟨name, attributes, []⟩ :: b.stack }
  | .empty name attributes =>
      if nestingLimit ≤ b.stack.length then .error .tooDeep
      else .ok (b.attach (.element name attributes []))
  | .closing name =>
      match b.stack with
      | [] => .error (.unexpectedClosing name)
      | top :: rest =>
          if top.name = name then .ok (attach top.close { b with stack := rest })
          else .error (.mismatchedClosing name)
  | .text s =>
      if b.stack.isEmpty then
        if isBlankText s.toList then .ok b else .error .textOutsideRoot
      else .ok (b.attach (.text s))

/-- The roots, once every element has ended. -/
def finish (b : Builder) : Except Flaw (List Node) :=
  if b.stack.isEmpty then .ok b.roots.reverse else .error .unclosedElement

end Builder

/-- The root elements that a sequence of tokens describes. -/
def build (tokens : List Token) : Except Flaw (List Node) := do
  let b ← tokens.foldlM Builder.step ⟨[], []⟩
  b.finish

def textKey : String := "_text"

def valueKey : String := "_value"

def attributeKey (name : String) : String := "@" ++ name

/-- Stores a child element; one whose name occurs again makes a list. -/
def addChild (entries : Entries Value) (child : String × Value) : Entries Value :=
  match Entries.find? child.1 entries with
  | some (.array items) => Entries.insert child.1 (.array (items ++ [child.2])) entries
  | some first => Entries.insert child.1 (.array [first, child.2]) entries
  | none => Entries.insert child.1 child.2 entries

/-- The runs of text in a content, trimmed and joined by blanks. -/
def joinedText (content : List Node) : List Char :=
  let runs := content.filterMap fun
    | .text s => some (trim s.toList)
    | .element .. => none
  ((runs.filter fun run => !run.isEmpty).intersperse [' ']).flatten

/-- The value of an element from its attributes, its text and the values of its
child elements. -/
def assemble (attributes : Entries String) (text : List Char)
    (children : List (String × Value)) : Value :=
  let entries : Entries Value :=
    attributes.foldl (fun entries a =>
      Entries.insert (attributeKey a.1) (.string a.2) entries) []
  if children.isEmpty then
    if text.isEmpty then .object entries
    else if entries.isEmpty then .string (String.ofList text)
    else .object (Entries.insert valueKey (.string (String.ofList text)) entries)
  else
    let entries := children.foldl addChild entries
    if text.isEmpty then .object entries
    else .object (Entries.insert textKey (.string (String.ofList text)) entries)

mutual

def Node.value : Node → Value
  | .text s => .string s
  | .element _ attributes content =>
      assemble attributes (joinedText content) (childValues content)

def childValues : List Node → List (String × Value)
  | [] => []
  | .text _ :: rest => childValues rest
  | .element name attributes content :: rest =>
      (name, Node.value (.element name attributes content)) :: childValues rest

end

mutual

/-- The document value of a node at a depth, as long as its elements do not nest too
deep. -/
def Node.convert (depth : Nat) : Node → Except Flaw Value
  | .text s => .ok (.string s)
  | .element _ attributes content =>
      if nestingLimit < depth then .error .tooDeep
      else (convertChildren (depth + 1) content).map (assemble attributes (joinedText content))

def convertChildren (depth : Nat) : List Node → Except Flaw (List (String × Value))
  | [] => .ok []
  | .text _ :: rest => convertChildren depth rest
  | .element name attributes content :: rest => do
      let value ← Node.convert depth (.element name attributes content)
      let others ← convertChildren depth rest
      return (name, value) :: others

end

def dropMark : List Char → List Char
  | '\uFEFF' :: rest => rest
  | text => text

/-- Reads marked-up text as a document: an object with the root elements, of which
those with equal names make a list. -/
def parse (text : String) : Except Flaw Value := do
  let tokens ← tokenize (dropMark text.toList)
  let roots ← build tokens
  let children ← convertChildren 1 roots
  return .object (children.foldl addChild [])

end DocWeave.Xml

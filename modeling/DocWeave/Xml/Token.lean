/-
Tokens of marked-up text: tags with their attributes, and runs of text.  Comments,
processing instructions and declarations give no token.
-/
import DocWeave.Entries
import DocWeave.Text.Basic
import DocWeave.Xml.Reference

namespace DocWeave.Xml

/-- A tag, or a run of text with its references replaced. -/
inductive Token where
  | opening (name : String) (attributes : Entries String)
  | closing (name : String)
  | empty (name : String) (attributes : Entries String)
  | text (s : String)
deriving DecidableEq

def isForbiddenInName (c : Char) : Bool :=
  isSpace c || c = '<' || c = '>' || c = '/' || c = '=' || c = '"' || c = '\'' || c = '&'

def isName (name : List Char) : Bool :=
  !name.isEmpty && !name.any isForbiddenInName

/-- What follows the end of a declaration.  A closing bracket counts only outside
quotes and outside square brackets. -/
def afterDeclaration (depth : Nat) (quote : Option Char) : List Char → Option (List Char)
  | [] => none
  | c :: rest =>
      match quote with
      | some q => afterDeclaration depth (if c = q then none else some q) rest
      | none =>
          if c = '"' ∨ c = '\'' then afterDeclaration depth (some c) rest
          else if c = '[' then afterDeclaration (depth + 1) none rest
          else if c = ']' then afterDeclaration (depth - 1) none rest
          else if c = '>' ∧ depth = 0 then some rest
          else afterDeclaration depth none rest

theorem length_afterDeclaration_lt {depth : Nat} {quote : Option Char}
    {text rest : List Char} (h : afterDeclaration depth quote text = some rest) :
    rest.length < text.length := by
  induction text generalizing depth quote with
  | nil => simp [afterDeclaration] at h
  | cons c text ih =>
      have step {depth : Nat} {quote : Option Char}
          (h : afterDeclaration depth quote text = some rest) :
          rest.length < (c :: text).length :=
        Nat.lt_trans (ih h) (by simp)
      simp only [afterDeclaration] at h
      repeat' split at h
      all_goals first
        | exact step h
        | (cases h; simp)

def isPlain (c : Char) : Bool :=
  c ≠ '<'

/-- Whether a tag ends where its attributes end, or closes itself there. -/
inductive TagEnd where
  | opening
  | selfClosing
deriving DecidableEq

def isTagNameChar (c : Char) : Bool :=
  !(isSpace c || c = '/' || c = '>')

def isAttributeChar (c : Char) : Bool :=
  !(isSpace c || c = '=' || c = '/' || c = '>')

/-- The value of an attribute: an equals sign and a text in quotes, with white
space around the sign. -/
def attributeValue (tag key : String) (text : List Char) :
    Except Flaw (List Char × Rest text) :=
  match h : trimStart text with
  | '=' :: rest =>
      have hle := length_le_of_trimStart h
      match h' : trimStart rest with
      | [] => .error (.unquotedAttribute key)
      | quote :: body =>
          if quote = '"' ∨ quote = '\'' then
            match h'' : breakOn [quote] body with
            | none => .error (.unterminatedTag tag)
            | some (raw, after) =>
                have hafter := length_breakOn_le h''
                have hbody := length_le_of_trimStart h'
                have hafter := length_le_trans hafter hbody
                .ok (raw, ⟨after, length_le_trans hafter hle⟩)
          else .error (.unquotedAttribute key)
  | _ => .error (.attributeWithoutValue key)

def attributeOrEnd (tag : String) (text : List Char) :
    Except Flaw (Piece (String × String) TagEnd × Remainder text) :=
  match h : trimStart text with
  | [] => .error (.unterminatedTag tag)
  | c :: rest =>
      have hlt := length_lt_of_trimStart h
      if c = '>' then .ok (.last .opening, ⟨rest, hlt⟩)
      else if c = '/' then
        match rest with
        | '>' :: after => .ok (.last .selfClosing, ⟨after, length_lt_of_cons_lt hlt⟩)
        | _ => .error (.malformedTag tag)
      else do
        let name := String.ofList (c :: rest.takeWhile isAttributeChar)
        let (raw, after) ← attributeValue tag name (rest.dropWhile isAttributeChar)
        let value ← decode raw
        return (.more (name, String.ofList value),
          (after.within (length_dropWhile_le isAttributeChar rest)).behind hlt)

def attributes (tag : String) (text : List Char) :
    Except Flaw ((List (String × String) × TagEnd) × Remainder text) :=
  readToLast List.length (attributeOrEnd tag) text

/-- What a comment, an instruction or a section leaves after its terminator. -/
def skipPast (terminator : List Char) (flaw : Flaw) (text : List Char) :
    Except Flaw (List Char × Rest text) :=
  match h : breakOn terminator text with
  | none => .error flaw
  | some (before, after) => .ok (before, ⟨after, length_breakOn_le h⟩)

/-- A lexeme: the token it gives, if any, and the rest of the text. -/
abbrev Lexeme (text : List Char) := Option Token × Remainder text

def closingTag (text : List Char) : Except Flaw (Lexeme text) :=
  match h : breakOn ['>'] text with
  | none => .error .unterminatedClosingTag
  | some (before, after) =>
      let name := trim before
      if isName name then
        .ok (some (.closing (String.ofList name)), ⟨after, length_lt_of_breakOn h⟩)
      else .error (.invalidClosingTag (String.ofList name))

def openingTag (text : List Char) : Except Flaw (Lexeme text) := do
  let name := text.takeWhile isTagNameChar
  if isName name then
    let tag := String.ofList name
    let ((pairs, tagEnd), rest) ← attributes tag (text.dropWhile isTagNameChar)
    let rest := rest.within (length_dropWhile_le isTagNameChar text)
    match tagEnd with
    | .opening => return (some (.opening tag (Entries.ofPairs pairs)), rest)
    | .selfClosing => return (some (.empty tag (Entries.ofPairs pairs)), rest)
  else throw (.invalidTagName (String.ofList name))

def declaration (text : List Char) : Except Flaw (Lexeme text) :=
  match h : afterDeclaration 0 none text with
  | none => .error .unterminatedDeclaration
  | some rest => .ok (none, ⟨rest, length_afterDeclaration_lt h⟩)

def marked (text : List Char) : Except Flaw (Lexeme text) :=
  match text with
  | '!' :: '-' :: '-' :: after =>
      (skipPast "-->".toList .unterminatedComment after).map fun r =>
        (none, r.2.behind (length_lt_append_cons ['!', '-'] '-' after))
  | '!' :: '[' :: 'C' :: 'D' :: 'A' :: 'T' :: 'A' :: '[' :: after =>
      (skipPast "]]>".toList .unterminatedCdata after).map fun r =>
        (some (.text (String.ofList r.1)),
          r.2.behind (length_lt_append_cons ['!', '[', 'C', 'D', 'A', 'T', 'A'] '[' after))
  | '?' :: after =>
      (skipPast "?>".toList .unterminatedInstruction after).map fun r =>
        (none, r.2.behind (length_lt_cons '?' after))
  | '!' :: after =>
      (declaration after).map fun r => (r.1, r.2.within (length_le_cons '!' after))
  | '/' :: after =>
      (closingTag after).map fun r => (r.1, r.2.within (length_le_cons '/' after))
  | text => openingTag text

/-- The next lexeme of a text that is not empty. -/
def lexeme (c : Char) (rest : List Char) : Except Flaw (Lexeme (c :: rest)) :=
  if c = '<' then (marked rest).map fun r => (r.1, r.2.within (length_le_cons c rest))
  else
    (decode (c :: rest.takeWhile isPlain)).map fun run =>
      (some (.text (String.ofList run)),
        ⟨rest.dropWhile isPlain, length_dropWhile_lt_cons isPlain c rest⟩)

def tokenize (text : List Char) : Except Flaw (List Token) :=
  (readToEnd lexeme text).map fun found => found.reduceOption

end DocWeave.Xml

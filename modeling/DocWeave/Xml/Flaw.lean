/-
What can be wrong with marked-up text.
-/

namespace DocWeave.Xml

inductive Flaw where
  | unterminatedComment
  | unterminatedCdata
  | unterminatedInstruction
  | unterminatedDeclaration
  | unterminatedClosingTag
  | unterminatedTag (name : String)
  | invalidClosingTag (name : String)
  | invalidTagName (name : String)
  | malformedTag (name : String)
  | attributeWithoutValue (key : String)
  | unquotedAttribute (key : String)
  | unterminatedReference
  | unknownEntity (name : String)
  | invalidReference (name : String)
  | tooDeep
  | unexpectedClosing (name : String)
  | mismatchedClosing (name : String)
  | textOutsideRoot
  | unclosedElement
deriving DecidableEq

def Flaw.message : Flaw → String
  | unterminatedComment => "unterminated comment"
  | unterminatedCdata => "unterminated CDATA section"
  | unterminatedInstruction => "unterminated processing instruction"
  | unterminatedDeclaration => "unterminated declaration"
  | unterminatedClosingTag => "unterminated tag"
  | unterminatedTag name => "unterminated tag: <" ++ name
  | invalidClosingTag name => "invalid closing tag: </" ++ name ++ ">"
  | invalidTagName name => "invalid tag name: <" ++ name
  | malformedTag name => "malformed tag: <" ++ name
  | attributeWithoutValue key => "attribute without value: " ++ key
  | unquotedAttribute key => "unquoted attribute value: " ++ key
  | unterminatedReference => "unterminated entity reference"
  | unknownEntity name => "unknown entity: &" ++ name ++ ";"
  | invalidReference name => "invalid character reference: &" ++ name ++ ";"
  | tooDeep => "maximum nesting depth exceeded"
  | unexpectedClosing name => "unexpected closing tag: " ++ name
  | mismatchedClosing name => "mismatched closing tag: " ++ name
  | textOutsideRoot => "text outside root element"
  | unclosedElement => "unmatched tags"

end DocWeave.Xml

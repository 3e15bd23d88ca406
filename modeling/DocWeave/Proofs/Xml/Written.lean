/-
The ways of writing a forest of elements as marked-up text.  A text and a forest are
related when the text is one of the writings of the forest: the choice of quotes, of
references and sections, of the form of an empty element, and of what stands between
tags is free.
-/
import DocWeave.Xml.Tree

namespace DocWeave.Xml

/-! ### Characters -/

inductive Reference : Char → List Char → Prop
  | lt : Reference '<' "lt".toList
  | gt : Reference '>' "gt".toList
  | amp : Reference '&' "amp".toList
  | quot : Reference '"' "quot".toList
  | apos : Reference '\'' "apos".toList
  | decimal {c : Char} {digits : List Char} (hne : digits ≠ [])
      (hdigits : ∀ d ∈ digits, d.isDigit) (hcode : Decimal.natOfDigits digits = c.toNat) :
      Reference c ('#' :: digits)
  | hexadecimal {c x : Char} {digits : List Char} (hx : x = 'x' ∨ x = 'X') (hne : digits ≠ [])
      (hcode : natOfHex? digits = some c.toNat) : Reference c ('#' :: x :: digits)

/-- Text in which the characters stand for themselves or are written as references.  An
ampersand, and the character at which the text would end, are always written as
references. -/
inductive Escaped (stop : Char) : List Char → List Char → Prop
  | nil : Escaped stop [] []
  | plain {c : Char} {s w : List Char} (hstop : c ≠ stop) (hamp : c ≠ '&')
      (h : Escaped stop s w) : Escaped stop (c :: s) (c :: w)
  | reference {c : Char} {name s w : List Char} (hname : Reference c name)
      (h : Escaped stop s w) : Escaped stop (c :: s) ('&' :: name ++ ';' :: w)

/-! ### Between tags -/

inductive Aside : List Char → Prop
  | comment {c : List Char} (hc : ¬ "-->".toList <:+: c) :
      Aside ("<!--".toList ++ (c ++ "-->".toList))
  | instruction {p : List Char} (hp : ¬ "?>".toList <:+: p) :
      Aside ("<?".toList ++ (p ++ "?>".toList))

/-- A run of text: escaped, or as a section that is taken literally. -/
inductive Run : List Char → List Char → Prop
  | escaped {s w : List Char} (h : Escaped '<' s w) : Run s w
  | literal {s : List Char} (hs : ¬ "]]>".toList <:+: s) :
      Run s ("<![CDATA[".toList ++ (s ++ "]]>".toList))

/-! ### Elements -/

/-- The attributes of a tag, each behind white space, with its value in quotes. -/
inductive WrittenAttributes : Entries String → List Char → Prop
  | nil : WrittenAttributes [] []
  | cons {key value : String} {attributes : Entries String} {quote : Char}
      {blank raw w : List Char} (hne : blank ≠ []) (hblank : isBlankText blank)
      (hquote : quote = '"' ∨ quote = '\'') (hvalue : Escaped quote value.toList raw)
      (h : WrittenAttributes attributes w) :
      WrittenAttributes ((key, value) :: attributes)
        (blank ++ (key.toList ++ '=' :: quote :: (raw ++ quote :: w)))

/-- Where nodes stand: among the roots, or in the content of an element. -/
inductive Place where
  | outside
  | inside

/-- Nodes at a place.  White space may stand between roots, and runs of text in an element.
They come first only where the flag allows it: between two of them stands something else,
or they would be read as one. -/
inductive Written : Place → Bool → List Node → List Char → Prop
  | nil {place : Place} {free : Bool} : Written place free [] []
  | aside {place : Place} {free : Bool} {m w : List Char} {nodes : List Node} (hm : Aside m)
      (h : Written place true nodes w) : Written place free nodes (m ++ w)
  | blank {blank w : List Char} {nodes : List Node} (hblank : isBlankText blank)
      (h : Written .outside false nodes w) : Written .outside true nodes (blank ++ w)
  | run {s : String} {r w : List Char} {nodes : List Node} (hr : Run s.toList r)
      (h : Written .inside false nodes w) : Written .inside true (.text s :: nodes) (r ++ w)
  | element {place : Place} {free : Bool} {name : String} {attributes : Entries String}
      {content others : List Node} {a blank inner blank' w : List Char}
      (ha : WrittenAttributes attributes a) (hblank : isBlankText blank)
      (hinner : Written .inside true content inner) (hblank' : isBlankText blank')
      (h : Written place true others w) :
      Written place free (.element name attributes content :: others)
        ('<' :: (name.toList ++ (a ++ (blank ++ '>' :: (inner ++
          ('<' :: '/' :: (name.toList ++ (blank' ++ '>' :: w))))))))
  | empty {place : Place} {free : Bool} {name : String} {attributes : Entries String}
      {others : List Node} {a blank w : List Char} (ha : WrittenAttributes attributes a)
      (hblank : isBlankText blank) (h : Written place true others w) :
      Written place free (.element name attributes [] :: others)
        ('<' :: (name.toList ++ (a ++ (blank ++ '/' :: '>' :: w))))

/-! ### Forests that can be written -/

/-- How many elements lie inside one another. -/
def height : List Node → Nat
  | [] => 0
  | .text _ :: rest => height rest
  | .element _ _ content :: rest => max (height content + 1) (height rest)

def childNames : List Node → List String
  | [] => []
  | .text _ :: rest => childNames rest
  | .element name _ _ :: rest => name :: childNames rest

/-- The runs of text of a content that are not blank, without the white space around
them. -/
def textRuns : List Node → List (List Char)
  | [] => []
  | .text s :: rest =>
      if isBlankText s.toList then textRuns rest else trim s.toList :: textRuns rest
  | .element .. :: rest => textRuns rest

/-- Elements that can be written and read without clashes: names are names and are not
taken for a comment, a declaration or an instruction, an attribute is given once, and no
child element has the key of an attribute or, beside text, that of the text. -/
inductive Conforming : List Node → Prop
  | nil : Conforming []
  | text {s : String} {rest : List Node} (h : Conforming rest) : Conforming (.text s :: rest)
  | element {name : String} {attributes : Entries String} {content rest : List Node}
      (hname : isName name.toList)
      (hmark : name.toList.head? ≠ some '!' ∧ name.toList.head? ≠ some '?')
      (hkeys : ∀ key ∈ Entries.keys attributes, isName key.toList)
      (hnodup : (Entries.keys attributes).Nodup)
      (hat : ∀ child ∈ childNames content, child.toList.head? ≠ some '@')
      (htext : textRuns content ≠ [] → textKey ∉ childNames content)
      (hcontent : Conforming content) (hrest : Conforming rest) :
      Conforming (.element name attributes content :: rest)

end DocWeave.Xml

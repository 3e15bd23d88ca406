/-
Document type declarations in front of a document.  A declaration is skipped by counting
square brackets outside quotes, and comments and instructions inside it are counted like
everything else.  It leaves no trace where these are balanced; an apostrophe in a comment
is enough to make the document fail.
-/
import DocWeave.Proofs.Xml.Lexing
import DocWeave.Proofs.Xml.Nesting

namespace DocWeave.Xml

/-! ### Balanced text -/

def isDelimiter (c : Char) : Bool :=
  c = '"' || c = '\'' || c = '[' || c = ']'

theorem isDelimiter_eq_false_iff (c : Char) :
    isDelimiter c = false ↔ c ≠ '"' ∧ c ≠ '\'' ∧ c ≠ '[' ∧ c ≠ ']' := by
  simp [isDelimiter, and_assoc]

/-- A class of characters to which no delimiter belongs. -/
theorem isDelimiter_eq_false_of {p : Char → Bool} {c : Char} (h : p c)
    (hquotes : p '"' = false ∧ p '\'' = false) (hbrackets : p '[' = false ∧ p ']' = false) :
    isDelimiter c = false := by
  rw [isDelimiter_eq_false_iff]
  refine ⟨?_, ?_, ?_, ?_⟩ <;> rintro rfl
  · exact Bool.false_ne_true (hquotes.1.symm.trans h)
  · exact Bool.false_ne_true (hquotes.2.symm.trans h)
  · exact Bool.false_ne_true (hbrackets.1.symm.trans h)
  · exact Bool.false_ne_true (hbrackets.2.symm.trans h)

/-- Text in which every quote is closed and the square brackets outside quotes match. -/
inductive Balanced : List Char → Prop
  | nil : Balanced []
  | plain {c : Char} {s : List Char} (hc : isDelimiter c = false) (h : Balanced s) :
      Balanced (c :: s)
  | quoted {quote : Char} {literal s : List Char} (hquote : quote = '"' ∨ quote = '\'')
      (hliteral : quote ∉ literal) (h : Balanced s) :
      Balanced (quote :: (literal ++ quote :: s))
  | brackets {inner s : List Char} (hinner : Balanced inner) (h : Balanced s) :
      Balanced ('[' :: (inner ++ ']' :: s))

theorem Balanced.append {s t : List Char} (hs : Balanced s) (ht : Balanced t) :
    Balanced (s ++ t) := by
  induction hs with
  | nil => exact ht
  | plain hc _ ih => exact .plain hc ih
  | quoted hquote hliteral _ ih =>
      rw [List.cons_append, List.append_assoc]
      exact .quoted hquote hliteral ih
  | brackets hinner _ _ ih =>
      rw [List.cons_append, List.append_assoc]
      exact .brackets hinner ih

theorem Balanced.plain_append {s t : List Char} (hs : ∀ c ∈ s, isDelimiter c = false)
    (ht : Balanced t) : Balanced (s ++ t) := by
  induction s with
  | nil => exact ht
  | cons c rest ih =>
      obtain ⟨hc, hrest⟩ := List.forall_mem_cons.1 hs
      exact .plain hc (ih hrest)

/-! ### The subset of a declaration -/

/-- What stands between the keyword of a markup declaration and its end: quoted literals
are closed, and there are no brackets of any kind outside them. -/
inductive MarkupBody : List Char → Prop
  | nil : MarkupBody []
  | plain {c : Char} {s : List Char} (hc : isDelimiter c = false) (hangle : c ≠ '<' ∧ c ≠ '>')
      (h : MarkupBody s) : MarkupBody (c :: s)
  | quoted {quote : Char} {literal s : List Char} (hquote : quote = '"' ∨ quote = '\'')
      (hliteral : quote ∉ literal) (h : MarkupBody s) :
      MarkupBody (quote :: (literal ++ quote :: s))

/-- The subset of a declaration, in which the comments and instructions have a property. -/
inductive Subset (p : List Char → Prop) : List Char → Prop
  | nil : Subset p []
  | blank {c : Char} {s : List Char} (hc : isSpace c) (h : Subset p s) : Subset p (c :: s)
  | comment {c s : List Char} (hc : ¬ "--".toList <:+: c) (hp : p c) (h : Subset p s) :
      Subset p ("<!--".toList ++ (c ++ ("-->".toList ++ s)))
  | instruction {i s : List Char} (hi : ¬ "?>".toList <:+: i) (hp : p i) (h : Subset p s) :
      Subset p ("<?".toList ++ (i ++ ("?>".toList ++ s)))
  | markup {keyword body s : List Char} (hne : keyword ≠ []) (hkeyword : ∀ c ∈ keyword, c.isAlpha)
      (hbody : MarkupBody body) (h : Subset p s) :
      Subset p ("<!".toList ++ (keyword ++ (body ++ '>' :: s)))

/-- A document type declaration with a subset, in which the comments and instructions have
a property. -/
inductive Doctype (p : List Char → Prop) : List Char → Prop
  | intro {blank name blank' subset blank'' : List Char} (hne : blank ≠ [])
      (hblank : isBlankText blank) (hname : isName name) (hbrackets : '[' ∉ name ∧ ']' ∉ name)
      (hblank' : isBlankText blank') (hsubset : Subset p subset)
      (hblank'' : isBlankText blank'') :
      Doctype p ("<!DOCTYPE".toList ++
        (blank ++ (name ++ (blank' ++ '[' :: (subset ++ ']' :: (blank'' ++ ['>']))))))

theorem MarkupBody.balanced {s : List Char} (h : MarkupBody s) : Balanced s := by
  induction h with
  | nil => exact .nil
  | plain hc _ _ ih => exact .plain hc ih
  | quoted hquote hliteral _ ih => exact .quoted hquote hliteral ih

/-- Nothing but a comment or an instruction can make a subset unbalanced. -/
theorem Subset.balanced {s : List Char} (h : Subset Balanced s) : Balanced s := by
  induction h with
  | nil => exact .nil
  | blank hc _ ih => exact .plain (isDelimiter_eq_false_of hc (by decide) (by decide)) ih
  | comment _ hp _ ih =>
      apply Balanced.plain_append (s := ['<', '!', '-', '-']) (by simp [isDelimiter])
      apply hp.append
      exact Balanced.plain_append (s := ['-', '-', '>']) (by simp [isDelimiter]) ih
  | instruction _ hp _ ih =>
      apply Balanced.plain_append (s := ['<', '?']) (by simp [isDelimiter])
      apply hp.append
      exact Balanced.plain_append (s := ['?', '>']) (by simp [isDelimiter]) ih
  | markup _ hkeyword hbody _ ih =>
      apply Balanced.plain_append (s := ['<', '!']) (by simp [isDelimiter])
      apply Balanced.plain_append fun c hc =>
        isDelimiter_eq_false_of (hkeyword c hc) (by decide) (by decide)
      apply hbody.balanced.append
      exact .plain rfl ih

/-! ### Skipping a declaration -/

theorem afterDeclaration_plain {c : Char} (hc : isDelimiter c = false) {depth : Nat}
    (hend : c = '>' → depth ≠ 0) (rest : List Char) :
    afterDeclaration depth none (c :: rest) = afterDeclaration depth none rest := by
  obtain ⟨hdouble, hsingle, hopen, hclose⟩ := (isDelimiter_eq_false_iff c).1 hc
  have hquote : ¬ (c = '"' ∨ c = '\'') := not_or.2 ⟨hdouble, hsingle⟩
  have hstop : ¬ (c = '>' ∧ depth = 0) := fun h => hend h.1 h.2
  simp only [afterDeclaration]
  rw [if_neg hquote, if_neg hopen, if_neg hclose, if_neg hstop]

/-- Inside quotes nothing counts. -/
theorem afterDeclaration_literal {quote : Char} {literal : List Char} (h : quote ∉ literal)
    (depth : Nat) (rest : List Char) :
    afterDeclaration depth (some quote) (literal ++ quote :: rest) =
      afterDeclaration depth none rest := by
  induction literal with
  | nil => simp only [List.nil_append, afterDeclaration, if_true]
  | cons c literal ih =>
      obtain ⟨hc, hliteral⟩ := not_or.1 (mt List.mem_cons.2 h)
      simp only [List.cons_append, afterDeclaration]
      rw [if_neg (Ne.symm hc)]
      exact ih hliteral

theorem afterDeclaration_quoted {quote : Char} (hquote : quote = '"' ∨ quote = '\'')
    {literal : List Char} (h : quote ∉ literal) (depth : Nat) (rest : List Char) :
    afterDeclaration depth none (quote :: (literal ++ quote :: rest)) =
      afterDeclaration depth none rest := by
  rw [← afterDeclaration_literal h depth rest]
  simp only [afterDeclaration]
  rw [if_pos hquote]

theorem afterDeclaration_open (depth : Nat) (rest : List Char) :
    afterDeclaration depth none ('[' :: rest) = afterDeclaration (depth + 1) none rest := by
  rfl

theorem afterDeclaration_close (depth : Nat) (rest : List Char) :
    afterDeclaration (depth + 1) none (']' :: rest) = afterDeclaration depth none rest := by
  rfl

/-- Behind a bracket that is open, balanced text is skipped as a whole. -/
theorem Balanced.afterDeclaration_append {s : List Char} (h : Balanced s) (depth : Nat)
    (rest : List Char) :
    afterDeclaration (depth + 1) none (s ++ rest) = afterDeclaration (depth + 1) none rest := by
  induction h generalizing depth rest with
  | nil => rfl
  | plain hc _ ih =>
      rw [List.cons_append, afterDeclaration_plain hc (fun _ => Nat.succ_ne_zero depth), ih]
  | quoted hquote hliteral _ ih =>
      rw [List.cons_append, List.append_assoc, List.cons_append,
        afterDeclaration_quoted hquote hliteral, ih]
  | brackets _ _ ihinner ih =>
      rw [List.cons_append, List.append_assoc, List.cons_append, afterDeclaration_open,
        ihinner, afterDeclaration_close, ih]

/-- Outside the subset there are neither delimiters nor a bracket that ends the
declaration. -/
theorem afterDeclaration_append_of_plain {s : List Char}
    (h : ∀ c ∈ s, isDelimiter c = false ∧ c ≠ '>') (rest : List Char) :
    afterDeclaration 0 none (s ++ rest) = afterDeclaration 0 none rest := by
  induction s with
  | nil => rfl
  | cons c s ih =>
      obtain ⟨⟨hc, hend⟩, hs⟩ := List.forall_mem_cons.1 h
      rw [List.cons_append, afterDeclaration_plain hc (fun heq => absurd heq hend), ih hs]

theorem plain_of_isBlankText {blank : List Char} (h : isBlankText blank) :
    ∀ c ∈ blank, isDelimiter c = false ∧ c ≠ '>' := by
  intro c hc
  have hspace := List.all_eq_true.1 h c hc
  refine ⟨isDelimiter_eq_false_of hspace (by decide) (by decide), ?_⟩
  rintro rfl
  exact absurd hspace (by decide)

theorem plain_of_isName {name : List Char} (h : isName name)
    (hbrackets : '[' ∉ name ∧ ']' ∉ name) : ∀ c ∈ name, isDelimiter c = false ∧ c ≠ '>' := by
  intro c hc
  have hallowed := ((isName_iff name).1 h).2 c hc
  rw [isDelimiter_eq_false_iff]
  refine ⟨⟨?_, ?_, ?_, ?_⟩, ?_⟩ <;> rintro rfl
  · exact absurd hallowed (by decide)
  · exact absurd hallowed (by decide)
  · exact hbrackets.1 hc
  · exact hbrackets.2 hc
  · exact absurd hallowed (by decide)

/-- A declaration ends where it is written to end. -/
theorem Doctype.afterDeclaration_eq {doctype : List Char} (h : Doctype Balanced doctype) :
    ∃ inner, doctype = '<' :: '!' :: 'D' :: inner ∧
      afterDeclaration 0 none ('D' :: inner) = some [] := by
  obtain @⟨blank, name, blank', subset, blank'', -, hblank, hname, hbrackets, hblank', hsubset,
    hblank''⟩ := h
  have hkeyword : ∀ c ∈ ['D', 'O', 'C', 'T', 'Y', 'P', 'E'], isDelimiter c = false ∧ c ≠ '>' := by
    simp [isDelimiter]
  refine ⟨['O', 'C', 'T', 'Y', 'P', 'E'] ++ (blank ++ (name ++ (blank' ++
    '[' :: (subset ++ ']' :: (blank'' ++ ['>']))))), rfl, ?_⟩
  calc
    _ = afterDeclaration 0 none (['D', 'O', 'C', 'T', 'Y', 'P', 'E'] ++ (blank ++ (name ++
          (blank' ++ '[' :: (subset ++ ']' :: (blank'' ++ ['>'])))))) := rfl
    _ = afterDeclaration 1 none (subset ++ ']' :: (blank'' ++ ['>'])) := by
      rw [afterDeclaration_append_of_plain hkeyword,
        afterDeclaration_append_of_plain (plain_of_isBlankText hblank),
        afterDeclaration_append_of_plain (plain_of_isName hname hbrackets),
        afterDeclaration_append_of_plain (plain_of_isBlankText hblank'), afterDeclaration_open]
    _ = afterDeclaration 0 none (blank'' ++ ['>']) := by
      rw [hsubset.balanced.afterDeclaration_append, afterDeclaration_close]
    _ = some [] := by
      rw [afterDeclaration_append_of_plain (plain_of_isBlankText hblank'')]
      rfl

/-- A declaration gives no token. -/
theorem Doctype.tokenize_append {doctype : List Char} (h : Doctype Balanced doctype)
    (rest : List Char) : tokenize (doctype ++ rest) = tokenize rest := by
  obtain ⟨inner, hinner, hend⟩ := h.afterDeclaration_eq
  have hcomment : ¬ "--".toList <+: 'D' :: inner := by simp
  have hliteral : ¬ "[CDATA[".toList <+: 'D' :: inner := by simp
  rw [hinner]
  exact (Markup.declaration hcomment hliteral hend).tokenize_append_of_none rest

/-! ### Documents behind a declaration -/

theorem Doctype.dropMark_append {p : List Char → Prop} {doctype : List Char}
    (h : Doctype p doctype) (rest : List Char) : dropMark (doctype ++ rest) = doctype ++ rest := by
  obtain ⟨⟩ := h
  rfl

/-- A declaration in front of a document changes nothing, when the comments and the
instructions in it are balanced. -/
theorem parse_doctype_append {doctype rest : String} (h : Doctype Balanced doctype.toList)
    (hmark : rest.toList.head? ≠ some '\uFEFF') : parse (doctype ++ rest) = parse rest := by
  rw [parse, parse, String.toList_append, h.dropMark_append, h.tokenize_append,
    dropMark_eq_self hmark]

/-- Brackets in quotes, quotes in quotes of the other kind, and brackets that match. -/
theorem parse_doctype_append_of_quoted_brackets :
    let doctype := "<!DOCTYPE r [<!--[\"]>\"]--><?p '>'?>\n<!ENTITY e \"it's ]>\">] >"
    Doctype Balanced doctype.toList ∧ "<r>hi</r>".toList.head? ≠ some '\uFEFF' ∧
      parse (doctype ++ "<r>hi</r>") = .ok (.object [("r", .string "hi")]) := by
  intro doctype
  have hcomment : Balanced ['[', '"', ']', '>', '"', ']'] :=
    .brackets (.quoted (Or.inl rfl) (show '"' ∉ [']', '>'] by decide) .nil) .nil
  have hinstruction : Balanced ['p', ' ', '\'', '>', '\''] :=
    .plain rfl (.plain rfl (.quoted (Or.inr rfl) (show '\'' ∉ ['>'] by decide) .nil))
  have hbody : MarkupBody [' ', 'e', ' ', '"', 'i', 't', '\'', 's', ' ', ']', '>', '"'] :=
    .plain rfl (by decide) (.plain rfl (by decide) (.plain rfl (by decide)
      (.quoted (Or.inl rfl) (show '"' ∉ ['i', 't', '\'', 's', ' ', ']', '>'] by decide) .nil)))
  have hsubset : Subset Balanced _ :=
    .comment (by decide) hcomment (.instruction (by decide) hinstruction
      (.blank (show isSpace '\n' by decide)
        (.markup (show ['E', 'N', 'T', 'I', 'T', 'Y'] ≠ [] by decide) (by simp) hbody .nil)))
  have hdoctype : Doctype Balanced _ :=
    .intro (show [' '] ≠ [] by decide) (by decide) (show isName ['r'] by decide) (by decide)
      (show isBlankText [' '] by decide) hsubset (show isBlankText [' '] by decide)
  have hdoctype : Doctype Balanced doctype.toList := by
    simpa [doctype] using hdoctype
  have hmark : "<r>hi</r>".toList.head? ≠ some '\uFEFF' := by
    decide
  have hdocument : parse "<r>hi</r>" = .ok (.object [("r", .string "hi")]) := by
    cbv
  exact ⟨hdoctype, hmark, (parse_doctype_append hdoctype hmark).trans hdocument⟩

/-- An apostrophe in a comment opens a literal that nothing closes: the document behind
the declaration is not even reached. -/
theorem unterminated_of_apostrophe_in_comment :
    let doctype := "<!DOCTYPE a [<!-- it's -->]>"
    Doctype (fun _ => True) doctype.toList ∧ "<a/>".toList.head? ≠ some '\uFEFF' ∧
      parse (doctype ++ "<a/>") = .error .unterminatedDeclaration ∧
        parse "<a/>" = .ok (.object [("a", .object [])]) := by
  intro doctype
  have hsubset : Subset (fun _ => True) _ :=
    .comment (c := [' ', 'i', 't', '\'', 's', ' ']) (by decide) trivial .nil
  have hdoctype : Doctype (fun _ => True) _ :=
    .intro (show [' '] ≠ [] by decide) (by decide) (show isName ['a'] by decide) (by decide)
      (show isBlankText [' '] by decide) hsubset (show isBlankText [] from rfl)
  refine ⟨by simpa [doctype] using hdoctype, by decide, ?_, ?_⟩
  · cbv
  · cbv

end DocWeave.Xml

/-
The texts that tokens are read from.  A text is cut into tokens exactly when it is a row of
lexemes, each written out here without the reader: markup behind an opening bracket, and runs
of text up to the next bracket.
-/
import DocWeave.Proofs.Xml.TagText

namespace DocWeave.Xml

/-- A lexeme behind its opening bracket, with the token that it gives. -/
inductive Markup : Option Token → List Char → Prop
  | comment {c : List Char} (hc : ¬ "-->".toList <:+: c) :
      Markup none ("!--".toList ++ (c ++ "-->".toList))
  | literal {s : List Char} (hs : ¬ "]]>".toList <:+: s) :
      Markup (some (.text (String.ofList s))) ("![CDATA[".toList ++ (s ++ "]]>".toList))
  | instruction {p : List Char} (hp : ¬ "?>".toList <:+: p) :
      Markup none ('?' :: (p ++ "?>".toList))
  | declaration {d : List Char} (hcomment : ¬ "--".toList <+: d)
      (hliteral : ¬ "[CDATA[".toList <+: d) (hend : afterDeclaration 0 none d = some []) :
      Markup none ('!' :: d)
  | closing {w : List Char} (hw : '>' ∉ w) (hname : isName (trim w)) :
      Markup (some (.closing (String.ofList (trim w)))) ('/' :: (w ++ ['>']))
  | tag {name : List Char} {pairs : List (String × String)} {e : TagEnd} {w : List Char}
      (hw : TagText name pairs e w)
      (hmark : name.head? ≠ some '!' ∧ name.head? ≠ some '?') :
      Markup (some (e.token (String.ofList name) (Entries.ofPairs pairs))) w

def StartsWithTag (text : List Char) : Prop :=
  ∀ c ∈ text.head?, c = '<'

/-- A text as a row of lexemes, with the tokens that they give. -/
inductive Lexed : List Token → List Char → Prop
  | nil : Lexed [] []
  | markup {token : Option Token} {tokens : List Token} {m w : List Char}
      (hm : Markup token m) (h : Lexed tokens w) :
      Lexed (token.toList ++ tokens) ('<' :: (m ++ w))
  | run {s t : List Char} {tokens : List Token} {w : List Char} (hne : s ≠ [])
      (hs : ∀ c ∈ s, isPlain c) (hdecode : decode s = .ok t) (hw : StartsWithTag w)
      (h : Lexed tokens w) : Lexed (.text (String.ofList t) :: tokens) (s ++ w)

/-! ### Comments, sections and instructions -/

theorem skipPast_of_breakOn {terminator text before after : List Char}
    (h : breakOn terminator text = some (before, after)) (flaw : Flaw) :
    ∃ hle, skipPast terminator flaw text = .ok (before, ⟨after, hle⟩) := by
  refine ⟨length_breakOn_le h, ?_⟩
  unfold skipPast
  split
  next hnone =>
    rw [h] at hnone
    cases hnone
  next found rest hsome =>
    rw [h] at hsome
    cases hsome
    rfl

theorem skipPast_of_none {terminator text : List Char} (h : breakOn terminator text = none)
    (flaw : Flaw) : skipPast terminator flaw text = .error flaw := by
  unfold skipPast
  split
  next => rfl
  next found rest hsome =>
    rw [h] at hsome
    cases hsome

theorem skipPast_append (stem : List Char) (last : Char) (hlast : last ∉ stem)
    {before : List Char} (hbefore : ¬ (stem ++ [last]) <:+: before) (flaw : Flaw)
    (rest : List Char) :
    ∃ hle, skipPast (stem ++ [last]) flaw (before ++ (stem ++ [last]) ++ rest) =
      .ok (before, ⟨rest, hle⟩) := by
  have hbreak := breakOn_append hlast hbefore rest
  rw [← List.append_assoc] at hbreak
  exact skipPast_of_breakOn hbreak flaw

theorem eq_append_of_skipPast {terminator : List Char} (hne : terminator ≠ []) {flaw : Flaw}
    {text before : List Char} {rest : Rest text}
    (h : skipPast terminator flaw text = .ok (before, rest)) :
    ¬ terminator <:+: before ∧ text = before ++ terminator ++ rest.1 := by
  unfold skipPast at h
  split at h
  next => cases h
  next found after hbreak =>
    cases h
    exact ⟨not_isInfix_of_breakOn hne hbreak, eq_append_of_breakOn hbreak⟩

/-! ### Declarations -/

/-- A character either ends a declaration, being a closing bracket, or changes the depth and
the quote in which the rest is read. -/
theorem afterDeclaration_cons (depth : Nat) (quote : Option Char) (c : Char) :
    (c = '>' ∧ ∀ rest, afterDeclaration depth quote (c :: rest) = some rest) ∨
      ∃ depth' quote', ∀ rest,
        afterDeclaration depth quote (c :: rest) = afterDeclaration depth' quote' rest := by
  cases quote with
  | some q => exact .inr ⟨_, _, fun rest => rfl⟩
  | none =>
      simp only [afterDeclaration]
      by_cases hquote : c = '"' ∨ c = '\''
      · exact .inr ⟨_, _, fun rest => if_pos hquote⟩
      by_cases hopen : c = '['
      · exact .inr ⟨_, _, fun rest => by rw [if_neg hquote, if_pos hopen]⟩
      by_cases hclose : c = ']'
      · exact .inr ⟨_, _, fun rest => by rw [if_neg hquote, if_neg hopen, if_pos hclose]⟩
      by_cases hend : c = '>' ∧ depth = 0
      · exact .inl ⟨hend.1, fun rest => by
          rw [if_neg hquote, if_neg hopen, if_neg hclose, if_pos hend]⟩
      · exact .inr ⟨_, _, fun rest => by
          rw [if_neg hquote, if_neg hopen, if_neg hclose, if_neg hend]⟩

/-- The end of a declaration does not depend on what follows it. -/
theorem afterDeclaration_append {depth : Nat} {quote : Option Char} {d rest : List Char}
    (h : afterDeclaration depth quote d = some rest) (more : List Char) :
    afterDeclaration depth quote (d ++ more) = some (rest ++ more) := by
  induction d generalizing depth quote with
  | nil => cases h
  | cons c d ih =>
      obtain ⟨-, hend⟩ | ⟨depth', quote', hstep⟩ := afterDeclaration_cons depth quote c
      · obtain rfl := Option.some.inj ((hend d).symm.trans h)
        exact hend _
      · rw [hstep] at h
        rw [List.cons_append, hstep, ih h]

theorem exists_declaration {depth : Nat} {quote : Option Char} {text rest : List Char}
    (h : afterDeclaration depth quote text = some rest) :
    ∃ d, afterDeclaration depth quote d = some [] ∧ text = d ++ rest := by
  induction text generalizing depth quote with
  | nil => cases h
  | cons c text ih =>
      obtain ⟨-, hend⟩ | ⟨depth', quote', hstep⟩ := afterDeclaration_cons depth quote c
      · obtain rfl := Option.some.inj ((hend text).symm.trans h)
        exact ⟨[c], hend [], rfl⟩
      · obtain ⟨d, hd, rfl⟩ := ih ((hstep text).symm.trans h)
        exact ⟨c :: d, (hstep d).trans hd, rfl⟩

/-- A declaration ends with a closing bracket. -/
theorem exists_bracket_of_afterDeclaration {depth : Nat} {quote : Option Char}
    {text rest : List Char} (h : afterDeclaration depth quote text = some rest) :
    ∃ w, text = w ++ '>' :: rest := by
  induction text generalizing depth quote with
  | nil => cases h
  | cons c text ih =>
      obtain ⟨rfl, hend⟩ | ⟨depth', quote', hstep⟩ := afterDeclaration_cons depth quote c
      · obtain rfl := Option.some.inj ((hend text).symm.trans h)
        exact ⟨[], rfl⟩
      · obtain ⟨w, rfl⟩ := ih ((hstep text).symm.trans h)
        exact ⟨c :: w, rfl⟩

/-- A pattern in which no declaration ends begins a declaration whatever follows that one, or
never. -/
theorem isPrefix_of_declaration {pattern d : List Char}
    (hpattern : ∀ front ∈ pattern.inits, afterDeclaration 0 none front = none)
    (hend : afterDeclaration 0 none d = some []) (rest : List Char)
    (h : pattern <+: d ++ rest) : pattern <+: d := by
  rcases List.prefix_or_prefix_of_prefix h (List.prefix_append d rest) with hlong | hshort
  · exact hlong
  · cases (hpattern d ((List.mem_inits d pattern).2 hshort)).symm.trans hend

theorem declaration_of_afterDeclaration {text rest : List Char}
    (h : afterDeclaration 0 none text = some rest) :
    ∃ hlt, declaration text = .ok (none, ⟨rest, hlt⟩) := by
  refine ⟨length_afterDeclaration_lt h, ?_⟩
  unfold declaration
  split
  next hnone => cases hnone.symm.trans h
  next after hsome =>
    cases hsome.symm.trans h
    rfl

theorem declaration_of_none {text : List Char} (h : afterDeclaration 0 none text = none) :
    declaration text = .error .unterminatedDeclaration := by
  unfold declaration
  split
  next => rfl
  next after hsome => cases h.symm.trans hsome

/-! ### Closing tags -/

/-- A closing bracket ends a closing tag, which is one if it has a name. -/
theorem closingTag_of_breakOn {text before after : List Char}
    (h : breakOn ['>'] text = some (before, after)) :
    ∃ hlt, closingTag text =
      if isName (trim before) then
        .ok (some (.closing (String.ofList (trim before))), ⟨after, hlt⟩)
      else .error (.invalidClosingTag (String.ofList (trim before))) := by
  refine ⟨length_lt_of_breakOn h, ?_⟩
  unfold closingTag
  split
  next hnone =>
    rw [h] at hnone
    cases hnone
  next found rest hsome =>
    rw [h] at hsome
    cases hsome
    rfl

theorem closingTag_of_none {text : List Char} (h : breakOn ['>'] text = none) :
    closingTag text = .error .unterminatedClosingTag := by
  unfold closingTag
  split
  next => rfl
  next found rest hsome =>
    rw [h] at hsome
    cases hsome

theorem closingTag_eq {w : List Char} (hw : '>' ∉ w) (hname : isName (trim w))
    (rest : List Char) :
    ∃ hlt, closingTag (w ++ '>' :: rest) =
      .ok (some (.closing (String.ofList (trim w))), ⟨rest, hlt⟩) := by
  obtain ⟨hlt, hclosing⟩ := closingTag_of_breakOn (breakOn_singleton_append hw rest)
  rw [if_pos hname] at hclosing
  exact ⟨hlt, hclosing⟩

theorem exists_of_closingTag {text : List Char} {token : Option Token} {rest : Remainder text}
    (h : closingTag text = .ok (token, rest)) :
    ∃ w, '>' ∉ w ∧ isName (trim w) ∧ text = w ++ '>' :: rest.1 ∧
      token = some (.closing (String.ofList (trim w))) := by
  unfold closingTag at h
  split at h
  next => cases h
  next w after hbreak =>
    dsimp only at h
    split at h
    next hname =>
      cases h
      have hw : '>' ∉ w := fun hmem =>
        not_isInfix_of_breakOn (List.cons_ne_nil '>' []) hbreak
          ((List.singleton_infix_iff _ _).2 hmem)
      exact ⟨w, hw, hname, by simpa using eq_append_of_breakOn hbreak, rfl⟩
    next => cases h

/-! ### Behind an opening bracket -/

theorem marked_eq_declaration {d : List Char} (hcomment : ¬ "--".toList <+: d)
    (hliteral : ¬ "[CDATA[".toList <+: d) :
    marked ('!' :: d) =
      (declaration d).map fun r => (r.1, r.2.within (length_le_cons '!' d)) := by
  rw [marked]
  · rintro after rfl
    exact hcomment ⟨after, rfl⟩
  · rintro after rfl
    exact hliteral ⟨after, rfl⟩

theorem marked_eq_openingTag {text : List Char} (hbang : text.head? ≠ some '!')
    (hquestion : text.head? ≠ some '?') (hslash : text.head? ≠ some '/') :
    marked text = openingTag text := by
  unfold marked
  split
  next => exact absurd rfl hbang
  next => exact absurd rfl hbang
  next => exact absurd rfl hquestion
  next => exact absurd rfl hbang
  next => exact absurd rfl hslash
  next => rfl

theorem TagText.head?_append {name : List Char} {pairs : List (String × String)} {e : TagEnd}
    {w : List Char} (h : TagText name pairs e w) (rest : List Char) :
    (w ++ rest).head? = name.head? := by
  obtain ⟨hname, -, -⟩ := h
  rw [List.append_assoc]
  exact List.head?_append_of_ne_nil _ ((isName_iff name).1 hname).1

theorem TagText.head?_ne_slash {name : List Char} {pairs : List (String × String)} {e : TagEnd}
    {w : List Char} (h : TagText name pairs e w) : name.head? ≠ some '/' := by
  obtain ⟨hname, -, -⟩ := h
  intro hfirst
  obtain ⟨-, -, -, hslash, -⟩ := not_isSpace_of_isName hname (List.mem_of_head? hfirst)
  exact hslash rfl

/-- Markup is read as what it is, whatever follows it. -/
theorem Markup.marked_eq {token : Option Token} {m : List Char} (h : Markup token m)
    (rest : List Char) : ∃ hlt, marked (m ++ rest) = .ok (token, ⟨rest, hlt⟩) := by
  cases h with
  | comment hc =>
      obtain ⟨hle, hskip⟩ := skipPast_append ['-', '-'] '>' (by decide) hc .unterminatedComment rest
      exact ⟨_, congrArg (Except.map _) hskip⟩
  | literal hs =>
      obtain ⟨hle, hskip⟩ := skipPast_append [']', ']'] '>' (by decide) hs .unterminatedCdata rest
      exact ⟨_, congrArg (Except.map _) hskip⟩
  | instruction hp =>
      obtain ⟨hle, hskip⟩ := skipPast_append ['?'] '>' (by decide) hp .unterminatedInstruction rest
      exact ⟨_, congrArg (Except.map _) hskip⟩
  | @declaration d hcomment hliteral hend =>
      obtain ⟨hlt, hdeclaration⟩ :=
        declaration_of_afterDeclaration (afterDeclaration_append hend rest)
      have hmarked := marked_eq_declaration
        (mt (isPrefix_of_declaration (by decide) hend rest) hcomment)
        (mt (isPrefix_of_declaration (by decide) hend rest) hliteral)
      rw [hdeclaration] at hmarked
      exact ⟨_, hmarked⟩
  | closing hw hname =>
      obtain ⟨hlt, hclosing⟩ := closingTag_eq hw hname rest
      rw [List.cons_append, List.append_assoc]
      exact ⟨_, congrArg (Except.map _) hclosing⟩
  | tag hw hmark =>
      have hslash := hw.head?_ne_slash
      rw [← hw.head?_append rest] at hmark hslash
      obtain ⟨hlt, htag⟩ := hw.openingTag_eq rest
      exact ⟨hlt, (marked_eq_openingTag hmark.1 hmark.2 hslash).trans htag⟩

/-- What was read behind an opening bracket is markup. -/
theorem exists_markup {text : List Char} {token : Option Token} {rest : Remainder text}
    (h : marked text = .ok (token, rest)) : ∃ m, Markup token m ∧ text = m ++ rest.1 := by
  unfold marked at h
  split at h
  next after =>
    obtain ⟨⟨c, behind⟩, hskip, heq⟩ := exists_of_map_eq_ok h
    cases heq
    obtain ⟨hc, htext⟩ := eq_append_of_skipPast (by decide) hskip
    exact ⟨_, .comment hc, congrArg ("!--".toList ++ ·) htext⟩
  next after =>
    obtain ⟨⟨s, behind⟩, hskip, heq⟩ := exists_of_map_eq_ok h
    cases heq
    obtain ⟨hs, htext⟩ := eq_append_of_skipPast (by decide) hskip
    exact ⟨_, .literal hs, congrArg ("![CDATA[".toList ++ ·) htext⟩
  next after =>
    obtain ⟨⟨p, behind⟩, hskip, heq⟩ := exists_of_map_eq_ok h
    cases heq
    obtain ⟨hp, htext⟩ := eq_append_of_skipPast (by decide) hskip
    exact ⟨_, .instruction hp, congrArg ('?' :: ·) htext⟩
  next after hcomment hliteral =>
    obtain ⟨⟨found, behind⟩, hdeclaration, heq⟩ := exists_of_map_eq_ok h
    cases heq
    unfold declaration at hdeclaration
    split at hdeclaration
    next => cases hdeclaration
    next final hafter =>
      cases hdeclaration
      obtain ⟨d, hend, rfl⟩ := exists_declaration hafter
      refine ⟨_, .declaration ?_ ?_ hend, rfl⟩
      · rintro ⟨more, rfl⟩
        exact hcomment _ rfl
      · rintro ⟨more, rfl⟩
        exact hliteral _ rfl
  next after =>
    obtain ⟨⟨found, behind⟩, hclosing, heq⟩ := exists_of_map_eq_ok h
    cases heq
    obtain ⟨w, hw, hname, htext, rfl⟩ := exists_of_closingTag hclosing
    have hsame : '/' :: after = '/' :: (w ++ ['>']) ++ behind.1 := by simp [htext]
    exact ⟨_, .closing hw hname, hsame⟩
  next hquestion hbang _ =>
    obtain ⟨name, pairs, e, w, hw, htext, rfl⟩ := exists_tagText h
    refine ⟨w, .tag hw ?_, htext⟩
    rw [← hw.head?_append rest.1, ← htext]
    constructor
    · intro hfirst
      obtain ⟨after, heq⟩ := List.head?_eq_some_iff.1 hfirst
      exact hbang after heq
    · intro hfirst
      obtain ⟨after, heq⟩ := List.head?_eq_some_iff.1 hfirst
      exact hquestion after heq

/-- The token of a closing tag has the name of the tag, and no other markup gives it. -/
theorem Markup.isName_closing {name : String} {m : List Char}
    (h : Markup (some (.closing name)) m) : isName name.toList := by
  generalize htoken : some (Token.closing name) = token at h
  cases h with
  | closing _ hname =>
      cases htoken
      rwa [String.toList_ofList]
  | @tag _ _ e => cases e <;> cases htoken
  | _ => cases htoken

theorem TagEnd.token_ne_text (name : String) (attributes : Entries String) (e : TagEnd)
    (s : String) : e.token name attributes ≠ .text s := by
  cases e <;> exact nofun

/-- The token of a tag has the name of the tag and its attributes, and no other markup gives
it. -/
theorem Markup.exists_pairs {e : TagEnd} {name : String} {attributes : Entries String}
    {m : List Char} (h : Markup (some (e.token name attributes)) m) :
    ∃ pairs, TagText name.toList pairs e m ∧ attributes = Entries.ofPairs pairs := by
  generalize htoken : some (e.token name attributes) = token at h
  cases h with
  | @tag _ pairs e' _ hw _ =>
      cases e <;> cases e' <;> cases htoken <;>
        exact ⟨pairs, by rwa [String.toList_ofList], rfl⟩
  | _ => cases e <;> cases htoken

/-! ### Lexemes -/

theorem tokenize_nil : tokenize [] = .ok [] := by
  rw [tokenize, readToEnd_nil]
  rfl

theorem tokenize_of_lexeme {c : Char} {rest : List Char} {token : Option Token}
    {after : Remainder (c :: rest)} (h : lexeme c rest = .ok (token, after)) :
    tokenize (c :: rest) = (tokenize after.1).map (token.toList ++ ·) := by
  rw [tokenize, readToEnd_of_ok h, tokenize]
  cases readToEnd lexeme after.1 with
  | error flaw => rfl
  | ok found => cases token <;> rfl

theorem tokenize_of_flaw {c : Char} {rest : List Char} {flaw : Flaw}
    (h : lexeme c rest = .error flaw) : tokenize (c :: rest) = .error flaw := by
  rw [tokenize, readToEnd, h]
  rfl

theorem lexeme_of_marked {text rest : List Char} {token : Option Token}
    {hlt : rest.length < text.length} (h : marked text = .ok (token, ⟨rest, hlt⟩)) :
    lexeme '<' text =
      .ok (token, ⟨rest, length_lt_of_lt_of_le hlt (length_le_cons '<' text)⟩) := by
  rw [lexeme, if_pos rfl, h]
  rfl

theorem tokenize_of_marked {text rest : List Char} {token : Option Token}
    {hlt : rest.length < text.length} (h : marked text = .ok (token, ⟨rest, hlt⟩)) :
    tokenize ('<' :: text) = (tokenize rest).map (token.toList ++ ·) :=
  tokenize_of_lexeme (lexeme_of_marked h)

theorem Markup.tokenize_append {token : Option Token} {m : List Char} (h : Markup token m)
    (rest : List Char) :
    tokenize ('<' :: (m ++ rest)) = (tokenize rest).map (token.toList ++ ·) := by
  obtain ⟨hlt, hmarked⟩ := h.marked_eq rest
  exact tokenize_of_marked hmarked

/-- Markup without a token leaves no trace. -/
theorem Markup.tokenize_append_of_none {m : List Char} (h : Markup none m) (rest : List Char) :
    tokenize ('<' :: (m ++ rest)) = tokenize rest := by
  rw [h.tokenize_append]
  cases tokenize rest <;> rfl

/-- A run of text is read up to the next bracket. -/
theorem lexeme_run {c : Char} {s t : List Char} (hs : ∀ d ∈ c :: s, isPlain d)
    (hdecode : decode (c :: s) = .ok t) {rest : List Char} (hrest : StartsWithTag rest) :
    ∃ hlt, lexeme c (s ++ rest) = .ok (some (.text (String.ofList t)), ⟨rest, hlt⟩) := by
  have hstop : ∀ d ∈ rest.head?, isPlain d = false := by
    intro d hd
    rw [hrest d hd]
    rfl
  obtain ⟨hc, hs⟩ := List.forall_mem_cons.1 hs
  have hc : c ≠ '<' := by simpa [isPlain] using hc
  obtain ⟨htake, hdrop⟩ := span_append hs rest hstop
  have hlt : rest.length < (c :: (s ++ rest)).length := by
    rw [List.length_cons, List.length_append]
    omega
  refine ⟨hlt, ?_⟩
  rw [lexeme, if_neg hc, htake, hdecode]
  simp only [Except.map, hdrop]

theorem tokenize_run {s t : List Char} (hne : s ≠ []) (hs : ∀ c ∈ s, isPlain c)
    (hdecode : decode s = .ok t) {rest : List Char} (hrest : StartsWithTag rest) :
    tokenize (s ++ rest) = (tokenize rest).map (.text (String.ofList t) :: ·) := by
  obtain ⟨c, more, rfl⟩ := List.exists_cons_of_ne_nil hne
  obtain ⟨hlt, hlexeme⟩ := lexeme_run hs hdecode hrest
  exact tokenize_of_lexeme hlexeme

/-- A lexeme is markup, or a run of text up to the next bracket. -/
theorem exists_of_lexeme {c : Char} {rest : List Char} {token : Option Token}
    {after : Remainder (c :: rest)} (h : lexeme c rest = .ok (token, after)) :
    (∃ m, Markup token m ∧ c :: rest = '<' :: (m ++ after.1)) ∨
      ∃ s t, s ≠ [] ∧ (∀ c ∈ s, isPlain c) ∧ decode s = .ok t ∧ StartsWithTag after.1 ∧
        token = some (.text (String.ofList t)) ∧ c :: rest = s ++ after.1 := by
  rw [lexeme] at h
  split at h
  next hc =>
    obtain ⟨⟨token', behind⟩, hmarked, heq⟩ := exists_of_map_eq_ok h
    cases heq
    obtain ⟨m, hm, hrest⟩ := exists_markup hmarked
    exact .inl ⟨m, hm, by rw [hc]; exact congrArg _ hrest⟩
  next hc =>
    obtain ⟨t, hdecode, heq⟩ := exists_of_map_eq_ok h
    cases heq
    refine .inr ⟨_, t, List.cons_ne_nil c _, ?_, hdecode, ?_, rfl, ?_⟩
    · have hplain : isPlain c := by simpa [isPlain] using hc
      exact List.forall_mem_cons.2 ⟨hplain, fun d hd => List.mem_takeWhile_imp hd⟩
    · intro d hd
      have hnot := List.head?_dropWhile_not isPlain rest
      rw [hd] at hnot
      simpa [isPlain] using hnot
    · rw [List.cons_append, List.takeWhile_append_dropWhile]

/-! ### Texts -/

theorem Lexed.tokenize_eq {tokens : List Token} {text : List Char} (h : Lexed tokens text) :
    tokenize text = .ok tokens := by
  induction h with
  | nil => exact tokenize_nil
  | markup hm _ ih =>
      rw [hm.tokenize_append, ih]
      rfl
  | run hne hs hdecode hw _ ih =>
      rw [tokenize_run hne hs hdecode hw, ih]
      rfl

theorem lexed_of_tokenize {tokens : List Token} {text : List Char}
    (h : tokenize text = .ok tokens) : Lexed tokens text := by
  match text with
  | [] =>
      rw [tokenize_nil] at h
      cases h
      exact .nil
  | c :: rest =>
      obtain ⟨found, hfound, rfl⟩ := exists_of_map_eq_ok h
      obtain ⟨token, after, others, hfirst, hothers, rfl⟩ := exists_of_readToEnd_cons hfound
      have htokens : tokenize after.1 = .ok others.reduceOption := by
        rw [tokenize, hothers]
        rfl
      have hrest := lexed_of_tokenize htokens
      rcases exists_of_lexeme hfirst with
        ⟨m, hm, htext⟩ | ⟨s, t, hne, hs, hdecode, hstop, rfl, htext⟩
      · rw [htext]
        cases token with
        | none => exact .markup hm hrest
        | some token => exact .markup hm hrest
      · rw [htext]
        exact .run hne hs hdecode hstop hrest
termination_by text.length
decreasing_by exact after.2

/-- A token that is not text stems from markup, the tokens before it from what stands before
that, and the tokens behind it from what stands behind. -/
theorem Lexed.exists_split {tokens first last : List Token} {text : List Char}
    (h : Lexed tokens text) {token : Token} (hsplit : tokens = first ++ token :: last)
    (htoken : ∀ s, token ≠ .text s) :
    ∃ before m after, text = before ++ '<' :: (m ++ after) ∧ Lexed first before ∧
      Markup (some token) m ∧ Lexed last after := by
  induction h generalizing first with
  | nil => simp at hsplit
  | @markup found tokens m w hm htokens ih =>
      cases found with
      | none =>
          obtain ⟨before, m', after, rfl, hbefore, hm', hafter⟩ := ih hsplit
          exact ⟨'<' :: (m ++ before), m', after, by simp, .markup hm hbefore, hm', hafter⟩
      | some t =>
          cases first with
          | nil =>
              obtain ⟨rfl, rfl⟩ := List.cons.inj hsplit
              exact ⟨[], m, w, rfl, .nil, hm, htokens⟩
          | cons t' first =>
              obtain ⟨rfl, hrest⟩ := List.cons.inj hsplit
              obtain ⟨before, m', after, rfl, hbefore, hm', hafter⟩ := ih hrest
              exact ⟨'<' :: (m ++ before), m', after, by simp, .markup hm hbefore, hm', hafter⟩
  | @run s t tokens w hne hs hdecode hw _ ih =>
      cases first with
      | nil => exact absurd (List.cons.inj hsplit).1.symm (htoken _)
      | cons t' first =>
          obtain ⟨rfl, hrest⟩ := List.cons.inj hsplit
          obtain ⟨before, m', after, rfl, hbefore, hm', hafter⟩ := ih hrest
          have hstop : StartsWithTag before := by
            intro c hc
            exact hw c (List.mem_head?_append_of_mem_head? hc)
          exact ⟨s ++ before, m', after, by simp, .run hne hs hdecode hstop hbefore, hm', hafter⟩

theorem Lexed.exists_markup {tokens : List Token} {text : List Char} (h : Lexed tokens text)
    {token : Token} (hmem : token ∈ tokens) (htoken : ∀ s, token ≠ .text s) :
    ∃ m, Markup (some token) m := by
  obtain ⟨first, last, hsplit⟩ := List.append_of_mem hmem
  obtain ⟨-, m, -, -, -, hm, -⟩ := h.exists_split hsplit htoken
  exact ⟨m, hm⟩

/-- Tokens are read from a text exactly when it is a row of lexemes that give them. -/
theorem tokenize_eq_ok_iff (text : List Char) (tokens : List Token) :
    tokenize text = .ok tokens ↔ Lexed tokens text :=
  ⟨lexed_of_tokenize, Lexed.tokenize_eq⟩

end DocWeave.Xml

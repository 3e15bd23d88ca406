/-
Cutting a text into lexemes by byte positions.  A round of the loop looks at the text from its
position on and moves the position by as many bytes as it takes for a lexeme: the bytes in
front of a terminator that it searched for and of what encloses them, or those up to the
closing bracket at which a tag or a declaration ends.
-/
import DocWeave.Proofs.Text.Slice
import DocWeave.Proofs.Xml.Lexeme

namespace DocWeave.Xml.Scan

/-- Why the loop stops: the text has a flaw, or it was to be cut where it cannot be. -/
inductive Stop where
  | flaw (f : Flaw)
  | outOfRange
deriving DecidableEq

def sliceFrom (text : List Char) (pos : Nat) : Except Stop (List Char) :=
  match splitAtByte? pos text with
  | some (_, rest) => .ok rest
  | none => .error .outOfRange

def sliceTo (text : List Char) (pos : Nat) : Except Stop (List Char) :=
  match splitAtByte? pos text with
  | some (front, _) => .ok front
  | none => .error .outOfRange

def slice (text : List Char) (start stop : Nat) : Except Stop (List Char) := do
  sliceTo (← sliceFrom text start) (stop - start)

/-! ### One round -/

/-- A token, if the lexeme gives one, and the position behind the lexeme. -/
abbrev Round := Option Token × Nat

/-- A round at a comment or an instruction, whose terminator is searched for behind the bytes
that open it. -/
def passAside (terminator : List Char) (skip : Nat) (flaw : Flaw) (rest : List Char)
    (pos : Nat) : Except Stop Round := do
  let body ← sliceFrom rest skip
  match findByte? terminator body with
  | none => throw (.flaw flaw)
  | some offset => return (none, pos + (skip + offset + utf8Length terminator))

def passLiteral (body : List Char) (pos : Nat) : Except Stop Round :=
  match findByte? "]]>".toList body with
  | none => throw (.flaw .unterminatedCdata)
  | some offset => do
      let s ← sliceTo body offset
      return (some (.text (String.ofList s)),
        pos + (utf8Length "<![CDATA[".toList + offset + utf8Length "]]>".toList))

/-- A round at a declaration, whose characters are read one after the other. -/
def passDeclaration (body : List Char) (pos : Nat) : Except Stop Round :=
  match afterDeclaration 0 none body with
  | none => throw (.flaw .unterminatedDeclaration)
  | some after => return (none, pos + (lastByte ('<' :: '!' :: body) after + 1))

def passClosing (body : List Char) (pos : Nat) : Except Stop Round :=
  match findByte? ['>'] body with
  | none => throw (.flaw .unterminatedClosingTag)
  | some offset => do
      let name := trim (← sliceTo body offset)
      if isName name then
        return (some (.closing (String.ofList name)), pos + (2 + offset + 1))
      else throw (.flaw (.invalidClosingTag (String.ofList name)))

def passTag (body : List Char) (pos : Nat) : Except Stop Round := do
  let (token, after) ← (openingTag body).mapError .flaw
  return (token, pos + (lastByte ('<' :: body) after.1 + 1))

/-- A round at a run of text, which ends where the next bracket is found. -/
def passText (rest : List Char) (pos : Nat) : Except Stop Round := do
  let offset := (findByte? ['<'] rest).getD (utf8Length rest)
  let run ← (decode (← sliceTo rest offset)).mapError .flaw
  return (some (.text (String.ofList run)), pos + offset)

def pass (rest : List Char) (pos : Nat) : Except Stop Round :=
  match rest with
  | '<' :: '!' :: '-' :: '-' :: _ =>
      passAside "-->".toList 4 .unterminatedComment rest pos
  | '<' :: '!' :: '[' :: 'C' :: 'D' :: 'A' :: 'T' :: 'A' :: '[' :: body => passLiteral body pos
  | '<' :: '?' :: _ => passAside "?>".toList 2 .unterminatedInstruction rest pos
  | '<' :: '!' :: body => passDeclaration body pos
  | '<' :: '/' :: body => passClosing body pos
  | '<' :: body => passTag body pos
  | _ => passText rest pos

def round (input : List Char) (pos : Nat) : Except Stop Round := do
  pass (← sliceFrom input pos) pos

/-! ### Slices -/

theorem sliceFrom_append (front rest : List Char) :
    sliceFrom (front ++ rest) (utf8Length front) = .ok rest := by
  rw [sliceFrom, splitAtByte?_append]

theorem sliceTo_append (front rest : List Char) :
    sliceTo (front ++ rest) (utf8Length front) = .ok front := by
  rw [sliceTo, splitAtByte?_append]

theorem slice_append (front w rest : List Char) :
    slice (front ++ (w ++ rest)) (utf8Length front) (utf8Length front + utf8Length w) =
      .ok w := by
  rw [slice, sliceFrom_append, Nat.add_sub_cancel_left]
  exact sliceTo_append w rest

theorem exists_of_sliceFrom {text rest : List Char} {pos : Nat}
    (h : sliceFrom text pos = .ok rest) :
    ∃ front, text = front ++ rest ∧ pos = utf8Length front := by
  rw [sliceFrom] at h
  split at h
  next front behind hsplit =>
    cases h
    exact ⟨front, eq_append_of_splitAtByte? hsplit⟩
  next => cases h

/-! ### Rounds and lexemes -/

/-- The outcome of a round, by what is read of the text at its position: a flaw, or a lexeme
with its token and what is left behind it. -/
def outcome (pos : Nat) (text : List Char) (read : Except Flaw (Option Token × List Char)) :
    Except Stop Round :=
  match read with
  | .error flaw => .error (.flaw flaw)
  | .ok (token, rest) => .ok (token, pos + (utf8Length text - utf8Length rest))

theorem outcome_append (pos : Nat) (token : Option Token) (w rest : List Char) :
    outcome pos (w ++ rest) (.ok (token, rest)) = .ok (token, pos + utf8Length w) := by
  rw [outcome, utf8Length_append, Nat.add_sub_cancel]

variable (pos : Nat)

theorem passAside_eq (opening terminator : List Char) (flaw : Flaw) (body : List Char) :
    passAside terminator (utf8Length opening) flaw (opening ++ body) pos =
      outcome pos (opening ++ body)
        ((skipPast terminator flaw body).map fun r => (none, r.2.1)) := by
  rw [passAside, sliceFrom_append]
  cases hbreak : breakOn terminator body with
  | none =>
      rw [skipPast_of_none hbreak]
      simp only [bind, Except.bind, findByte?, hbreak, Option.map_none]
      rfl
  | some found =>
      obtain ⟨before, after⟩ := found
      obtain ⟨hle, hskip⟩ := skipPast_of_breakOn hbreak flaw
      have hbody : opening ++ body = opening ++ before ++ terminator ++ after := by
        rw [eq_append_of_breakOn hbreak, List.append_assoc, List.append_assoc,
          List.append_assoc]
      have houtcome := outcome_append pos none (opening ++ before ++ terminator) after
      rw [utf8Length_append, utf8Length_append] at houtcome
      rw [hskip, hbody]
      simp only [bind, Except.bind, findByte?, hbreak, Option.map_some, Except.map]
      exact houtcome.symm

theorem passLiteral_eq (body : List Char) :
    passLiteral body pos = outcome pos ("<![CDATA[".toList ++ body)
      ((skipPast "]]>".toList .unterminatedCdata body).map fun r =>
        (some (.text (String.ofList r.1)), r.2.1)) := by
  rw [passLiteral]
  cases hbreak : breakOn "]]>".toList body with
  | none =>
      rw [skipPast_of_none hbreak]
      simp only [findByte?, hbreak, Option.map_none]
      rfl
  | some found =>
      obtain ⟨s, after⟩ := found
      obtain ⟨hle, hskip⟩ := skipPast_of_breakOn hbreak .unterminatedCdata
      have hbody := eq_append_of_breakOn hbreak
      rw [List.append_assoc] at hbody
      have hwhole : "<![CDATA[".toList ++ body =
          "<![CDATA[".toList ++ s ++ "]]>".toList ++ after := by
        rw [hbody, List.append_assoc, List.append_assoc]
      have houtcome := outcome_append pos (some (.text (String.ofList s)))
        ("<![CDATA[".toList ++ s ++ "]]>".toList) after
      rw [utf8Length_append, utf8Length_append] at houtcome
      rw [hskip, hwhole]
      simp only [findByte?, hbreak, Option.map_some, Except.map]
      rw [hbody, sliceTo_append]
      exact houtcome.symm

/-- Behind a closing bracket that was read last. -/
theorem outcome_of_bracket (token : Option Token) (w rest : List Char) :
    outcome pos (w ++ '>' :: rest) (.ok (token, rest)) =
      .ok (token, pos + (lastByte (w ++ '>' :: rest) rest + 1)) := by
  have houtcome := outcome_append pos token (w ++ ['>']) rest
  rw [utf8Length_append, ← List.append_cons] at houtcome
  rw [lastByte_append, houtcome]
  rfl

theorem passDeclaration_eq (body : List Char) :
    passDeclaration body pos = outcome pos ('<' :: '!' :: body)
      ((declaration body).map fun r => (r.1, r.2.1)) := by
  rw [passDeclaration]
  cases hafter : afterDeclaration 0 none body with
  | none =>
      rw [declaration_of_none hafter]
      rfl
  | some after =>
      obtain ⟨w, rfl⟩ := exists_bracket_of_afterDeclaration hafter
      obtain ⟨hlt, hdeclaration⟩ := declaration_of_afterDeclaration hafter
      rw [hdeclaration]
      exact (outcome_of_bracket pos none ('<' :: '!' :: w) after).symm

theorem passClosing_eq (body : List Char) :
    passClosing body pos = outcome pos ('<' :: '/' :: body)
      ((closingTag body).map fun r => (r.1, r.2.1)) := by
  rw [passClosing]
  cases hbreak : breakOn ['>'] body with
  | none =>
      rw [closingTag_of_none hbreak]
      simp only [findByte?, hbreak, Option.map_none]
      rfl
  | some found =>
      obtain ⟨before, after⟩ := found
      obtain ⟨hlt, hclosing⟩ := closingTag_of_breakOn hbreak
      have hbody := eq_append_of_breakOn hbreak
      rw [List.append_assoc] at hbody
      have hslice : sliceTo body (utf8Length before) = .ok before := by
        rw [hbody, sliceTo_append]
      rw [hclosing]
      simp only [findByte?, hbreak, Option.map_some, bind, Except.bind, hslice]
      split
      next hname =>
        have houtcome := outcome_append pos (some (.closing (String.ofList (trim before))))
          (['<', '/'] ++ before ++ ['>']) after
        rw [utf8Length_append, utf8Length_append, List.append_assoc, List.append_assoc,
          ← hbody] at houtcome
        exact houtcome.symm
      next hname => rfl

theorem passTag_eq (body : List Char) :
    passTag body pos = outcome pos ('<' :: body)
      ((openingTag body).map fun r => (r.1, r.2.1)) := by
  rw [passTag]
  cases htag : openingTag body with
  | error flaw => rfl
  | ok found =>
      obtain ⟨token, after⟩ := found
      obtain ⟨w, hbody⟩ := exists_bracket_of_openingTag htag
      have houtcome := outcome_of_bracket pos token ('<' :: w) after.1
      rw [List.cons_append, ← hbody] at houtcome
      exact houtcome.symm

/-- The first bracket is where a run of text ends. -/
theorem findByte?_bracket (text : List Char) :
    (findByte? ['<'] text).getD (utf8Length text) = utf8Length (text.takeWhile isPlain) := by
  induction text with
  | nil => rfl
  | cons c text ih =>
      by_cases hc : c = '<'
      · subst hc
        rfl
      · have hstep : findByte? ['<'] (c :: text) =
            (findByte? ['<'] text).map (c.utf8Size + ·) := by
          simp [findByte?, breakOn, dropPattern?, Ne.symm hc, Function.comp_def]
        have hplain : isPlain c = true := by simpa [isPlain] using hc
        rw [hstep, List.takeWhile_cons_of_pos hplain, utf8Length_cons, utf8Length_cons, ← ih]
        cases findByte? ['<'] text <;> rfl

theorem passText_eq (text : List Char) :
    passText text pos = outcome pos text ((decode (text.takeWhile isPlain)).map fun run =>
      (some (.text (String.ofList run)), text.dropWhile isPlain)) := by
  rw [passText]
  simp only [findByte?_bracket]
  have hslice : sliceTo text (utf8Length (text.takeWhile isPlain)) =
      .ok (text.takeWhile isPlain) := by
    have happend := sliceTo_append (text.takeWhile isPlain) (text.dropWhile isPlain)
    rwa [List.takeWhile_append_dropWhile] at happend
  rw [hslice]
  cases hdecode : decode (text.takeWhile isPlain) with
  | error flaw => simp [bind, Except.bind, hdecode, Except.mapError, Except.map, outcome]
  | ok run =>
      have houtcome := outcome_append pos (some (.text (String.ofList run)))
        (text.takeWhile isPlain) (text.dropWhile isPlain)
      rw [List.takeWhile_append_dropWhile] at houtcome
      simp only [bind, Except.bind, hdecode, Except.mapError]
      exact houtcome.symm

/-- Behind an opening bracket a round passes what is read there. -/
theorem pass_bracket_eq (text : List Char) :
    pass ('<' :: text) pos = outcome pos ('<' :: text)
      ((marked text).map fun r => (r.1, r.2.1)) := by
  unfold marked
  split
  next body =>
    refine (passAside_eq pos "<!--".toList _ _ body).trans ?_
    cases skipPast "-->".toList .unterminatedComment body <;> rfl
  next body =>
    refine (passLiteral_eq pos body).trans ?_
    cases skipPast "]]>".toList .unterminatedCdata body <;> rfl
  next body =>
    refine (passAside_eq pos "<?".toList _ _ body).trans ?_
    cases skipPast "?>".toList .unterminatedInstruction body <;> rfl
  next body hcomment hliteral =>
    rw [pass, passDeclaration_eq]
    · cases declaration body <;> rfl
    · exact hcomment
    · exact hliteral
  next body =>
    refine (passClosing_eq pos body).trans ?_
    cases closingTag body <;> rfl
  next hcomment hliteral hquestion hbang hslash =>
    rw [pass, passTag_eq]
    · exact hcomment
    · exact hliteral
    · exact hquestion
    · exact hbang
    · exact hslash

/-- A round at a position passes the lexeme that is read there. -/
theorem round_eq (front : List Char) (c : Char) (rest : List Char) :
    round (front ++ c :: rest) (utf8Length front) =
      outcome (utf8Length front) (c :: rest) ((lexeme c rest).map fun r => (r.1, r.2.1)) := by
  rw [round, sliceFrom_append]
  change pass (c :: rest) (utf8Length front) = _
  rw [lexeme]
  split
  next hc =>
    rw [hc, pass_bracket_eq]
    cases marked rest <;> rfl
  next hc =>
    have hplain : isPlain c = true := by simpa [isPlain] using hc
    rw [pass, passText_eq, List.takeWhile_cons_of_pos hplain, List.dropWhile_cons_of_pos hplain]
    · cases decode (c :: rest.takeWhile isPlain) <;> rfl
    all_goals
      intro body heq
      exact hc (List.cons.inj heq).1

end DocWeave.Xml.Scan

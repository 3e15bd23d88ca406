/-
Texts of documents that nest deeper than the budget.  The first part that nests too deep
stops the reading of every container around it, and what follows is never looked at.
-/
import DocWeave.Proofs.Json.RoundTrip

namespace DocWeave

/-- A document that nests deep has a part that nests one level less. -/
theorem Value.exists_mem_parts_of_lt_nesting {v : Value} {depth : Nat}
    (h : depth + 1 < v.nesting) : ∃ part ∈ v.parts, depth < part.nesting := by
  by_cases hdeep : ∃ part ∈ v.parts, depth < part.nesting
  · exact hdeep
  · have hparts : ∀ part ∈ v.parts, part.nesting ≤ depth := fun part hpart =>
      Nat.le_of_not_lt fun hlt => hdeep ⟨part, hpart, hlt⟩
    have hle : v.nesting ≤ depth + 1 := by
      cases v with
      | null | bool _ | number _ | string _ => exact Nat.zero_le _
      | array items => exact nesting_array_le_iff.2 ⟨depth, rfl, hparts⟩
      | object members =>
          exact nesting_object_le_iff.2 ⟨depth, rfl, List.forall_mem_map.1 hparts⟩
    exact absurd h (Nat.not_lt_of_le hle)

namespace Json

/-! ### Steps of a row -/

section Loops

variable {ρ α : Type} (syntaxError : Reason → ρ) {part : Reader ρ α}

theorem readItems_of_fault {first : Bool} {text : List Char} {rest : Rest text}
    {fault : Fault ρ} (h : nextItem first text = .ok (.more rest))
    (hitem : part rest.1 = .error fault) :
    readItems syntaxError part first text = .error fault := by
  rw [readItems, h]
  simp only [Except.mapError, bind, Except.bind, hitem]

theorem readItems_of_later_fault {first : Bool} {text : List Char} {rest : Rest text} {item : α}
    {after : Remainder rest.1} {fault : Fault ρ} (h : nextItem first text = .ok (.more rest))
    (hitem : part rest.1 = .ok (item, after))
    (hitems : readItems syntaxError part false after.1 = .error fault) :
    readItems syntaxError part first text = .error fault := by
  rw [readItems, h]
  simp only [Except.mapError, bind, Except.bind, hitem, hitems]

variable {first : Bool} {text key : List Char} {rest : Rest text} {behindKey : Remainder rest.1}
  {behindColon : Remainder behindKey.1} {fault : Fault ρ}

theorem readMembers_of_fault (h : nextKey first text = .ok (.more rest))
    (hkey : Quoted.decode rest.1 = .ok (key, behindKey))
    (hcolon : colon behindKey.1 = .ok behindColon)
    (hvalue : part behindColon.1 = .error fault) :
    readMembers syntaxError part first text = .error fault := by
  rw [readMembers, h]
  simp only [Except.mapError, bind, Except.bind, hkey, hcolon, hvalue]

theorem readMembers_of_later_fault {value : α} {after : Remainder behindColon.1}
    (h : nextKey first text = .ok (.more rest))
    (hkey : Quoted.decode rest.1 = .ok (key, behindKey))
    (hcolon : colon behindKey.1 = .ok behindColon)
    (hvalue : part behindColon.1 = .ok (value, after))
    (hmembers : readMembers syntaxError part false after.1 = .error fault) :
    readMembers syntaxError part first text = .error fault := by
  rw [readMembers, h]
  simp only [Except.mapError, bind, Except.bind, hkey, hcolon, hvalue, hmembers]

end Loops

/-! ### Texts that stop the reading wherever they stand -/

variable {ρ α : Type}

/-- A text stops the reading of a part for one reason, behind blanks and whatever follows. -/
structure StopsAt (part : Reader ρ α) (reason : ρ) (text : List Char) : Prop where
  starts : ∃ c more, text = c :: more ∧ isBlank c = false ∧ c ≠ ']'
  stops : ∀ blank rest, AllBlank blank →
    ∃ left, part (blank ++ (text ++ rest)) = stopOn reason left

/-- The parts of a row are read or stop the reading, and one of them does stop it. -/
structure Interrupted (part : Reader ρ α) (reason : ρ) (write : α → List Char)
    (parts : List α) : Prop where
  each : ∀ x ∈ parts, ReadsAs part (write x) x ∨ StopsAt part reason (write x)
  one : ∃ x ∈ parts, StopsAt part reason (write x)

section Rows

variable {part : Reader ρ α} {reason : ρ} {write : α → List Char}

/-- The first part stops the reading, or it is read and one of the others stops it. -/
theorem Interrupted.cons_cases {x : α} {others : List α}
    (h : Interrupted part reason write (x :: others)) :
    StopsAt part reason (write x) ∨
      ReadsAs part (write x) x ∧ Interrupted part reason write others := by
  by_cases hx : StopsAt part reason (write x)
  · exact Or.inl hx
  · obtain ⟨hfirst, hothers⟩ := List.forall_mem_cons.1 h.each
    obtain ⟨y, hy, hstops⟩ := h.one
    rcases List.mem_cons.1 hy with rfl | hy
    · exact absurd hstops hx
    · exact Or.inr ⟨hfirst.resolve_right hx, hothers, y, hy, hstops⟩

theorem Interrupted.ne_nil {parts : List α} (h : Interrupted part reason write parts) :
    parts ≠ [] := by
  rintro rfl
  obtain ⟨x, hx, -⟩ := h.one
  exact List.not_mem_nil hx

theorem starts_of_stops_or_reads {text : List Char} {x : α} {p : Prop}
    (h : StopsAt part reason text ∨ ReadsAs part text x ∧ p) :
    ∃ c more, text = c :: more ∧ isBlank c = false ∧ c ≠ ']' := by
  rcases h with hstops | ⟨hreads, -⟩
  · exact hstops.starts
  · exact hreads.starts

variable (syntaxError : Reason → ρ) {pad blank gap : List Char} (hpad : AllBlank pad)
  (hgap : AllBlank gap) (hblank : AllBlank blank)

/-! ### Lists -/

/-- A list is not read if its next item stops the reading, or one behind it does. -/
theorem exists_readItems_eq_stopOn {first : Bool} {whole text behind : List Char} {x : α}
    (hnext : ∃ hle, nextItem first whole = .ok (.more ⟨text ++ behind, hle⟩))
    (hbehind : Follows behind)
    (h : StopsAt part reason text ∨ ReadsAs part text x ∧
      ∃ left, readItems syntaxError part false behind = stopOn reason left) :
    ∃ left, readItems syntaxError part first whole = stopOn reason left := by
  obtain ⟨hle, hnext⟩ := hnext
  rcases h with hstops | ⟨hreads, left, hlater⟩
  · obtain ⟨left, hstop⟩ := hstops.stops [] behind allBlank_nil
    exact ⟨left, readItems_of_fault syntaxError hnext hstop⟩
  · obtain ⟨hlt, hread⟩ := hreads.reads [] behind allBlank_nil hbehind
    exact ⟨left, readItems_of_later_fault syntaxError hnext hread hlater⟩

include hpad hblank in
theorem Interrupted.readItems_behindCommas {items : List α}
    (h : Interrupted part reason write items) (rest : List Char) :
    ∃ left, readItems syntaxError part false
      (behindCommas pad write items ++ (blank ++ ']' :: rest)) = stopOn reason left := by
  induction items with
  | nil => exact absurd rfl h.ne_nil
  | cons x others ih =>
      have hcases := h.cons_cases.imp_right (And.imp_right ih)
      rw [behindCommas_cons, List.cons_append, List.append_assoc, List.append_assoc]
      exact exists_readItems_eq_stopOn syntaxError
        (nextItem_comma_of_starts hpad (starts_of_stops_or_reads hcases) _)
        (follows_behindCommas hblank (Or.inl rfl) write others rest) hcases

include hpad hblank in
/-- The items of a list are not read if one of them stops the reading. -/
theorem Interrupted.readItems_row {items : List α} (h : Interrupted part reason write items)
    (rest : List Char) :
    ∃ left, readItems syntaxError part true
      (row pad write items ++ (blank ++ ']' :: rest)) = stopOn reason left := by
  cases items with
  | nil => exact absurd rfl h.ne_nil
  | cons x others =>
      have hcases := h.cons_cases.imp_right (And.imp_right fun hothers =>
        hothers.readItems_behindCommas syntaxError hpad hblank rest)
      rw [row, List.append_assoc, List.append_assoc]
      exact exists_readItems_eq_stopOn syntaxError
        (nextItem_first_of_starts hpad (starts_of_stops_or_reads hcases) _)
        (follows_behindCommas hblank (Or.inl rfl) write others rest) hcases

/-! ### Objects -/

include hgap in
/-- An object is not read if its next member stops the reading, or one behind it does. -/
theorem exists_readMembers_eq_stopOn {first : Bool} {whole behind : List Char}
    {member : String × α}
    (hnext : ∃ hle, nextKey first whole =
      .ok (.more ⟨member.1.toList.flatMap Quoted.escape ++
        '"' :: ':' :: (gap ++ (write member.2 ++ behind)), hle⟩))
    (hbehind : Follows behind)
    (h : StopsAt part reason (write member.2) ∨ ReadsAs part (write member.2) member.2 ∧
      ∃ left, readMembers syntaxError part false behind = stopOn reason left) :
    ∃ left, readMembers syntaxError part first whole = stopOn reason left := by
  obtain ⟨hle, hnext⟩ := hnext
  obtain ⟨hkey, hdecode⟩ := Quoted.decode_flatMap_escape member.1.toList
    (':' :: (gap ++ (write member.2 ++ behind)))
  obtain ⟨hcolon, hskip⟩ := @colon_eq (':' :: (gap ++ (write member.2 ++ behind))) _ rfl
  rcases h with hstops | ⟨hreads, left, hlater⟩
  · obtain ⟨left, hstop⟩ := hstops.stops gap behind hgap
    exact ⟨left, readMembers_of_fault syntaxError hnext hdecode hskip hstop⟩
  · obtain ⟨hvalue, hread⟩ := hreads.reads gap behind hgap hbehind
    exact ⟨left, readMembers_of_later_fault syntaxError hnext hdecode hskip hread hlater⟩

include hpad hgap hblank in
theorem Interrupted.readMembers_behindCommas {members : List (String × α)}
    (h : Interrupted part reason write (members.map Prod.snd)) (rest : List Char) :
    ∃ left, readMembers syntaxError part false
      (behindCommas pad (memberText gap write) members ++ (blank ++ '\x7d' :: rest)) =
        stopOn reason left := by
  induction members with
  | nil => exact absurd rfl h.ne_nil
  | cons member others ih =>
      have hcases := h.cons_cases.imp_right (And.imp_right ih)
      rw [behindCommas_cons, List.cons_append, List.append_assoc, List.append_assoc,
        memberText_append]
      exact exists_readMembers_eq_stopOn syntaxError hgap
        (nextKey_of_comma rfl (skipBlank_cons hpad rfl _))
        (follows_behindCommas hblank (Or.inr rfl) (memberText gap write) others rest) hcases

include hpad hgap hblank in
/-- The members of an object are not read if one of them stops the reading. -/
theorem Interrupted.readMembers_row {members : List (String × α)}
    (h : Interrupted part reason write (members.map Prod.snd)) (rest : List Char) :
    ∃ left, readMembers syntaxError part true
      (row pad (memberText gap write) members ++ (blank ++ '\x7d' :: rest)) =
        stopOn reason left := by
  cases members with
  | nil => exact absurd rfl h.ne_nil
  | cons member others =>
      have hcases := h.cons_cases.imp_right (And.imp_right fun hothers =>
        hothers.readMembers_behindCommas syntaxError hpad hgap hblank rest)
      rw [row, List.append_assoc, List.append_assoc, memberText_append]
      exact exists_readMembers_eq_stopOn syntaxError hgap
        (nextKey_of_first (skipBlank_cons hpad rfl _))
        (follows_behindCommas hblank (Or.inr rfl) (memberText gap write) others rest) hcases

end Rows

/-! ### Values -/

/-- A text stops the reading if its first character shows where the part starts. -/
theorem StopsAt.of_skipBlank {part : Reader ρ α} {reason : ρ} {c : Char} {more : List Char}
    (hc : isBlank c = false) (hclose : c ≠ ']')
    (hstops : ∀ text rest, skipBlank text = c :: (more ++ rest) →
      ∃ left, part text = stopOn reason left) :
    StopsAt part reason (c :: more) where
  starts := ⟨c, more, rfl, hc, hclose⟩
  stops _ rest hblank := hstops _ rest (skipBlank_cons hblank hc (more ++ rest))

variable {depth : Nat} {write : Value → List Char} {pad gap blank : List Char}

/-- Where no container may be opened, an opening bracket stops the reading. -/
theorem stopsAt_opening {c : Char} (hc : c = '[' ∨ c = '\x7b') (more : List Char) :
    StopsAt (readValue 0) .tooDeep (c :: more) := by
  rcases hc with rfl | rfl
  · apply StopsAt.of_skipBlank (by decide) (by decide)
    intro text rest h
    refine ⟨'[' :: (more ++ rest), ?_⟩
    unfold readValue
    exact match_skipBlank_eq h _ _
  · apply StopsAt.of_skipBlank (by decide) (by decide)
    intro text rest h
    refine ⟨'\x7b' :: (more ++ rest), ?_⟩
    unfold readValue
    exact match_skipBlank_eq h _ _

theorem stopsAt_array (hpad : AllBlank pad) (hblank : AllBlank blank) {items : List Value}
    (h : Interrupted (readValue depth) .tooDeep write items) :
    StopsAt (readValue (depth + 1)) .tooDeep
      ('[' :: (row pad write items ++ (blank ++ [']']))) := by
  apply StopsAt.of_skipBlank (by decide) (by decide)
  intro text rest hskip
  rw [List.append_assoc, List.append_assoc, List.singleton_append] at hskip
  obtain ⟨left, hstop⟩ := h.readItems_row id hpad hblank rest
  refine ⟨left, ?_⟩
  unfold readValue
  refine (match_skipBlank_eq hskip _ _).trans ?_
  rw [if_neg (by decide), if_neg (by decide), if_neg (by decide), if_neg (by decide),
    if_neg (by decide), if_pos rfl]
  dsimp only
  rw [hstop]
  rfl

theorem stopsAt_object (hpad : AllBlank pad) (hgap : AllBlank gap) (hblank : AllBlank blank)
    {members : Entries Value}
    (h : Interrupted (readValue depth) .tooDeep write (members.map Prod.snd)) :
    StopsAt (readValue (depth + 1)) .tooDeep
      ('\x7b' :: (row pad (memberText gap write) members ++ (blank ++ ['\x7d']))) := by
  apply StopsAt.of_skipBlank (by decide) (by decide)
  intro text rest hskip
  rw [List.append_assoc, List.append_assoc, List.singleton_append] at hskip
  obtain ⟨left, hstop⟩ := h.readMembers_row id hpad hgap hblank rest
  refine ⟨left, ?_⟩
  unfold readValue
  refine (match_skipBlank_eq hskip _ _).trans ?_
  rw [if_neg (by decide), if_neg (by decide), if_neg (by decide), if_neg (by decide),
    if_neg (by decide), if_neg (by decide), if_pos rfl]
  dsimp only
  rw [hstop]
  rfl

theorem interrupted_of_deep {parts : List Value}
    (hdeep : ∃ part ∈ parts, depth < part.nesting)
    (hreads : ∀ part ∈ parts, part.nesting ≤ depth →
      ReadsAs (readValue depth) (write part) part)
    (hstops : ∀ part ∈ parts, depth < part.nesting →
      StopsAt (readValue depth) .tooDeep (write part)) :
    Interrupted (readValue depth) .tooDeep write parts where
  each part hpart := (Nat.lt_or_ge depth part.nesting).symm.imp (hreads part hpart)
    (hstops part hpart)
  one := by
    obtain ⟨part, hpart, hlt⟩ := hdeep
    exact ⟨part, hpart, hstops part hpart hlt⟩

/-- However a document is written that nests deeper than the budget, its text stops the
reading at that. -/
theorem Written.stopsAt {v : Value} {text : List Char} (h : Written v text)
    (hkeys : v.DistinctKeys) (hnesting : depth < v.nesting) :
    StopsAt (readValue depth) .tooDeep text := by
  -- every container leaves one level less to what it holds, so the budget varies
  induction h generalizing depth with
  | null | bool _ | integer _ | string _ => exact absurd hnesting (Nat.not_lt_zero depth)
  | array hpad hblank hitems ih =>
      cases depth with
      | zero => exact stopsAt_opening (Or.inl rfl) _
      | succ depth =>
          have hinside := (Value.objectKeys_array_iff _).1 hkeys
          exact stopsAt_array hpad hblank (interrupted_of_deep
            (Value.exists_mem_parts_of_lt_nesting hnesting)
            (fun item hmem => (hitems item hmem).readsAs (hinside item hmem))
            fun item hmem => ih item hmem (hinside item hmem))
  | object hpad hgap hblank hmembers ih =>
      cases depth with
      | zero => exact stopsAt_opening (Or.inr rfl) _
      | succ depth =>
          obtain ⟨-, hinside⟩ := (Value.objectKeys_object_iff _).1 hkeys
          refine stopsAt_object hpad hgap hblank (interrupted_of_deep
            (Value.exists_mem_parts_of_lt_nesting hnesting) ?_ ?_)
          · rw [List.forall_mem_map]
            exact fun member hmem => (hmembers member hmem).readsAs (hinside member hmem)
          · rw [List.forall_mem_map]
            exact fun member hmem => ih member hmem (hinside member hmem)

/-- The text of a document that nests too deep is refused. -/
theorem document_of_written_of_deep {v : Value} {text : List Char} (h : Written v text)
    (hkeys : v.DistinctKeys) (hnesting : nestingLimit < v.nesting) (rest : List Char) :
    ∃ left, document (text ++ rest) = stopOn .tooDeep left := by
  obtain ⟨left, hstop⟩ := (h.stopsAt hkeys hnesting).stops [] rest allBlank_nil
  change readValue nestingLimit (text ++ rest) = _ at hstop
  refine ⟨left, ?_⟩
  rw [document, hstop]
  rfl

end Json

end DocWeave

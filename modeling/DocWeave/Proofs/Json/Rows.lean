/-
Rows of parts in JSON text.  When the text of each part is read as the part wherever it
stands, a row of such texts, with commas between them and blanks around them, is read as
the row of the parts.
-/
import Mathlib
import DocWeave.Proofs.Json.Digits
import DocWeave.Proofs.Json.Quoting

namespace DocWeave.Json

/-! ### Blanks -/

def AllBlank (text : List Char) : Prop :=
  ∀ c ∈ text, isBlank c

instance : DecidablePred AllBlank :=
  fun text => List.decidableBAll (fun c => isBlank c) text

theorem allBlank_nil : AllBlank [] :=
  fun _ hmem => nomatch hmem

theorem skipBlank_append {blank : List Char} (h : AllBlank blank) (text : List Char) :
    skipBlank (blank ++ text) = skipBlank text := by
  rw [skipBlank, List.dropWhile_append_of_pos h, skipBlank]

theorem skipBlank_cons {blank : List Char} (h : AllBlank blank) {c : Char}
    (hc : isBlank c = false) (rest : List Char) :
    skipBlank (blank ++ c :: rest) = c :: rest := by
  rw [skipBlank_append h, skipBlank, List.dropWhile_cons_of_neg (by rw [hc]; decide)]

/-- A choice by the first character that is not a blank, when it is known.  What is chosen
depends on the equation it was chosen by, so the text cannot be rewritten in place. -/
theorem match_skipBlank_eq {β : Type} {text rest : List Char} {c : Char}
    (h : skipBlank text = c :: rest) (onEnd : skipBlank text = [] → β)
    (onMore : (d : Char) → (after : List Char) → skipBlank text = d :: after → β) :
    (match h : skipBlank text with
      | [] => onEnd h
      | d :: after => onMore d after h) = onMore c rest h := by
  split
  next hnil =>
    rw [h] at hnil
    cases hnil
  next d after hfound =>
    rw [h] at hfound
    cases hfound
    rfl

theorem skipBlank_eq_nil {blank : List Char} (h : AllBlank blank) : skipBlank blank = [] := by
  rw [← List.append_nil blank, skipBlank_append h, skipBlank, List.dropWhile_nil]

theorem follows_nil : Follows [] :=
  fun _ hmem => nomatch hmem

theorem follows_cons {c : Char} (h : c = ',' ∨ c = ']' ∨ c = '\x7d') (rest : List Char) :
    Follows (c :: rest) := by
  intro d hd
  cases hd
  rcases h with rfl | rfl | rfl <;> simp

theorem follows_append {blank rest : List Char} (h : AllBlank blank) (hrest : Follows rest) :
    Follows (blank ++ rest) := by
  cases blank with
  | nil => exact hrest
  | cons first more =>
      intro c hc
      cases hc
      exact Or.inr (Or.inr (Or.inr (h first List.mem_cons_self)))

/-! ### Steps of a row -/

theorem nextItem_of_close {text rest : List Char} (first : Bool)
    (h : skipBlank text = ']' :: rest) :
    ∃ hlt, nextItem first text = .ok (.closed ⟨rest, hlt⟩) := by
  refine ⟨length_lt_of_skipBlank h, ?_⟩
  unfold nextItem
  refine (match_skipBlank_eq h _ _).trans ?_
  rfl

theorem nextItem_of_first {text rest : List Char} {c : Char} (h : skipBlank text = c :: rest)
    (hc : c ≠ ']') : ∃ hle, nextItem true text = .ok (.more ⟨c :: rest, hle⟩) := by
  refine ⟨length_le_of_skipBlank h, ?_⟩
  unfold nextItem
  refine (match_skipBlank_eq h _ _).trans ?_
  rw [if_neg hc, if_pos rfl]

theorem nextItem_of_comma {text rest after : List Char} {c : Char}
    (h : skipBlank text = ',' :: rest) (h' : skipBlank rest = c :: after) (hc : c ≠ ']') :
    ∃ hle, nextItem false text = .ok (.more ⟨c :: after, hle⟩) := by
  refine ⟨length_le_of_skipBlank_twice h h', ?_⟩
  unfold nextItem
  refine (match_skipBlank_eq h _ _).trans ?_
  rw [if_neg (by decide), if_neg Bool.false_ne_true, if_pos rfl]
  refine (match_skipBlank_eq h' _ _).trans ?_
  rw [if_neg hc]

theorem nextKey_of_close {text rest : List Char} (first : Bool)
    (h : skipBlank text = '\x7d' :: rest) :
    ∃ hlt, nextKey first text = .ok (.closed ⟨rest, hlt⟩) := by
  refine ⟨length_lt_of_skipBlank h, ?_⟩
  unfold nextKey
  refine (match_skipBlank_eq h _ _).trans ?_
  rfl

theorem nextKey_of_first {text rest : List Char} (h : skipBlank text = '"' :: rest) :
    ∃ hle, nextKey true text = .ok (.more ⟨rest, hle⟩) := by
  refine ⟨length_le_of_lt (length_lt_of_skipBlank h), ?_⟩
  unfold nextKey
  refine (match_skipBlank_eq h _ _).trans ?_
  rfl

theorem nextKey_of_comma {text rest after : List Char} (h : skipBlank text = ',' :: rest)
    (h' : skipBlank rest = '"' :: after) :
    ∃ hle, nextKey false text = .ok (.more ⟨after, hle⟩) := by
  refine ⟨length_le_of_lt (length_lt_of_skipBlank_twice h h'), ?_⟩
  unfold nextKey
  refine (match_skipBlank_eq h _ _).trans ?_
  rw [if_neg (by decide), if_neg Bool.false_ne_true, if_pos rfl]
  refine (match_skipBlank_eq h' _ _).trans ?_
  rfl

theorem colon_eq {text rest : List Char} (h : skipBlank text = ':' :: rest) :
    ∃ hlt, colon text = .ok ⟨rest, hlt⟩ := by
  refine ⟨length_lt_of_skipBlank h, ?_⟩
  unfold colon
  refine (match_skipBlank_eq h _ _).trans ?_
  rfl

section Loops

variable {ρ α : Type} (syntaxError : Reason → ρ) {part : Reader ρ α}

theorem readItems_of_closed {first : Bool} {text : List Char} {rest : Remainder text}
    (h : nextItem first text = .ok (.closed rest)) :
    readItems syntaxError part first text = .ok ([], rest) := by
  rw [readItems, h]
  rfl

theorem readItems_of_more {first : Bool} {text : List Char} {rest : Rest text} {item : α}
    {after : Remainder rest.1} {items : List α} {final : Remainder after.1}
    (h : nextItem first text = .ok (.more rest)) (hitem : part rest.1 = .ok (item, after))
    (hitems : readItems syntaxError part false after.1 = .ok (items, final)) :
    ∃ hlt, readItems syntaxError part first text = .ok (item :: items, ⟨final.1, hlt⟩) := by
  refine ⟨length_lt_trans final.2 (length_lt_of_lt_of_le after.2 rest.2), ?_⟩
  rw [readItems, h]
  simp only [Except.mapError, bind, Except.bind, hitem, hitems]
  rfl

theorem readMembers_of_closed {first : Bool} {text : List Char} {rest : Remainder text}
    (h : nextKey first text = .ok (.closed rest)) :
    readMembers syntaxError part first text = .ok ([], rest) := by
  rw [readMembers, h]
  rfl

theorem readMembers_of_more {first : Bool} {text key : List Char} {rest : Rest text}
    {behindKey : Remainder rest.1} {behindColon : Remainder behindKey.1} {value : α}
    {after : Remainder behindColon.1} {members : List (String × α)} {final : Remainder after.1}
    (h : nextKey first text = .ok (.more rest))
    (hkey : Quoted.decode rest.1 = .ok (key, behindKey))
    (hcolon : colon behindKey.1 = .ok behindColon)
    (hvalue : part behindColon.1 = .ok (value, after))
    (hmembers : readMembers syntaxError part false after.1 = .ok (members, final)) :
    ∃ hlt, readMembers syntaxError part first text =
      .ok ((String.ofList key, value) :: members, ⟨final.1, hlt⟩) := by
  refine ⟨length_lt_trans final.2 (length_lt_trans after.2 (length_lt_trans behindColon.2
    (length_lt_of_lt_of_le behindKey.2 rest.2))), ?_⟩
  rw [readMembers, h]
  simp only [Except.mapError, bind, Except.bind, hkey, hcolon, hvalue, hmembers]
  rfl

end Loops

/-! ### Texts that are read wherever they stand -/

variable {ρ α : Type}

/-- A text is read as a part behind blanks and in front of whatever may follow a value, and
its first character is not taken for a blank or for the end of a list. -/
structure ReadsAs (part : Reader ρ α) (text : List Char) (x : α) : Prop where
  starts : ∃ c more, text = c :: more ∧ isBlank c = false ∧ c ≠ ']'
  reads : ∀ blank rest, AllBlank blank → Follows rest →
    ∃ hlt, part (blank ++ (text ++ rest)) = .ok (x, ⟨rest, hlt⟩)

/-- Parts behind blanks, with a comma in front of each. -/
def behindCommas (pad : List Char) (write : α → List Char) (parts : List α) : List Char :=
  parts.flatMap fun x => ',' :: (pad ++ write x)

/-- Parts behind blanks, with a comma in front of each but the first. -/
def row (pad : List Char) (write : α → List Char) : List α → List Char
  | [] => []
  | x :: rest => pad ++ (write x ++ behindCommas pad write rest)

theorem behindCommas_cons (pad : List Char) (write : α → List Char) (x : α) (rest : List α) :
    behindCommas pad write (x :: rest) =
      ',' :: (pad ++ (write x ++ behindCommas pad write rest)) := by
  simp [behindCommas]

theorem row_cons_cons (pad : List Char) (write : α → List Char) (x y : α) (rest : List α) :
    row pad write (x :: y :: rest) = pad ++ (write x ++ ',' :: row pad write (y :: rest)) := by
  rw [row, behindCommas_cons, row]

/-- What stands behind a part of a row may follow a value. -/
theorem follows_behindCommas {pad blank : List Char} (hblank : AllBlank blank) {close : Char}
    (hclose : close = ']' ∨ close = '\x7d') (write : α → List Char) (parts : List α)
    (rest : List Char) : Follows (behindCommas pad write parts ++ (blank ++ close :: rest)) := by
  cases parts with
  | nil =>
      change Follows (blank ++ close :: rest)
      exact follows_append hblank (follows_cons (Or.inr hclose) rest)
  | cons x others =>
      rw [behindCommas_cons]
      exact follows_cons (Or.inl rfl) _

section Rows

variable {part : Reader ρ α} {write : α → List Char} (syntaxError : Reason → ρ)
  {pad blank gap : List Char} (hpad : AllBlank pad) (hgap : AllBlank gap)
  (hblank : AllBlank blank)

/-! ### Lists -/

include hpad in
theorem nextItem_first_of_starts {text : List Char}
    (hstarts : ∃ c more, text = c :: more ∧ isBlank c = false ∧ c ≠ ']') (behind : List Char) :
    ∃ hle, nextItem true (pad ++ (text ++ behind)) = .ok (.more ⟨text ++ behind, hle⟩) := by
  obtain ⟨c, more, rfl, hc, hclose⟩ := hstarts
  exact nextItem_of_first (skipBlank_cons hpad hc (more ++ behind)) hclose

include hpad in
theorem nextItem_comma_of_starts {text : List Char}
    (hstarts : ∃ c more, text = c :: more ∧ isBlank c = false ∧ c ≠ ']') (behind : List Char) :
    ∃ hle, nextItem false (',' :: (pad ++ (text ++ behind))) =
      .ok (.more ⟨text ++ behind, hle⟩) := by
  obtain ⟨c, more, rfl, hc, hclose⟩ := hstarts
  exact nextItem_of_comma rfl (skipBlank_cons hpad hc (more ++ behind)) hclose

/-- One more item, when its text comes next and what stands behind it is read as the items
that follow. -/
theorem readItems_of_readsAs {first : Bool} {whole text behind : List Char} {x : α}
    (hx : ReadsAs part text x)
    (hnext : ∃ hle, nextItem first whole = .ok (.more ⟨text ++ behind, hle⟩))
    (hbehind : Follows behind) {items : List α} {rest : Remainder behind}
    (hitems : readItems syntaxError part false behind = .ok (items, rest)) :
    ∃ hlt, readItems syntaxError part first whole = .ok (x :: items, ⟨rest.1, hlt⟩) := by
  obtain ⟨hle, hnext⟩ := hnext
  obtain ⟨hlt, hread⟩ := hx.reads [] behind allBlank_nil hbehind
  exact readItems_of_more syntaxError hnext hread hitems

include hpad hblank in
theorem readItems_behindCommas {items : List α} (h : ∀ x ∈ items, ReadsAs part (write x) x)
    (rest : List Char) :
    ∃ hlt, readItems syntaxError part false
      (behindCommas pad write items ++ (blank ++ ']' :: rest)) = .ok (items, ⟨rest, hlt⟩) := by
  induction items with
  | nil =>
      obtain ⟨hlt, hclose⟩ := nextItem_of_close false (skipBlank_cons hblank (c := ']') rfl rest)
      exact ⟨hlt, readItems_of_closed syntaxError hclose⟩
  | cons x others ih =>
      obtain ⟨hx, hothers⟩ := List.forall_mem_cons.1 h
      obtain ⟨hlt, hrest⟩ := ih hothers
      rw [behindCommas_cons, List.cons_append, List.append_assoc, List.append_assoc]
      exact readItems_of_readsAs syntaxError hx (nextItem_comma_of_starts hpad hx.starts _)
        (follows_behindCommas hblank (Or.inl rfl) write others rest) hrest

include hpad hblank in
/-- The items of a list are read from a row of their texts. -/
theorem readItems_row {items : List α} (h : ∀ x ∈ items, ReadsAs part (write x) x)
    (rest : List Char) :
    ∃ hlt, readItems syntaxError part true
      (row pad write items ++ (blank ++ ']' :: rest)) = .ok (items, ⟨rest, hlt⟩) := by
  cases items with
  | nil =>
      obtain ⟨hlt, hclose⟩ := nextItem_of_close true (skipBlank_cons hblank (c := ']') rfl rest)
      exact ⟨hlt, readItems_of_closed syntaxError hclose⟩
  | cons x others =>
      obtain ⟨hx, hothers⟩ := List.forall_mem_cons.1 h
      obtain ⟨hlt, hrest⟩ := readItems_behindCommas syntaxError hpad hblank hothers rest
      rw [row, List.append_assoc, List.append_assoc]
      exact readItems_of_readsAs syntaxError hx (nextItem_first_of_starts hpad hx.starts _)
        (follows_behindCommas hblank (Or.inl rfl) write others rest) hrest

/-! ### Objects -/

def memberText (gap : List Char) (write : α → List Char) (member : String × α) : List Char :=
  quoted member.1 ++ ':' :: (gap ++ write member.2)

theorem memberText_append (gap : List Char) (write : α → List Char) (member : String × α)
    (behind : List Char) :
    memberText gap write member ++ behind =
      '"' :: (member.1.toList.flatMap Quoted.escape ++
        '"' :: ':' :: (gap ++ (write member.2 ++ behind))) := by
  simp [memberText, quoted, Quoted.encode]

include hgap in
/-- One more member, when its key comes next and what stands behind it is read as the
members that follow. -/
theorem readMembers_of_memberText {first : Bool} {whole behind : List Char}
    {member : String × α} (hmember : ReadsAs part (write member.2) member.2)
    (hnext : ∃ hle, nextKey first whole =
      .ok (.more ⟨member.1.toList.flatMap Quoted.escape ++
        '"' :: ':' :: (gap ++ (write member.2 ++ behind)), hle⟩))
    (hbehind : Follows behind) {members : List (String × α)} {rest : Remainder behind}
    (hmembers : readMembers syntaxError part false behind = .ok (members, rest)) :
    ∃ hlt, readMembers syntaxError part first whole =
      .ok (member :: members, ⟨rest.1, hlt⟩) := by
  obtain ⟨hle, hnext⟩ := hnext
  obtain ⟨hkey, hdecode⟩ := Quoted.decode_flatMap_escape member.1.toList
    (':' :: (gap ++ (write member.2 ++ behind)))
  obtain ⟨hcolon, hskip⟩ := @colon_eq (':' :: (gap ++ (write member.2 ++ behind))) _ rfl
  obtain ⟨hvalue, hread⟩ := hmember.reads gap behind hgap hbehind
  have hall := readMembers_of_more syntaxError hnext hdecode hskip hread hmembers
  rwa [String.ofList_toList] at hall

include hpad hgap hblank in
theorem readMembers_behindCommas {members : List (String × α)}
    (h : ∀ member ∈ members, ReadsAs part (write member.2) member.2) (rest : List Char) :
    ∃ hlt, readMembers syntaxError part false
      (behindCommas pad (memberText gap write) members ++ (blank ++ '\x7d' :: rest)) =
        .ok (members, ⟨rest, hlt⟩) := by
  induction members with
  | nil =>
      obtain ⟨hlt, hclose⟩ := nextKey_of_close false (skipBlank_cons hblank (c := '\x7d') rfl rest)
      exact ⟨hlt, readMembers_of_closed syntaxError hclose⟩
  | cons member others ih =>
      obtain ⟨hmember, hothers⟩ := List.forall_mem_cons.1 h
      obtain ⟨hlt, hrest⟩ := ih hothers
      rw [behindCommas_cons, List.cons_append, List.append_assoc, List.append_assoc,
        memberText_append]
      exact readMembers_of_memberText syntaxError hgap hmember
        (nextKey_of_comma rfl (skipBlank_cons hpad rfl _))
        (follows_behindCommas hblank (Or.inr rfl) (memberText gap write) others rest) hrest

include hpad hgap hblank in
/-- The members of an object are read from a row of their texts. -/
theorem readMembers_row {members : List (String × α)}
    (h : ∀ member ∈ members, ReadsAs part (write member.2) member.2) (rest : List Char) :
    ∃ hlt, readMembers syntaxError part true
      (row pad (memberText gap write) members ++ (blank ++ '\x7d' :: rest)) =
        .ok (members, ⟨rest, hlt⟩) := by
  cases members with
  | nil =>
      obtain ⟨hlt, hclose⟩ := nextKey_of_close true (skipBlank_cons hblank (c := '\x7d') rfl rest)
      exact ⟨hlt, readMembers_of_closed syntaxError hclose⟩
  | cons member others =>
      obtain ⟨hmember, hothers⟩ := List.forall_mem_cons.1 h
      obtain ⟨hlt, hrest⟩ := readMembers_behindCommas syntaxError hpad hgap hblank hothers rest
      rw [row, List.append_assoc, List.append_assoc, memberText_append]
      exact readMembers_of_memberText syntaxError hgap hmember
        (nextKey_of_first (skipBlank_cons hpad rfl _))
        (follows_behindCommas hblank (Or.inr rfl) (memberText gap write) others rest) hrest

end Rows

end DocWeave.Json

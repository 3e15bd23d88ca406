/-
Reading text, or other data, from the front.  A reader that has consumed something
hands back the rest together with the fact that it is shorter, which is what lets
loops over readers end.  The facts about lengths are stated of the lists themselves,
so that a reader names the lists it holds and nothing else.
-/

namespace DocWeave

variable {α : Type}

/-- What is left of a text, or of other data, after at least one item of it has been
consumed. -/
abbrev Remainder (text : List α) := { rest : List α // rest.length < text.length }

/-- What is left when perhaps nothing has been consumed. -/
abbrev Rest (text : List α) := { rest : List α // rest.length ≤ text.length }

/-! ### Lengths -/

theorem length_le_self (text : List α) : text.length ≤ text.length :=
  Nat.le_refl _

theorem length_lt_cons (c : α) (rest : List α) : rest.length < (c :: rest).length :=
  Nat.lt_succ_self _

theorem length_le_cons (c : α) (rest : List α) : rest.length ≤ (c :: rest).length :=
  Nat.le_succ _

theorem length_le_of_lt {rest text : List α} (h : rest.length < text.length) :
    rest.length ≤ text.length :=
  Nat.le_of_lt h

theorem length_lt_trans {final rest text : List α} (h : final.length < rest.length)
    (h' : rest.length < text.length) : final.length < text.length :=
  Nat.lt_trans h h'

theorem length_le_trans {final rest text : List α} (h : final.length ≤ rest.length)
    (h' : rest.length ≤ text.length) : final.length ≤ text.length :=
  Nat.le_trans h h'

theorem length_lt_of_lt_of_le {final rest text : List α} (h : final.length < rest.length)
    (h' : rest.length ≤ text.length) : final.length < text.length :=
  Nat.lt_of_lt_of_le h h'

theorem length_lt_of_le_of_lt {final rest text : List α} (h : final.length ≤ rest.length)
    (h' : rest.length < text.length) : final.length < text.length :=
  Nat.lt_of_le_of_lt h h'

theorem length_lt_cons_of_le (c : α) {rest text : List α} (h : rest.length ≤ text.length) :
    rest.length < (c :: text).length :=
  Nat.lt_succ_of_le h

theorem length_le_cons_cons (c d : α) (rest : List α) :
    rest.length ≤ (c :: d :: rest).length :=
  Nat.le_succ_of_le (Nat.le_succ _)

theorem length_le_cons_cons_cons (c d e : α) (rest : List α) :
    rest.length ≤ (c :: d :: e :: rest).length :=
  Nat.le_succ_of_le (Nat.le_succ_of_le (Nat.le_succ _))

theorem length_lt_cons_cons (c d : α) (rest : List α) :
    rest.length < (c :: d :: rest).length :=
  Nat.lt_succ_of_le (Nat.le_succ _)

theorem length_lt_cons_of_lt (c : α) {rest text : List α} (h : rest.length < text.length) :
    rest.length < (c :: text).length :=
  Nat.lt_succ_of_lt h

theorem length_lt_of_cons_lt {c : α} {rest text : List α} (h : (c :: rest).length < text.length) :
    rest.length < text.length :=
  Nat.lt_of_succ_lt h

theorem length_lt_append_cons (front : List α) (c : α) (rest : List α) :
    rest.length < (front ++ c :: rest).length := by
  simp only [List.length_append, List.length_cons]
  omega

theorem length_dropWhile_le (p : α → Bool) (text : List α) :
    (text.dropWhile p).length ≤ text.length :=
  (List.dropWhile_sublist p).length_le

theorem length_dropWhile_cons_le (p : α → Bool) (c : α) (text : List α) :
    (text.dropWhile p).length ≤ (c :: text).length :=
  Nat.le_succ_of_le (length_dropWhile_le p text)

theorem length_dropWhile_lt_cons (p : α → Bool) (c : α) (text : List α) :
    (text.dropWhile p).length < (c :: text).length :=
  Nat.lt_succ_of_le (length_dropWhile_le p text)

theorem length_drop_lt_cons (count : Nat) (c : α) (text : List α) :
    (text.drop count).length < (c :: text).length := by
  simp only [List.length_drop, List.length_cons]
  omega

theorem length_drop_le (count : Nat) (text : List α) :
    (text.drop count).length ≤ text.length := by
  simp

def Remainder.within {text shorter : List α} (rest : Remainder shorter)
    (h : shorter.length ≤ text.length) : Remainder text :=
  ⟨rest.1, length_lt_of_lt_of_le rest.2 h⟩

def Rest.within {text shorter : List α} (rest : Rest shorter)
    (h : shorter.length ≤ text.length) : Rest text :=
  ⟨rest.1, length_le_trans rest.2 h⟩

def Rest.behind {text shorter : List α} (rest : Rest shorter)
    (h : shorter.length < text.length) : Remainder text :=
  ⟨rest.1, length_lt_of_le_of_lt rest.2 h⟩

/-! ### Bytes -/

def utf8Length (text : List Char) : Nat :=
  text.foldr (fun c bytes => c.utf8Size + bytes) 0

@[simp] theorem utf8Length_nil : utf8Length [] = 0 := rfl

@[simp] theorem utf8Length_cons (c : Char) (text : List Char) :
    utf8Length (c :: text) = c.utf8Size + utf8Length text := rfl

@[simp] theorem utf8Length_append (first second : List Char) :
    utf8Length (first ++ second) = utf8Length first + utf8Length second := by
  induction first with
  | nil => simp
  | cons c rest ih => simp [ih, Nat.add_assoc]

end DocWeave

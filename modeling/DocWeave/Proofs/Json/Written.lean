/-
The ways to write a document as JSON text: any blanks may stand between the parts of a
container.  The one-line form and the indented form are two of these ways.
-/
import DocWeave.Proofs.Json.Rows
import DocWeave.Proofs.Value.Parts

namespace DocWeave

namespace Value

def isFloat : Value → Bool
  | .number (.float _) => true
  | _ => false

def WholeNumbers : Value → Prop :=
  Everywhere fun v => v.isFloat = false

instance : DecidablePred WholeNumbers :=
  inferInstanceAs (DecidablePred (Everywhere _))

end Value

namespace Json

/-- A text is one of the ways to write a document without doubles: whole numbers, strings
and words have one form each, while each container chooses how its parts are written and
which blanks stand in front of a part, behind a colon and in front of the closing
bracket. -/
inductive Written : Value → List Char → Prop
  | null : Written .null "null".toList
  | bool (b : Bool) : Written (.bool b) (if b then "true" else "false").toList
  | integer (n : Int64) : Written (.number (.integer n)) (numberText (.integer n))
  | string (s : String) : Written (.string s) (quoted s)
  | array {items : List Value} {pad blank : List Char} {write : Value → List Char}
      (hpad : AllBlank pad) (hblank : AllBlank blank)
      (hitems : ∀ item ∈ items, Written item (write item)) :
      Written (.array items) ('[' :: (row pad write items ++ (blank ++ [']'])))
  | object {members : Entries Value} {pad gap blank : List Char} {write : Value → List Char}
      (hpad : AllBlank pad) (hgap : AllBlank gap) (hblank : AllBlank blank)
      (hmembers : ∀ member ∈ members, Written member.2 (write member.2)) :
      Written (.object members)
        ('\x7b' :: (row pad (memberText gap write) members ++ (blank ++ ['\x7d'])))

theorem written_number {n : Number} (h : (Value.number n).isFloat = false) :
    Written (.number n) (numberText n) := by
  cases n with
  | integer n => exact .integer n
  | float x => cases h

/-! ### On one line -/

theorem compactItems_eq_row : ∀ items, compactItems items = row [] compact items
  | [] => by rw [compactItems, row]
  | [item] => by simp [compactItems, row, behindCommas]
  | item :: next :: rest => by
      rw [compactItems, compactItems_eq_row (next :: rest), row_cons_cons, List.nil_append]

theorem compactMembers_eq_row :
    ∀ members, compactMembers members = row [] (memberText [] compact) members
  | [] => by rw [compactMembers, row]
  | [(key, value)] => by simp [compactMembers, row, behindCommas, memberText]
  | (key, value) :: next :: rest => by
      rw [compactMembers, compactMembers_eq_row (next :: rest), row_cons_cons, List.nil_append]
      rfl

theorem written_compact {v : Value} (h : v.WholeNumbers) : Written v (compact v) := by
  induction h with
  | @intro v here inside ih =>
      cases v with
      | null => exact .null
      | bool b => exact .bool b
      | number n => exact written_number here
      | string s => exact .string s
      | array items =>
          rw [compact, compactItems_eq_row]
          exact .array allBlank_nil allBlank_nil ih
      | object members =>
          rw [compact, compactMembers_eq_row]
          exact .object allBlank_nil allBlank_nil allBlank_nil
            fun member hmem => ih member.2 (List.mem_map_of_mem hmem)

/-! ### Over several lines -/

theorem allBlank_newLine (level : Nat) : AllBlank (newLine level) := by
  intro c hc
  rcases List.mem_cons.1 hc with rfl | hc
  · rfl
  · rw [List.eq_of_mem_replicate hc]
    rfl

theorem prettyItems_eq_row (level : Nat) :
    ∀ items, prettyItems level items = row (newLine level) (pretty level) items
  | [] => by rw [prettyItems, row]
  | [item] => by simp [prettyItems, row, behindCommas]
  | item :: next :: rest => by
      rw [prettyItems, prettyItems_eq_row level (next :: rest), row_cons_cons,
        List.append_assoc]

theorem prettyMembers_eq_row (level : Nat) :
    ∀ members, prettyMembers level members =
      row (newLine level) (memberText [' '] (pretty level)) members
  | [] => by rw [prettyMembers, row]
  | [(key, value)] => by simp [prettyMembers, row, behindCommas, memberText]
  | (key, value) :: next :: rest => by
      rw [prettyMembers, prettyMembers_eq_row level (next :: rest), row_cons_cons,
        List.append_assoc, List.append_assoc, memberText, List.append_assoc]
      rfl

theorem written_pretty {v : Value} (h : v.WholeNumbers) (level : Nat) :
    Written v (pretty level v) := by
  induction h generalizing level with
  | @intro v here inside ih =>
      cases v with
      | null => exact .null
      | bool b => exact .bool b
      | number n => exact written_number here
      | string s => exact .string s
      | array items =>
          cases items with
          | nil =>
              exact @Written.array [] [] [] compact allBlank_nil allBlank_nil
                fun _ hmem => nomatch hmem
          | cons item rest =>
              rw [pretty, prettyItems_eq_row, List.append_assoc]
              exact .array (allBlank_newLine (level + 1)) (allBlank_newLine level)
                fun item hmem => ih item hmem (level + 1)
      | object members =>
          cases members with
          | nil =>
              exact @Written.object [] [] [] [] compact allBlank_nil allBlank_nil allBlank_nil
                fun _ hmem => nomatch hmem
          | cons member rest =>
              rw [pretty, prettyMembers_eq_row, List.append_assoc]
              exact .object (allBlank_newLine (level + 1)) (by decide) (allBlank_newLine level)
                fun member hmem => ih member.2 (List.mem_map_of_mem hmem) (level + 1)

end Json

end DocWeave

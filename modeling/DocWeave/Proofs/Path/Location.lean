/-
Where a path leads.  A place in a document is told by the keys and the positions that lead
to it from the root; a path matches some of these locations, step by step, and following
the path gives what stands at each of them, in the order of the positions.
-/
import Mathlib
import DocWeave.Path.Select
import DocWeave.Proofs.Value.Parts

namespace DocWeave

/-! ### Locations -/

inductive Place where
  | key (name : String)
  | item (position : Nat)
deriving DecidableEq

/-- A place in a document, told by the places that lead to it from the root. -/
abbrev Location := List Place

def Place.in? : Place → Value → Option Value
  | .key name, v => v.get? name
  | .item position, v => v.items?.bind fun items => items[position]?

def Value.at? : Value → Location → Option Value
  | v, [] => some v
  | v, place :: rest => (place.in? v).bind fun child => child.at? rest

def Place.position? : Place → Option Nat
  | .key _ => none
  | .item position => some position

/-- The positions in arrays among the places of a location. -/
def Location.positions (location : Location) : List Nat :=
  location.filterMap Place.position?

/-! ### Matching -/

def Value.itemCount (v : Value) : Nat :=
  (v.items?.getD []).length

/-- The position that an index counts to, from the end when it is negative.  Where that is
negative too, there is no such position. -/
def Value.position (v : Value) (i : Int64) : Int :=
  if i.toInt < 0 then v.itemCount + i.toInt else i.toInt

/-- Whether a step goes to a place: a name to the key, an index to the position that it
counts to, and the wildcard to every position. -/
def Step.GoesTo (v : Value) : Step → Place → Prop
  | .property name, .key other => other = name
  | .index i, .item position => (position : Int) = v.position i
  | .wildcard, .item position => position < v.itemCount
  | _, _ => False

/-- A location matches a path when each step goes to the next place of the location, and
something stands there. -/
inductive Path.Matches : Path → Value → Location → Prop
  | nil {v : Value} : Matches [] v []
  | cons {step : Step} {path : Path} {v child : Value} {place : Place} {location : Location}
      (hplace : step.GoesTo v place) (hchild : place.in? v = some child)
      (h : Matches path child location) : Matches (step :: path) v (place :: location)

def Step.places (v : Value) : Step → List Place
  | .property name => [.key name]
  | .index i => if 0 ≤ v.position i then [.item (v.position i).toNat] else []
  | .wildcard => (List.range v.itemCount).map .item

/-- The locations that match a path, in the order in which the path comes to them. -/
def Path.locations : Path → Value → List Location
  | [], _ => [[]]
  | step :: rest, v => (step.places v).flatMap fun place =>
      match place.in? v with
      | some child => (Path.locations rest child).map (place :: ·)
      | none => []

theorem Step.mem_places_iff (step : Step) (v : Value) (place : Place) :
    place ∈ step.places v ↔ step.GoesTo v place := by
  cases step with
  | property name => cases place <;> simp [Step.places, Step.GoesTo]
  | wildcard => cases place <;> simp [Step.places, Step.GoesTo]
  | index i =>
      rw [Step.places]
      cases place with
      | key name => split <;> simp [Step.GoesTo]
      | item position =>
          rw [Step.GoesTo]
          split
          · rw [List.mem_singleton, Place.item.injEq]
            omega
          · constructor
            · intro h
              cases h
            · intro h
              omega

theorem Path.mem_locations_iff (path : Path) (v : Value) (location : Location) :
    location ∈ path.locations v ↔ path.Matches v location := by
  induction path generalizing v location with
  | nil =>
      rw [Path.locations, List.mem_singleton]
      constructor
      · rintro rfl
        exact .nil
      · intro h
        cases h
        rfl
  | cons step rest ih =>
      rw [Path.locations, List.mem_flatMap]
      constructor
      · rintro ⟨place, hplace, hmem⟩
        cases hchild : place.in? v with
        | none => simp [hchild] at hmem
        | some child =>
            simp only [hchild, List.mem_map] at hmem
            obtain ⟨inner, hinner, rfl⟩ := hmem
            exact .cons ((step.mem_places_iff v place).1 hplace) hchild ((ih child inner).1 hinner)
      · intro h
        cases h with
        | @cons _ _ _ child place inner hplace hchild h =>
            refine ⟨place, (step.mem_places_iff v place).2 hplace, ?_⟩
            simp only [hchild, List.mem_map]
            exact ⟨inner, (ih child inner).2 h, rfl⟩

/-! ### What a step leads to -/

/-- The items of an array can be counted by the index of a step. -/
def Value.FitsIndex (v : Value) : Prop :=
  v.itemCount < 2 ^ 63

instance : DecidablePred Value.FitsIndex :=
  fun v => inferInstanceAs (Decidable (v.itemCount < 2 ^ 63))

/-- The sum of a length and a negative index stays within the numbers of 64 bits. -/
theorem toInt_ofNat_add {length : Nat} (hfits : length < 2 ^ 63) {i : Int64}
    (hneg : i.toInt < 0) : (Int64.ofNat length + i).toInt = length + i.toInt := by
  have hleast := i.le_toInt
  rw [Int64.toInt_add, Int64.toInt_ofNat_of_lt hfits]
  apply Int.bmod_eq_of_le <;> omega

/-- An index counts to its position. -/
theorem itemAt?_eq {items : List Value} (hfits : (Value.array items).FitsIndex) (i : Int64) :
    itemAt? items i =
      if 0 ≤ (Value.array items).position i then
        items[((Value.array items).position i).toNat]?
      else none := by
  have hfits : items.length < 2 ^ 63 := hfits
  have hposition : (if i < 0 then Int64.ofNat items.length + i else i).toInt =
      (Value.array items).position i := by
    have hsign : i < 0 ↔ i.toInt < 0 := by
      rw [Int64.lt_iff_toInt_lt, Int64.toInt_zero]
    rw [Value.position]
    by_cases hneg : i.toInt < 0
    · rw [if_pos (hsign.2 hneg), if_pos hneg, toInt_ofNat_add hfits hneg]
      rfl
    · rw [if_neg (mt hsign.1 hneg), if_neg hneg]
  have hlow : (if i < 0 then Int64.ofNat items.length + i else i) < 0 ↔
      ¬ 0 ≤ (Value.array items).position i := by
    rw [Int64.lt_iff_toInt_lt, hposition, Int64.toInt_zero, Int.not_le]
  simp only [itemAt?, hlow, ← Int64.toNat_toInt, hposition, ite_not]

/-- Going through the positions of a list gives its items. -/
theorem filterMap_range_getElem? (items : List Value) :
    (List.range items.length).filterMap (fun position => items[position]?) = items := by
  have hfound : items.zipIdx.filterMap (fun pair => items[pair.2]?) =
      items.zipIdx.map Prod.fst :=
    List.filterMap_eq_map_iff_forall_eq_some.2 fun _ hpair =>
      List.mem_zipIdx_iff_getElem?.1 hpair
  rw [List.range_eq_range', ← List.zipIdx_map_snd, List.filterMap_map]
  exact hfound.trans (List.zipIdx_map_fst 0 items)

/-- A step leads to what stands at the places it goes to. -/
theorem Step.select_eq_places {v : Value} (hfits : v.FitsIndex) (step : Step) :
    step.select v = (step.places v).filterMap fun place => place.in? v := by
  cases step with
  | property name =>
      rw [Step.select, Step.places]
      cases hchild : v.get? name <;> simp [Place.in?, hchild]
  | index i =>
      cases v with
      | array items =>
          rw [Step.select, itemAt?_eq hfits, Step.places]
          split
          · cases hchild : items[((Value.array items).position i).toNat]? <;>
              simp [Place.in?, Value.items?, hchild]
          · rfl
      | _ =>
          rw [Step.places]
          split
          · rfl
          · rfl
  | wildcard =>
      cases v with
      | array items =>
          rw [Step.select, Step.places, List.filterMap_map]
          exact (filterMap_range_getElem? items).symm
      | _ => rfl

theorem Value.Everywhere.in? {p : Value → Prop} {v child : Value} {place : Place}
    (h : v.Everywhere p) (hchild : place.in? v = some child) : child.Everywhere p := by
  obtain ⟨-, inside⟩ := (Value.everywhere_iff v).1 h
  apply inside
  cases v with
  | array items =>
      cases place with
      | key name => cases hchild
      | item position => exact List.mem_of_getElem? hchild
  | object members =>
      cases place with
      | key name => exact List.mem_map_of_mem (f := Prod.snd) (Entries.mem_of_find? hchild)
      | item position => cases hchild
  | _ => cases place <;> cases hchild

theorem Path.select_cons (step : Step) (rest : Path) (root : Value) :
    Path.select (step :: rest) root = (step.select root).flatMap (Path.select rest) := by
  simpa [Path.select] using Path.select_append [step] rest root

/-- Following a path gives what stands at the locations that the path comes to. -/
theorem Path.map_select_eq {root : Value} (hroot : root.Everywhere Value.FitsIndex)
    (path : Path) : (path.select root).map some = (path.locations root).map root.at? := by
  induction path generalizing root with
  | nil => rfl
  | cons step rest ih =>
      obtain ⟨hfits, -⟩ := (Value.everywhere_iff root).1 hroot
      rw [Path.select_cons, step.select_eq_places hfits, Path.locations,
        List.filterMap_eq_flatMap_toList, List.flatMap_assoc, List.map_flatMap,
        List.map_flatMap]
      -- both sides go through the places of the step, so one place is enough
      congr 1
      funext place
      cases hchild : place.in? root with
      | none => rfl
      | some child =>
          have hinner : Value.at? root ∘ (place :: ·) = child.at? := by
            funext location
            simp [Value.at?, hchild]
          simp [ih (hroot.in? hchild), hinner]

/-! ### Order -/

/-- The places that a step goes to are in the order of their positions; only a wildcard
goes to more than one. -/
theorem Step.pairwise_places (step : Step) (v : Value) :
    (step.places v).Pairwise fun first second =>
      ∃ i j, first = .item i ∧ second = .item j ∧ i < j := by
  cases step with
  | property name => exact List.pairwise_singleton _ _
  | index i =>
      rw [Step.places]
      split
      · exact List.pairwise_singleton _ _
      · exact List.Pairwise.nil
  | wildcard =>
      rw [Step.places, List.pairwise_map]
      exact List.pairwise_lt_range.imp fun hlt => ⟨_, _, rfl, rfl, hlt⟩

theorem Location.positions_cons_lt_cons {place : Place} {first second : Location}
    (h : first.positions < second.positions) :
    Location.positions (place :: first) < Location.positions (place :: second) := by
  cases place with
  | key name => exact h
  | item position => exact List.cons_lt_cons_iff.2 (Or.inr ⟨rfl, h⟩)

/-- The locations that match a path come in the order of their positions. -/
theorem Path.pairwise_locations (path : Path) (root : Value) :
    (path.locations root).Pairwise fun first second =>
      first.positions < second.positions := by
  induction path generalizing root with
  | nil => exact List.pairwise_singleton _ _
  | cons step rest ih =>
      rw [Path.locations, List.pairwise_flatMap]
      constructor
      · intro place _
        cases place.in? root with
        | none => exact List.Pairwise.nil
        | some child =>
            dsimp only
            rw [List.pairwise_map]
            exact (ih child).imp Location.positions_cons_lt_cons
      · refine (step.pairwise_places root).imp ?_
        rintro _ _ ⟨i, j, rfl, rfl, hlt⟩ first hfirst second hsecond
        cases hi : (Place.item i).in? root with
        | none => simp [hi] at hfirst
        | some child =>
            cases hj : (Place.item j).in? root with
            | none => simp [hj] at hsecond
            | some other =>
                simp only [hi, List.mem_map] at hfirst
                simp only [hj, List.mem_map] at hsecond
                obtain ⟨inner, -, rfl⟩ := hfirst
                obtain ⟨inner', -, rfl⟩ := hsecond
                exact List.cons_lt_cons_iff.2 (Or.inl hlt)

theorem Step.length_places_le {step : Step} (h : step ≠ .wildcard) (v : Value) :
    (step.places v).length ≤ 1 := by
  cases step with
  | property name => exact Nat.le_refl 1
  | index i =>
      rw [Step.places]
      split
      · exact Nat.le_refl 1
      · exact Nat.zero_le 1
  | wildcard => exact absurd rfl h

/-- Without a wildcard at most one location matches. -/
theorem Path.length_locations_le {path : Path} (h : Step.wildcard ∉ path) (root : Value) :
    (path.locations root).length ≤ 1 := by
  induction path generalizing root with
  | nil => exact Nat.le_refl 1
  | cons step rest ih =>
      obtain ⟨hstep, hrest⟩ := not_or.1 (mt List.mem_cons.2 h)
      have hplaces := step.length_places_le (Ne.symm hstep) root
      rw [Path.locations]
      match hsingle : step.places root with
      | [] => simp
      | [place] =>
          rw [List.flatMap_singleton]
          cases place.in? root with
          | none => exact Nat.zero_le 1
          | some child => simpa using ih hrest child
      | _ :: _ :: _ => simp [hsingle] at hplaces

/-- A list of locations is what a path leads to: what is found is what stands at them, one
by one; they are the locations that match the path, each once; and they come in the
lexicographic order of their positions. -/
structure Path.LeadsTo (path : Path) (root : Value) (locations : List Location) : Prop where
  found : (path.select root).map some = locations.map root.at?
  matching : ∀ location, location ∈ locations ↔ path.Matches root location
  distinct : locations.Nodup
  ordered : locations.Pairwise fun first second => first.positions < second.positions

/-- Following a path finds what stands at the locations that match it, and nothing else.
The arrays of the document are short enough for their items to be counted, as every array
in memory is. -/
theorem Path.select_leadsTo_matching {root : Value} (hroot : root.Everywhere Value.FitsIndex)
    (path : Path) :
    ∃ locations, path.LeadsTo root locations ∧
      (Step.wildcard ∉ path → (path.select root).length ≤ 1) := by
  have hfound := Path.map_select_eq hroot path
  have hordered := path.pairwise_locations root
  have hdistinct : (path.locations root).Nodup := by
    refine hordered.imp ?_
    rintro first _ hlt rfl
    exact List.lt_irrefl _ hlt
  refine ⟨path.locations root,
    ⟨hfound, path.mem_locations_iff root, hdistinct, hordered⟩, ?_⟩
  intro hwildcard
  have hlength := congrArg List.length hfound
  rw [List.length_map, List.length_map] at hlength
  rw [hlength]
  exact path.length_locations_le hwildcard root

/-- A wildcard in a wildcard, an index from the end, and an array that is too short for
it. -/
theorem Path.select_leadsTo_matching_of_nested_items :
    let root : Value := .object [("a", .array [.array [.array [.bool true, .bool false]],
      .null, .array [.array [], .array [.string "x"], .object []]])]
    let path : Path := [.property "a", .wildcard, .wildcard, .index (-1)]
    root.Everywhere Value.FitsIndex ∧
      (∃ locations, path.LeadsTo root locations ∧
        (Step.wildcard ∉ path → (path.select root).length ≤ 1)) ∧
      path.select root = [.bool false, .string "x"] := by
  intro root path
  have hroot : root.Everywhere Value.FitsIndex := by decide
  exact ⟨hroot, Path.select_leadsTo_matching hroot path, by cbv⟩

end DocWeave

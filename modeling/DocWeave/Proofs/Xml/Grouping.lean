/-
Child elements under their names: a name that occurs once has its value, a name that
occurs again the list of its values.
-/
import DocWeave.Proofs.Entries.Order
import DocWeave.Xml.Tree

namespace DocWeave.Xml

def valuesOf (name : String) (children : List (String × Value)) : List Value :=
  children.filterMap fun child => if child.1 = name then some child.2 else none

/-- A single value stands for itself, several make a list. -/
def collapse : List Value → Value
  | [value] => value
  | values => .array values

/-- Children under their names, in the order in which the names first occur. -/
def grouped (children : List (String × Value)) : Entries Value :=
  (children.map Prod.fst).eraseDups.map fun name => (name, collapse (valuesOf name children))

theorem keys_grouped (children : List (String × Value)) :
    Entries.keys (grouped children) = (children.map Prod.fst).eraseDups := by
  simp [grouped, Entries.keys, List.map_map, Function.comp_def]

theorem valuesOf_append (name : String) (children more : List (String × Value)) :
    valuesOf name (children ++ more) = valuesOf name children ++ valuesOf name more :=
  List.filterMap_append

theorem valuesOf_eq_nil_iff (name : String) (children : List (String × Value)) :
    valuesOf name children = [] ↔ name ∉ children.map Prod.fst := by
  simp only [valuesOf, List.filterMap_eq_nil_iff, ite_eq_right_iff, reduceCtorEq, imp_false,
    List.mem_map, not_exists, not_and]

theorem kind_ne_array_of_mem_valuesOf {name : String} {children : List (String × Value)}
    (h : ∀ child ∈ children, child.2.kind ≠ .array) :
    ∀ value ∈ valuesOf name children, value.kind ≠ .array := by
  intro value hvalue
  obtain ⟨child, hchild, hsome⟩ := List.mem_filterMap.1 hvalue
  split at hsome
  · cases hsome
    exact h child hchild
  · cases hsome

/-! ### One more child -/

theorem addChild_eq_insert (entries : Entries Value) (child : String × Value) :
    ∃ value, addChild entries child = Entries.insert child.1 value entries := by
  unfold addChild
  split <;> exact ⟨_, rfl⟩

theorem find?_addChild_of_ne {name : String} {child : String × Value} (h : name ≠ child.1)
    (entries : Entries Value) :
    Entries.find? name (addChild entries child) = Entries.find? name entries := by
  obtain ⟨value, hvalue⟩ := addChild_eq_insert entries child
  rw [hvalue, Entries.find?_insert_of_ne h]

def found (values : List Value) : Option Value :=
  if values.isEmpty then none else some (collapse values)

/-- A list under the name is the list of the values so far, since no value is a list. -/
theorem find?_addChild_self {entries : Entries Value} {child : String × Value}
    {values : List Value} (hvalues : ∀ value ∈ values, value.kind ≠ .array)
    (h : Entries.find? child.1 entries = found values) :
    Entries.find? child.1 (addChild entries child) = found (values ++ [child.2]) := by
  unfold addChild
  rw [h]
  match values with
  | [] => simp [found, collapse]
  | [first] =>
      have hfirst := hvalues first List.mem_cons_self
      cases first with
      | array items => exact absurd rfl hfirst
      | _ => simp [found, collapse]
  | first :: second :: rest => simp [found, collapse]

/-- One more child changes what is found under its name, and nothing else. -/
theorem find?_addChild {name : String} {entries : Entries Value}
    {children : List (String × Value)} (hvalues : ∀ child ∈ children, child.2.kind ≠ .array)
    (h : Entries.find? name entries = found (valuesOf name children)) (child : String × Value) :
    Entries.find? name (addChild entries child) =
      found (valuesOf name (children ++ [child])) := by
  rw [valuesOf_append]
  by_cases hname : name = child.1
  · subst hname
    have hone : valuesOf child.1 [child] = [child.2] := by simp [valuesOf]
    rw [hone]
    exact find?_addChild_self (kind_ne_array_of_mem_valuesOf hvalues) h
  · have hnone : valuesOf name [child] = [] := by simp [valuesOf, Ne.symm hname]
    rw [hnone, List.append_nil, find?_addChild_of_ne hname, h]

/-! ### All children -/

structure Groups (children : List (String × Value)) (entries : Entries Value) : Prop where
  keys_eq : Entries.keys entries = (children.map Prod.fst).eraseDups
  find?_eq (name : String) : Entries.find? name entries = found (valuesOf name children)

theorem Groups.append {children : List (String × Value)} {entries : Entries Value}
    (h : Groups children entries) (hvalues : ∀ child ∈ children, child.2.kind ≠ .array)
    (child : String × Value) : Groups (children ++ [child]) (addChild entries child) where
  keys_eq := by
    obtain ⟨value, hvalue⟩ := addChild_eq_insert entries child
    have hnodup : (Entries.keys entries).Nodup := h.keys_eq ▸ nodup_eraseDups _
    have hkeys := Entries.eraseDups_keys_insert child.1 value entries []
    rw [List.append_nil, eraseDups_of_nodup (Entries.nodup_keys_insert hnodup _ _), h.keys_eq,
      eraseDups_eraseDups_append] at hkeys
    rw [hvalue, hkeys, List.map_append]
    rfl
  find?_eq name := find?_addChild hvalues (h.find?_eq name) child

theorem groups_foldl_addChild {children : List (String × Value)}
    (hvalues : ∀ child ∈ children, child.2.kind ≠ .array) :
    Groups children (children.foldl addChild []) := by
  induction children using List.reverseRecOn with
  | nil => exact ⟨rfl, fun name => rfl⟩
  | append_singleton children child ih =>
      have hbefore : ∀ child ∈ children, child.2.kind ≠ .array := fun c hc =>
        hvalues c (List.mem_append_left _ hc)
      rw [List.foldl_append]
      exact (ih hbefore).append hbefore child

theorem Groups.eq_grouped {children : List (String × Value)} {entries : Entries Value}
    (h : Groups children entries) : entries = grouped children := by
  have hnodup : (Entries.keys entries).Nodup := h.keys_eq ▸ nodup_eraseDups _
  have hfind : ∀ name ∈ Entries.keys entries,
      Entries.find? name entries = some (collapse (valuesOf name children)) := by
    intro name hname
    rw [h.keys_eq, List.mem_eraseDups] at hname
    have hne : valuesOf name children ≠ [] := fun hnil =>
      (valuesOf_eq_nil_iff name children).1 hnil hname
    rw [h.find?_eq, found, if_neg (mt List.isEmpty_iff.1 hne)]
  rw [Entries.eq_map_of_find? hnodup hfind, h.keys_eq]
  rfl

/-- Entries with other keys stay in front. -/
theorem foldl_addChild_append {entries : Entries Value} {children : List (String × Value)}
    (hfresh : ∀ child ∈ children, child.1 ∉ Entries.keys entries) (others : Entries Value) :
    children.foldl addChild (entries ++ others) = entries ++ children.foldl addChild others := by
  induction children generalizing others with
  | nil => rfl
  | cons child rest ih =>
      obtain ⟨hchild, hrest⟩ := List.forall_mem_cons.1 hfresh
      have hstep : addChild (entries ++ others) child = entries ++ addChild others child := by
        unfold addChild
        rw [Entries.find?_append_of_not_mem hchild]
        split <;> rw [Entries.insert_append_of_not_mem hchild]
      rw [List.foldl_cons, hstep, ih hrest, List.foldl_cons]

theorem grouped_ne_nil {children : List (String × Value)} (h : children ≠ []) :
    grouped children ≠ [] := by
  obtain ⟨child, rest, rfl⟩ := List.exists_cons_of_ne_nil h
  simp [grouped, List.eraseDups_cons]

/-- Child elements go behind the attributes, under their names. -/
theorem foldl_addChild_eq {marks : Entries Value} {children : List (String × Value)}
    (hfresh : ∀ child ∈ children, child.1 ∉ Entries.keys marks)
    (hkinds : ∀ child ∈ children, child.2.kind ≠ .array) :
    children.foldl addChild marks = marks ++ grouped children := by
  have happend := foldl_addChild_append hfresh []
  rwa [List.append_nil, (groups_foldl_addChild hkinds).eq_grouped] at happend

end DocWeave.Xml

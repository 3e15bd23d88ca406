/-
Addresses.  A place in a document is written down as the text of a path, with a segment in
brackets for each step of its location: a key between quotes of either kind, or a position
counted from either end.  However it is written, the text is read, and what it leads to is
what stands at the place.
-/
import Mathlib
import DocWeave.Proofs.Json.Digits
import DocWeave.Proofs.Path.Composition
import DocWeave.Proofs.Path.Location

namespace DocWeave

/-! ### What stands between brackets -/

namespace Path

/-- A name between quotes: a backslash stands in front of the quote and of another backslash,
and every other character stands for itself. -/
def escaped (quote : Char) (name : List Char) : List Char :=
  name.flatMap fun c => if c = quote ∨ c = '\\' then ['\\', c] else [c]

theorem quoted_escaped {quote : Char} (hquote : quote = '\'' ∨ quote = '"') (name : List Char) :
    Quoted quote name (escaped quote name) := by
  induction name with
  | nil => exact .nil
  | cons c rest ih =>
      rw [escaped, List.flatMap_cons]
      by_cases hspecial : c = quote ∨ c = '\\'
      · have hletter : (c, c) ∈ escapes := by
          rcases hspecial with rfl | rfl
          · rcases hquote with rfl | rfl <;> decide
          · decide
        rw [if_pos hspecial]
        exact .escape hletter ih
      · obtain ⟨hne, hbackslash⟩ := not_or.1 hspecial
        rw [if_neg hspecial]
        exact .plain hne hbackslash ih

/-- A whole number is written for the index nearest to it. -/
theorem bracketed_toString (n : Int) :
    Bracketed (.index (clampIndex n)) (toString n).toList := by
  have hnear := isNearest_clampIndex n
  have hdigits (m : Nat) : ∀ d ∈ Nat.toDigits 10 m, d.isDigit := fun _ hd =>
    Nat.isDigit_of_mem_toDigits (by decide) (by decide) hd
  cases n with
  | ofNat m =>
      rw [Json.Numeral.toList_toString_ofNat]
      apply Bracketed.index Nat.toDigits_ne_nil (hdigits m)
      rwa [Decimal.natOfDigits, Nat.ofDigitChars_ten_toDigits]
  | negSucc m =>
      rw [Json.Numeral.toList_toString_negSucc]
      apply Bracketed.negative Nat.toDigits_ne_nil (hdigits (m + 1))
      rwa [Decimal.natOfDigits, Nat.ofDigitChars_ten_toDigits]

/-- A step stands between brackets without white space. -/
theorem Bracketed.segment {step : Step} {body : List Char} (h : Bracketed step body) :
    Segment step ('[' :: (body ++ [']'])) := by
  have hblank : isBlankText [] := rfl
  exact .brackets hblank h hblank

end Path

/-! ### The text of a location -/

/-- The segments for a place of a value: a key in quotes, or a position, which may be
counted from the end. -/
inductive Place.Address (v : Value) : Place → List Char → Prop
  | key {quote : Char} {name : String} (hquote : quote = '\'' ∨ quote = '"') :
      Address v (.key name)
        ('[' :: quote :: (Path.escaped quote name.toList ++ [quote, ']']))
  | item {position : Nat} {n : Int} (hn : n = position ∨ n = position - v.itemCount) :
      Address v (.item position) ('[' :: ((toString n).toList ++ [']']))

inductive Location.Address : Value → Location → List Char → Prop
  | here {v : Value} : Address v [] []
  | inside {v child : Value} {place : Place} {rest : Location} {segment text : List Char}
      (hsegment : place.Address v segment) (hchild : place.in? v = some child)
      (h : Address child rest text) : Address v (place :: rest) (segment ++ text)

/-- The path to a location is written as a dollar sign and the segments for its places. -/
def Location.HasPath (root : Value) (location : Location) (path : String) : Prop :=
  ∃ text, location.Address root text ∧ path = String.ofList ('$' :: text)

/-- The segment for a place with single quotes and with the position from the front. -/
def Place.segment : Place → List Char
  | .key name => '[' :: '\'' :: (Path.escaped '\'' name.toList ++ ['\'', ']'])
  | .item position => '[' :: ((toString (position : Int)).toList ++ [']'])

def Location.path (location : Location) : String :=
  String.ofList ('$' :: location.flatMap Place.segment)

theorem Place.address_segment (v : Value) (place : Place) : place.Address v place.segment := by
  cases place with
  | key name => exact .key (Or.inl rfl)
  | item position => exact .item (Or.inl rfl)

/-- Every place in a document can be written down. -/
theorem Location.hasPath_path {root node : Value} {location : Location}
    (hat : root.at? location = some node) : location.HasPath root location.path := by
  refine ⟨_, ?_, rfl⟩
  induction location generalizing root with
  | nil => exact .here
  | cons place rest ih =>
      obtain ⟨child, hchild, hrest⟩ := Option.bind_eq_some_iff.1 hat
      exact .inside (place.address_segment root) hchild (ih hrest)

/-! ### Following an address -/

/-- An index that is written for a position, from either end, counts to it. -/
theorem Value.position_clampIndex {v : Value} (hfits : v.FitsIndex) {position : Nat}
    (hposition : position < v.itemCount) {n : Int}
    (hn : n = position ∨ n = position - v.itemCount) :
    v.position (Path.clampIndex n) = position := by
  have hfits : v.itemCount < 2 ^ 63 := hfits
  have hnear : (Path.clampIndex n).toInt = max (-2 ^ 63) (min (2 ^ 63 - 1) n) :=
    Path.isNearest_clampIndex n
  have hexact : (Path.clampIndex n).toInt = n := by omega
  rw [Value.position, hexact]
  rcases hn with rfl | rfl
  · rw [if_neg (by omega)]
  · rw [if_pos (by omega)]
    omega

/-- The segment for a place is one of a step that leads there and nowhere else. -/
theorem Place.Address.exists_step {v child : Value} {place : Place} {segment : List Char}
    (h : place.Address v segment) (hfits : v.FitsIndex) (hname : place ≠ .key "")
    (hchild : place.in? v = some child) :
    ∃ step, Path.Segment step segment ∧ step.select v = [child] := by
  cases h with
  | @key quote name hquote =>
      have hne : name.toList ≠ [] := by
        intro hnil
        apply hname
        rw [String.toList_eq_nil_iff.1 hnil]
      refine ⟨.property name, ?_, ?_⟩
      · have hbody := Path.Bracketed.quoted hquote hne (Path.quoted_escaped hquote name.toList)
        rw [String.ofList_toList] at hbody
        simpa using hbody.segment
      · change (v.get? name).toList = [child]
        have hget : v.get? name = some child := hchild
        rw [hget]
        rfl
  | @item position n hn =>
      refine ⟨.index (Path.clampIndex n), (Path.bracketed_toString n).segment, ?_⟩
      obtain ⟨items, hitems, hitem⟩ := Option.bind_eq_some_iff.1 hchild
      cases v with
      | array found =>
          cases hitems
          have hposition : position < (Value.array items).itemCount :=
            (List.getElem?_eq_some_iff.1 hitem).1
          rw [Step.select, itemAt?_eq hfits, Value.position_clampIndex hfits hposition hn,
            if_pos (Int.natCast_nonneg position), Int.toNat_natCast, hitem]
          rfl
      | _ => cases hitems

theorem Location.Address.exists_path {root node : Value} {location : Location}
    {text : List Char} (h : location.Address root text) (hfits : root.Everywhere Value.FitsIndex)
    (hat : root.at? location = some node) (hkeys : Place.key "" ∉ location) :
    ∃ path, Path.Segments path text ∧ path.select root = [node] := by
  induction h with
  | here =>
      cases hat
      exact ⟨[], .nil, rfl⟩
  | @inside v child place rest segment text hsegment hchild _ ih =>
      obtain ⟨hname, hkeys⟩ := not_or.1 (mt List.mem_cons.2 hkeys)
      rw [Value.at?, hchild, Option.bind_some] at hat
      obtain ⟨path, hpath, hselect⟩ := ih (hfits.in? hchild) hat hkeys
      obtain ⟨hhere, -⟩ := (Value.everywhere_iff v).1 hfits
      obtain ⟨step, hstep, hfirst⟩ := hsegment.exists_step hhere (Ne.symm hname) hchild
      refine ⟨step :: path, .cons hstep hpath, ?_⟩
      rw [Path.select_cons, hfirst, List.flatMap_singleton, hselect]

/-- The path to a location leads to what stands there. -/
theorem Location.HasPath.evaluate_eq {root node : Value} {location : Location} {path : String}
    (h : location.HasPath root path) (hfits : root.Everywhere Value.FitsIndex)
    (hat : root.at? location = some node) (hkeys : Place.key "" ∉ location) :
    Path.evaluate path root = .ok [node] := by
  obtain ⟨text, haddress, rfl⟩ := h
  obtain ⟨steps, hsteps, hselect⟩ := haddress.exists_path hfits hat hkeys
  have hparse : Path.parse (String.ofList ('$' :: text)) = .ok steps := by
    rw [Path.parse_eq_ok_iff, String.toList_ofList]
    exact .root hsteps
  rw [Path.evaluate_of_parse hparse, hselect]

/-- Every place in a document can be written down, and if no key on the way to it is empty,
each of the ways of writing it down is a path that leads to what stands there, and to nothing
else.  The arrays of the document are short enough for their items to be counted, as every
array in memory is. -/
theorem Path.evaluate_of_hasPath {root node : Value} {location : Location}
    (hfits : root.Everywhere Value.FitsIndex) (hat : root.at? location = some node)
    (hkeys : Place.key "" ∉ location) :
    (∃ path, location.HasPath root path) ∧
      ∀ path, location.HasPath root path → Path.evaluate path root = .ok [node] := by
  constructor
  · exact ⟨location.path, Location.hasPath_path hat⟩
  · intro path hpath
    exact hpath.evaluate_eq hfits hat hkeys

/-- A key with both quotes, a backslash and a line break, in either kind of quotes; a key
that looks like segments; and an item counted from either end. -/
theorem Path.evaluate_of_hasPath_of_awkward_keys :
    let root : Value := .object [("it's \"a\\b\"\n", .array [.null,
      .object [("x.y[0]", .bool true)]])]
    let location : Location := [.key "it's \"a\\b\"\n", .item 1, .key "x.y[0]"]
    let paths := ["$['it\\'s \"a\\\\b\"\n'][1]['x.y[0]']",
      "$[\"it's \\\"a\\\\b\\\"\n\"][-1][\"x.y[0]\"]"]
    root.Everywhere Value.FitsIndex ∧ root.at? location = some (.bool true) ∧
      Place.key "" ∉ location ∧
      ∀ path ∈ paths, location.HasPath root path ∧
        Path.evaluate path root = .ok [.bool true] := by
  intro root location paths
  have hfits : root.Everywhere Value.FitsIndex := by decide
  have hat : root.at? location = some (.bool true) := by rfl
  have hkeys : Place.key "" ∉ location := by decide
  have hsingle : '\'' = '\'' ∨ '\'' = '"' := Or.inl rfl
  have hdouble : '"' = '\'' ∨ '"' = '"' := Or.inr rfl
  have hpaths : ∀ path ∈ paths, location.HasPath root path := by
    intro path hpath
    rcases List.mem_pair.1 hpath with rfl | rfl
    · have hfirst : location.Address root _ := .inside (.key hsingle) rfl
        (.inside (.item (n := 1) (Or.inl rfl)) rfl (.inside (.key hsingle) rfl .here))
      exact ⟨_, hfirst, by cbv⟩
    · have hsecond : location.Address root _ := .inside (.key hdouble) rfl
        (.inside (.item (n := -1) (Or.inr rfl)) rfl (.inside (.key hdouble) rfl .here))
      exact ⟨_, hsecond, by cbv⟩
  refine ⟨hfits, hat, hkeys, ?_⟩
  intro path hpath
  exact ⟨hpaths path hpath, (Path.evaluate_of_hasPath hfits hat hkeys).2 path (hpaths path hpath)⟩

end DocWeave

/-
What a settings file holds: values, and tables under keys.  Every table remembers how
it came to be, because that decides in which other ways it may still grow.
-/
import DocWeave.Entries
import DocWeave.Value.Number

namespace DocWeave.Toml

/-- How a table came to be. -/
inductive Origin where
  /-- It has a header of its own, or it is a whole file. -/
  | header
  /-- The header of another table lies below it. -/
  | implied
  /-- A key with dots leads through it. -/
  | dotted
deriving Repr, DecidableEq

inductive Node where
  | string (s : String)
  | number (n : Number)
  | boolean (b : Bool)
  /-- A date, a time of day, or both. -/
  | moment
  | array (items : List Node)
  /-- A table that was written as a value, and which is closed. -/
  | record (members : List (String × Node))
  | table (origin : Origin) (members : List (String × Node))
  /-- Tables under headers of one name, in order. -/
  | tables (each : List (List (String × Node)))

abbrev Members := Entries Node

namespace Members

def add? (members : Members) (key : String) (value : Node) : Option Members :=
  if (members.find? key).isSome then none else some (members ++ [(key, value)])

/-- Gives a key with dots a value.  The tables on its way may not have headers, and
the last of them has to have come about by such a key. -/
def assign? (members : Members) : List String → Node → Option Members
  | [], _ => none
  | [key], value => members.add? key value
  | key :: next :: rest, value =>
      let grow := fun (origin : Origin) (inner : Members) =>
        if rest.isEmpty ∧ origin ≠ .dotted then none
        else assign? inner (next :: rest) value
      match members.find? key with
      | none => (grow .dotted []).map fun inner => members.insert key (.table .dotted inner)
      | some (.table .header _) => none
      | some (.table origin inner) =>
          (grow origin inner).map fun inner => members.insert key (.table origin inner)
      | some (.tables each) =>
          match each.getLast? with
          | some inner => (grow .header inner).map fun inner =>
              members.insert key (.tables (each.dropLast ++ [inner]))
          | none => none
      | some _ => none

/-- Replaces what a header names.  Tables on its way that are not there come to be;
of several tables under one name the last one is meant. -/
def update? (change : Option Node → Option Node) (members : Members) :
    List String → Option Members
  | [] => none
  | [key] => (change (members.find? key)).map fun node => members.insert key node
  | key :: next :: rest =>
      match members.find? key with
      | none => (update? change [] (next :: rest)).map fun inner =>
          members.insert key (.table .implied inner)
      | some (.table origin inner) => (update? change inner (next :: rest)).map fun inner =>
          members.insert key (.table origin inner)
      | some (.tables each) =>
          match each.getLast? with
          | some inner => (update? change inner (next :: rest)).map fun inner =>
              members.insert key (.tables (each.dropLast ++ [inner]))
          | none => none
      | some _ => none

def assignAll? (members : Members) (pairs : List (List String × Node)) : Option Members :=
  pairs.foldlM (fun members pair => members.assign? pair.1 pair.2) members

/-- Adds a table under its header.  A table may have one header, and none once it has
come about by a key with dots. -/
def open? (members : Members) (path : List String) (pairs : List (List String × Node)) :
    Option Members :=
  members.update? (fun
    | none => (assignAll? [] pairs).map (.table .header)
    | some (.table .implied inner) => (assignAll? inner pairs).map (.table .header)
    | some _ => none) path

def append? (members : Members) (path : List String) (pairs : List (List String × Node)) :
    Option Members :=
  members.update? (fun
    | none => (assignAll? [] pairs).map fun inner => .tables [inner]
    | some (.tables each) => (assignAll? [] pairs).map fun inner => .tables (each ++ [inner])
    | some _ => none) path

end Members

end DocWeave.Toml

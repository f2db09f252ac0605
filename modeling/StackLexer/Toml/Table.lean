import StackLexer.Toml.Value

/-! The tables of a TOML document while it is read.
A table is defined once: by a header, in braces, or by the keys of its parts joined with points.
What is defined in one way cannot be added to in another, but a table that exists only because one
inside it has a header may still get its own. -/

namespace StackLexer.Toml

inductive Definition where
  | explicit
  /-- As a place for a table with a header. -/
  | implied
  | dotted
  deriving DecidableEq, Repr, Inhabited

inductive Item where
  | value (v : Value)
  | table (definition : Definition) (entries : List (String × Item))
  /-- Tables with one header, latest first. Each of them is a table of its own. -/
  | tables (items : List (List (String × Item)))
  deriving Repr, Inhabited

abbrev Entries := List (String × Item)

namespace Entries

def put (entries : Entries) (key : String) (item : Item) : Entries :=
  if (entries.lookup key).isSome then entries.map (fun e => if e.1 == key then (key, item) else e)
  else entries ++ [(key, item)]

/-- Changes the table at the end of a path. `dotted` says that the path is part of a key; tables
on it that are missing are made. -/
def change (dotted : Bool) (f : Definition → Entries → Option Entries) (definition : Definition)
    (entries : Entries) : List String → Option Entries
  | [] => f definition entries
  | key :: path =>
    let kind := if dotted then Definition.dotted else .implied
    match entries.lookup key with
    | none => (change dotted f kind [] path).map (fun inner => put entries key (.table kind inner))
    | some (.table definition inner) =>
      if dotted && definition = .explicit then none
      else
        (change dotted f definition inner path).map (fun inner =>
          put entries key (.table definition inner))
    | some (.tables (last :: others)) =>
      (change dotted f .explicit last path).map (fun last =>
        put entries key (.tables (last :: others)))
    | some _ => none

def addPair (entries : Entries) (path : List String) (key : String) (v : Value) : Option Entries :=
  change true (fun definition inner =>
    if (definition == .dotted) == path.isEmpty || (inner.lookup key).isSome then none
    else some (put inner key (.value v))) .explicit entries path

def addTable (entries : Entries) (path : List String) (key : String) : Option Entries :=
  change false (fun _ inner =>
    match inner.lookup key with
    | none => some (put inner key (.table .explicit []))
    | some (.table .implied own) => some (put inner key (.table .explicit own))
    | some _ => none) .explicit entries path

def addToTables (entries : Entries) (path : List String) (key : String) : Option Entries :=
  change false (fun _ inner =>
    match inner.lookup key with
    | none => some (put inner key (.tables [[]]))
    | some (.tables items) => some (put inner key (.tables ([] :: items)))
    | some _ => none) .explicit entries path

def addPairAt (entries : Entries) (header : List String) (path : List String) (key : String)
    (v : Value) : Option Entries :=
  change false (fun _ inner => addPair inner path key v) .explicit entries header

end Entries

mutual

def Item.toValue : Item → Value
  | .value v => v
  | .table _ entries => .table (entryValues entries)
  | .tables items => .array (tableValues items).reverse

def entryValues : List (String × Item) → List (String × Value)
  | [] => []
  | (key, item) :: rest => (key, item.toValue) :: entryValues rest

def tableValues : List (List (String × Item)) → List Value
  | [] => []
  | entries :: rest => .table (entryValues entries) :: tableValues rest

end

end StackLexer.Toml

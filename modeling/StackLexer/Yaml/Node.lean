import StackLexer.Yaml.Scalar

/-! The content of a document as a tree.
A node that has an anchor is marked with a number, and an alias names that number. `Value` is a
node in which the aliases have been replaced by what they stand for. -/

namespace StackLexer.Yaml

inductive Node where
  | scalar (s : Scalar)
  | sequence (tag : Option String) (items : List Node)
  | mapping (tag : Option String) (entries : List (Node × Node))
  | reference (anchor : Nat)
  | anchored (anchor : Nat) (node : Node)
  deriving Repr, Inhabited

inductive Value where
  | scalar (s : Scalar)
  | sequence (tag : Option String) (items : List Value)
  | mapping (tag : Option String) (entries : List (Value × Value))
  deriving Repr, Inhabited

namespace Node

def empty : Node := .scalar {}

mutual

def anchors : Node → List (Nat × Node)
  | scalar _ | reference _ => []
  | sequence _ items => itemAnchors items
  | mapping _ entries => entryAnchors entries
  | anchored n node => (n, node) :: anchors node

def itemAnchors : List Node → List (Nat × Node)
  | [] => []
  | item :: rest => anchors item ++ itemAnchors rest

def entryAnchors : List (Node × Node) → List (Nat × Node)
  | [] => []
  | (key, value) :: rest => anchors key ++ anchors value ++ entryAnchors rest

end

mutual

def size : Node → Nat
  | scalar _ | reference _ => 1
  | sequence _ items => itemsSize items + 2
  | mapping _ entries => entriesSize entries + 2
  | anchored _ node => size node

def itemsSize : List Node → Nat
  | [] => 0
  | item :: rest => size item + itemsSize rest

def entriesSize : List (Node × Node) → Nat
  | [] => 0
  | (key, value) :: rest => size key + size value + entriesSize rest

end

def anchored? (anchors : List (Nat × Node)) (n : Nat) : Option Node :=
  (anchors.reverse.lookup n).map strip
where
  strip : Node → Node
    | anchored _ node => strip node
    | node => node

mutual

def expand (table : List (Nat × Node)) (depth budget : Nat) (node : Node) :
    Option (Value × Nat) :=
  match node with
  | scalar s => some (.scalar s, budget)
  | anchored _ node => expand table depth budget node
  | sequence tag items =>
    match depth with
    | 0 => none
    | depth + 1 =>
      (expandItems table depth budget items).map (fun (items, left) => (.sequence tag items, left))
  | mapping tag entries =>
    match depth with
    | 0 => none
    | depth + 1 =>
      (expandEntries table depth budget entries).map (fun (entries, left) =>
        (.mapping tag entries, left))
  | reference n =>
    match budget with
    | 0 => none
    | budget + 1 =>
      match anchored? table n, depth with
      | some (scalar s), _ => some (.scalar s, budget)
      | some (sequence tag items), depth + 1 =>
        (expandItems table depth budget items).map (fun (items, left) =>
          (.sequence tag items, left))
      | some (mapping tag entries), depth + 1 =>
        (expandEntries table depth budget entries).map (fun (entries, left) =>
          (.mapping tag entries, left))
      | _, _ => none
termination_by (depth, sizeOf node)

def expandItems (table : List (Nat × Node)) (depth budget : Nat) (items : List Node) :
    Option (List Value × Nat) :=
  match items with
  | [] => some ([], budget)
  | item :: rest =>
    match expand table depth budget item with
    | none => none
    | some (value, left) =>
      (expandItems table depth left rest).map (fun (values, left) => (value :: values, left))
termination_by (depth, sizeOf items)

def expandEntries (table : List (Nat × Node)) (depth budget : Nat) (entries : List (Node × Node)) :
    Option (List (Value × Value) × Nat) :=
  match entries with
  | [] => some ([], budget)
  | (key, value) :: rest =>
    match expand table depth budget key with
    | none => none
    | some (key, left) =>
      match expand table depth left value with
      | none => none
      | some (value, left) =>
        (expandEntries table depth left rest).map (fun (entries, left) =>
          ((key, value) :: entries, left))
termination_by (depth, sizeOf entries)

end

def depthLimit : Nat := 128

/-- The value of a node. There is none if it is nested too deep or its aliases stand for too
much. -/
def value? (node : Node) : Option Value :=
  (expand node.anchors depthLimit (node.size * 100) node).map Prod.fst

end Node

end StackLexer.Yaml

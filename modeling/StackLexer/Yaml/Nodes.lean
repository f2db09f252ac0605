import StackLexer.Yaml.Node
import StackLexer.Yaml.Tokens

/-! The node that the tokens of a document make.
A reader returns what it has read with the tokens after it and a proof that these have become
fewer, by which all readers end. -/

namespace StackLexer.Yaml

structure Names where
  anchors : List (String × Nat) := []
  handles : List (String × String) := []
  deriving Repr, Inhabited

namespace Names

/-- Numbers an anchor. The number is how many names there are, so that a name given anew shares
the number that the next name gets. -/
def add (names : Names) (name : String) : Names × Nat :=
  let n := (names.anchors.map Prod.fst).eraseDups.length
  ({ names with anchors := (name, n) :: names.anchors }, n)

def tag? (names : Names) (handle suffix : String) : Option String :=
  if handle.isEmpty then some suffix
  else (names.handles.lookup handle).map (· ++ suffix)

end Names

structure Parsed (α : Type) (bound : Nat) where
  result : α
  names : Names
  rest : List Token
  fewer : rest.length < bound

namespace Parsed

variable {α β : Type} {m n : Nat}

def widen (p : Parsed α m) (h : m ≤ n) : Parsed α n :=
  { p with fewer := Nat.lt_of_lt_of_le p.fewer h }

def map (f : α → β) (p : Parsed α n) : Parsed β n := { p with result := f p.result }

/-- Nothing, if what comes next is one of the tokens before which a node may be left out, and else
what has been read. -/
def orEmpty (ends : Token → Bool) (names : Names) (ts : List Token)
    (read : Option (Parsed Node ts.length)) : Option (Parsed Node (ts.length + 1)) :=
  if ts.head?.any ends then some ⟨.empty, names, ts, Nat.lt_succ_self _⟩
  else read.map (widen · (Nat.le_succ _))

end Parsed

structure Properties (bound : Nat) where
  tag : Option String := none
  mark : Node → Node := id
  names : Names
  rest : List Token
  any : Bool
  within : rest.length ≤ bound
  fewer : any = true → rest.length < bound

namespace Properties

def read (names : Names) : (ts : List Token) → Option (Properties ts.length)
  | .anchor a :: .tag handle suffix :: rest =>
    let (names, n) := names.add a
    (names.tag? handle suffix).map (fun tag =>
      ⟨some tag, .anchored n, names, rest, true, by simp only [List.length_cons]; omega,
        fun _ => by simp only [List.length_cons]; omega⟩)
  | .tag handle suffix :: .anchor a :: rest =>
    let (names, n) := names.add a
    (names.tag? handle suffix).map (fun tag =>
      ⟨some tag, .anchored n, names, rest, true, by simp only [List.length_cons]; omega,
        fun _ => by simp only [List.length_cons]; omega⟩)
  | .anchor a :: rest =>
    let (names, n) := names.add a
    some ⟨none, .anchored n, names, rest, true, Nat.le_succ _, fun _ => Nat.lt_succ_self _⟩
  | .tag handle suffix :: rest =>
    (names.tag? handle suffix).map (fun tag =>
      ⟨some tag, id, names, rest, true, Nat.le_succ _, fun _ => Nat.lt_succ_self _⟩)
  | ts => some ⟨none, id, names, ts, false, Nat.le_refl _, nofun⟩

end Properties

def beginsContent (inBlock indentless : Bool) : Token → Bool
  | .scalar .. | .flowSequenceStart | .flowMappingStart => true
  | .blockSequenceStart | .blockMappingStart => inBlock
  | .blockEntry => indentless
  | _ => false

def endsEntry (indentless : Bool) : Token → Bool
  | .blockEntry | .blockEnd => true
  | .key | .value => indentless
  | _ => false

def endsBlockPart : Token → Bool
  | .key | .value | .blockEnd => true
  | _ => false

def endsFlowPart : Token → Bool
  | .value | .flowEntry | .flowSequenceEnd | .flowMappingEnd => true
  | _ => false

mutual

/-- Reads a node. Blocks are taken only outside brackets, and a sequence that is not indented only
as the key or value of a block. -/
def node (names : Names) (inBlock indentless : Bool) (ts : List Token) :
    Option (Parsed Node ts.length) :=
  match ts with
  | .reference name :: rest =>
    (names.anchors.lookup name).map (fun n => ⟨.reference n, names, rest, Nat.lt_succ_self _⟩)
  | ts =>
    match Properties.read names ts with
    | none => none
    | some p =>
      if p.rest.head?.any (beginsContent inBlock indentless) then
        (content p.names p.tag p.rest).map (fun c => (c.map p.mark).widen p.within)
      else if _some : p.any then some ⟨p.mark (.scalar { tag := p.tag }), p.names, p.rest, p.fewer _some⟩
      else none
termination_by (ts.length, 1)
decreasing_by
  have := p.within
  rcases Nat.lt_or_eq_of_le this with h | h
  · exact Prod.Lex.left _ _ h
  · rw [h]; exact Prod.Lex.right _ (by decide)

def content (names : Names) (tag : Option String) (ts : List Token) :
    Option (Parsed Node ts.length) :=
  match ts with
  | .scalar text style :: rest =>
    -- An exclamation mark alone is no tag of a scalar.
    some ⟨.scalar ⟨text, style, tag.filter (· ≠ "!")⟩, names, rest, Nat.lt_succ_self _⟩
  | .blockEntry :: rest => (entries names true [] rest).map (·.map (Node.sequence tag))
  | .blockSequenceStart :: .blockEntry :: rest =>
    (entries names false [] rest).map (fun p => (p.map (Node.sequence tag)).widen (Nat.le_succ _))
  | .blockMappingStart :: rest => (pairs names [] rest).map (·.map (Node.mapping tag))
  | .flowSequenceStart :: rest => (flowItems names true [] rest).map (·.map (Node.sequence tag))
  | .flowMappingStart :: rest => (flowPairs names true [] rest).map (·.map (Node.mapping tag))
  | _ => none
termination_by (ts.length, 0)
decreasing_by all_goals (apply Prod.Lex.left; simp only [List.length_cons]; omega)

def entries (names : Names) (indentless : Bool) (read : List Node) (ts : List Token) :
    Option (Parsed (List Node) (ts.length + 1)) :=
  match Parsed.orEmpty (endsEntry indentless) names ts (node names true false ts) with
  | none => none
  | some p =>
    let items := p.result :: read
    match _next : p.rest with
    | .blockEntry :: rest =>
      have _fewer : rest.length < ts.length := by
        have := p.fewer
        simp only [_next, List.length_cons] at this
        omega
      (entries p.names indentless items rest).map (·.widen (by omega))
    | .blockEnd :: rest =>
      if indentless then some ⟨items.reverse, p.names, p.rest, p.fewer⟩
      else some ⟨items.reverse, p.names, rest, by
        have := p.fewer
        simp only [_next, List.length_cons] at this
        omega⟩
    | _ => if indentless then some ⟨items.reverse, p.names, p.rest, p.fewer⟩ else none
termination_by (ts.length, 2)
decreasing_by
  · exact Prod.Lex.right _ (by decide)
  · exact Prod.Lex.left _ _ _fewer

def pairs (names : Names) (read : List (Node × Node)) (ts : List Token) :
    Option (Parsed (List (Node × Node)) (ts.length + 1)) :=
  match ts with
  | .blockEnd :: rest => some ⟨read.reverse, names, rest, by simp only [List.length_cons]; omega⟩
  | .key :: rest =>
    match Parsed.orEmpty endsBlockPart names rest (node names true true rest) with
    | none => none
    | some k =>
      match _next : k.rest with
      | .value :: after =>
        have _fewer : after.length < rest.length := by
          have := k.fewer
          simp only [_next, List.length_cons] at this
          omega
        match Parsed.orEmpty endsBlockPart k.names after (node k.names true true after) with
        | none => none
        | some v =>
          have _less : v.rest.length ≤ rest.length := by
            have := v.fewer
            omega
          (pairs v.names ((k.result, v.result) :: read) v.rest).map
            (·.widen (by simp only [List.length_cons]; omega))
      | _ =>
        have _less : k.rest.length ≤ rest.length := by
          have := k.fewer
          omega
        (pairs k.names ((k.result, .empty) :: read) k.rest).map
          (·.widen (by simp only [List.length_cons]; omega))
  | _ => none
termination_by (ts.length, 2)
decreasing_by all_goals (apply Prod.Lex.left; simp only [List.length_cons]; omega)

def flowPair (names : Names) (ts : List Token) : Option (Parsed (Node × Node) (ts.length + 1)) :=
  match Parsed.orEmpty endsFlowPart names ts (node names false false ts) with
  | none => none
  | some k =>
    match _next : k.rest with
    | .value :: after =>
      have _fewer : after.length < ts.length := by
        have := k.fewer
        simp only [_next, List.length_cons] at this
        omega
      (Parsed.orEmpty endsFlowPart k.names after (node k.names false false after)).map (fun v =>
        (v.map (fun value => (k.result, value))).widen (by omega))
    | _ => some (k.map (fun key => (key, .empty)))
termination_by (ts.length, 2)
decreasing_by
  · exact Prod.Lex.right _ (by decide)
  · exact Prod.Lex.left _ _ _fewer

def flowItems (names : Names) (first : Bool) (read : List Node) (ts : List Token) :
    Option (Parsed (List Node) (ts.length + 1)) :=
  match ts with
  | .flowSequenceEnd :: rest =>
    some ⟨read.reverse, names, rest, by simp only [List.length_cons]; omega⟩
  | .flowEntry :: rest =>
    if first then none
    else match rest with
      | .flowSequenceEnd :: rest =>
        some ⟨read.reverse, names, rest, by simp only [List.length_cons]; omega⟩
      | rest => (flowItem names read rest).map (·.widen (by simp only [List.length_cons]; omega))
  | ts => if first then flowItem names read ts else none
termination_by (ts.length, 4)
decreasing_by
  · exact Prod.Lex.left _ _ (by simp only [List.length_cons]; omega)
  · exact Prod.Lex.right _ (by decide)

def flowItem (names : Names) (read : List Node) (ts : List Token) :
    Option (Parsed (List Node) (ts.length + 1)) :=
  match ts with
  | .key :: rest =>
    match flowPair names rest with
    | none => none
    | some p =>
      have _fewer := p.fewer
      (flowItems p.names false (.mapping none [p.result] :: read) p.rest).map
        (·.widen (by simp only [List.length_cons]; omega))
  | ts =>
    match node names false false ts with
    | none => none
    | some p =>
      have _fewer := p.fewer
      (flowItems p.names false (p.result :: read) p.rest).map (·.widen (by omega))
termination_by (ts.length, 3)
decreasing_by
  · exact Prod.Lex.left _ _ (by simp only [List.length_cons]; omega)
  · exact Prod.Lex.left _ _ (by simp only [List.length_cons]; omega)
  · exact Prod.Lex.right _ (by decide)
  · exact Prod.Lex.left _ _ (by omega)

def flowPairs (names : Names) (first : Bool) (read : List (Node × Node)) (ts : List Token) :
    Option (Parsed (List (Node × Node)) (ts.length + 1)) :=
  match ts with
  | .flowMappingEnd :: rest =>
    some ⟨read.reverse, names, rest, by simp only [List.length_cons]; omega⟩
  | .flowEntry :: rest =>
    if first then none
    else match rest with
      | .flowMappingEnd :: rest =>
        some ⟨read.reverse, names, rest, by simp only [List.length_cons]; omega⟩
      | rest => (flowMember names read rest).map (·.widen (by simp only [List.length_cons]; omega))
  | ts => if first then flowMember names read ts else none
termination_by (ts.length, 4)
decreasing_by
  · exact Prod.Lex.left _ _ (by simp only [List.length_cons]; omega)
  · exact Prod.Lex.right _ (by decide)

def flowMember (names : Names) (read : List (Node × Node)) (ts : List Token) :
    Option (Parsed (List (Node × Node)) (ts.length + 1)) :=
  match ts with
  | .key :: rest =>
    match flowPair names rest with
    | none => none
    | some p =>
      have _fewer := p.fewer
      (flowPairs p.names false (p.result :: read) p.rest).map
        (·.widen (by simp only [List.length_cons]; omega))
  | ts =>
    match node names false false ts with
    | none => none
    | some p =>
      have _fewer := p.fewer
      (flowPairs p.names false ((p.result, .empty) :: read) p.rest).map (·.widen (by omega))
termination_by (ts.length, 3)
decreasing_by
  · exact Prod.Lex.left _ _ (by simp only [List.length_cons]; omega)
  · exact Prod.Lex.left _ _ (by simp only [List.length_cons]; omega)
  · exact Prod.Lex.right _ (by decide)
  · exact Prod.Lex.left _ _ (by omega)

end

/-! ### Documents -/

def standardHandles : List (String × String) := [("!", "!"), ("!!", "tag:yaml.org,2002:")]

/-- The handles that the directives before a document declare, and the tokens after them. A version
or a handle is declared once at most, and the version is 1.1 or 1.2. -/
def directives (version : Bool) (handles : List (String × String)) :
    List Token → Option (List (String × String) × List Token)
  | .version major minor :: rest =>
    if !version && major = 1 && (minor = 1 || minor = 2) then directives true handles rest else none
  | .tagHandle handle expansion :: rest =>
    if (handles.lookup handle).isSome then none
    else directives version ((handle, expansion) :: handles) rest
  | rest => some (handles, rest)

def isOver (ts : List Token) : Bool := ts.all (· == .documentEnd)

def Node.ofTokens? (ts : List Token) : Option (Option Node) :=
  match ts with
  | [] => some none
  | .version .. :: _ | .tagHandle .. :: _ | .documentStart :: _ => do
    let (handles, rest) ← directives false [] ts
    let names : Names := { handles := handles ++ standardHandles }
    match rest with
    | .documentStart :: rest =>
      match rest with
      | [] | .documentEnd :: _ => if isOver rest then some (some .empty) else none
      | rest => do
        let p ← node names true false rest
        if isOver p.rest then some (some p.result) else none
    | _ => none
  | ts => do
    let p ← node { handles := standardHandles } true false ts
    if isOver p.rest then some (some p.result) else none

def Value.ofText? (text : String) : Option (Option Value) := do
  match ← Node.ofTokens? (← Token.ofText? text) with
  | none => some none
  | some node => node.value?.map some

end StackLexer.Yaml

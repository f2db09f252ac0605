/-! Names of files as they are written on a command line. -/

namespace StackLexer

inductive PathStep where
  | up
  | down (name : String)
  deriving DecidableEq, Repr, Inhabited

/-- A path with its steps. Steps to the same folder, which are empty or a single point, are left
out. -/
structure PathName where
  fromRoot : Bool
  steps : List PathStep
  /-- Whether the way ends with a step to the same folder, so that only a folder fits. -/
  isFolder : Bool
  deriving DecidableEq, Repr, Inhabited

namespace PathName

/-- The parts of a text between slashes, the first of which goes on from `current`, latest
character first. -/
def partsFrom (current : List Char) : List Char → List String
  | [] => [String.ofList current.reverse]
  | c :: rest =>
    if c = '/' then String.ofList current.reverse :: partsFrom [] rest
    else partsFrom (c :: current) rest

def step? (part : String) : Option PathStep :=
  if part = "" || part = "." then none
  else if part = ".." then some .up
  else some (.down part)

def ofString (text : String) : PathName :=
  let parts := partsFrom [] text.toList
  { fromRoot := text.toList.head? = some '/'
    steps := parts.filterMap step?
    isFolder := parts.getLast?.bind step? = none }

def stepText : PathStep → String
  | .up => ".."
  | .down name => name

def text (p : PathName) : String :=
  (if p.fromRoot then "/" else "") ++ "/".intercalate (p.steps.map stepText)

def fileName? (p : PathName) : Option String :=
  match p.steps.getLast? with
  | some (.down name) => some name
  | _ => none

def extension? (p : PathName) : Option String :=
  p.fileName?.bind (fun name =>
    let backwards := name.toList.reverse
    match backwards.dropWhile (· ≠ '.') with
    | [] | [_] => none
    | _ :: _ :: _ => some (String.ofList (backwards.takeWhile (· ≠ '.')).reverse))

def withSuffix? (p : PathName) (suffix : String) : Option PathName :=
  p.fileName?.map (fun name =>
    { p with steps := p.steps.dropLast ++ [.down (name ++ suffix)], isFolder := false })

end PathName

end StackLexer

import StackLexer.Command.PathName

/-! Reading files by their paths, and a folder that is held in memory. -/

namespace StackLexer

inductive ReadFault where
  | notFound
  | permissionDenied
  /-- A file stands where the path goes on. -/
  | notFolder
  | isFolder
  | nameTooLong
  | notText
  | unknown
  deriving DecidableEq, Repr, Inhabited

def ReadFault.message : ReadFault → String
  | notFound => "No such file or directory (os error 2)"
  | permissionDenied => "Permission denied (os error 13)"
  | notFolder => "Not a directory (os error 20)"
  | isFolder => "Is a directory (os error 21)"
  | nameTooLong => "File name too long (os error 36)"
  | notText => "stream did not contain valid UTF-8"
  | unknown => "Input/output error (os error 5)"

structure Folder where
  files : List (List String × List UInt8) := []
  deriving Repr, Inhabited

namespace Folder

inductive Place where
  | file (bytes : List UInt8)
  | inside (names : List String)
  | outside
  deriving Repr, Inhabited

def insert (folder : Folder) (path : String) (bytes : List UInt8) : Folder :=
  let names := (PathName.ofString path).steps.map PathName.stepText
  { files := (names, bytes) :: folder.files.filter (fun f => f.1 ≠ names) }

def nameLimit : Nat := 255

def pathLimit : Nat := 4095

def step (folder : Folder) (place : Place) (s : PathStep) : Except ReadFault Place :=
  match place, s with
  | .file _, _ => .error .notFolder
  | .outside, .up => .ok .outside
  | .outside, .down name =>
    .error (if name.utf8ByteSize > nameLimit then .nameTooLong else .notFound)
  | .inside [], .up => .ok .outside
  | .inside (n :: names), .up => .ok (.inside (n :: names).dropLast)
  | .inside names, .down name =>
    if name.utf8ByteSize > nameLimit then .error .nameTooLong
    else
      let next := names ++ [name]
      match folder.files.lookup next with
      | some bytes => .ok (.file bytes)
      | none =>
        if folder.files.any (fun f => next.isPrefixOf f.1) then .ok (.inside next)
        else .error .notFound

def read (folder : Folder) (path : String) : Except ReadFault (List UInt8) :=
  if path.isEmpty then .error .notFound
  else if path.utf8ByteSize > pathLimit then .error .nameTooLong
  else
    let p := PathName.ofString path
    match p.steps.foldlM folder.step (if p.fromRoot then .outside else .inside []) with
    | .error fault => .error fault
    | .ok (.file bytes) => if p.isFolder then .error .notFolder else .ok bytes
    | .ok _ => .error .isFolder

end Folder

end StackLexer

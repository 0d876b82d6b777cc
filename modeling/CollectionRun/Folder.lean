import CollectionRun.OrderedMap
import CollectionRun.Text.Search

/-! A path is read without its single dots and doubled slashes; double dots are followed when a
file is looked up. Of what lies outside a folder, only the folders above it, the standard folders
below the root and the device that is always empty can be named. -/

namespace CollectionRun

structure Path where
  root : String
  parts : List String
  deriving DecidableEq, Repr

namespace Path

/-- The root of a path; two slashes, and no more, are a root of their own. -/
def rootOf : List Char → String
  | '/' :: '/' :: '/' :: _ => "/"
  | '/' :: '/' :: _ => "//"
  | '/' :: _ => "/"
  | _ => ""

def ofString (s : String) : Path :=
  ⟨rootOf s.toList,
    ((Text.splitAt '/' s.toList).filter fun p => !p.isEmpty && p != ['.']).map String.ofList⟩

def toString (p : Path) : String :=
  let s := p.root ++ "/".intercalate p.parts
  if s.isEmpty then "." else s

end Path

inductive FileProblem where
  | missing
  | notFolder
  | isFolder
  | nameTooLong
  deriving DecidableEq, Repr

def FileProblem.message : FileProblem → String
  | .missing => "[Errno 2] No such file or directory"
  | .notFolder => "[Errno 20] Not a directory"
  | .isFolder => "[Errno 21] Is a directory"
  | .nameTooLong => "[Errno 36] File name too long"

structure Folder where
  files : OrderedMap (List String) (List UInt8) := .empty
  deriving Repr

namespace Folder

/-- Where a path leads: to a place in the folder, to a folder above it, or to a place below the
root. -/
inductive Place where
  | within (parts : List String)
  | above
  | rooted (parts : List String)
  deriving DecidableEq, Repr

def standardFolders : List String :=
  ["bin", "boot", "dev", "etc", "home", "lib", "media", "mnt", "opt", "proc", "root", "run", "sbin",
    "srv", "sys", "tmp", "usr", "var"]

def emptyDevice : List String := ["dev", "null"]

def isRooted : List String → Bool
  | [] => true
  | [part] => standardFolders.contains part
  | parts => parts = emptyDevice

def isFolder (f : Folder) (parts : List String) : Bool :=
  parts.isEmpty || f.files.keys.any fun file => parts.isPrefixOf file && parts != file

def longestPart : Nat := 255

def longestPath : Nat := 4095

def enter (f : Folder) (place : Place) (part : String) : Except FileProblem Place :=
  match place with
  | .above =>
    if longestPart < part.utf8ByteSize then .error .nameTooLong
    else if part = ".." then .ok .above
    else .error .missing
  | .rooted parts =>
    if parts = emptyDevice then .error .notFolder
    else if longestPart < part.utf8ByteSize then .error .nameTooLong
    else if part = ".." then .ok (.rooted parts.dropLast)
    else if isRooted (parts ++ [part]) then .ok (.rooted (parts ++ [part]))
    else .error .missing
  | .within parts =>
    if f.files.contains parts then .error .notFolder
    else if longestPart < part.utf8ByteSize then .error .nameTooLong
    else if part = ".." then .ok (if parts.isEmpty then .above else .within parts.dropLast)
    else
      let next := parts ++ [part]
      if f.files.contains next || f.isFolder next then .ok (.within next) else .error .missing

def read (f : Folder) (p : Path) : Except FileProblem (List UInt8) := do
  if longestPath < p.toString.utf8ByteSize then throw .nameTooLong
  let start : Place := if p.root.isEmpty then .within [] else .rooted []
  match ← p.parts.foldlM f.enter start with
  | .above => .error .isFolder
  | .rooted parts => if parts = emptyDevice then .ok [] else .error .isFolder
  | .within parts =>
    match f.files.get? parts with
    | some octets => .ok octets
    | none => .error .isFolder

end Folder

end CollectionRun

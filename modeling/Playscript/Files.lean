import Playscript.Fault

/-!
# Files

Scripts are read from a tree of files. A path is taken apart into its segments, where empty ones and
single points do not count; double points lead to the directory above, also at the end of a path to
a directory that exists. Of what lies outside the tree only the directories around it are known. A
file holds UTF-8, and every line end reads as a line feed.
-/
namespace Playscript

/-- Where a path starts: in the directory of the tree, or at a root. A root of two slashes is a root
of its own. -/
inductive FilePath.Root where
  | here
  | slash
  | doubleSlash
  deriving DecidableEq, Repr

structure FilePath where
  root : FilePath.Root
  segments : List String
  deriving DecidableEq, Repr

namespace FilePath

def rootOf : List Char → Root
  | '/' :: '/' :: '/' :: _ => .slash
  | '/' :: '/' :: _ => .doubleSlash
  | '/' :: _ => .slash
  | _ => .here

def ofString (s : String) : FilePath where
  root := rootOf s.toList
  segments := ((s.toList.splitOn '/').map String.ofList).filter fun segment =>
    segment ≠ "" ∧ segment ≠ "."

def endsInDirectory (s : String) : Bool :=
  let last := (s.toList.splitOn '/').getLast?.getD []
  last == [] || last == ['.'] || last == ['.', '.']

def within (directory path : FilePath) : FilePath :=
  match path.root with
  | .here => ⟨directory.root, directory.segments ++ path.segments⟩
  | _ => path

def toString (path : FilePath) : String :=
  let text := "/".intercalate path.segments
  match path.root with
  | .slash => "/" ++ text
  | .doubleSlash => "//" ++ text
  | .here => if text = "" then "." else text

def segmentLimit : Nat := 255

def lengthLimit : Nat := 4095

end FilePath

/-- Files by path, and directories that were made for themselves. Every directory on the way to a
file exists too. -/
structure FileTree where
  files : List (List String × List UInt8)
  directories : List (List String)

namespace FileTree

def hasDirectory (tree : FileTree) (segments : List String) : Bool :=
  segments.isEmpty || tree.directories.any segments.isPrefixOf ||
    tree.files.any fun file => segments.isPrefixOf file.1 && segments != file.1

inductive Entry where
  | file (bytes : List UInt8)
  | directory
  | missing
  | tooLong
  deriving Repr

def outside : List String → Entry
  | [] => .directory
  | segment :: rest =>
    if segment = ".." then outside rest
    else if FilePath.segmentLimit < segment.utf8ByteSize then .tooLong
    else .missing

def follow (tree : FileTree) : List String → List String → Entry
  | here, [] =>
    if tree.hasDirectory here then .directory
    else match tree.files.lookup here with
      | some bytes => .file bytes
      | none => .missing
  | here, segment :: rest =>
    if !tree.hasDirectory here then .missing
    else if segment = ".." then
      if here.isEmpty then outside rest else follow tree here.dropLast rest
    else if FilePath.segmentLimit < segment.utf8ByteSize then .tooLong
    else follow tree (here ++ [segment]) rest

def entry (tree : FileTree) (path : FilePath) : Entry :=
  if path.segments.any ('\x00' ∈ ·.toList) then .missing
  else if FilePath.lengthLimit < path.toString.utf8ByteSize then .tooLong
  else match path.root with
    | .here => tree.follow [] path.segments
    | _ => outside path.segments

def unifyLineEnds : List Char → List Char
  | [] => []
  | '\r' :: '\n' :: rest => '\n' :: unifyLineEnds rest
  | c :: rest => (if c = '\r' then '\n' else c) :: unifyLineEnds rest

def decode (bytes : List UInt8) : Except Fault String :=
  match String.fromUTF8? ⟨bytes.toArray⟩ with
  | some text => .ok (String.ofList (unifyLineEnds text.toList))
  | none => .error .invalidEncoding

def read (tree : FileTree) (path : FilePath) : Except Fault String :=
  match tree.entry path with
  | .missing => .error (.missingFile path.toString)
  | .tooLong => .error .nameTooLong
  | .directory => .error .isDirectory
  | .file bytes => decode bytes

end FileTree

end Playscript

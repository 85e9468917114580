import TokenParsing.CommandLine.Basic

/-!
# File trees

The files that a tool may be asked to read, by the names that lead to them from the root, and how a path leads to one
of them. A path is walked step by step, from the root if it starts with a slash and from the working directory if not,
and every step needs a directory to start from.
-/

namespace TokenParsing.CommandLine

/-- A tree of files. Its directories are those that hold a file or the working directory, at any depth. -/
structure FileTree where
  /-- The files: the names that lead to each from the root, and its bytes. -/
  files : List (List String × ByteArray)
  /-- The names that lead to the working directory from the root. -/
  working : List String

namespace FileTree

/-- The most bytes that the name of a file or directory may take. -/
def nameLimit : Nat := 255

/-- The most bytes that a path may take. -/
def pathLimit : Nat := 4095

/-- The tree of a run in a directory of its own, which holds the given files. Outside of it is the empty file
`/dev/null`, which every system has. -/
def ofFiles (files : List (String × ByteArray)) : FileTree :=
  let working := ["tmp", "run"]
  ⟨(["dev", "null"], .empty) :: files.map fun (path, bytes) => (working ++ path.splitOn "/", bytes), working⟩

/-- The bytes of the file at a place, if one is there. -/
def file? (tree : FileTree) (place : List String) : Option ByteArray :=
  tree.files.lookup place

/-- Whether a directory is at a place. -/
def isDirectory (tree : FileTree) (place : List String) : Bool :=
  place.isPrefixOf tree.working || tree.files.any fun f => place.isPrefixOf f.1 && place.length < f.1.length

/-- The place that one step leads to. An empty step, as between two slashes, stays where it is, and so does `.`; the
step `..` leads to the directory above, and at the root it stays. -/
def step (tree : FileTree) (place : List String) (name : String) : Except ReadError (List String) :=
  let next := place ++ [name]
  if !tree.isDirectory place then .error .notDirectory
  else if name = "" ∨ name = "." then .ok place
  else if name = ".." then .ok place.dropLast
  else if nameLimit < name.utf8ByteSize then .error .nameTooLong
  else if tree.isDirectory next || (tree.file? next).isSome then .ok next
  else .error .notFound

/-- The place that a path leads to. The empty path leads nowhere. -/
def locate (tree : FileTree) (path : String) : Except ReadError (List String) :=
  if path = "" then .error .notFound
  else if pathLimit < path.utf8ByteSize then .error .nameTooLong
  else (path.splitOn "/").foldlM tree.step (if path.startsWith "/" then [] else tree.working)

/-- The text of the file that a path leads to. -/
def read (tree : FileTree) (path : String) : Except ReadError String := do
  let place ← tree.locate path
  match tree.file? place with
  | some bytes => decodeText bytes
  | none => .error .isDirectory

end FileTree

end TokenParsing.CommandLine

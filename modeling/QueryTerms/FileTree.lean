/-! Files by their paths. A tree of files is given by its entries, and a path is followed step by step from the
root of the tree, as an operating system would follow it from the current directory. Of what lies outside
the tree only the directories that lead there are known. -/

namespace QueryTerms

/-- Why a file cannot be read as text. -/
inductive FileError where
  | notFound
  | notDirectory
  | isDirectory
  | nameTooLong
  | zeroInPath
  | invalidText
  | other (cause : String)

namespace FileError

def message : FileError → String
  | .notFound => "No such file or directory (os error 2)"
  | .notDirectory => "Not a directory (os error 20)"
  | .isDirectory => "Is a directory (os error 21)"
  | .nameTooLong => "File name too long (os error 36)"
  | .zeroInPath => "file name contained an unexpected NUL byte"
  | .invalidText => "stream did not contain valid UTF-8"
  | .other cause => cause

end FileError

/-- What stands under a name. -/
inductive FileEntry where
  | file (content : ByteArray)
  | directory

/-- The entries below a root. -/
abbrev FileTree := List (String × FileEntry)

namespace FileTree

/-- The longest name of an entry, in bytes. -/
def maxName : Nat := 255

/-- The longest path, in bytes. -/
def maxPath : Nat := 4095

/-- The steps of a path. Empty steps and steps that stay in place lead nowhere. -/
def steps (path : String) : List String :=
  (path.splitOn "/").filter fun step => step != "" && step != "."

/-- A directory on the way: one of the tree, by the steps that lead to it, or one outside of it. -/
inductive Place where
  | within (visited : List String)
  | outside

/-- The directory above. -/
def Place.parent : Place → Place
  | .within (step :: rest) => .within (step :: rest).dropLast
  | .within [] => .outside
  | .outside => .outside

/-- The entry that stands under a name in a directory. -/
def entry? (tree : FileTree) (place : Place) (name : String) : Option FileEntry :=
  match place with
  | .outside => none
  | .within visited =>
    let path := visited ++ [name]
    match tree.find? fun (name, _) => steps name == path with
    | some (_, entry) => some entry
    | none => if tree.any fun (name, _) => path.isPrefixOf (steps name) then some .directory else none

/-- The directory under a name. -/
def Place.child (name : String) : Place → Place
  | .within visited => .within (visited ++ [name])
  | .outside => .outside

/-- The entry to which steps lead. Every step but the last one has to lead to a directory. -/
def follow (tree : FileTree) : Place → List String → Except FileError FileEntry
  | _, [] => .ok .directory
  | place, ".." :: rest => follow tree place.parent rest
  | place, step :: rest =>
    if maxName < step.utf8ByteSize then .error .nameTooLong else
    match tree.entry? place step, rest with
    | none, _ => .error .notFound
    | some .directory, rest => follow tree (place.child step) rest
    | some (.file content), [] => .ok (.file content)
    | some (.file _), _ :: _ => .error .notDirectory

/-- The text of the file at a path. A path that ends like that of a directory leads to no file. -/
def read (tree : FileTree) (path : String) : Except FileError String :=
  if path.contains '\x00' then .error .zeroInPath
  else if path.isEmpty then .error .notFound
  else if maxPath < path.utf8ByteSize then .error .nameTooLong
  else
    let start := if path.startsWith "/" then Place.outside else .within []
    match follow tree start (steps path) with
    | .error e => .error e
    | .ok .directory => .error .isDirectory
    | .ok (.file content) =>
      if path.endsWith "/" || path.endsWith "/." then .error .notDirectory
      else match String.fromUTF8? content with
        | some text => .ok text
        | none => .error .invalidText

end FileTree

end QueryTerms

/-!
# Files

What a command can read and write: named texts in a tree of directories, and the failures of looking
one up. The tree is a value, so that a command can be run on files held in memory. Paths are
relative to the root of the tree. Outside the root nothing is known but the null device, a file that
is always empty.
-/

namespace AnnotatedHelp.CommandLine

/-- Why a file cannot be read or written. -/
inductive FileFailure where
  /-- There is no such file, or no directory to put it in. -/
  | notFound
  /-- The path leads to a directory. -/
  | isDirectory
  /-- The path goes through a file as if it were a directory. -/
  | notDirectory
  /-- The path, or a name on it, is too long. -/
  | nameTooLong
  /-- The content is no text. -/
  | notText
  /-- The path holds the null character. -/
  | nullInName
  /-- Anything else that the system reports. -/
  | other (reason : String)
  deriving DecidableEq, Repr

/-- The failure as the system describes it. -/
def FileFailure.message : FileFailure → String
  | notFound => "No such file or directory (os error 2)"
  | isDirectory => "Is a directory (os error 21)"
  | notDirectory => "Not a directory (os error 20)"
  | nameTooLong => "File name too long (os error 36)"
  | notText => "stream did not contain valid UTF-8"
  | nullInName => "file name contained an unexpected NUL byte"
  | other reason => reason

/-- The names on a path; empty names and the name for the same directory are left out. -/
def pathNames (path : String) : List String :=
  ((path.toList.splitOn '/').map String.ofList).filter fun name => name != "" && name != "."

/-- Whether a path is written as that of a directory. -/
def endsAsDirectory (path : String) : Bool :=
  match path.toList.reverse with
  | '/' :: _ => true
  | ['.'] => true
  | '.' :: '/' :: _ => true
  | '.' :: '.' :: [] => true
  | '.' :: '.' :: '/' :: _ => true
  | _ => false

/-- Whether a path is relative and names one entry, however it is written. -/
def isName (path name : String) : Bool :=
  path.toList.head? != some '/' && !"./".toList.isPrefixOf path.toList && pathNames path == [name]

/-- Whether a path is that of the null device. -/
def isNullDevice (path : String) : Bool :=
  path.toList.head? == some '/' && pathNames path == ["dev", "null"] && !endsAsDirectory path

/-- Whether a name has more bytes than the name of a file may have. -/
def isLongName (name : String) : Bool :=
  255 < name.utf8ByteSize

/-- Whether a path has more bytes than the system takes. -/
def isLongPath (path : String) : Bool :=
  4095 < path.utf8ByteSize

/-- Files by the names on their paths. -/
structure FileTree where
  /-- The files, in the order in which they were written. A file holds a text, or bytes that are
  none. -/
  files : List (List String × Option String)
  deriving DecidableEq, Repr

namespace FileTree

/-- Whether the names lead to a directory. -/
def hasDirectory (tree : FileTree) (names : List String) : Bool :=
  names.isEmpty || tree.files.any fun (file, _) => names.isPrefixOf file && names != file

/-- The content of a file. -/
def content? (tree : FileTree) (names : List String) : Option (Option String) :=
  tree.files.lookup names

/-- Follows names from a directory; outside the root there is nothing. The result is the place that
the names lead to, which need not exist, `none` standing for a directory outside. -/
def follow (tree : FileTree) : Option (List String) → List String →
    Except FileFailure (Option (List String))
  | here, [] => .ok here
  | none, name :: names =>
    if name = ".." then tree.follow none names
    else .error (if isLongName name then .nameTooLong else .notFound)
  | some here, name :: names =>
    if name = ".." then tree.follow (if here.isEmpty then none else some here.dropLast) names
    else if isLongName name then .error .nameTooLong
    else
      let there := here ++ [name]
      if names.isEmpty || tree.hasDirectory there then tree.follow (some there) names
      else if (tree.content? there).isSome then .error .notDirectory
      else .error .notFound

/-- The place that a path leads to. -/
def locate (tree : FileTree) (path : String) : Except FileFailure (Option (List String)) :=
  if path.toList.contains '\x00' then .error .nullInName
  else if path = "" then .error .notFound
  else if isLongPath path then .error .nameTooLong
  else tree.follow (if path.toList.head? = some '/' then none else some []) (pathNames path)

/-- Reads a file. -/
def read (tree : FileTree) (path : String) : Except FileFailure String :=
  if isNullDevice path then .ok "" else
  match tree.locate path with
  | .error failure => .error failure
  | .ok none => .error .isDirectory
  | .ok (some names) =>
    if tree.hasDirectory names then .error .isDirectory
    else match tree.content? names with
      | none => .error .notFound
      | some content =>
        if endsAsDirectory path then .error .notDirectory
        else match content with
          | none => .error .notText
          | some text => .ok text

/-- The tree with a file put at the names, in the place of one that was there. -/
def put (tree : FileTree) (names : List String) (text : String) : FileTree :=
  ⟨tree.files.filter (·.1 != names) ++ [(names, some text)]⟩

/-- Writes a file. The null device drops what is written. -/
def write (tree : FileTree) (path text : String) : Except FileFailure FileTree :=
  if isNullDevice path then .ok tree else
  match tree.locate path with
  | .error failure => .error failure
  | .ok none => .error .isDirectory
  | .ok (some names) =>
    if tree.hasDirectory names || endsAsDirectory path then .error .isDirectory
    else .ok (tree.put names text)

end FileTree

end AnnotatedHelp.CommandLine

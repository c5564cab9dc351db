import ApiLowering.Entries
import ApiLowering.Text.Basic

/-!
Files by their paths. A directory is there as long as a file lies below it. Paths are read from the
working directory: `.` stands for a directory itself, and `..` behind a directory takes it back.
-/

set_option autoImplicit false

namespace ApiLowering

namespace Path

def pieces (path : String) : List String := (Text.split '/' path.toList).map String.ofList

-- One more piece behind the names of a place. A path that starts at the root keeps an empty name in
-- front.
def step (names : List String) (piece : String) : List String :=
  if piece = "." then names
  else if piece = "" then (if names.isEmpty then [""] else names)
  else if piece = ".." then
    match names.getLast? with
    | none | some ".." => names ++ [".."]
    | some "" => names
    | some _ => names.dropLast
  else names ++ [piece]

-- The names that lead to a place, one spelling for each place.
def names (path : String) : List String := (pieces path).foldl step []

def ofNames (names : List String) : String := "/".intercalate names

-- A path that ends in a slash or a dot names a directory.
def namesDirectory (path : String) : Bool :=
  match (pieces path).getLast? with
  | some piece => piece = "" || piece = "."
  | none => false

-- The path of the directory around the last name; the working directory itself has none.
def parent? (path : String) : Option String :=
  let isSlash (c : Char) : Bool := c = '/'
  let own := (Text.dropEndWhile isSlash path.toList)
  let around := Text.dropEndWhile (fun c => !isSlash c) own
  let parent := Text.dropEndWhile isSlash around
  if around.isEmpty then none else if parent.isEmpty then some "/" else some (String.ofList parent)

-- What stands behind the last dot of the last name, if something stands before it.
def extension? (path : String) : Option String :=
  match (names path).getLast? with
  | none | some ".." => none
  | some name =>
    let reversed := name.toList.reverse
    let behind := reversed.takeWhile fun c => c != '.'
    match reversed.dropWhile fun c => c != '.' with
    | _ :: _ :: _ => some (String.ofList behind.reverse)
    | _ => none

end Path

inductive FileError where
  | missing
  | alreadyExists
  | notDirectory
  | isDirectory
deriving DecidableEq, Repr

def FileError.message : FileError → String
  | .missing => "No such file or directory (os error 2)"
  | .alreadyExists => "File exists (os error 17)"
  | .notDirectory => "Not a directory (os error 20)"
  | .isDirectory => "Is a directory (os error 21)"

-- The contents of files, each under the one spelling of its path.
abbrev FileTree : Type := Entries String

namespace FileTree

def file? (tree : FileTree) (names : List String) : Option String :=
  Entries.get? (Path.ofNames names) tree

def isDirectory (tree : FileTree) (names : List String) : Bool :=
  names.all (fun name => name = "" || name = "..")
    || tree.any fun (path, _) => names.isPrefixOf (Path.names path) && names != Path.names path

-- Whether a file stands where a directory on the way to a place would be.
def isBlocked (tree : FileTree) (names : List String) : Bool :=
  (List.range names.length).any fun n => 0 < n && (file? tree (names.take n)).isSome

def holds (tree : FileTree) (path : String) : Bool :=
  (file? tree (Path.names path)).isSome || isDirectory tree (Path.names path)

def read (tree : FileTree) (path : String) : Except FileError String :=
  let names := Path.names path
  if path.isEmpty then .error .missing
  else
    match file? tree names with
    | some content => if Path.namesDirectory path then .error .notDirectory else .ok content
    | none =>
      if isDirectory tree names then .error .isDirectory
      else if isBlocked tree names then .error .notDirectory
      else .error .missing

-- Directories appear with their files; only a file in the way prevents them.
def createDirectory (tree : FileTree) (path : String) : Except FileError Unit :=
  let names := Path.names path
  if (file? tree names).isSome then .error .alreadyExists
  else if isBlocked tree names then .error .notDirectory
  else .ok ()

def write (tree : FileTree) (path content : String) : Except FileError FileTree :=
  let names := Path.names path
  if path.isEmpty then .error .missing
  else if isBlocked tree names then .error .notDirectory
  else if isDirectory tree names then .error .isDirectory
  else if Path.namesDirectory path then
    .error (if (file? tree names).isSome then .notDirectory else .isDirectory)
  else .ok (Entries.put (Path.ofNames names) content tree)

-- The files that were not there before, or with other contents.
def changedSince (tree before : FileTree) : FileTree :=
  tree.filter fun (path, content) => Entries.get? path before != some content

end FileTree

end ApiLowering

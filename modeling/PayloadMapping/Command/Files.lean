import PayloadMapping.Text.Pieces
import PayloadMapping.Value.Fields

set_option autoImplicit false

/-!
# Files of a command

A command sees files through what reading a path gives and where a path may be written.
`Directory.files` are the files of a directory that holds named texts and nothing else; names
with slashes lie in subdirectories.
-/

namespace PayloadMapping.Command

inductive FileError where
  | notFound
  | notADirectory
  | isADirectory
  | other (text : String)
deriving DecidableEq

def FileError.message : FileError → String
  | .notFound => "No such file or directory (os error 2)"
  | .notADirectory => "Not a directory (os error 20)"
  | .isADirectory => "Is a directory (os error 21)"
  | .other text => text

/-- What a command can do with paths: read a text, and find the name of the file that a text
would be written to. -/
structure Files where
  read : String → Except FileError String
  target : String → Except FileError String

/-- The steps of a path. Empty steps and single points lead nowhere. -/
def pathSteps (path : String) : List String :=
  ((Text.pieces '/' path.toList).map String.ofList).filter fun step => step ≠ "" ∧ step ≠ "."

/-- The path ends with a slash or with a point after one, so that it stands for a directory. -/
def endsInDirectory (path : String) : Bool :=
  match (Text.pieces '/' path.toList).reverse with
  | last :: _ :: _ => last == [] || last == ['.']
  | _ => path == "."

def isAbsolute (path : String) : Bool := path.toList.head? == some '/'

/-- The extension of the file that a path names: what follows the last point of the name, unless
the name starts with it. -/
def extension? (path : String) : Option String :=
  match (pathSteps path).getLast? with
  | none => none
  | some name =>
    if name = ".." then none
    else
      let reversed := name.toList.reverse
      match reversed.dropWhile (· ≠ '.') with
      | _ :: _ :: _ => some (String.ofList (reversed.takeWhile (· ≠ '.')).reverse)
      | _ => none

abbrev Directory := Fields String

namespace Directory

def joinNames (names : List String) : String := Text.join "/" names

inductive Entry where
  | file (text : String)
  | directory
  | nothing
deriving DecidableEq

def entry (directory : Directory) (names : List String) : Entry :=
  match Fields.get? (joinNames names) directory with
  | some text => .file text
  | none =>
    let start := joinNames names ++ "/"
    if names = [] ∨ (directory.any fun f => start.isPrefixOf f.1) then .directory else .nothing

/-- Follow steps from a place, given by its names in reverse. Every place but the last must be a
directory. A step that leaves the directory leads to nothing. -/
def resolve (directory : Directory) (names : List String) :
    List String → Except FileError (List String)
  | [] => .ok names
  | step :: rest =>
    match directory.entry names.reverse with
    | .file _ => .error .notADirectory
    | .nothing => .error .notFound
    | .directory =>
      if step = ".." then
        match names with
        | _ :: outer => resolve directory outer rest
        | [] => .error .notFound
      else resolve directory (step :: names) rest

def place (directory : Directory) (path : String) : Except FileError (List String) :=
  if isAbsolute path then .error .notFound
  else (directory.resolve [] (pathSteps path)).map List.reverse

def read (directory : Directory) (path : String) : Except FileError String :=
  match directory.place path with
  | .error e => .error e
  | .ok names =>
    match directory.entry names with
    | .file text => if endsInDirectory path then .error .notADirectory else .ok text
    | .directory => .error .isADirectory
    | .nothing => .error .notFound

def target (directory : Directory) (path : String) : Except FileError String :=
  match directory.place path with
  | .error e => .error e
  | .ok names =>
    match directory.entry names with
    | .file _ => if endsInDirectory path then .error .notADirectory else .ok (joinNames names)
    | .directory => .error .isADirectory
    | .nothing => if endsInDirectory path then .error .isADirectory else .ok (joinNames names)

def files (directory : Directory) : Files := ⟨directory.read, directory.target⟩

end Directory

end PayloadMapping.Command

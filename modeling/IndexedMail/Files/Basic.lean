import IndexedMail.Entries
import IndexedMail.Files.Path
import IndexedMail.Text.Numeral
import IndexedMail.Text.Utf8

/-!
# Files

Directories and files with their contents, and the ways in which making directories and reading
and writing files can fail.  What is made before a failure stays.  There are no links, so that a
file is at one place, which is given by the names on the way to it from the top.
-/

namespace IndexedMail

/-- What stands at a place. -/
inductive Files.Kind where
  | directory
  | file (content : List UInt8)
  deriving DecidableEq, Repr

/-- The names on the way from the top to where something stands. -/
abbrev Files.Place := List String

/--
Files and directories by place, and the working directory, from which paths without a root lead.

The working directory and those above it are always there.
-/
structure Files where
  base : Files.Place
  entries : List (Files.Place × Files.Kind)
  deriving DecidableEq, Repr

namespace Files

/-- The causes of failure that name the path they concern. -/
inductive Cause where
  | missing
  | exists
  | notDirectory
  | isDirectory
  | nameTooLong
  deriving DecidableEq, Repr

namespace Cause

def number : Cause → Nat
  | missing => 2
  | «exists» => 17
  | notDirectory => 20
  | isDirectory => 21
  | nameTooLong => 36

/-- The cause in words. -/
def description : Cause → String
  | missing => "No such file or directory"
  | «exists» => "File exists"
  | notDirectory => "Not a directory"
  | isDirectory => "Is a directory"
  | nameTooLong => "File name too long"

end Cause

/-- Why a file or directory cannot be read, written or made. -/
inductive Error where
  | failed (cause : Cause) (path : Path)
  | nulInPath
  deriving DecidableEq, Repr

namespace Error

def message : Error → String
  | failed cause path =>
      s!"[Errno {cause.number}] {cause.description}: {Text.quoted path.text}"
  | nulInPath => "embedded null byte"

end Error

/-- No files at all, and the top for a working directory. -/
def empty : Files := ⟨[], []⟩

/-- What stands at a place, if anything does. -/
def at? (f : Files) (place : Place) : Option Kind :=
  if place.isPrefixOf f.base then some .directory else Entries.get? f.entries place

/-- The most bytes that a name may have. -/
def maxNameBytes : Nat := 255

/-- Go one name further from a place, which has to be a directory. -/
def enter (f : Files) (place : Place) (name : String) : Except Cause Place :=
  match f.at? place with
  | none => .error .missing
  | some (.file _) => .error .notDirectory
  | some .directory =>
      if maxNameBytes < (Text.Utf8.encode name.toList).length then .error .nameTooLong
      else if name == ".." then .ok place.dropLast
      else .ok (place ++ [name])

/-- Follow names from a place. -/
def follow (f : Files) (place : Place) : List String → Except Cause Place
  | [] => .ok place
  | name :: rest =>
      match f.enter place name with
      | .error cause => .error cause
      | .ok next => follow f next rest

/-- Whether a path contains the character that no path may contain. -/
def hasNul (p : Path) : Bool :=
  p.names.any fun name => name.toList.contains (Char.ofNat 0)

/-- The most bytes that a path may have as a whole. -/
def maxPathBytes : Nat := 4095

/-- Whether the text of a path is too long to be followed at all. -/
def isTooLong (text : String) : Bool :=
  decide (maxPathBytes < (Text.Utf8.encode text.toList).length)

/-- The place where a path begins. -/
def start (f : Files) (p : Path) : Place :=
  if p.root.isEmpty then f.base else []

/-- The place to which a path leads, whether anything stands there or not. -/
def resolve (f : Files) (p : Path) : Except Error Place :=
  if hasNul p then .error .nulInPath
  else if isTooLong p.text then .error (.failed .nameTooLong p)
  else
    match f.follow (f.start p) p.names with
    | .error cause => .error (.failed cause p)
    | .ok place => .ok place

/-- What a path leads to, if it leads to anything. -/
def find? (f : Files) (p : Path) : Option Kind :=
  match f.resolve p with
  | .error _ => none
  | .ok place => f.at? place

/-- Whether a path leads to a directory. -/
def isDirectory (f : Files) (p : Path) : Bool :=
  f.find? p == some .directory

/-- Put something at a place. -/
def put (place : Place) (kind : Kind) (f : Files) : Files :=
  { f with entries := Entries.insert place kind f.entries }

def makeDirectory (p : Path) (f : Files) : Except Error Files :=
  match f.resolve p with
  | .error e => .error e
  | .ok place =>
      match f.at? place with
      | some _ => .error (.failed .exists p)
      | none => .ok (f.put place .directory)

/-- Make one directory unless it is there already. -/
def ensureDirectory (p : Path) (f : Files) : Except Error Files :=
  match f.makeDirectory p with
  | .ok made => .ok made
  | .error (.failed .missing q) => .error (.failed .missing q)
  | .error e => if f.isDirectory p then .ok f else .error e

/-- The outcome of a step with the files behind it, which are as before if it failed. -/
def settled (before : Files) : Except Error Files → Except Error Unit × Files
  | .ok after => (.ok (), after)
  | .error e => (.error e, before)

/-- Make a directory with the directories above it, as far as they are missing. -/
def makeDirectoriesFuel : Nat → Path → Files → Except Error Unit × Files
  | 0, p, f => settled f (f.ensureDirectory p)
  | fuel + 1, p, f =>
      match f.ensureDirectory p with
      | .error (.failed .missing _) =>
          match makeDirectoriesFuel fuel p.parent f with
          | (.ok (), f) => settled f (f.ensureDirectory p)
          | failed => failed
      | result => settled f result

/-- Make a directory with all directories above it. -/
def makeDirectories (p : Path) (f : Files) : Except Error Unit × Files :=
  makeDirectoriesFuel p.names.length p f

/-- Change the content of a file, which is made if it is missing. -/
def modify (p : Path) (change : List UInt8 → List UInt8) (f : Files) : Except Error Files :=
  match f.resolve p with
  | .error e => .error e
  | .ok place =>
      match f.at? place with
      | some .directory => .error (.failed .isDirectory p)
      | some (.file content) => .ok (f.put place (.file (change content)))
      | none => .ok (f.put place (.file (change [])))

/-- Write a file anew. -/
def write (p : Path) (content : List UInt8) (f : Files) : Except Error Files :=
  f.modify p fun _ => content

/-- Write at the end of a file. -/
def append (p : Path) (content : List UInt8) (f : Files) : Except Error Files :=
  f.modify p fun before => before ++ content

/-- Write a file anew, behind the directory for it and all directories above that. -/
def store (dir p : Path) (content : List UInt8) (f : Files) : Except Error Unit × Files :=
  match f.makeDirectories dir with
  | (.error e, f) => (.error e, f)
  | (.ok (), f) => settled f (f.write p content)

/-- The content of a file. -/
def read (p : Path) (f : Files) : Except Error (List UInt8) :=
  match f.resolve p with
  | .error e => .error e
  | .ok place =>
      match f.at? place with
      | none => .error (.failed .missing p)
      | some .directory => .error (.failed .isDirectory p)
      | some (.file content) => .ok content

/-- The path to a place: from the working directory if it is below that, and else from the top. -/
def pathTo (f : Files) (place : Place) : Path :=
  if f.base.isPrefixOf place then ⟨"", place.drop f.base.length⟩ else ⟨"/", place⟩

/-- The files with their contents, by the text of their paths. -/
def contents (f : Files) : List (String × List UInt8) :=
  f.entries.filterMap fun
    | (place, .file content) => some ((f.pathTo place).text, content)
    | (_, .directory) => none

/-- Put a file with its directories where its path leads, if it can stand there. -/
def plant (f : Files) (entry : String × List UInt8) : Files :=
  let p := Path.ofString entry.1
  match f.makeDirectories p.parent with
  | (.ok (), f) => (settled f (f.write p entry.2)).2
  | (.error _, f) => f

/-- The files with the given contents, as seen from a working directory. -/
def ofContents (base : Place) (entries : List (String × List UInt8)) : Files :=
  entries.foldl plant { empty with base := base }

theorem at?_put (f : Files) (place : Place) (kind : Kind) (h : place.isPrefixOf f.base = false) :
    (f.put place kind).at? place = some kind := by
  simp [at?, put, h, Entries.get?_insert]

end Files

end IndexedMail

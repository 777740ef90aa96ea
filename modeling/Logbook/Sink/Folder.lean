import Logbook.Sink.Basic
import Logbook.Text.Split
import Logbook.Text.Utf8

/-!
# Folders of log files

A folder in memory that holds files and no further folders. Files are opened for
appending by their path and are made when they are missing. A path that leads
elsewhere fails as an operating system would report it.
-/

namespace Logbook

/-- A file: its name and its contents. -/
structure LogFile where
  name : String
  contents : List UInt8
  deriving DecidableEq, Repr, Inhabited

/-- A folder: its path and its files. -/
structure Folder where
  path : String
  files : List LogFile
  deriving DecidableEq, Repr, Inhabited

namespace Folder

/-- The longest name of a file in octets. -/
def maxNameSize : Nat := 255

/-- The longest path in octets. -/
def maxPathSize : Nat := 4095

/-- The failures of opening. -/
def notFound : Failure := ⟨.notFound, "No such file or directory (os error 2)"⟩
@[inherit_doc notFound]
def notADirectory : Failure := ⟨.notADirectory, "Not a directory (os error 20)"⟩
@[inherit_doc notFound]
def isADirectory : Failure := ⟨.isADirectory, "Is a directory (os error 21)"⟩
@[inherit_doc notFound]
def nameTooLong : Failure := ⟨.invalidFilename, "File name too long (os error 36)"⟩
@[inherit_doc notFound]
def holdsNul : Failure := ⟨.invalidInput, "file name contained an unexpected NUL byte"⟩

def file? (folder : Folder) (name : String) : Option LogFile :=
  folder.files.find? fun f => f.name = name

/-- The names between the slashes of a path. -/
def steps (path : List Char) : List String :=
  ((Text.splitAll '/' path).map String.ofList).filter (· ≠ "")

/-- Where a path has led: into the folder, or to another one, of whose files
    nothing is known. -/
inductive Place where
  | inside
  | outside
  deriving DecidableEq, Repr

/-- Why a name that leads on to no folder fails before the end of a path. -/
def deadEnd (folder : Folder) (place : Place) (name : String) : Failure :=
  if maxNameSize < name.utf8ByteSize then nameTooLong
  else if place = .inside ∧ (folder.file? name).isSome then notADirectory
  else notFound

/-- Where the names of a path lead. One dot stays, two dots lead out of a folder,
    and as there are no further folders every other name fails. -/
def walk (folder : Folder) : Place → List String → Except Failure Place
  | place, [] => .ok place
  | place, name :: rest =>
    if name = "." then folder.walk place rest
    else if name = ".." then folder.walk .outside rest
    else .error (folder.deadEnd place name)

/-- The name of the file that a path leads to from a place, or why there is none.
    A path that ends in a slash or in dots asks for a folder. -/
def resolveFrom (folder : Folder) (place : Place) (path : List Char) : Except Failure String :=
  match (steps path).getLast? with
  | none => .error isADirectory
  | some last =>
    (folder.walk place (steps path).dropLast).bind fun place =>
      if last = "." ∨ last = ".." ∨ path.getLast? = some '/' then .error isADirectory
      else if maxNameSize < last.utf8ByteSize then .error nameTooLong
      else if place = .inside then .ok last
      else .error notFound

/-- The name of the file that a path leads to, or why there is none. -/
def resolve (folder : Folder) (path : String) : Except Failure String :=
  if '\x00' ∈ path.toList then .error holdsNul
  else if path = "" then .error notFound
  else if maxPathSize < path.utf8ByteSize then .error nameTooLong
  else
    match folder.path.toList.isPrefixOf? path.toList with
    | some [] => .error isADirectory
    | some ('/' :: rest) => folder.resolveFrom .inside rest
    | _ => folder.resolveFrom .outside path.toList

/-- Opens the file of a path for appending: its name, and the folder with the
    file in it. -/
def openToAppend (folder : Folder) (path : String) : Except Failure (String × Folder) :=
  (folder.resolve path).map fun name =>
    if (folder.file? name).isSome then (name, folder)
    else (name, { folder with files := folder.files ++ [⟨name, []⟩] })

/-- The folder after a write to the end of a file. -/
def append (folder : Folder) (name : String) (bytes : List UInt8) : Folder :=
  { folder with
    files := folder.files.map fun f =>
      if f.name = name then { f with contents := f.contents ++ bytes } else f }

end Folder

end Logbook

import TopologyAudit.Files.Path
import TopologyAudit.Text.Utf8

/-!
# Directories

The files of a directory and how they are read by path. Each step of a path looks a
name up in a directory; the first step that fails decides.
-/

namespace TopologyAudit

/-- Why a file is not read. -/
inductive ReadFailure
  | notFound
  | isDirectory
  | notDirectory
  | nameTooLong
  /-- Any other reason, as the system words it. -/
  | other (reason : Text)
deriving DecidableEq

def ReadFailure.message : ReadFailure → Text
  | .notFound => "No such file or directory"
  | .isDirectory => "Is a directory"
  | .notDirectory => "Not a directory"
  | .nameTooLong => "File name too long"
  | .other reason => reason

/-- Files and directories below a directory, by the names that lead to them. -/
structure Directory where
  files : List (List Text × List UInt8)
  directories : List (List Text)

namespace Directory

/-- The most bytes that a name may have. -/
def nameLimit : Nat := 255

/-- The most bytes that a path may have. -/
def pathLimit : Nat := 4095

/-- The contents of a file. -/
def file? (d : Directory) (names : List Text) : Option (List UInt8) := d.files.lookup names

/-- Whether something stands at or below a place. -/
def holds (d : Directory) (names : List Text) : Bool :=
  (d.files.map (·.1) ++ d.directories).any fun place => names.isPrefixOf place

/-- Follows names from a place on. Above the directory is only itself if it is the root,
else nothing is known but that directories stand there. -/
def follow (d : Directory) (isRoot : Bool) :
    (place : List Text) → List Text → Except ReadFailure (List UInt8)
  | place, [] => (d.file? place).elim (.error .isDirectory) .ok
  | place, name :: rest =>
    if (d.file? place).isSome then .error .notDirectory
    else if name = Path.parentName then
      if isRoot || !place.isEmpty then follow d isRoot place.dropLast rest
      else .error (if rest.all (· = Path.parentName) then .isDirectory else .notFound)
    else if (Utf8.encode name).length > nameLimit then .error .nameTooLong
    else if d.holds (place ++ [name]) then follow d isRoot (place ++ [name]) rest
    else .error .notFound

/-- The directories that stand below the root of every system, and the file that is
always empty. -/
def root : Directory where
  files := [(["dev", "null"], [])]
  directories := [["boot"], ["dev"], ["etc"], ["home"], ["media"], ["mnt"], ["opt"], ["proc"],
    ["root"], ["run"], ["srv"], ["sys"], ["tmp"], ["usr"], ["var"]]

/-- Reads the file at a path, which is taken from the directory or from the root. -/
def read (d : Directory) (p : Path) : Except ReadFailure (List UInt8) :=
  if (Utf8.encode p.toText).length > pathLimit then .error .nameTooLong
  else if p.isAbsolute then root.follow true [] p.names
  else d.follow false [] p.names

end Directory

end TopologyAudit

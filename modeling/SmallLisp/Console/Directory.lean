import SmallLisp.Machine
/-!
# A directory of files

Files as the command line finds them: by a path from a working directory, whose parts are separated
by slashes. A path can lead to a file, to a directory, through a file as if it were a directory, or
nowhere.
-/

namespace SmallLisp.Console

/-- A file system that holds files below a working directory and nothing else. -/
structure Directory where
  /-- The files, by the names on the way to them. -/
  files : List (List String × ByteArray)

namespace Directory

/-- The directory of files whose names may have slashes. -/
def ofFiles (files : List (String × ByteArray)) : Directory :=
  ⟨files.map fun (name, bytes) => (name.splitOn "/", bytes)⟩

def file? (directory : Directory) (place : List String) : Option ByteArray :=
  directory.files.lookup place

def isDirectory (directory : Directory) (place : List String) : Bool :=
  place.isEmpty || directory.files.any fun file =>
    place.isPrefixOf file.1 && place.length < file.1.length

def readsDirectory : ReadFailure := .unreadable "Is a directory (os error 21)"

def notADirectory : ReadFailure := .unreadable "Not a directory (os error 20)"

def nameTooLong : ReadFailure := .unreadable "File name too long (os error 36)"

/-- Follows the parts of a path from a place of the directory. Outside of it, `above` steps up, there
is nothing to be found but the way on up. -/
def follow (directory : Directory) (place : List String) (above : Nat) :
    List String → Except ReadFailure ByteArray
  | [] =>
    if above = 0 then
      match directory.file? place with
      | some bytes => .ok bytes
      | none => if directory.isDirectory place then .error readsDirectory else .error .notFound
    else .error readsDirectory
  | part :: parts =>
    if above = 0 ∧ (directory.file? place).isSome then .error notADirectory
    else if above = 0 ∧ !directory.isDirectory place then .error .notFound
    else if part = "" ∨ part = "." then follow directory place above parts
    else if part = ".." then
      if place.isEmpty then follow directory place (above + 1) parts
      else follow directory place.dropLast above parts
    else if 255 < part.utf8ByteSize then .error nameTooLong
    else if above = 0 then follow directory (place ++ [part]) above parts
    else .error .notFound

def read (directory : Directory) (path : String) : Except ReadFailure ByteArray :=
  if path.toList.contains '\x00' then
    .error (.unreadable "file name contained an unexpected NUL byte")
  else if path = "" then .error .notFound
  else if 4096 ≤ path.utf8ByteSize then .error nameTooLong
  else if path.toList.head? = some '/' then
    directory.follow [] 1 (path.splitOn "/")
  else directory.follow [] 0 (path.splitOn "/")

end Directory

end SmallLisp.Console

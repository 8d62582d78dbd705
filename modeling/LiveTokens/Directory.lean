import LiveTokens.Text

/-!
# Directories

What a path leads to: a text, or a reason why there is none. A directory is held as a value, its
files with the names that lead to each of them; a folder is there if a file is somewhere below it.

A path is walked one name at a time. An empty name and a single dot stay where they are, two dots
go one step up, and everything that a path goes through must be a folder. Of what lies outside of
the directory nothing is known but the null device.
-/

namespace LiveTokens

/-- Why there is nothing to read at a path. -/
inductive ReadError where
  | missing
  | notDirectory
  | isDirectory
  | denied
  /-- The path has too many bytes, or one of its names. -/
  | tooLong
  | invalidUtf8
deriving DecidableEq, Repr

/-- The wording of a read error. -/
def ReadError.message : ReadError → String
  | .missing => "No such file or directory (os error 2)"
  | .notDirectory => "Not a directory (os error 20)"
  | .isDirectory => "Is a directory (os error 21)"
  | .denied => "Permission denied (os error 13)"
  | .tooLong => "File name too long (os error 36)"
  | .invalidUtf8 => "stream did not contain valid UTF-8"

/-- The text of a file, or the reason why there is none. -/
abbrev FileText : Type :=
  Except ReadError Text

/-- The text of a file with the given bytes. -/
def FileText.ofBytes (bytes : ByteArray) : FileText :=
  match String.fromUTF8? bytes with
  | some text => .ok text.toList
  | none => .error .invalidUtf8

/-- Files below a folder, each with the names on the way to it. -/
structure Directory where
  files : List (List String × FileText) := []
deriving Repr

namespace Directory

/-- Whether a name of a path stays where it is. -/
def isIdle (name : String) : Bool :=
  name = "" || name = "."

/-- Files that are named by their paths. -/
def ofPaths (files : List (String × FileText)) : Directory :=
  ⟨files.map fun (path, text) => ((path.splitOn "/").filter fun name => !isIdle name, text)⟩

/-- Whether names lead to a folder. -/
def isFolder (directory : Directory) (names : List String) : Bool :=
  names.isEmpty ||
    directory.files.any fun (path, _) => names.isPrefixOf path && path.length ≠ names.length

/-- Names of more bytes are refused in every folder. -/
def nameLimit : Nat := 255

/-- Paths of this many bytes and more are refused. -/
def pathLimit : Nat := 4096

/-- Walks on from a folder. `none` is a folder outside of the directory. -/
def walk (directory : Directory) (folder : Option (List String)) : List String → FileText
  | [] => .error .isDirectory
  | name :: rest =>
    if isIdle name then directory.walk folder rest
    else if name = ".." then
      directory.walk (folder.bind fun names => if names.isEmpty then none else names.dropLast) rest
    else if nameLimit < name.utf8ByteSize then .error .tooLong
    else
      match folder with
      | none => .error .missing
      | some names =>
        let names := names ++ [name]
        match directory.files.lookup names with
        | some text => if rest.isEmpty then text else .error .notDirectory
        | none =>
          if directory.isFolder names then directory.walk names rest else .error .missing

/-- The null device, an empty file. -/
def nullDevice : String := "/dev/null"

/-- Reads what a path leads to. The empty path leads nowhere. -/
def read (directory : Directory) (path : String) : FileText :=
  if path = "" then .error .missing
  else if pathLimit ≤ path.utf8ByteSize then .error .tooLong
  else if path = nullDevice then .ok []
  else if path.startsWith "/" then directory.walk none (path.splitOn "/")
  else directory.walk (some []) (path.splitOn "/")

end Directory

end LiveTokens

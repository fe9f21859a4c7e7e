set_option autoImplicit false
set_option relaxedAutoImplicit false

/-!
Faults of files: why a path cannot be read.
-/

namespace Stacklet

inductive FileFault where
  | notFound
  | notPermitted
  | notDirectory
  | isDirectory
  | nameTooLong
deriving DecidableEq

namespace FileFault

def message : FileFault → String
  | .notFound => "No such file or directory (os error 2)"
  | .notPermitted => "Permission denied (os error 13)"
  | .notDirectory => "Not a directory (os error 20)"
  | .isDirectory => "Is a directory (os error 21)"
  | .nameTooLong => "File name too long (os error 36)"

def nameLimit : Nat := 255

def pathLimit : Nat := 4095

/-- The names of a path, cut at the slashes; a slash at an end or after another one gives an empty
name. -/
def names : List Char → List (List Char)
  | [] => [[]]
  | c :: cs =>
      if c = '/' then [] :: names cs
      else
        match names cs with
        | [] => [[c]]
        | name :: rest => (c :: name) :: rest

/-- What stops a walk along names when no directory on the way holds an entry. An empty name and a
dot stay where they are, two dots go up, and any other name is looked for in vain. -/
def ofNames : List (List Char) → FileFault
  | [] => .isDirectory
  | name :: rest =>
      if name = [] ∨ name = ['.'] ∨ name = ['.', '.'] then ofNames rest
      else if nameLimit < (String.ofList name).utf8ByteSize then .nameTooLong
      else .notFound

/-- Why a path cannot be read at which there is no file: it leads to the root, to the working
directory or to one above them, or it leads nowhere. -/
def ofPath (path : String) : FileFault :=
  if path.isEmpty then .notFound
  else if pathLimit < path.utf8ByteSize then .nameTooLong
  else ofNames (names path.toList)

end FileFault

end Stacklet

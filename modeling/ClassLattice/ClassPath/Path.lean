/-!
# Paths

A path names a file by the directories on the way to it, with a slash between two of them.  A path
that begins with a slash is absolute; any other is relative to the place where it is used.
-/

set_option autoImplicit false

namespace ClassLattice.Path

/-- The parts of a list of characters between slashes. -/
def split : List Char → List (List Char)
  | [] => [[]]
  | c :: rest =>
    if c = '/' then [] :: split rest
    else
      match split rest with
      | [] => [[c]]
      | first :: others => (c :: first) :: others

/-- The components of a path, empty ones included. -/
def components (path : String) : List String := (split path.toList).map String.ofList

/-- Whether a path starts at the root. -/
def isAbsolute (path : String) : Bool := path.toList.head? == some '/'

/-- The path that a path stands for where another one is its base. -/
def join (base path : String) : String :=
  if isAbsolute path then path
  else if base.isEmpty || base.toList.getLast? == some '/' then base ++ path
  else base ++ "/" ++ path

/-- The name of what a path leads to, unless the path ends by going up or has no names at all. -/
def fileName? (path : String) : Option String := do
  let last ← ((components path).filter fun part => part != "" && part != ".").getLast?
  guard (last ≠ "..")
  return last

/-- What stands behind the last dot of a name, if something stands before that dot. -/
def extensionOfName? (name : String) : Option String :=
  let chars := name.toList
  let behind := (chars.reverse.takeWhile (· != '.')).reverse
  if behind.length + 1 < chars.length then some (String.ofList behind) else none

/-- The extension of the name of what a path leads to. -/
def extension? (path : String) : Option String := (fileName? path).bind extensionOfName?

end ClassLattice.Path

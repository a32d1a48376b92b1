import Playback.Text.Cut

/-! Paths in a file system: names between slashes, in the sizes that it takes. -/

set_option autoImplicit false

namespace Playback.Path

def longestName : Nat := 255

def longestPath : Nat := 4095

/-- The names of a path in order. One that stands between two slashes without a gap is empty. -/
def names (path : String) : List String :=
  (cutAt '/' path.toList).map String.ofList

def ofNames (names : List String) : String :=
  String.intercalate "/" names

def staysHere (name : String) : Bool :=
  name = "" || name = "."

/-- The path without the names at its ends that lead nowhere. -/
def trim (path : String) : String :=
  ofNames (trimWhile staysHere (names path))

example : trim "./a//b/." = "a//b" ∧ trim "../a" = "../a" ∧ trim "." = "" := by decide +kernel

def isName (name : String) : Bool :=
  name.utf8ByteSize ≤ longestName

/-- Whether the file system takes a text for a path, whatever its names. -/
def isPath (path : String) : Bool :=
  !path.toList.contains '\x00' && path.utf8ByteSize ≤ longestPath

def canHold (path : String) : Bool :=
  isPath path && (names path).all isName

end Playback.Path

namespace Statline

/-- Where a folder or a file lies, innermost name first, seen from the working folder: `..` is the
folder around what follows, `/` the outermost folder. -/
abbrev Place := List String

namespace Place

/-- The folder around a place. The outermost folder lies in itself. -/
def outer : Place → Place
  | [] => [".."]
  | "/" :: _ => ["/"]
  | ".." :: rest => ".." :: ".." :: rest
  | _ :: rest => rest

def walk (place : Place) (step : String) : Place :=
  if step = ".." then place.outer else step :: place

end Place

/-- A written path: the folders that it leads through and the name at its end. -/
structure Path where
  start : Place
  folders : List String
  /-- Missing where no file can be meant: the path is written as that of a folder or is too long. -/
  name : Option String
deriving DecidableEq

namespace Path

/-- The longest path and the longest name, in bytes. -/
def longest : Nat := 4079

def longestName : Nat := 255

def hasNul (name : String) : Bool :=
  name.toList.contains '\x00'

def isName (name : String) : Bool :=
  name.utf8ByteSize ≤ longestName && !hasNul name

/-- Steps that are empty or `.` lead nowhere; at the end of a path they say that a folder is
meant. -/
def isIdle (step : String) : Bool :=
  step = "" || step = "."

/-- Paths begin in the working folder, or in the outermost folder if a slash comes first. There is
no path whose folders alone are too long or cannot be named. -/
def ofText? (text : String) : Option Path :=
  let written := text.splitOn "/"
  let outward := written.reverse.dropWhile isIdle
  let around := outward.tail.dropWhile isIdle
  if longest < ("/".intercalate around).utf8ByteSize || around.any hasNul then none
  else
    some {
      start := if text.toList.head? = some '/' then ["/"] else []
      folders := (around.filter fun step => !isIdle step).reverse
      name :=
        if written.getLast?.all isIdle || longest < text.utf8ByteSize then none
        else outward.head? }

end Path

end Statline

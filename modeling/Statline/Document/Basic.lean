import Statline.Document.Titles
import Statline.Fault
import Statline.Json.Basic

namespace Statline.Document

/-- The fields of a record in the order of `names`, each present or absent. A record is written as
an object, in which no known field is repeated and unknown ones are ignored, or as an array of its
fields, of which the last may be left out. -/
def record (names : List String) : Json → Option (List (Option Json))
  | .obj fields =>
    let occurrences (name : String) := (fields.filter (·.1 = name)).map (·.2)
    if names.any fun name => 1 < (occurrences name).length then none
    else some (names.map fun name => (occurrences name).head?)
  | .arr items =>
    if items.length ≤ names.length then
      some (items.map some ++ List.replicate (names.length - items.length) none)
    else none
  | _ => none

def required {α : Type} (read : Json → Option α) (field : Option Json) : Option α :=
  field.bind read

def optional {α : Type} (absent : α) (read : Json → Option α) : Option Json → Option α
  | none => some absent
  | some json => read json

def readText : Json → Option String := Json.str?

def readBool : Json → Option Bool := Json.bool?

def readFloat : Json → Option Float := Json.float?

/-- A signed 64-bit integer. -/
def readInt (json : Json) : Option Int64 :=
  (Json.int? Int64.minValue.toInt Int64.maxValue.toInt json).map Int64.ofInt

/-- A natural number below 2^64. -/
def readNat (json : Json) : Option Nat :=
  (Json.int? 0 (UInt64.size - 1) json).map Int.toNat

def readWord (json : Json) : Option UInt64 :=
  (readNat json).map UInt64.ofNat

def readList {α : Type} (read : Json → Option α) (json : Json) : Option (List α) := do
  (← json.arr?).mapM read

def readEntry {α : Type} (read : Json → Option α) (field : String × Json) :
    Option (String × α) :=
  (read field.2).map (field.1, ·)

/-- Of fields with the same name the last counts, but all of them must be readable. -/
def readTable {α : Type} (read : Json → Option α) (json : Json) : Option (Table α) := do
  return Table.ofList (← (← json.obj?).mapM (readEntry read))

/-- The member that a document means by a text. -/
def memberTitled (α : Type) [Vocabulary α] [Titled α] (text : String) : Option α :=
  (Vocabulary.all : List α).find? fun member => Titled.written member = text

/-- A member is written as its title, or as an object with its title for the only field and null
for the value of that. -/
def readMember (α : Type) [Vocabulary α] [Titled α] : Json → Option α
  | .str text => memberTitled α text
  | .obj [(text, .null)] => memberTitled α text
  | _ => none

def writeMember {α : Type} [Titled α] (member : α) : Json :=
  .str (Titled.written member)

def writeList {α : Type} (write : α → Json) (items : List α) : Json :=
  .arr (items.map write)

def writeTable {α : Type} (write : α → Json) (table : Table α) : Json :=
  .obj (table.entries.map fun entry => (entry.1, write entry.2))

def writeInt (n : Int64) : Json := .int n.toInt

def writeNat (n : Nat) : Json := .int n

end Statline.Document

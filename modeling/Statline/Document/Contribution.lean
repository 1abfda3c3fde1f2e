import Statline.Contribution
import Statline.Document.Basic

namespace Statline.Document

def readCaps (json : Json) : Option Caps := do
  match ← record ["min", "max"] json with
  | [min, max] => return ⟨← required readFloat min, ← required readFloat max⟩
  | _ => none

def writeCaps (range : Caps) : Json :=
  .obj [("min", .float range.min), ("max", .float range.max)]

def readContribution (json : Json) : Option Contribution := do
  match ← record ["dimension", "bucket", "value", "system", "priority"] json with
  | [dimension, bucket, value, system, priority] =>
    return {
      dimension := ← required readText dimension
      bucket := ← required (readMember Bucket) bucket
      value := ← required readFloat value
      system := ← required readText system
      priority := ← optional 0 readInt priority }
  | _ => none

def writeContribution (c : Contribution) : Json :=
  .obj [("dimension", .str c.dimension), ("bucket", writeMember c.bucket),
    ("value", .float c.value), ("system", .str c.system), ("priority", writeInt c.priority)]

/-- A text that may also be null. -/
def readRealm : Json → Option (Option String)
  | .null => some none
  | json => (readText json).map some

def readCapContribution (json : Json) : Option CapContribution := do
  match ← record
      ["system", "dimension", "mode", "value", "priority", "scope", "realm", "tags"] json with
  | [system, dimension, mode, value, priority, scope, realm, tags] =>
    return {
      system := ← required readText system
      dimension := ← required readText dimension
      mode := ← required (readMember CapMode) mode
      value := ← required readFloat value
      priority := ← optional 0 readInt priority
      scope := ← required (readMember Layer) scope
      realm := ← optional none readRealm realm
      tags := ← optional [] (readList readText) tags }
  | _ => none

/-- No realm and an empty list of tags are not written. -/
def writeCapContribution (c : CapContribution) : Json :=
  .obj ([("system", .str c.system), ("dimension", .str c.dimension), ("mode", writeMember c.mode),
      ("value", .float c.value), ("priority", writeInt c.priority),
      ("scope", writeMember c.scope)] ++
    (c.realm.toList.map fun realm => ("realm", .str realm)) ++
    if c.tags.isEmpty then [] else [("tags", writeList .str c.tags)])

def readOrigin (json : Json) : Option Origin := do
  match ← record ["system", "version"] json with
  | [system, version] => return ⟨← required readText system, ← optional 0 readInt version⟩
  | _ => none

def writeOrigin (origin : Origin) : Json :=
  .obj [("system", .str origin.system), ("version", writeInt origin.version)]

def readOutput (json : Json) : Option Output := do
  match ← record ["primary", "derived", "caps", "meta"] json with
  | [primary, derived, caps, origin] =>
    return {
      primary := ← optional [] (readList readContribution) primary
      derived := ← optional [] (readList readContribution) derived
      caps := ← optional [] (readList readCapContribution) caps
      origin := ← optional ⟨"", 0⟩ readOrigin origin }
  | _ => none

def writeOutput (output : Output) : Json :=
  .obj [("primary", writeList writeContribution output.primary),
    ("derived", writeList writeContribution output.derived),
    ("caps", writeList writeCapContribution output.caps), ("meta", writeOrigin output.origin)]

end Statline.Document

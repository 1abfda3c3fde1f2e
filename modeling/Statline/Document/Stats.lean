import Statline.Context
import Statline.Document.Contribution
import Statline.Snapshot
import Statline.Stats
import Statline.Text.Timestamp

namespace Statline.Document

def readActor (json : Json) : Option Actor := do
  match ← record ["id", "version"] json with
  | [id, version] => return ⟨← required readText id, ← optional 0 readInt version⟩
  | _ => none

def writeActor (actor : Actor) : Json :=
  .obj [("id", .str actor.id), ("version", writeInt actor.version)]

/-- An instant is checked and not kept. -/
def readInstant (json : Json) : Option Unit := do
  if Text.isTimestamp (← readText json) then some () else none

def readSnapshot (json : Json) : Option Snapshot := do
  match ← record
      ["actor_id", "primary", "derived", "caps_used", "version", "created_at"] json with
  | [actorId, primary, derived, capsUsed, version, created] =>
    let snapshot : Snapshot := {
      actorId := ← required readText actorId
      primary := ← required (readTable readFloat) primary
      derived := ← required (readTable readFloat) derived
      capsUsed := ← required (readTable readCaps) capsUsed
      version := ← required readInt version }
    required readInstant created
    return snapshot
  | _ => none

def writeSnapshot (snapshot : Snapshot) : Json :=
  .obj [("actor_id", .str snapshot.actorId), ("primary", writeTable .float snapshot.primary),
    ("derived", writeTable .float snapshot.derived),
    ("caps_used", writeTable writeCaps snapshot.capsUsed), ("version", writeInt snapshot.version)]

def readPrimaryStats (json : Json) : Option PrimaryStats := do
  match ← record ["values"] json with
  | [values] => required (readTable fun json => (readFloat json).map .ofFloat) values
  | _ => none

def writePrimaryStats (stats : PrimaryStats) : Json :=
  .obj [("values", writeTable (fun pattern => .float pattern.toFloat) stats)]

def readDerivedStats (json : Json) : Option DerivedStats := do
  match ← record ["values", "version", "created_at", "updated_at"] json with
  | [values, version, created, updated] =>
    let stats : DerivedStats :=
      ⟨← required (readTable readFloat) values, ← required readNat version⟩
    required readInstant created
    required readInstant updated
    return stats
  | _ => none

def writeDerivedStats (stats : DerivedStats) : Json :=
  .obj [("values", writeTable .float stats.values), ("version", writeNat stats.version)]

/-- Documents nest at most so deep where values of any shape are read. -/
def maxDepth : Nat := 127

/-- The data of a context; the context itself and its table of data are two levels of nesting. -/
def readContext (json : Json) : Option Context := do
  match ← record ["data"] json with
  | [data] =>
    let fields ← data.bind Json.obj?
    if Json.depthFields fields + 2 ≤ maxDepth then
      return { Context.empty with data := Table.ofList (← Json.settleFields fields) }
    else none
  | _ => none

def writeContext (context : Context) : Json :=
  .obj [("data", writeTable id context.data)]

end Statline.Document

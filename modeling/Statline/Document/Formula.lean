import Statline.Document.Basic
import Statline.Formula

namespace Statline.Document

def readTerm : Json → Option Term
  | .obj [("constant", json)] => (readFloat json).map .constant
  | .obj [("scaled", json)] => do
    match ← record ["stat", "factor"] json with
    | [stat, factor] => return .scaled (← required readText stat) (← required readFloat factor)
    | _ => none
  | _ => none

def writeTerm : Term → Json
  | .constant value => .obj [("constant", .float value)]
  | .scaled stat factor =>
    .obj [("scaled", .obj [("stat", .str stat), ("factor", .float factor)])]

def readStep : Json → Option Step
  | .obj [("FLAT", json)] => (readTerm json).map .flat
  | .obj [("MULT", json)] => (readTerm json).map .mult
  | .obj [("CLAMP", json)] => do
    match ← record ["min", "max"] json with
    | [min, max] => return .clamp (← required readFloat min) (← required readFloat max)
    | _ => none
  | _ => none

def writeStep : Step → Json
  | .flat term => .obj [("FLAT", writeTerm term)]
  | .mult term => .obj [("MULT", writeTerm term)]
  | .clamp min max => .obj [("CLAMP", .obj [("min", .float min), ("max", .float max)])]

def readFormula (json : Json) : Option Formula := do
  match ← record ["name", "deps", "steps"] json with
  | [name, deps, steps] =>
    return {
      name := ← required readText name
      deps := ← optional [] (readList readText) deps
      steps := ← optional [] (readList readStep) steps }
  | _ => none

def writeFormula (formula : Formula) : Json :=
  .obj [("name", .str formula.name), ("deps", writeList .str formula.deps),
    ("steps", writeList writeStep formula.steps)]

end Statline.Document

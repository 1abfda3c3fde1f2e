import Statline.Vocabulary

namespace Statline

/-- The scope of a cap. -/
inductive Layer where
  | realm
  | world
  | event
  | guild
  | total
deriving DecidableEq

namespace Layer

def all : List Layer := [realm, world, event, guild, total]

def name : Layer → String
  | realm => "REALM"
  | world => "WORLD"
  | event => "EVENT"
  | guild => "GUILD"
  | total => "TOTAL"

instance : Vocabulary Layer := ⟨"layer", all, name, []⟩

end Layer

/-- How the ranges of several layers become one. -/
inductive LayerPolicy where
  | intersect
  | union
deriving DecidableEq

namespace LayerPolicy

def all : List LayerPolicy := [intersect, union]

def name : LayerPolicy → String
  | intersect => "intersect"
  | union => "union"

instance : Vocabulary LayerPolicy := ⟨"across-layer policy", all, name, []⟩

end LayerPolicy

end Statline

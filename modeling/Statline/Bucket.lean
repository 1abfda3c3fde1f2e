import Statline.Double
import Statline.Vocabulary

namespace Statline

/-- How a contribution acts on the running value. -/
inductive Bucket where
  | flat
  | mult
  | postAdd
  | override
  | exponential
  | logarithmic
  | conditional
deriving DecidableEq

namespace Bucket

/-- The buckets in the order in which they act. -/
def all : List Bucket :=
  [flat, mult, postAdd, override, exponential, logarithmic, conditional]

def name : Bucket → String
  | flat => "FLAT"
  | mult => "MULT"
  | postAdd => "POST_ADD"
  | override => "OVERRIDE"
  | exponential => "EXPONENTIAL"
  | logarithmic => "LOGARITHMIC"
  | conditional => "CONDITIONAL"

instance : Vocabulary Bucket := ⟨"bucket", all, name, []⟩

def apply (bucket : Bucket) (running : Float) (values : List Float) : Float :=
  match bucket with
  | flat | postAdd | conditional => running + Double.sum values
  | mult => values.foldl (· * ·) running
  | override => values.head?.getD running
  | exponential => values.foldl (fun acc v => acc * (1.0 + v)) running
  | logarithmic => values.foldl (fun acc v => acc * (1.0 + v / 100.0)) running

end Bucket

end Statline

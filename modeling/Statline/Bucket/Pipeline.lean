import Statline.Contribution
import Statline.Ranking

namespace Statline.Bucket

def valuesIn (contributions : List Contribution) (bucket : Bucket) : List Float :=
  (contributions.filter (·.bucket = bucket)).map (·.value)

/-- The buckets that have contributions, each with their values by descending priority. -/
def stages (contributions : List Contribution) : List (Bucket × List Float) :=
  let ordered := ranked Contribution.priority contributions
  all.filterMap fun bucket =>
    match valuesIn ordered bucket with
    | [] => none
    | values => some (bucket, values)

/-- Each bucket in turn acts on the result of the buckets before it, starting from 0. -/
def combine (contributions : List Contribution) : Float :=
  (stages contributions).foldl (fun running stage => stage.1.apply running stage.2) 0.0

end Statline.Bucket

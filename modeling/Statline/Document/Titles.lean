import Statline.Bucket
import Statline.Cache.Policy
import Statline.Caps
import Statline.Layer
import Statline.Operator

namespace Statline

/-- How the words of a title stand in a document. -/
inductive Casing where
  | screamingSnake
  | kebab
  | lower

namespace Casing

/-- Small letters, with a mark before each word but the first. -/
def marked (mark : Char) : List Char → List Char
  | [] => []
  | first :: rest =>
    first.toLower :: rest.flatMap fun c => if c.isUpper then [mark, c.toLower] else [c.toLower]

def write (casing : Casing) (title : String) : String :=
  match casing with
  | screamingSnake => String.ofList ((marked '_' title.toList).map Char.toUpper)
  | kebab => String.ofList (marked '-' title.toList)
  | lower => String.ofList (title.toList.map Char.toLower)

end Casing

/-- A set whose members have titles, each word of which begins with a capital. Documents write all
titles in one casing, but for the members that have a name of their own. -/
class Titled (α : Type) where
  casing : Casing
  title : α → String
  ownName : α → Option String

namespace Titled

/-- The name of a member as its title gives it. -/
def written {α : Type} [Titled α] (member : α) : String :=
  (ownName member).getD ((casing α).write (title member))

end Titled

instance : Titled Bucket where
  casing := .screamingSnake
  title
    | .flat => "Flat"
    | .mult => "Mult"
    | .postAdd => "PostAdd"
    | .override => "Override"
    | .exponential => "Exponential"
    | .logarithmic => "Logarithmic"
    | .conditional => "Conditional"
  ownName _ := none

instance : Titled Operator where
  casing := .screamingSnake
  title
    | .sum => "Sum"
    | .max => "Max"
    | .min => "Min"
    | .average => "Average"
    | .multiply => "Multiply"
    | .intersect => "Intersect"
  ownName _ := none

instance : Titled CapMode where
  casing := .screamingSnake
  title
    | .baseline => "Baseline"
    | .additive => "Additive"
    | .hardMax => "HardMax"
    | .hardMin => "HardMin"
    | .override => "Override"
  ownName _ := none

instance : Titled Layer where
  casing := .screamingSnake
  title
    | .realm => "Realm"
    | .world => "World"
    | .event => "Event"
    | .guild => "Guild"
    | .total => "Total"
  ownName _ := none

instance : Titled LayerPolicy where
  casing := .lower
  title
    | .intersect => "Intersect"
    | .union => "Union"
  ownName _ := none

instance : Titled EvictionPolicy where
  casing := .kebab
  title
    | .allkeysLru => "AllkeysLru"
    | .allkeysLfu => "AllkeysLfu"
    | .volatileLru => "VolatileLru"
    | .volatileLfu => "VolatileLfu"
    | .volatileTtl => "VolatileTtl"
    | .noEviction => "NoEviction"
  ownName
    | .noEviction => some "noeviction"
    | _ => none

end Statline

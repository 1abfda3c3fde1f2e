import Statline.Double
import Statline.Table

namespace Statline

/-- The stats that come from outside, by name, to the last bit. -/
abbrev PrimaryStats := Table Double.Pattern

def PrimaryStats.value? (stats : PrimaryStats) (stat : String) : Option Float :=
  (stats.get? stat).map Double.Pattern.toFloat

/-- Computed stats and how often they were changed, which is taken to be fewer than 2^64 times. The
times of the first and of the last change are left out, as nothing is computed from them. -/
structure DerivedStats where
  values : Table Float
  version : Nat
deriving DecidableEq

namespace DerivedStats

def empty : DerivedStats := ⟨Table.empty, 0⟩

instance : Inhabited DerivedStats := ⟨empty⟩

def touch (stats : DerivedStats) : DerivedStats :=
  { stats with version := stats.version + 1 }

def set (stats : DerivedStats) (stat : String) (value : Float) : DerivedStats :=
  DerivedStats.touch { stats with values := stats.values.insert stat value }

end DerivedStats

end Statline

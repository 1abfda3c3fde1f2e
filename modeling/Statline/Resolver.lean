import Statline.Caps
import Statline.Context
import Statline.FormulaSheet
import Statline.Graph.Closure

namespace Statline

/-- What a single value depends on: the stat, the state of the formulas and the exact inputs. -/
structure MemoKey where
  stat : String
  version : Nat
  inputs : List (String × Double.Pattern)
deriving DecidableEq, Hashable

/-- Formulas that are always in a state to be evaluated, with bounds for the stats. -/
structure Resolver where
  sheet : FormulaSheet
  /-- How often the formulas were changed, taken to be fewer than 2^64 times. -/
  version : Nat
  memo : Std.HashMap MemoKey Float
  bounds : Table Caps

namespace Resolver

def empty : Resolver := ⟨FormulaSheet.empty, 0, {}, Table.empty⟩

instance : Inhabited Resolver := ⟨empty⟩

/-- Puts a changed sheet into force if its order can be built. -/
def adopt (resolver : Resolver) (staged : FormulaSheet) : Except Fault Resolver :=
  match staged.build with
  | (.error fault, _) => .error fault
  | (.ok _, built) =>
    .ok { resolver with sheet := built, version := resolver.version + 1, memo := {} }

def addAll (resolver : Resolver) (formulas : List Formula) : Except Fault Resolver := do
  resolver.adopt (← resolver.sheet.addAll formulas)

def add (resolver : Resolver) (formula : Formula) : Except Fault Resolver :=
  resolver.addAll [formula]

def ofFormulas (formulas : List Formula) : Except Fault Resolver :=
  empty.addAll formulas

def remove (resolver : Resolver) (name : String) : Except Fault (Formula × Resolver) := do
  let (formula, staged) ← resolver.sheet.remove name
  return (formula, ← resolver.adopt staged)

def order (resolver : Resolver) : List String :=
  resolver.sheet.order.getD []

def dependencies (resolver : Resolver) (name : String) : Except Fault (List String) :=
  match resolver.sheet.formula? name with
  | some formula => .ok formula.deps
  | none => .error (.unknownFormula name)

def resolve (resolver : Resolver) (primary : PrimaryStats) (previous : Option DerivedStats) :
    Except Fault DerivedStats :=
  resolver.sheet.evaluate resolver.order primary previous

def memoKey (resolver : Resolver) (stat : String) (primary : PrimaryStats) : MemoKey :=
  ⟨stat, resolver.version, primary.entries⟩

/-- Evaluates only what the stat depends on. -/
def compute (resolver : Resolver) (name : String) (primary : PrimaryStats) :
    Except Fault Float := do
  let order ← (resolver.sheet.graph.closure [name]).order
  let derived ← resolver.sheet.evaluate order primary none
  match derived.values.get? name with
  | some value => return value
  | none => throw (.missingDependency name)

/-- A table of computed values that reaches this size is emptied before it takes another. -/
def memoLimit : Nat := 4096

def remember (resolver : Resolver) (key : MemoKey) (value : Float) : Resolver :=
  let memo := if memoLimit ≤ resolver.memo.size then {} else resolver.memo
  { resolver with memo := memo.insert key value }

def resolveStat (resolver : Resolver) (name : String) (primary : PrimaryStats) :
    Except Fault Float × Resolver :=
  if !resolver.sheet.contains name then (.error (.unknownFormula name), resolver)
  else
    let key := resolver.memoKey name primary
    match resolver.memo[key]? with
    | some value => (.ok value, resolver)
    | none =>
      match resolver.compute name primary with
      | .ok value => (.ok value, resolver.remember key value)
      | .error fault => (.error fault, resolver)

def clearMemo (resolver : Resolver) : Resolver :=
  { resolver with memo := {} }

def setBounds (resolver : Resolver) (stat : String) (range : Caps) : Except Fault Resolver := do
  if Text.isBlank stat then throw .emptyDimension
  let _ ← Caps.checked stat range.min range.max
  return { resolver with bounds := resolver.bounds.insert stat range }

def removeBounds (resolver : Resolver) (stat : String) : Resolver :=
  { resolver with bounds := resolver.bounds.erase stat }

/-- The largest finite double. -/
def unbounded : Float :=
  Float.ofScientific 17976931348623157 false 292

def defaultBounds : Table Caps :=
  Table.ofList [("crit_chance", ⟨0.0, 1.0⟩), ("crit_multi", ⟨1.0, unbounded⟩),
    ("haste", ⟨0.1, unbounded⟩)]

/-- A stat with bounds must lie within them; any other must be finite and not negative. -/
def statFlaw (bounds : Option Caps) (value : Float) : Option String :=
  match bounds with
  | some range =>
    if range.contains value then none
    else
      some ("outside [" ++ Fault.number range.min ++ ", " ++ Fault.number range.max ++ "]")
  | none =>
    if !value.isFinite then some "not finite"
    else if value < 0.0 then some "negative"
    else none

def validateStat (resolver : Resolver) (stat : String) (value : Float) : Except Fault Unit :=
  match statFlaw (resolver.bounds.get? stat) value with
  | some reason => .error (.invalidStat stat value reason)
  | none => .ok ()

def validate (resolver : Resolver) (stats : DerivedStats) : Except Fault Unit :=
  stats.values.entries.forM fun entry => resolver.validateStat entry.1 entry.2

/-- The result of `action`, unless the request is cancelled or late. -/
def within {α : Type} (context : Context) (moment : Moment) (action : Except Fault α) :
    Except Fault α := do
  context.check moment
  action

def resolveStatWith (resolver : Resolver) (context : Context) (moment : Moment) (name : String)
    (primary : PrimaryStats) : Except Fault Float × Resolver :=
  match context.check moment with
  | .ok () => resolver.resolveStat name primary
  | .error fault => (.error fault, resolver)

end Resolver

end Statline

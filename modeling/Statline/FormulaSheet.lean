import Statline.Formula
import Statline.Graph.Order
import Statline.Stats

namespace Statline

/-- Formulas in the order in which they were added, and the order of their evaluation if it has
been built since the last change. -/
structure FormulaSheet where
  formulas : List Formula
  order : Option (List String)
deriving DecidableEq

namespace FormulaSheet

def empty : FormulaSheet := ⟨[], none⟩

instance : Inhabited FormulaSheet := ⟨empty⟩

def formula? (sheet : FormulaSheet) (name : String) : Option Formula :=
  sheet.formulas.find? (·.name = name)

def contains (sheet : FormulaSheet) (name : String) : Bool :=
  sheet.formulas.any (·.name = name)

def names (sheet : FormulaSheet) : List String :=
  sheet.formulas.map (·.name)

def size (sheet : FormulaSheet) : Nat :=
  sheet.formulas.length

def add (sheet : FormulaSheet) (formula : Formula) : Except Fault FormulaSheet := do
  formula.validate
  if sheet.contains formula.name then throw (.duplicateFormula formula.name)
  return ⟨sheet.formulas ++ [formula], none⟩

def addAll (sheet : FormulaSheet) (formulas : List Formula) : Except Fault FormulaSheet :=
  formulas.foldlM add sheet

/-- The formula of that name and the sheet without it. -/
def remove (sheet : FormulaSheet) (name : String) : Except Fault (Formula × FormulaSheet) :=
  match sheet.formula? name with
  | some formula => .ok (formula, ⟨sheet.formulas.filter (·.name ≠ name), none⟩)
  | none => .error (.unknownFormula name)

/-- Names outside the sheet are inputs and no nodes of the graph. -/
def graph (sheet : FormulaSheet) : Graph :=
  let nodes := sheet.formulas.foldl (fun graph formula => (graph.addNode formula.name).1)
    Graph.empty
  sheet.formulas.foldl
    (fun graph formula =>
      (formula.deps.filter sheet.contains).foldl
        (fun graph dep => graph.addDependency formula.name dep) graph)
    nodes

/-- A sheet whose order cannot be built has none. -/
def build (sheet : FormulaSheet) : Except Fault (List String) × FormulaSheet :=
  match sheet.graph.order with
  | .ok order => (.ok order, { sheet with order := some order })
  | .error fault => (.error fault, { sheet with order := none })

/-- A formula reads other formulas from what is already computed, and all else from the input. -/
def lookup (sheet : FormulaSheet) (primary : PrimaryStats) (computed : DerivedStats)
    (stat : String) : Except Fault Float :=
  match if sheet.contains stat then computed.values.get? stat else primary.value? stat with
  | some value => .ok value
  | none => .error (.missingDependency stat)

def evaluateNext (sheet : FormulaSheet) (primary : PrimaryStats) (computed : DerivedStats)
    (name : String) : Except Fault DerivedStats :=
  match sheet.formula? name with
  | none => .error (.unknownFormula name)
  | some formula => do
    return computed.set name (← formula.evaluate (sheet.lookup primary computed))

/-- Evaluates the named formulas in the order given, on top of a previous result. -/
def evaluate (sheet : FormulaSheet) (order : List String) (primary : PrimaryStats)
    (previous : Option DerivedStats) : Except Fault DerivedStats := do
  let start := previous.getD DerivedStats.empty
  return (← order.foldlM (sheet.evaluateNext primary) start).touch

def resolve (sheet : FormulaSheet) (primary : PrimaryStats) (previous : Option DerivedStats) :
    Except Fault DerivedStats :=
  match sheet.order with
  | some order => sheet.evaluate order primary previous
  | none => .error .orderNotBuilt

end FormulaSheet

end Statline

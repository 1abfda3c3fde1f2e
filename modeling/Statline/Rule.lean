import Statline.Bucket.Pipeline
import Statline.Operator
import Statline.Table

namespace Statline

/-- How the contributions to one dimension become its value. -/
structure Rule where
  usePipeline : Bool
  operator : Option Operator
  /-- The range of the value where no cap applies. -/
  clampDefault : Caps
deriving DecidableEq

namespace Rule

def defaultClamp : Caps := ⟨0.0, 1000000.0⟩

def standard : Rule := ⟨true, none, defaultClamp⟩

instance : Inhabited Rule := ⟨standard⟩

def validate (rule : Rule) (dimension : String) : Except Fault Unit := do
  if !rule.usePipeline && rule.operator.isNone then
    throw (.invalidRule dimension "operator is required when use_pipeline is false")
  let _ ← Caps.checked dimension rule.clampDefault.min rule.clampDefault.max

/-- An operator takes the values in the order given; the pipeline ranks them by priority. -/
def combine (rule : Rule) (contributions : List Contribution) : Float :=
  match rule.usePipeline, rule.operator with
  | false, some operator => operator.combine (contributions.map (·.value))
  | _, _ => Bucket.combine contributions

end Rule

/-- The rules in force, one at most for each dimension. -/
structure RuleBook where
  rules : Table Rule
deriving DecidableEq

namespace RuleBook

def empty : RuleBook := ⟨Table.empty⟩

def validateEntry (dimension : String) (rule : Rule) : Except Fault Unit :=
  if Text.isBlank dimension then .error .emptyDimension else rule.validate dimension

def validate (book : RuleBook) : Except Fault Unit :=
  book.rules.entries.forM fun entry => validateEntry entry.1 entry.2

def rule? (book : RuleBook) (dimension : String) : Option Rule :=
  book.rules.get? dimension

/-- The rule of a dimension, or the standard one. -/
def ruleFor (book : RuleBook) (dimension : String) : Rule :=
  (book.rule? dimension).getD Rule.standard

def set (book : RuleBook) (dimension : String) (rule : Rule) : Except Fault RuleBook := do
  validateEntry dimension rule
  return ⟨book.rules.insert dimension rule⟩

def remove (book : RuleBook) (dimension : String) : RuleBook :=
  ⟨book.rules.erase dimension⟩

/-- Writes the rules of `newer` over the present ones, all of them or none. -/
def apply (book newer : RuleBook) : Except Fault RuleBook := do
  newer.validate
  return ⟨book.rules.merge newer.rules⟩

/-- How many rules are written, and the book with them. -/
def applyCounted (book newer : RuleBook) : Except Fault (Nat × RuleBook) :=
  (book.apply newer).map (newer.rules.size, ·)

/-- The combination of the contributions to a dimension. -/
def combine (book : RuleBook) (dimension : String) (contributions : List Contribution) : Float :=
  match book.rule? dimension with
  | some rule => rule.combine contributions
  | none => Bucket.combine contributions

end RuleBook

end Statline

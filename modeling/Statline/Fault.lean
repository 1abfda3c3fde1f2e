import Statline.Decimal.Layout
import Statline.Layer

namespace Statline

/-- Why an operation was refused. -/
inductive Fault where
  | emptyDimension
  | unknownName (noun text : String)
  | invalidCaps (dimension : String) (min max : Float)
  | invalidRule (dimension reason : String)
  | invalidFormula (name reason : String)
  | invalidStat (stat : String) (value : Float) (reason : String)
  | invalidInput (reason : String)
  | invalidSetting (reason : String)
  /-- A document that is not well formed or does not have the expected shape. -/
  | unreadableDocument
  | duplicateSubsystem (id : String)
  | subsystemNotFound (id : String)
  | subsystemFailed (id reason : String)
  | layerNotInOrder (layer : Layer)
  | unknownFormula (name : String)
  | duplicateFormula (name : String)
  | missingDependency (stat : String)
  | cycle (path : List String)
  | orderNotBuilt
  | cacheFull (maxSize : Nat)
  | cacheKeyNotFound (key : String)
  | invalidTtl (text : String)
  | cancelled
  | deadlineExceeded
  | unreadableFile (reason : String)
deriving DecidableEq

namespace Fault

/-- Whether the caller's data, the state of the system or a resource is at fault. -/
inductive Category where
  | validation
  | system
  | resource
deriving DecidableEq

def category : Fault → Category
  | emptyDimension | unknownName .. | invalidCaps .. | invalidRule .. | invalidFormula ..
  | invalidStat .. | invalidInput _ | invalidSetting _ | unreadableDocument => .validation
  | duplicateSubsystem _ | subsystemNotFound _ | subsystemFailed .. | layerNotInOrder _
  | unknownFormula _ | duplicateFormula _ | missingDependency _ | cycle _ | orderNotBuilt => .system
  | cacheFull _ | cacheKeyNotFound _ | invalidTtl _ | cancelled | deadlineExceeded
  | unreadableFile _ => .resource

def number (x : Float) : String :=
  Decimal.message.write x

def message : Fault → String
  | emptyDimension => "Dimension name cannot be empty"
  | unknownName noun text => "Unknown " ++ noun ++ ": " ++ text
  | invalidCaps dimension min max =>
    "Invalid caps for " ++ dimension ++ ": min " ++ number min ++ " > max " ++ number max
  | invalidRule dimension reason => "Invalid merge rule for " ++ dimension ++ ": " ++ reason
  | invalidFormula name reason => "Invalid formula " ++ name ++ ": " ++ reason
  | invalidStat stat value reason =>
    "Invalid value for " ++ stat ++ ": " ++ number value ++ " (" ++ reason ++ ")"
  | invalidInput reason => "Invalid input: " ++ reason
  | invalidSetting reason => "Invalid configuration: " ++ reason
  | unreadableDocument => "Invalid configuration: the document cannot be read"
  | duplicateSubsystem id => "Subsystem already registered: " ++ id
  | subsystemNotFound id => "Subsystem not found: " ++ id
  | subsystemFailed id reason => "Subsystem " ++ id ++ " failed: " ++ reason
  | layerNotInOrder layer => "Layer " ++ layer.name ++ " is not in the layer order"
  | unknownFormula name => "Unknown formula: " ++ name
  | duplicateFormula name => "Formula already registered: " ++ name
  | missingDependency stat => "Missing dependency: " ++ stat
  | cycle [] => "Cycle detected: (empty cycle)"
  | cycle path => "Cycle detected: " ++ " -> ".intercalate path
  | orderNotBuilt => "Formula order has not been built"
  | cacheFull maxSize => "Cache is full (max size " ++ toString maxSize ++ ")"
  | cacheKeyNotFound key => "Cache key not found: " ++ key
  | invalidTtl text => "Invalid TTL: " ++ text
  | cancelled => "Operation cancelled"
  | deadlineExceeded => "Deadline exceeded"
  | unreadableFile reason => "I/O error: " ++ reason

end Fault

/-- The member of a vocabulary that a text names. -/
def Vocabulary.parse (α : Type) [Vocabulary α] (text : String) : Except Fault α :=
  match ofName? text with
  | some member => .ok member
  | none => .error (.unknownName (noun α) text)

end Statline

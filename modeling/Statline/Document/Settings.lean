import Statline.Document.Contribution
import Statline.Document.Formula
import Statline.Engine

namespace Statline.Document

/-- An operator may be named by a caller's word for it; null and the empty text mean none. -/
def readOperator : Json → Option (Option Operator)
  | .null => some none
  | .str text => if text.isEmpty then some none else (Vocabulary.ofName? text).map some
  | _ => none

def readRule (json : Json) : Option Rule := do
  match ← record ["use_pipeline", "operator", "clamp_default"] json with
  | [usePipeline, operator, clamp] =>
    return {
      usePipeline := ← optional true readBool usePipeline
      operator := ← optional none readOperator operator
      clampDefault := ← optional Rule.defaultClamp readCaps clamp }
  | _ => none

/-- No operator is not written. -/
def writeRule (rule : Rule) : Json :=
  .obj ([("use_pipeline", .bool rule.usePipeline)] ++
    (rule.operator.toList.map fun operator => ("operator", writeMember operator)) ++
    [("clamp_default", writeCaps rule.clampDefault)])

def readRuleBook (json : Json) : Option RuleBook := do
  match ← record ["rules"] json with
  | [rules] => return ⟨← optional Table.empty (readTable readRule) rules⟩
  | _ => none

def writeRuleBook (book : RuleBook) : Json :=
  .obj [("rules", writeTable writeRule book.rules)]

def readLayerPlan (json : Json) : Option LayerPlan := do
  match ← record ["order", "across_policy"] json with
  | [order, policy] =>
    return {
      order := ← optional Layer.all (readList (readMember Layer)) order
      policy := ← optional .intersect (readMember LayerPolicy) policy }
  | _ => none

def writeLayerPlan (plan : LayerPlan) : Json :=
  .obj [("order", writeList writeMember plan.order), ("across_policy", writeMember plan.policy)]

def readCacheSettings (json : Json) : Option CacheSettings := do
  match ← record ["enabled", "max_size", "eviction_policy", "snapshot_ttl"] json with
  | [enabled, maxSize, policy, ttl] =>
    return {
      enabled := ← optional true readBool enabled
      maxSize := ← optional CacheSettings.defaultSize readWord maxSize
      policy := ← optional .allkeysLru (readMember EvictionPolicy) policy
      snapshotTtl := ← optional AggregatorSettings.defaultTtl readText ttl }
  | _ => none

def writeCacheSettings (settings : CacheSettings) : Json :=
  .obj [("enabled", .bool settings.enabled), ("max_size", writeNat settings.maxSize.toNat),
    ("eviction_policy", writeMember settings.policy), ("snapshot_ttl", .str settings.snapshotTtl)]

def readAggregatorSettings (json : Json) : Option AggregatorSettings := do
  match ← record ["snapshot_ttl", "check_actor_version"] json with
  | [ttl, check] =>
    return {
      snapshotTtl := ← optional AggregatorSettings.defaultTtl readText ttl
      checkActorVersion := ← optional false readBool check }
  | _ => none

def writeAggregatorSettings (settings : AggregatorSettings) : Json :=
  .obj [("snapshot_ttl", .str settings.snapshotTtl),
    ("check_actor_version", .bool settings.checkActorVersion)]

def readEngineSettings (json : Json) : Option EngineSettings := do
  match ← record
      ["layers", "combiner", "cache", "check_actor_version", "formulas", "stat_bounds"] json with
  | [layers, rules, cache, check, formulas, bounds] =>
    return {
      layers := ← optional LayerPlan.standard readLayerPlan layers
      rules := ← optional RuleBook.empty readRuleBook rules
      cache := ← optional CacheSettings.standard readCacheSettings cache
      checkActorVersion := ← optional false readBool check
      formulas := ← optional [] (readList readFormula) formulas
      bounds := ← optional Table.empty (readTable readCaps) bounds }
  | _ => none

def writeEngineSettings (settings : EngineSettings) : Json :=
  .obj [("layers", writeLayerPlan settings.layers), ("combiner", writeRuleBook settings.rules),
    ("cache", writeCacheSettings settings.cache),
    ("check_actor_version", .bool settings.checkActorVersion),
    ("formulas", writeList writeFormula settings.formulas),
    ("stat_bounds", writeTable writeCaps settings.bounds)]

end Statline.Document

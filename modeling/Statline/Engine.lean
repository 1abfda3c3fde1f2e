import Statline.Aggregator
import Statline.Resolver

namespace Statline

structure CacheSettings where
  enabled : Bool
  maxSize : UInt64
  policy : EvictionPolicy
  snapshotTtl : String
deriving DecidableEq

namespace CacheSettings

def defaultSize : UInt64 := 1000

def standard : CacheSettings :=
  ⟨true, defaultSize, .allkeysLru, AggregatorSettings.defaultTtl⟩

def validate (settings : CacheSettings) : Except Fault Unit := do
  if settings.maxSize = 0 then throw (.invalidSetting "cache.max_size must be greater than zero")
  let _ ← Ttl.parse settings.snapshotTtl

end CacheSettings

/-- All that an engine is built from. -/
structure EngineSettings where
  layers : LayerPlan
  rules : RuleBook
  cache : CacheSettings
  checkActorVersion : Bool
  formulas : List Formula
  bounds : Table Caps
deriving DecidableEq

namespace EngineSettings

def standard : EngineSettings :=
  ⟨LayerPlan.standard, RuleBook.empty, CacheSettings.standard, false, [], Table.empty⟩

def validate (settings : EngineSettings) : Except Fault Unit := do
  settings.layers.validate
  settings.rules.validate
  settings.cache.validate
  settings.formulas.forM Formula.validate
  validateCaps settings.bounds

def aggregator (settings : EngineSettings) : AggregatorSettings :=
  ⟨settings.cache.snapshotTtl, settings.checkActorVersion⟩

end EngineSettings

/-- Everything that works together on actors and stats. -/
structure Engine where
  aggregator : Aggregator
  resolver : Resolver

namespace Engine

def build (settings : EngineSettings) : Except Fault Engine := do
  settings.validate
  let layers ← LayerPlan.standard.apply settings.layers
  let rules ← RuleBook.empty.apply settings.rules
  let resolver ← Resolver.ofFormulas settings.formulas
  let resolver ← settings.bounds.entries.foldlM
    (fun (resolver : Resolver) entry => resolver.setBounds entry.1 entry.2) resolver
  let cache :=
    if settings.cache.enabled then
      some (Cache.create settings.cache.maxSize.toNat settings.cache.policy)
    else none
  let aggregator ← (Aggregator.create cache).configure settings.aggregator
  return ⟨{ aggregator with layers, rules }, resolver⟩

end Engine

end Statline

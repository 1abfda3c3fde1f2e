import Statline.Proofs.Aggregator.History
import Statline.Proofs.Layer.Edits
import Statline.Proofs.Rule.Edits

namespace Statline

namespace AggregatorSettings

theorem validate_eq_ok {settings : AggregatorSettings} :
    settings.validate = .ok () ↔ ∃ nanos, Ttl.parse settings.snapshotTtl = .ok nanos := by
  simp [validate, bind_eq_ok, pure, Except.pure]

theorem validate_standard : standard.validate = .ok () := by
  decide +kernel

end AggregatorSettings

namespace Aggregator

/-- What every request leaves alone. -/
structure Keeps (aggregator next : Aggregator) : Prop where
  rules : next.rules = aggregator.rules
  layers : next.layers = aggregator.layers
  settings : next.settings = aggregator.settings

variable {aggregator middle next : Aggregator} {fault : Fault}

theorem Keeps.trans (h : aggregator.Keeps middle) (later : middle.Keeps next) :
    aggregator.Keeps next :=
  ⟨later.rules.trans h.rules, later.layers.trans h.layers, later.settings.trans h.settings⟩

theorem keeps_serve (aggregator : Aggregator) (now : Nat) (context : Context) (actor : Actor) :
    aggregator.Keeps (aggregator.serve now context actor).2 := by
  unfold serve
  dsimp only
  split
  next => exact ⟨rfl, rfl, rfl⟩
  next =>
    split
    next found =>
      obtain rfl := lookup_eq found
      exact ⟨rfl, rfl, rfl⟩
    next found =>
      obtain rfl := lookup_eq found
      exact ⟨rfl, rfl, rfl⟩

theorem keeps_resolveWith (aggregator : Aggregator) (moment : Moment) (context : Context)
    (actor : Actor) : aggregator.Keeps (aggregator.resolveWith moment context actor).2 := by
  unfold resolveWith
  split
  next => exact ⟨rfl, rfl, rfl⟩
  next => exact keeps_serve aggregator moment.now context actor

theorem keeps_resolveBatchWith (aggregator : Aggregator) (context : Context)
    (requests : List (Moment × Actor)) :
    aggregator.Keeps (aggregator.resolveBatchWith context requests).2 := by
  induction requests generalizing aggregator with
  | nil => exact ⟨rfl, rfl, rfl⟩
  | cons request rest ih =>
    exact (keeps_resolveWith aggregator request.1 context request.2).trans (ih _)

/-- A call that is no change from outside. -/
def Call.isRequest : Call → Bool
  | .change .. => false
  | _ => true

theorem keeps_call {made : Call} (plain : made.isRequest = true) :
    aggregator.Keeps (aggregator.call made) := by
  cases made with
  | resolve moment actor => exact keeps_serve aggregator moment.now Context.empty actor
  | resolveWith moment context actor => exact keeps_resolveWith aggregator moment context actor
  | resolveBatch requests => exact keeps_resolveBatchWith aggregator Context.empty requests
  | resolveBatchWith context requests => exact keeps_resolveBatchWith aggregator context requests
  | cachedSnapshot now id =>
    simp only [call, cachedSnapshot]
    split <;> exact ⟨rfl, rfl, rfl⟩
  | invalidate id =>
    simp only [call, invalidate]
    split <;> exact ⟨rfl, rfl, rfl⟩
  | clearCache => exact ⟨rfl, rfl, rfl⟩
  | change => cases plain

theorem serve_of_error {now : Nat} {context : Context} {actor : Actor}
    (h : (aggregator.serve now context actor).1 = .error fault) :
    ∃ metrics, (aggregator.serve now context actor).2 = { aggregator with metrics } := by
  unfold serve at h ⊢
  dsimp only at h ⊢
  split at h
  next blank =>
    rw [if_pos blank]
    exact ⟨_, rfl⟩
  next => split at h <;> cases h

/-- How a request ends. A batch leaves out what is refused, and nothing else can be refused. -/
def answered (aggregator : Aggregator) : Call → Except Fault Unit
  | .resolve moment actor => (aggregator.resolve moment actor).1.map fun _ => ()
  | .resolveWith moment context actor =>
    (aggregator.resolveWith moment context actor).1.map fun _ => ()
  | _ => .ok ()

theorem call_of_answered_error {made : Call} (h : aggregator.answered made = .error fault) :
    ∃ metrics, aggregator.call made = { aggregator with metrics } := by
  cases made with
  | resolve moment actor => exact serve_of_error (map_eq_error.mp h)
  | resolveWith moment context actor =>
    have h := map_eq_error.mp h
    simp only [call, resolveWith] at h ⊢
    split at h
    next => exact ⟨_, rfl⟩
    next => exact serve_of_error h
  | _ => cases h

theorem validate_eq_ok :
    aggregator.validate = .ok () ↔ aggregator.settings.validate = .ok () ∧
      aggregator.rules.validate = .ok () ∧ aggregator.layers.validate = .ok () := by
  rw [validate, check_bind_eq_ok, check_bind_eq_ok]

theorem validate_create (cache : Option (Cache Snapshot)) : (create cache).validate = .ok () :=
  validate_eq_ok.mpr ⟨AggregatorSettings.validate_standard, rfl, rfl⟩

theorem Keeps.validate (h : aggregator.Keeps next) (valid : aggregator.validate = .ok ()) :
    next.validate = .ok () := by
  rw [validate_eq_ok] at valid ⊢
  rwa [h.rules, h.layers, h.settings]

theorem configure_eq_ok {settings : AggregatorSettings} :
    aggregator.configure settings = .ok next ↔
      settings.validate = .ok () ∧ { aggregator with settings } = next :=
  check_pure_eq_ok

/-- An operation on an aggregator or on what it computes with. Which subsystems are registered may
change in any way. -/
inductive Operation where
  | rules (made : RuleBook.Edit)
  | layers (made : LayerPlan.Edit)
  | roster (roster : Roster)
  | configure (settings : AggregatorSettings)
  | request (made : Call) (plain : made.isRequest = true)

/-- How an operation ends, and the aggregator as it leaves it. -/
def perform (aggregator : Aggregator) : Operation → Except Fault Unit × Aggregator
  | .rules made =>
    let (answer, rules) := made.inPlace.run aggregator.rules
    (answer.map fun _ => (), { aggregator with rules })
  | .layers made =>
    let (answer, layers) := made.inPlace.run aggregator.layers
    (answer, { aggregator with layers })
  | .roster roster => (.ok (), { aggregator with roster })
  | .configure settings => settle aggregator (aggregator.configure settings)
  | .request made _ => (aggregator.answered made, aggregator.call made)

def afterAll (start : Aggregator) (operations : List Operation) : Aggregator :=
  operations.foldl (fun aggregator operation => (aggregator.perform operation).2) start

theorem perform_rules (aggregator : Aggregator) (made : RuleBook.Edit) :
    aggregator.perform (.rules made) =
      settle aggregator
        ((aggregator.rules.edit made).map fun changed =>
          { aggregator with rules := changed.2 }) := by
  simp only [perform, RuleBook.run_inPlace]
  cases aggregator.rules.edit made <;> rfl

theorem perform_layers (aggregator : Aggregator) (made : LayerPlan.Edit) :
    aggregator.perform (.layers made) =
      settle aggregator ((aggregator.layers.edit made).map ({ aggregator with layers := · })) := by
  simp only [perform, LayerPlan.run_inPlace]
  cases aggregator.layers.edit made <;> rfl

/-- An operation that fails leaves no trace but in the count of failures. -/
theorem perform_of_error {operation : Operation}
    (h : (aggregator.perform operation).1 = .error fault) :
    ∃ metrics, (aggregator.perform operation).2 = { aggregator with metrics } := by
  cases operation with
  | rules made =>
    rw [perform_rules] at h ⊢
    exact ⟨_, settle_of_error h⟩
  | layers made =>
    rw [perform_layers] at h ⊢
    exact ⟨_, settle_of_error h⟩
  | roster roster => cases h
  | configure settings => exact ⟨_, settle_of_error h⟩
  | request made plain => exact call_of_answered_error h

theorem validate_perform (h : aggregator.validate = .ok ()) (operation : Operation) :
    (aggregator.perform operation).2.validate = .ok () := by
  obtain ⟨configured, ruled, ordered⟩ := validate_eq_ok.mp h
  cases operation with
  | rules made =>
    rw [perform_rules]
    refine settle_of (P := fun next : Aggregator => next.validate = .ok ()) h fun next changed => ?_
    obtain ⟨⟨_, rules⟩, edited, rfl⟩ := map_eq_ok.mp changed
    exact validate_eq_ok.mpr ⟨configured, RuleBook.validate_of_edit ruled edited, ordered⟩
  | layers made =>
    rw [perform_layers]
    refine settle_of (P := fun next : Aggregator => next.validate = .ok ()) h fun next changed => ?_
    obtain ⟨layers, edited, rfl⟩ := map_eq_ok.mp changed
    exact validate_eq_ok.mpr ⟨configured, ruled, LayerPlan.validate_of_edit ordered edited⟩
  | roster roster => exact h
  | configure settings =>
    refine settle_of (P := fun next : Aggregator => next.validate = .ok ()) h fun next changed => ?_
    obtain ⟨accepted, rfl⟩ := configure_eq_ok.mp changed
    exact validate_eq_ok.mpr ⟨accepted, ruled, ordered⟩
  | request made plain => exact (keeps_call plain).validate h

theorem validate_afterAll {start : Aggregator} (h : start.validate = .ok ())
    (operations : List Operation) : (start.afterAll operations).validate = .ok () :=
  List.foldlRecOn (motive := fun aggregator : Aggregator => aggregator.validate = .ok ())
    operations _ h fun _ valid operation _ => validate_perform valid operation

theorem perform_load_rules {text : String} :
    aggregator.perform (.rules (.load text)) = (.ok (), next) ↔
      ∃ newer, Document.load RuleBook text = .ok newer ∧ newer.validate = .ok () ∧
        next = { aggregator with rules := next.rules } ∧
        ∀ dimension, next.rules.rule? dimension =
          (newer.rule? dimension).or (aggregator.rules.rule? dimension) := by
  rw [perform_rules, settle_eq_ok, map_eq_ok]
  constructor
  · rintro ⟨⟨_, rules⟩, edited, rfl⟩
    obtain ⟨newer, read, valid, _, overwritten⟩ := RuleBook.edit_load_eq_ok.mp edited
    exact ⟨newer, read, valid, rfl, overwritten⟩
  · rintro ⟨newer, read, valid, same, overwritten⟩
    have edited := RuleBook.edit_load_eq_ok.mpr ⟨newer, read, valid, rfl, overwritten⟩
    exact ⟨_, edited, same.symm⟩

theorem perform_load_layers {text : String} :
    aggregator.perform (.layers (.load text)) = (.ok (), next) ↔
      ∃ newer, Document.load LayerPlan text = .ok newer ∧ newer.validate = .ok () ∧
        next = { aggregator with layers := newer } := by
  rw [perform_layers, settle_eq_ok, map_eq_ok]
  simp only [LayerPlan.edit, LayerPlan.load_eq_ok, and_assoc]
  exact exists_congr fun _ => and_congr_right fun _ => and_congr_right fun _ => eq_comm

/-- Whatever the operations: one that fails leaves the rules, the layers and all else as they were,
but for the count of failures; a document of rules is written over the rules in force, and its rules
are counted, if it can be read and all of it is valid, and a document of layers replaces order and
policy; and the rules, the layers and the aggregator itself stay valid. -/
theorem registries_after_operations (cache : Option (Cache Snapshot))
    (operations : List Operation) :
    let aggregator := (create cache).afterAll operations
    (∀ operation fault, (aggregator.perform operation).1 = .error fault →
      ∃ metrics, (aggregator.perform operation).2 = { aggregator with metrics }) ∧
    (∀ text next, aggregator.perform (.rules (.load text)) = (.ok (), next) ↔
      ∃ newer, Document.load RuleBook text = .ok newer ∧ newer.validate = .ok () ∧
        next = { aggregator with rules := next.rules } ∧
        ∀ dimension, next.rules.rule? dimension =
          (newer.rule? dimension).or (aggregator.rules.rule? dimension)) ∧
    (∀ text answer, ((RuleBook.Edit.load text).inPlace.run aggregator.rules).1 = .ok answer →
      ∃ newer, Document.load RuleBook text = .ok newer ∧ answer = .written newer.rules.size) ∧
    (∀ text next, aggregator.perform (.layers (.load text)) = (.ok (), next) ↔
      ∃ newer, Document.load LayerPlan text = .ok newer ∧ newer.validate = .ok () ∧
        next = { aggregator with layers := newer }) ∧
    (∀ dimension rule, aggregator.rules.rule? dimension = some rule →
      RuleBook.Lawful dimension rule) ∧
    aggregator.layers.order ≠ [] ∧ aggregator.layers.order.Nodup ∧
    aggregator.validate = .ok () := by
  intro aggregator
  have valid : aggregator.validate = .ok () := validate_afterAll (validate_create cache) operations
  obtain ⟨_, ruled, ordered⟩ := validate_eq_ok.mp valid
  obtain ⟨filled, distinct⟩ := LayerPlan.validateOrder_eq_ok.mp ordered
  exact ⟨fun operation fault => perform_of_error, fun text next => perform_load_rules,
    fun text answer => RuleBook.answer_of_load, fun text next => perform_load_layers,
    fun dimension rule => RuleBook.lawful_of_rule? ruled, filled, distinct, valid⟩

/-- A sound rule is not applied if another one of its document has a blank name. -/
example :
    ((create none).perform (.rules (.load
      "\x7b\"rules\": \x7b\"armor\": \x7b\x7d, \" \": \x7b\x7d\x7d\x7d"))).1 =
        .error .emptyDimension := by
  decide +kernel

end Aggregator

end Statline

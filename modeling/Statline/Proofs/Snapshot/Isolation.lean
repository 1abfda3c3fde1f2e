import Statline.Proofs.Snapshot.Accounting

namespace Statline

/-- The caps on a dimension that stand in a layer of the plan, in the order of the outputs. -/
def LayerPlan.capsOn (plan : LayerPlan) (dimension : String) (outputs : List Output) :
    List CapContribution :=
  (capsOf outputs).filter fun cap => cap.dimension = dimension && plan.contains cap.scope

variable {outputs others : List Output} {contributions later : List Contribution}
  {dimension : String}

/-- Within a layer of the plan nothing but the caps that count is left of those on a dimension. -/
theorem LayerPlan.filter_capsOn {plan : LayerPlan} {layer : Layer} (counts : layer ∈ plan.order)
    (dimension : String) (outputs : List Output) :
    ((capsOf outputs).filter (·.scope = layer)).filter (·.dimension = dimension) =
      (plan.capsOn dimension outputs).filter (·.scope = layer) := by
  rw [capsOn, List.filter_filter, List.filter_filter]
  refine List.filter_congr fun cap _ => ?_
  by_cases here : cap.scope = layer
  · have counted : plan.contains layer = true := List.contains_iff_mem.mpr counts
    simp [here, counted]
  · simp [here]

theorem LayerPlan.get?_effectiveCaps_congr {plan : LayerPlan}
    (caps : plan.capsOn dimension outputs = plan.capsOn dimension others) :
    (plan.effectiveCaps outputs).get? dimension = (plan.effectiveCaps others).get? dimension := by
  have ranges : plan.order.map (fun layer => (layer.caps (capsOf outputs)).get? dimension) =
      plan.order.map fun layer => (layer.caps (capsOf others)).get? dimension := by
    refine List.map_congr_left fun layer counts => ?_
    rw [Layer.get?_caps, Layer.get?_caps, filter_capsOn counts, filter_capsOn counts, caps]
  rw [get?_effectiveCaps, get?_effectiveCaps, ranges]

namespace Snapshot

variable {rules changed : RuleBook} {effective capped : Table Caps}

theorem mem_dimensions_iff_filter (contributions : List Contribution) (dimension : String) :
    dimension ∈ dimensions contributions ↔ contributions.filter (·.dimension = dimension) ≠ [] := by
  simp [dimensions, List.filter_eq_nil_iff]

theorem mem_dimensions_congr
    (own : contributions.filter (·.dimension = dimension) =
      later.filter (·.dimension = dimension)) :
    dimension ∈ dimensions contributions ↔ dimension ∈ dimensions later := by
  rw [mem_dimensions_iff_filter, own, ← mem_dimensions_iff_filter]

theorem raw_congr (rule : rules.rule? dimension = changed.rule? dimension)
    (own : contributions.filter (·.dimension = dimension) =
      later.filter (·.dimension = dimension)) :
    raw rules contributions dimension = raw changed later dimension := by
  rw [raw, raw, RuleBook.combine, RuleBook.combine, rule, own]

theorem get?_values_congr (rule : rules.rule? dimension = changed.rule? dimension)
    (range : effective.get? dimension = capped.get? dimension)
    (own : contributions.filter (·.dimension = dimension) =
      later.filter (·.dimension = dimension)) :
    (values rules effective contributions).get? dimension =
      (values changed capped later).get? dimension := by
  have ranges : rangeFor rules effective dimension = rangeFor changed capped dimension := by
    rw [rangeFor, rangeFor, rule, range]
  rw [get?_values, get?_values, raw_congr rule own, ranges]
  exact if_congr (mem_dimensions_congr own) rfl rfl

theorem get?_usedCaps_congr (rule : rules.rule? dimension = changed.rule? dimension)
    (range : effective.get? dimension = capped.get? dimension)
    (own : contributions.filter (·.dimension = dimension) =
      later.filter (·.dimension = dimension)) :
    (usedCaps rules effective contributions).get? dimension =
      (usedCaps changed capped later).get? dimension := by
  rw [get?_usedCaps, get?_usedCaps, rule, range]
  exact congrArg _ (if_congr (mem_dimensions_congr own) rfl rfl)

/-- What a snapshot shows of a dimension comes of the contributions to it, the caps on it that
stand in layers of the plan, and its rule. Nothing else that the subsystems say, and no rule of
another dimension, makes a difference to it. -/
theorem isolated_of_own (rules changed : RuleBook) (layers plan : LayerPlan)
    (outputs others : List Output) (actor other : Actor) (dimension : String)
    (order : layers.order = plan.order) (policy : layers.policy = plan.policy)
    (rule : rules.rule? dimension = changed.rule? dimension)
    (primary : (outputs.flatMap (·.primary)).filter (·.dimension = dimension) =
      (others.flatMap (·.primary)).filter (·.dimension = dimension))
    (derived : (outputs.flatMap (·.derived)).filter (·.dimension = dimension) =
      (others.flatMap (·.derived)).filter (·.dimension = dimension))
    (caps : layers.capsOn dimension outputs = layers.capsOn dimension others) :
    (compute rules layers outputs actor).primary.get? dimension =
        (compute changed plan others other).primary.get? dimension ∧
      (compute rules layers outputs actor).derived.get? dimension =
        (compute changed plan others other).derived.get? dimension ∧
      (compute rules layers outputs actor).capsUsed.get? dimension =
        (compute changed plan others other).capsUsed.get? dimension := by
  obtain rfl : layers = plan := by
    cases layers
    cases plan
    exact congrArg₂ LayerPlan.mk order policy
  have range := LayerPlan.get?_effectiveCaps_congr caps
  refine ⟨get?_values_congr rule range primary, get?_values_congr rule range derived, ?_⟩
  refine get?_usedCaps_congr rule range ?_
  rw [List.filter_append, List.filter_append, primary, derived]

/-- Adds to attack beyond its cap in the world. -/
def striker : Output where
  primary := [⟨"attack", .flat, 90, "sword", 0⟩]
  derived := [⟨"attack", .flat, 5, "sword", 0⟩]
  caps := [⟨"sword", "attack", .baseline, 50, 1, .world, none, []⟩]
  origin := ⟨"sword", 1⟩

/-- Adds to stamina under a cap, and caps attack in a layer that the plan leaves out. -/
def bystander : Output where
  primary := [⟨"stamina", .flat, 7, "boots", 4⟩]
  derived := []
  caps := [⟨"boots", "attack", .hardMax, 10, 5, .guild, none, []⟩,
    ⟨"boots", "stamina", .baseline, 3, 0, .world, none, []⟩]
  origin := ⟨"boots", 1⟩

def worldPlan : LayerPlan := ⟨[.world, .total], .union⟩

def staminaRules : RuleBook :=
  ⟨Table.ofList [("stamina", ⟨false, some .max, Rule.defaultClamp⟩)]⟩

theorem isolated_of_bystander :
    RuleBook.empty.rule? "attack" = staminaRules.rule? "attack" ∧
      worldPlan.capsOn "attack" [striker] = worldPlan.capsOn "attack" [bystander, striker] ∧
      (compute RuleBook.empty worldPlan [striker] ⟨"hero", 1⟩).primary.get? "attack" =
        (compute staminaRules worldPlan [bystander, striker] ⟨"hero", 1⟩).primary.get? "attack" ∧
      (compute RuleBook.empty worldPlan [striker] ⟨"hero", 1⟩).primary.get? "attack" =
        some 50 := by
  have rule : RuleBook.empty.rule? "attack" = staminaRules.rule? "attack" := by decide +kernel
  have caps : worldPlan.capsOn "attack" [striker] =
      worldPlan.capsOn "attack" [bystander, striker] := by
    decide +kernel
  have same := isolated_of_own RuleBook.empty staminaRules worldPlan worldPlan [striker]
    [bystander, striker] ⟨"hero", 1⟩ ⟨"hero", 1⟩ "attack" rfl rfl rule (by decide +kernel)
    (by decide +kernel) caps
  exact ⟨rule, caps, same.1, by decide +kernel⟩

end Snapshot

end Statline

import Statline.Proofs.Ranking
import Statline.Proofs.Snapshot.Accounting

namespace Statline

/-- Where a contribution acts: all in one slot act in the order of their priorities. -/
def Contribution.slot (c : Contribution) : String × Bucket :=
  (c.dimension, c.bucket)

def CapContribution.slot (cap : CapContribution) : Layer × String :=
  (cap.scope, cap.dimension)

/-- In each section and dimension the contributions to one bucket differ in priority, and so do
the caps on one dimension of one layer. -/
structure UntiedOutputs (outputs : List Output) : Prop where
  primary : Untied Contribution.slot Contribution.priority (outputs.flatMap (·.primary))
  derived : Untied Contribution.slot Contribution.priority (outputs.flatMap (·.derived))
  caps : Untied CapContribution.slot CapContribution.priority (capsOf outputs)

variable {outputs others : List Output} {contributions later : List Contribution}

theorem UntiedOutputs.sublist (h : UntiedOutputs outputs) (sub : others.Sublist outputs) :
    UntiedOutputs others where
  primary := h.primary.sublist (sub.flatMap _)
  derived := h.derived.sublist (sub.flatMap _)
  caps := h.caps.sublist (sub.flatMap _)

theorem UntiedOutputs.perm (h : UntiedOutputs outputs) (perm : outputs.Perm others) :
    UntiedOutputs others where
  primary := h.primary.perm (perm.flatMap_right _)
  derived := h.derived.perm (perm.flatMap_right _)
  caps := h.caps.perm (perm.flatMap_right _)

theorem Bucket.combine_eq_of_perm (perm : contributions.Perm later)
    (untied : Untied Contribution.bucket Contribution.priority contributions) :
    combine contributions = combine later := by
  have values (bucket : Bucket) :
      valuesIn (ranked Contribution.priority contributions) bucket =
        valuesIn (ranked Contribution.priority later) bucket := by
    rw [valuesIn, filter_ranked_eq_of_perm untied perm, valuesIn]
  simp only [combine, stages, values]

theorem Layer.caps_eq_of_perm (layer : Layer) {caps others : List CapContribution}
    (perm : caps.Perm others)
    (untied : Untied CapContribution.slot CapContribution.priority caps) :
    layer.caps caps = layer.caps others := by
  refine Table.ext_get? fun dimension => ?_
  rw [get?_caps, get?_caps, ranked_eq_of_perm ((perm.filter _).filter _)]
  exact (untied.filter_outer layer).pairwise_filter dimension

theorem LayerPlan.effectiveCaps_eq_of_perm (plan : LayerPlan) (perm : outputs.Perm others)
    (untied : UntiedOutputs outputs) : plan.effectiveCaps outputs = plan.effectiveCaps others := by
  have caps : (capsOf outputs).Perm (capsOf others) := perm.flatMap_right _
  have layers (layer : Layer) := layer.caps_eq_of_perm caps untied.caps
  simp only [effectiveCaps, layerCaps, layers]

/-- Whether an operator makes the value of a dimension, which then takes the contributions as they
come. -/
def RuleBook.usesOperator (book : RuleBook) (dimension : String) : Bool :=
  (book.rule? dimension).any fun rule => !rule.usePipeline && rule.operator.isSome

theorem RuleBook.combine_of_pipeline {book : RuleBook} {dimension : String}
    (h : book.usesOperator dimension = false) (contributions : List Contribution) :
    book.combine dimension contributions = Bucket.combine contributions := by
  unfold combine
  split
  next rule found =>
    unfold Rule.combine
    split
    next unpiped operated => simp [usesOperator, found, unpiped, operated] at h
    next => rfl
  next => rfl

namespace Snapshot

variable {rules : RuleBook}

/-- The snapshots have the same caps in use, and the same values but for those that operators
make. -/
structure Agree (rules : RuleBook) (a b : Snapshot) : Prop where
  actorId : a.actorId = b.actorId
  version : a.version = b.version
  capsUsed : a.capsUsed = b.capsUsed
  primary : ∀ dimension, rules.usesOperator dimension = false →
    a.primary.get? dimension = b.primary.get? dimension
  derived : ∀ dimension, rules.usesOperator dimension = false →
    a.derived.get? dimension = b.derived.get? dimension

theorem mem_dimensions_of_perm (perm : contributions.Perm later) (dimension : String) :
    dimension ∈ dimensions contributions ↔ dimension ∈ dimensions later :=
  (perm.map _).mem_iff

theorem usedCaps_eq_of_perm (rules : RuleBook) (effective : Table Caps)
    (perm : contributions.Perm later) :
    usedCaps rules effective contributions = usedCaps rules effective later := by
  refine Table.ext_get? fun dimension => ?_
  simp only [get?_usedCaps, mem_dimensions_of_perm perm]

theorem get?_values_of_perm (effective : Table Caps) (perm : contributions.Perm later)
    (untied : Untied Contribution.slot Contribution.priority contributions) {dimension : String}
    (piped : rules.usesOperator dimension = false) :
    (values rules effective contributions).get? dimension =
      (values rules effective later).get? dimension := by
  have same : raw rules contributions dimension = raw rules later dimension := by
    rw [raw, raw, RuleBook.combine_of_pipeline piped, RuleBook.combine_of_pipeline piped]
    exact Bucket.combine_eq_of_perm (perm.filter _) (untied.filter_outer dimension)
  simp only [get?_values, mem_dimensions_of_perm perm, same]

/-- In which order the outputs come makes no difference where priorities decide it all. -/
theorem agree_compute_of_perm (rules : RuleBook) (layers : LayerPlan) (actor : Actor)
    (perm : outputs.Perm others) (untied : UntiedOutputs outputs) :
    Agree rules (compute rules layers outputs actor) (compute rules layers others actor) := by
  have caps := layers.effectiveCaps_eq_of_perm perm untied
  have primary := perm.flatMap_right (·.primary)
  have derived := perm.flatMap_right (·.derived)
  refine ⟨rfl, rfl, ?_, fun dimension piped => ?_, fun dimension piped => ?_⟩
  · simp only [compute, caps, usedCaps_eq_of_perm _ _ (primary.append derived)]
  · simp only [compute, caps, get?_values_of_perm _ primary untied.primary piped]
  · simp only [compute, caps, get?_values_of_perm _ derived untied.derived piped]

end Snapshot

end Statline

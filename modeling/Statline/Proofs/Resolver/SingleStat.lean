import Statline.Proofs.Graph.Closure
import Statline.Proofs.Resolver.Resolution

namespace Statline.Resolver

variable {resolver : Resolver} {primary : PrimaryStats} {name : String} {value : Float}

theorem compute_eq_ok_iff :
    resolver.compute name primary = .ok value ↔
      ∃ order derived, (resolver.sheet.graph.closure [name]).order = .ok order ∧
        resolver.sheet.evaluate order primary none = .ok derived ∧
        derived.values.get? name = some value := by
  constructor
  · intro h
    obtain ⟨order, sorted, h⟩ := bind_eq_ok.mp h
    obtain ⟨derived, evaluated, h⟩ := bind_eq_ok.mp h
    split at h
    next found => cases h; exact ⟨order, derived, sorted, evaluated, found⟩
    next => cases h
  · rintro ⟨order, derived, sorted, evaluated, found⟩
    refine bind_eq_ok.mpr ⟨order, sorted, bind_eq_ok.mpr ⟨derived, evaluated, ?_⟩⟩
    simp only [found]
    rfl

theorem Sound.ready_closure (sound : resolver.Sound) {order : List String}
    (h : (resolver.sheet.graph.closure [name]).order = .ok order) :
    resolver.sheet.Ready [] order := by
  refine sound.sheet.ready h ?_ ?_
  · intro other member
    exact FormulaSheet.mem_nodes_graph.mp (Graph.mem_nodes_closure.mp member).mem_nodes
  · intro other member dep edge
    exact Graph.dependsOn_closure.mpr ⟨Graph.mem_nodes_closure.mp member, edge⟩

theorem Sound.compute_ok (sound : resolver.Sound) (h : resolver.compute name primary = .ok value) :
    Denotes resolver.sheet.formulas primary name value := by
  obtain ⟨order, derived, sorted, evaluated, found⟩ := compute_eq_ok_iff.mp h
  have ready := sound.ready_closure sorted
  exact ((FormulaSheet.evaluate_ok sound.sheet.distinct ready evaluated name value).mp found).2

theorem Sound.compute_ok_iff (sound : resolver.Sound) (registered : name ∈ resolver.sheet.names) :
    (∃ value, resolver.compute name primary = .ok value) ↔
      ∀ other, resolver.sheet.graph.Reaches [name] other →
        ∀ formula, resolver.sheet.formula? other = some formula →
          resolver.sheet.Supplied primary formula := by
  obtain ⟨order, sorted⟩ := Graph.order_closure sound.order [name]
  have ready := sound.ready_closure sorted
  have members : ∀ other, other ∈ order ↔ resolver.sheet.graph.Reaches [name] other :=
    fun other => (Graph.mem_order sorted).trans Graph.mem_nodes_closure
  have here : name ∈ order :=
    (members name).mpr (Graph.reaches_self (FormulaSheet.mem_nodes_graph.mpr registered))
  simp only [← members]
  rw [← FormulaSheet.evaluate_ok_iff ready none]
  constructor
  · rintro ⟨value, h⟩
    obtain ⟨other, derived, again, evaluated, _⟩ := compute_eq_ok_iff.mp h
    cases sorted.symm.trans again
    exact ⟨derived, evaluated⟩
  · rintro ⟨derived, evaluated⟩
    obtain ⟨value, found, _⟩ := (FormulaSheet.evaluate_filed ready evaluated).2.1 name here
    exact ⟨value, compute_eq_ok_iff.mpr ⟨order, derived, sorted, evaluated, found⟩⟩

/-- The memo holds nothing but what a computation gives. -/
def Faithful (resolver : Resolver) : Prop :=
  ∀ (key : MemoKey) (value : Float), resolver.memo[key]? = some value →
    ∀ primary : PrimaryStats, primary.entries = key.inputs →
      resolver.compute key.stat primary = .ok value

theorem Faithful.forget (resolver : Resolver) (sheet : FormulaSheet) (version : Nat) :
    Faithful { resolver with sheet, version, memo := {} } := by
  intro key value known
  simp at known

theorem Faithful.remember (h : resolver.Faithful)
    (computed : resolver.compute name primary = .ok value) :
    (resolver.remember (resolver.memoKey name primary) value).Faithful := by
  intro key kept known again same
  have before : (if memoLimit ≤ resolver.memo.size then {} else resolver.memo)[key]? = some kept →
      resolver.compute key.stat again = .ok kept := by
    split
    next => simp
    next => exact fun known => h key kept known again same
  rw [Resolver.remember, Std.HashMap.getElem?_insert] at known
  split at known
  next hit =>
    obtain rfl : resolver.memoKey name primary = key := by simpa using hit
    obtain rfl : again = primary := by
      obtain ⟨_, _⟩ := again
      obtain ⟨_, _⟩ := primary
      cases same
      rfl
    cases known
    exact computed
  next => exact before known

theorem Faithful.keeps {next : Resolver} (h : resolver.Faithful) (kept : Keeps resolver next) :
    next.Faithful := by
  cases kept with
  | bounds bounds => exact h
  | forget => exact .forget resolver _ _
  | remember computed => exact h.remember computed

theorem Faithful.call (h : resolver.Faithful) (made : Call) : (resolver.call made).Faithful := by
  rcases call_cases resolver made with ⟨staged, _, adopted⟩ | kept
  · obtain ⟨order, _, next⟩ := adopt_eq_ok adopted
    rw [next]
    exact .forget resolver _ _
  · exact h.keeps kept

theorem faithful_after (calls : List Call) : (after calls).Faithful :=
  List.foldlRecOn calls Resolver.call (.forget empty _ _) fun _ h made _ => h.call made

/-- Whether a stat is in the memo cannot be told from the answer. -/
theorem Faithful.resolveStat_eq (h : resolver.Faithful) (registered : name ∈ resolver.sheet.names) :
    (resolver.resolveStat name primary).1 = resolver.compute name primary := by
  have known : resolver.sheet.contains name = true := FormulaSheet.contains_eq_true.mpr registered
  simp only [resolveStat, known, Bool.not_true, Bool.false_eq_true, if_false]
  split
  next value hit => exact (h _ value hit primary rfl).symm
  next =>
    split
    next value computed => exact computed.symm
    next fault failed => exact failed.symm

/-- Whatever calls came before, a single stat is what a whole resolution gives it, from the memo or
from the part of the formulas that it depends on; and all are resolved when each one is. -/
theorem resolveStat_after_calls (calls : List Call) (primary : PrimaryStats) :
    (∀ result, (after calls).resolve primary none = .ok result →
      ∀ name ∈ (after calls).sheet.names, ∃ value, result.values.get? name = some value ∧
        ((after calls).resolveStat name primary).1 = .ok value ∧
        (after calls).compute name primary = .ok value) ∧
    ((∃ result, (after calls).resolve primary none = .ok result) ↔
      ∀ name ∈ (after calls).sheet.names,
        ∃ value, ((after calls).resolveStat name primary).1 = .ok value) := by
  have sound := sound_after calls
  have faithful := faithful_after calls
  have each : ∀ result, (after calls).resolve primary none = .ok result →
      ∀ name ∈ (after calls).sheet.names, ∃ value, result.values.get? name = some value ∧
        ((after calls).resolveStat name primary).1 = .ok value ∧
        (after calls).compute name primary = .ok value := by
    intro result h name registered
    have supplied := sound.resolve_ok_iff.mp ⟨result, h⟩
    obtain ⟨value, computed⟩ := (sound.compute_ok_iff registered).mpr fun other _ formula found =>
      supplied formula (FormulaSheet.mem_of_formula? found).1
    refine ⟨value, ?_, (faithful.resolveStat_eq registered).trans computed, computed⟩
    exact ((sound.resolve_ok h).2 name value).mpr (sound.compute_ok computed)
  refine ⟨each, ?_, ?_⟩
  · rintro ⟨result, h⟩ name registered
    obtain ⟨value, _, answered, _⟩ := each result h name registered
    exact ⟨value, answered⟩
  · intro answered
    refine sound.resolve_ok_iff.mpr fun formula member => ?_
    have registered := List.mem_map_of_mem (f := (·.name)) member
    obtain ⟨value, single⟩ := answered formula.name registered
    rw [faithful.resolveStat_eq registered] at single
    have reached := Graph.reaches_self (FormulaSheet.mem_nodes_graph.mpr registered)
    exact (sound.compute_ok_iff registered).mp ⟨value, single⟩ formula.name reached formula
      (FormulaSheet.formula?_of_mem sound.sheet.distinct member)

end Statline.Resolver

import Statline.Proofs.Resolver.History
import Statline.Proofs.Table

namespace Statline

theorem Denotes.mem {formulas : List Formula} {primary : PrimaryStats} {name : String}
    {value : Float} (h : Denotes formulas primary name value) : name ∈ formulas.map (·.name) := by
  cases h with
  | formula member _ _ => exact List.mem_map_of_mem member

theorem Denotes.perm {formulas others : List Formula} {primary : PrimaryStats} {name : String}
    {value : Float} (h : Denotes formulas primary name value) (same : formulas.Perm others) :
    Denotes others primary name value := by
  induction h with
  | formula member _ outer ih =>
    refine .formula (same.mem_iff.mp member) ?_ ?_
    · intro stat hs registered
      exact ih stat hs ((same.map _).mem_iff.mpr registered)
    · intro stat hs unregistered
      exact outer stat hs (mt (same.map _).mem_iff.mp unregistered)

namespace Resolver

variable {resolver other : Resolver} {primary : PrimaryStats} {result : DerivedStats}

theorem Sound.ready (sound : resolver.Sound) : resolver.sheet.Ready [] resolver.order :=
  sound.sheet.ready sound.order (fun _ => FormulaSheet.mem_nodes_graph.mp) fun _ _ _ edge => edge

theorem Sound.order_perm (sound : resolver.Sound) : resolver.order.Perm resolver.sheet.names :=
  sound.sheet.perm_of_order sound.order

theorem Sound.resolve_ok_iff (sound : resolver.Sound) {previous : Option DerivedStats} :
    (∃ result, resolver.resolve primary previous = .ok result) ↔
      ∀ formula ∈ resolver.sheet.formulas, ∀ stat ∈ formula.reads,
        stat ∈ resolver.sheet.names ∨ primary.contains stat = true := by
  rw [resolve, FormulaSheet.evaluate_ok_iff sound.ready previous]
  constructor
  · intro supplied formula member
    have listed := sound.order_perm.mem_iff.mpr (List.mem_map_of_mem member)
    exact supplied _ listed formula (FormulaSheet.formula?_of_mem sound.sheet.distinct member)
  · intro supplied name _ formula found
    exact supplied formula (FormulaSheet.mem_of_formula? found).1

theorem Sound.resolve_ok (sound : resolver.Sound) (h : resolver.resolve primary none = .ok result) :
    result.version = resolver.sheet.size + 1 ∧ ∀ name value,
      result.values.get? name = some value ↔
        Denotes resolver.sheet.formulas primary name value := by
  constructor
  · rw [(FormulaSheet.evaluate_filed sound.ready h).1, sound.order_perm.length_eq]
    simp [FormulaSheet.names, FormulaSheet.size]
  · intro name value
    rw [FormulaSheet.evaluate_ok sound.sheet.distinct sound.ready h, sound.order_perm.mem_iff,
      and_iff_right_iff_imp]
    exact Denotes.mem

theorem Sound.contains_iff (sound : resolver.Sound)
    (h : resolver.resolve primary none = .ok result) (name : String) :
    result.values.contains name = true ↔ name ∈ resolver.sheet.names := by
  obtain ⟨-, filed, absent⟩ := FormulaSheet.evaluate_filed sound.ready h
  rw [← sound.order_perm.mem_iff, Table.contains]
  by_cases member : name ∈ resolver.order
  · obtain ⟨value, hv, -⟩ := filed name member
    simp [hv, member]
  · simp [absent name member, member]

theorem Sound.resolve_perm (sound : resolver.Sound) (hs : other.Sound)
    (same : resolver.sheet.formulas.Perm other.sheet.formulas)
    (h : resolver.resolve primary none = .ok result) : other.resolve primary none = .ok result := by
  have supplied := sound.resolve_ok_iff.mp ⟨result, h⟩
  obtain ⟨twin, ht⟩ : ∃ twin, other.resolve primary none = .ok twin := by
    refine hs.resolve_ok_iff.mpr fun formula member stat read => ?_
    exact (supplied formula (same.mem_iff.mpr member) stat read).imp_left (same.map _).mem_iff.mp
  obtain ⟨version, values⟩ := sound.resolve_ok h
  obtain ⟨version', values'⟩ := hs.resolve_ok ht
  have table : twin.values = result.values := by
    refine Table.ext_get? fun name => Option.ext fun value => ?_
    rw [values, values']
    exact ⟨fun denotes => denotes.perm same.symm, fun denotes => denotes.perm same⟩
  have number : twin.version = result.version := by
    rw [version, version', FormulaSheet.size, FormulaSheet.size, same.length_eq]
  obtain ⟨_, _⟩ := twin
  obtain ⟨_, _⟩ := result
  cases table
  cases number
  exact ht

/-- Whatever calls came before, a resolution computes what the registered formulas denote, in
whichever order they were registered and whatever result it starts from. -/
theorem resolve_after_calls (calls : List Call) (primary : PrimaryStats) :
    ((∃ result, (after calls).resolve primary none = .ok result) ↔
      ∀ formula ∈ (after calls).sheet.formulas, ∀ stat ∈ formula.reads,
        stat ∈ (after calls).sheet.names ∨ primary.contains stat = true) ∧
    (∀ result, (after calls).resolve primary none = .ok result →
      (∀ name, result.values.contains name = true ↔ name ∈ (after calls).sheet.names) ∧
      ∀ name value, result.values.get? name = some value ↔
        Denotes (after calls).sheet.formulas primary name value) ∧
    (∀ others : List Call, (after calls).sheet.formulas.Perm (after others).sheet.formulas →
      ∀ result, (after calls).resolve primary none = .ok result ↔
        (after others).resolve primary none = .ok result) ∧
    ∀ previous : DerivedStats,
      match (after calls).resolve primary none with
      | .ok result => ∃ combined, (after calls).resolve primary (some previous) = .ok combined ∧
          combined.version = previous.version + (after calls).sheet.size + 1 ∧
          ∀ stat, combined.values.get? stat =
            (result.values.get? stat).or (previous.values.get? stat)
      | .error fault => (after calls).resolve primary (some previous) = .error fault := by
  have sound := sound_after calls
  refine ⟨sound.resolve_ok_iff, ?_, ?_, ?_⟩
  · exact fun result h => ⟨sound.contains_iff h, (sound.resolve_ok h).2⟩
  · intro others same result
    have twin := sound_after others
    exact ⟨sound.resolve_perm twin same, twin.resolve_perm sound same.symm⟩
  · intro previous
    have follows := FormulaSheet.evaluate_some sound.ready primary previous
    cases h : (after calls).resolve primary none with
    | error fault =>
      rw [resolve] at h
      rw [h] at follows
      exact follows
    | ok result =>
      have version := (sound.resolve_ok h).1
      rw [resolve] at h
      rw [h] at follows
      obtain ⟨combined, computed, overlays⟩ := follows
      refine ⟨combined, computed, ?_, overlays.values⟩
      rw [overlays.version, version, Nat.add_assoc]

end Resolver

end Statline

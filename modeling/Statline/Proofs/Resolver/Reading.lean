import Statline.Proofs.Formula.Tenable
import Statline.Proofs.Resolver.Memo
import Statline.Proofs.Resolver.Substitution

namespace Statline

/-- What the formulas that a name depends on read without there being a formula for it is given
alike: to the last bit in both inputs, or missing from both. -/
def AgreeFor (formulas : List Formula) (name : String) (primary other : PrimaryStats) : Prop :=
  ∀ formula ∈ formulas, Relation.ReflTransGen (Declares formulas) name formula.name →
    ∀ stat ∈ formula.reads, stat ∉ formulas.map (·.name) → primary.get? stat = other.get? stat

namespace FormulaSheet

variable {sheet : FormulaSheet} {primary other : PrimaryStats} {name dependency : String}
  {order : List String}

theorem lookup_congr {stat : String}
    (h : stat ∉ sheet.names → primary.get? stat = other.get? stat) (computed : DerivedStats) :
    sheet.lookup primary computed stat = sheet.lookup other computed stat := by
  by_cases registered : stat ∈ sheet.names
  · simp only [lookup, contains_eq_true.mpr registered, if_true]
  · simp only [lookup, PrimaryStats.value?, h registered]

theorem evaluateNext_congr
    (h : ∀ formula, sheet.formula? name = some formula → ∀ stat ∈ formula.reads,
      stat ∉ sheet.names → primary.get? stat = other.get? stat) (computed : DerivedStats) :
    sheet.evaluateNext primary computed name = sheet.evaluateNext other computed name := by
  cases found : sheet.formula? name with
  | none => simp only [evaluateNext, found]
  | some formula =>
    rw [evaluateNext_eq found, evaluateNext_eq found]
    rw [Formula.evaluate_congr fun stat read => lookup_congr (h formula found stat read) computed]

/-- An evaluation reads no more of its input than the formulas in the order read. -/
theorem evaluate_congr_primary
    (h : ∀ name ∈ order, ∀ formula, sheet.formula? name = some formula → ∀ stat ∈ formula.reads,
      stat ∉ sheet.names → primary.get? stat = other.get? stat) (previous : Option DerivedStats) :
    sheet.evaluate order primary previous = sheet.evaluate order other previous := by
  rw [evaluate_eq, evaluate_eq]
  congr 1
  generalize previous.getD DerivedStats.empty = start
  induction order generalizing start with
  | nil => rfl
  | cons name rest ih =>
    rw [List.foldlM_cons, List.foldlM_cons, evaluateNext_congr (h name List.mem_cons_self)]
    congr 1
    funext computed
    exact ih (fun other member => h other (List.mem_cons_of_mem name member)) computed

theorem reaches_iff_declares (registered : name ∈ sheet.names) :
    sheet.graph.Reaches [name] dependency ↔
      Relation.ReflTransGen (Declares sheet.formulas) name dependency := by
  simp [Graph.Reaches, mem_nodes_graph, registered, dependsOn_eq]

end FormulaSheet

namespace Resolver

variable {resolver : Resolver} {primary other : PrimaryStats} {name : String}

theorem compute_congr (registered : name ∈ resolver.sheet.names)
    (agree : AgreeFor resolver.sheet.formulas name primary other) :
    resolver.compute name primary = resolver.compute name other := by
  unfold compute
  cases sorted : (resolver.sheet.graph.closure [name]).order with
  | error fault => rfl
  | ok order =>
    have same : resolver.sheet.evaluate order primary none =
        resolver.sheet.evaluate order other none := by
      refine FormulaSheet.evaluate_congr_primary (fun needed member formula found => ?_) none
      obtain ⟨inside, rfl⟩ := FormulaSheet.mem_of_formula? found
      have reached := Graph.mem_nodes_closure.mp ((Graph.mem_order sorted).mp member)
      exact agree formula inside ((FormulaSheet.reaches_iff_declares registered).mp reached)
    change (resolver.sheet.evaluate order primary none >>= _) =
      resolver.sheet.evaluate order other none >>= _
    rw [same]

theorem Faithful.resolveStat_congr (faithful : resolver.Faithful)
    (agree : AgreeFor resolver.sheet.formulas name primary other) :
    (resolver.resolveStat name primary).1 = (resolver.resolveStat name other).1 := by
  by_cases registered : name ∈ resolver.sheet.names
  · rw [faithful.resolveStat_eq registered, faithful.resolveStat_eq registered]
    exact compute_congr registered agree
  · rw [resolveStat_of_not_mem registered, resolveStat_of_not_mem registered]

/-- What has a formula is not read from the input, so it makes no difference what is given there. -/
theorem agreeFor_of_registered {formulas : List Formula} {registered : String}
    (member : registered ∈ formulas.map (·.name)) (name : String)
    (differs : ∀ stat, stat ≠ registered → primary.get? stat = other.get? stat) :
    AgreeFor formulas name primary other := by
  intro formula _ _ stat _ unregistered
  exact differs stat fun same => unregistered (same ▸ member)

/-- Whatever calls came before, an answer depends on the input only as far as the formulas that the
stat needs read it: two inputs that agree on that give the same value or the same fault, wherever
the answers come from. An input under the name of a formula is never read. -/
theorem resolveStat_eq_of_agree (calls : List Call) (name : String) (primary : PrimaryStats) :
    (∀ other, AgreeFor (after calls).sheet.formulas name primary other →
      ((after calls).resolveStat name primary).1 = ((after calls).resolveStat name other).1) ∧
    ∀ registered ∈ (after calls).sheet.names,
      (∀ pattern, ((after calls).resolveStat name (primary.insert registered pattern)).1 =
        ((after calls).resolveStat name primary).1) ∧
      ((after calls).resolveStat name (primary.erase registered)).1 =
        ((after calls).resolveStat name primary).1 := by
  have faithful := faithful_after calls
  refine ⟨fun other agree => faithful.resolveStat_congr agree, fun registered member => ?_⟩
  refine ⟨fun pattern => faithful.resolveStat_congr ?_, faithful.resolveStat_congr ?_⟩
  · refine agreeFor_of_registered member name fun stat apart => ?_
    rw [Table.get?_insert, if_neg apart]
  · refine agreeFor_of_registered member name fun stat apart => ?_
    rw [Table.get?_erase, if_neg apart]

/-- The damage needs the attack and not the other way round, so the attack does not depend on the
bonus, nor on what is given under its own name. -/
theorem resolveStat_attack_of_strength :
    ((after [.addAll weapons]).resolveStat "attack" might).1 =
      ((after [.addAll weapons]).resolveStat "attack"
        (Table.ofList [("strength", .ofFloat 10.0)])).1 := by
  refine (resolveStat_eq_of_agree [.addAll weapons] "attack" might).1 _ ?_
  have alone : ∀ dependency, ¬Declares weapons "attack" dependency := by
    rintro dependency ⟨formula, member, named, declared, registered⟩
    obtain rfl : formula = ⟨"attack", ["strength"], [.flat (.scaled "strength" 2.0)]⟩ := by
      simp only [weapons, List.mem_cons, List.not_mem_nil, or_false] at member
      rcases member with rfl | rfl | rfl <;> simp at named ⊢
    obtain rfl := List.mem_singleton.mp declared
    exact absurd registered (by decide)
  rw [after_addAll_weapons]
  intro formula member reached stat read _
  have named : "attack" = formula.name := by
    rcases reached.cases_head with same | ⟨dependency, edge, _⟩
    · exact same
    · exact absurd edge (alone dependency)
  simp only [weapons, List.mem_cons, List.not_mem_nil, or_false] at member
  rcases member with rfl | rfl | rfl
  · exact absurd named (by decide)
  · obtain rfl : stat = "strength" := List.mem_singleton.mp read
    decide +kernel
  · exact absurd named (by decide)

end Resolver

end Statline

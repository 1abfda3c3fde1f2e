import Statline.Proofs.Formula.Sheet

namespace Statline

variable {formulas others more : List Formula} {formula : Formula}
  {dependent dependency : String} {path : List String}

/-- A formula declares a name that has a formula of its own. What it declares besides is input. -/
def Declares (formulas : List Formula) (dependent dependency : String) : Prop :=
  ∃ formula ∈ formulas, formula.name = dependent ∧ dependency ∈ formula.deps ∧
    dependency ∈ formulas.map (·.name)

theorem Declares.mono (h : Declares formulas dependent dependency)
    (sub : ∀ formula ∈ formulas, formula ∈ others) : Declares others dependent dependency := by
  obtain ⟨formula, member, named, declared, registered⟩ := h
  obtain ⟨other, inside, same⟩ := List.mem_map.mp registered
  exact ⟨formula, sub formula member, named, declared,
    List.mem_map.mpr ⟨other, sub other inside, same⟩⟩

/-- A last formula changes nothing between the names before it. -/
theorem Declares.of_concat (h : Declares (formulas ++ [formula]) dependent dependency)
    (hd : dependent ≠ formula.name) (ht : dependency ≠ formula.name) :
    Declares formulas dependent dependency := by
  obtain ⟨declarer, member, rfl, declared, registered⟩ := h
  have old : declarer ∈ formulas := by
    refine (List.mem_append.mp member).resolve_right fun last => hd ?_
    rw [List.mem_singleton.mp last]
  refine ⟨declarer, old, rfl, declared, ?_⟩
  simpa [ht] using registered

/-- Formulas that can be in force together. -/
structure Tenable (formulas : List Formula) : Prop where
  distinct : (formulas.map (·.name)).Nodup
  valid : ∀ formula ∈ formulas, formula.validate = .ok ()
  acyclic : ¬∃ name, Relation.TransGen (Declares formulas) name name

theorem Tenable.sublist (h : Tenable formulas) (sub : others.Sublist formulas) :
    Tenable others where
  distinct := h.distinct.sublist (sub.map _)
  valid formula member := h.valid formula (sub.subset member)
  acyclic := fun ⟨name, cycle⟩ =>
    h.acyclic ⟨name, cycle.lift id fun _ _ edge => edge.mono fun _ member => sub.subset member⟩

/-- Every cycle that a last formula closes leads through it. -/
theorem Tenable.mem_of_isCycle (h : Tenable formulas)
    (cycle : IsCycle (Declares (formulas ++ [formula])) path) : formula.name ∈ path := by
  by_contra aside
  have before : IsCycle (Declares formulas) (path.map id) := by
    refine cycle.map (fun _ _ _ _ same => same) ?_
    intro dependent hd dependency ht edge
    exact edge.of_concat (fun same => aside (same ▸ hd)) fun same => aside (same ▸ ht)
  exact h.acyclic before.transGen

namespace FormulaSheet

variable {sheet after : FormulaSheet}

theorem dependsOn_eq (sheet : FormulaSheet) : sheet.graph.DependsOn = Declares sheet.formulas := by
  funext dependent dependency
  exact propext dependsOn_graph

theorem order_ok_iff_acyclic :
    (∃ order, sheet.graph.order = .ok order) ↔
      ¬∃ name, Relation.TransGen (Declares sheet.formulas) name name := by
  rw [Graph.order_ok_iff, dependsOn_eq]

theorem isCycle_of_order_error {fault : Fault} (h : sheet.graph.order = .error fault) :
    ∃ path, fault = .cycle path ∧ IsCycle (Declares sheet.formulas) path :=
  sheet.dependsOn_eq ▸ Graph.isCycle_of_order_error h

theorem Sound.tenable (sound : sheet.Sound) {order : List String}
    (sorted : sheet.graph.order = .ok order) : Tenable sheet.formulas :=
  ⟨sound.distinct, sound.valid, order_ok_iff_acyclic.mp ⟨order, sorted⟩⟩

theorem add_of_new (valid : formula.validate = .ok ()) (new : formula.name ∉ sheet.names) :
    sheet.add formula = .ok ⟨sheet.formulas ++ [formula], none⟩ := by
  have unknown : ¬sheet.contains formula.name = true := mt contains_eq_true.mp new
  simp only [add, valid, if_neg unknown]
  rfl

theorem add_of_taken (valid : formula.validate = .ok ()) (taken : formula.name ∈ sheet.names) :
    sheet.add formula = .error (.duplicateFormula formula.name) := by
  simp only [add, valid, if_pos (contains_eq_true.mpr taken)]
  rfl

theorem addAll_of_nodup (distinct : ((sheet.formulas ++ more).map (·.name)).Nodup)
    (valid : ∀ formula ∈ more, formula.validate = .ok ()) :
    ∃ after, sheet.addAll more = .ok after := by
  induction more generalizing sheet with
  | nil => exact ⟨sheet, rfl⟩
  | cons first rest ih =>
    obtain ⟨valid, later⟩ := List.forall_mem_cons.mp valid
    rw [List.append_cons] at distinct
    have new : first.name ∉ sheet.names := by
      rw [List.map_append, List.map_append, List.append_assoc] at distinct
      exact fun taken => (List.nodup_append.mp distinct).2.2 _ taken _ (by simp) rfl
    have rest_added : ∃ after, addAll ⟨sheet.formulas ++ [first], none⟩ rest = .ok after :=
      ih distinct later
    obtain ⟨after, added⟩ := rest_added
    exact ⟨after, bind_eq_ok.mpr ⟨_, add_of_new valid new, added⟩⟩

theorem addAll_of_taken (added : sheet.addAll more = .ok after)
    (valid : formula.validate = .ok ()) (taken : formula.name ∈ after.names)
    (rest : List Formula) :
    sheet.addAll (more ++ formula :: rest) = .error (.duplicateFormula formula.name) := by
  rw [addAll, List.foldlM_append]
  exact bind_eq_error.mpr (.inr ⟨after, added, bind_eq_error.mpr (.inl (add_of_taken valid taken))⟩)

end FormulaSheet

end Statline

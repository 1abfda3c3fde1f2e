import Statline.Proofs.Double.Order
import Statline.Proofs.Graph.Recursion
import Statline.Proofs.Resolver.Resolution

namespace Statline

theorem Step.window_of_flaw {deps : List String} {index : Nat} {lo hi : Float}
    (h : (Step.clamp lo hi).flaw deps index = none) :
    lo.isFinite = true ∧ hi.isFinite = true ∧ lo ≤ hi := by
  rw [flaw] at h
  split at h
  next sound => simpa [and_assoc] using sound
  next => cases h

/-- The window lies in the bounds; where there are none, it starts at no negative number. -/
def Resolver.Admits (lo hi : Float) : Option Caps → Prop
  | some range => range.min ≤ lo ∧ hi ≤ range.max
  | none => 0.0 ≤ lo

/-- The last step clamps to a window that a stat with such bounds may take. -/
def Formula.EndsWithin (formula : Formula) (bounds : Option Caps) : Prop :=
  ∃ steps lo hi, formula.steps = steps ++ [.clamp lo hi] ∧ Resolver.Admits lo hi bounds

theorem Formula.run_of_clamp {formula : Formula} {steps : List Step} {lo hi : Float}
    (last : formula.steps = steps ++ [.clamp lo hi]) (reading : String → Float) :
    formula.run reading =
      Double.larger (Double.smaller (steps.foldl (Step.act reading) 0.0) hi) lo := by
  rw [run, last, List.foldl_append]
  rfl

/-- A value in the window is within the bounds; without any it is finite and not negative. -/
theorem Resolver.statFlaw_of_endsWithin {formula : Formula} (valid : formula.validate = .ok ())
    {bounds : Option Caps} (ends : formula.EndsWithin bounds) (reading : String → Float) :
    statFlaw bounds (formula.run reading) = none := by
  obtain ⟨steps, lo, hi, last, inside⟩ := ends
  obtain ⟨place, flawless⟩ := Formula.flaw_of_validate valid (.clamp lo hi) (by simp [last])
  obtain ⟨finite, finite', window⟩ := Step.window_of_flaw flawless
  have within := Double.larger_smaller_within window (steps.foldl (Step.act reading) 0.0)
  rw [← Formula.run_of_clamp last reading] at within
  cases bounds with
  | some range =>
    have contained : range.contains (formula.run reading) = true := by
      rw [Caps.contains, Bool.and_eq_true, decide_eq_true_eq, decide_eq_true_eq]
      exact ⟨Double.le_trans inside.1 within.1, Double.le_trans within.2 inside.2⟩
    exact if_pos contained
  | none =>
    have number : (formula.run reading).isFinite = true :=
      Double.isFinite_of_le_of_le finite finite' within.1 within.2
    have positive : ¬formula.run reading < 0.0 :=
      (Double.not_lt (Double.isNaN_of_isFinite number) (by decide)).mpr
        (Double.le_trans inside within.1)
    rw [statFlaw, number, if_neg positive]
    rfl

namespace Resolver

/-- Whatever calls came before, and whatever the primary stats, if each formula ends with a clamp
to a window in the bounds of its stat, or to one that is not negative where there are none, then
what is resolved is valid. -/
theorem validate_of_clamped (calls : List Call) (primary : PrimaryStats) (result : DerivedStats)
    (clamped : ∀ formula ∈ (after calls).sheet.formulas,
      formula.EndsWithin ((after calls).bounds.get? formula.name))
    (resolved : (after calls).resolve primary none = .ok result) :
    (after calls).validate result = .ok () := by
  have sound := sound_after calls
  refine forM_eq_ok.mpr fun entry listed => ?_
  obtain ⟨name, value⟩ := entry
  have denotes := ((sound.resolve_ok resolved).2 name value).mp (Table.get?_eq_some_iff.mpr listed)
  cases denotes with
  | @formula formula reading member _ _ =>
    have flawless := statFlaw_of_endsWithin (sound.sheet.valid formula member)
      (clamped formula member) reading
    rw [validateStat, flawless]

/-- The critical hits have bounds, the haste has none. -/
def tamed : List Formula :=
  [⟨"haste", ["critical", "speed"], [.flat (.scaled "critical" 4.0), .mult (.scaled "speed" 1.0),
      .clamp 0.0 100.0]⟩,
    ⟨"critical", ["luck"], [.flat (.scaled "luck" 2.0), .clamp 0.25 0.75]⟩]

/-- The luck is no number, and the speed is infinite. -/
def wild : PrimaryStats :=
  Table.ofList [("luck", ⟨0x7ff8000000000000⟩), ("speed", ⟨0x7ff0000000000000⟩)]

def tamedCalls : List Call :=
  [.addAll tamed, .setBounds "critical" ⟨0.0, 1.0⟩]

theorem after_tamedCalls :
    after tamedCalls =
      ⟨⟨tamed, some ["critical", "haste"]⟩, 1, {}, Table.empty.insert "critical" ⟨0.0, 1.0⟩⟩ := by
  have added : empty.sheet.addAll tamed = .ok ⟨tamed, none⟩ := by decide +kernel
  have sorted : (FormulaSheet.graph ⟨tamed, none⟩).order = .ok ["critical", "haste"] := by
    rw [FormulaSheet.graph_eq, Graph.order_eq, Graph.nodes_after,
      funext (Graph.dependencies_after _)]
    decide +kernel
  have accepted : empty.addAll tamed =
      .ok ⟨⟨tamed, some ["critical", "haste"]⟩, 1, {}, Table.empty⟩ := by
    refine bind_eq_ok.mpr ⟨_, added, ?_⟩
    rw [adopt, FormulaSheet.build, sorted]
    rfl
  have bounded (resolver : Resolver) : resolver.setBounds "critical" ⟨0.0, 1.0⟩ =
      .ok { resolver with bounds := resolver.bounds.insert "critical" ⟨0.0, 1.0⟩ } := by
    have checked : Caps.checked "critical" 0.0 1.0 = .ok ⟨0.0, 1.0⟩ := by decide +kernel
    have named : Text.isBlank "critical" = false := by decide +kernel
    rw [setBounds, named, checked]
    rfl
  simp only [after, tamedCalls, List.foldl_cons, List.foldl_nil, call, accepted, Except.toOption,
    Option.getD_some, bounded]

theorem validate_of_clamped_extremes :
    ∃ result, (after tamedCalls).resolve wild none = .ok result ∧
      result.values.get? "critical" = some 0.75 ∧ result.values.get? "haste" = some 100.0 ∧
      (after tamedCalls).validate result = .ok () := by
  have resolved : (after tamedCalls).resolve wild none =
      .ok ⟨Table.ofList [("critical", 0.75), ("haste", 100.0)], 3⟩ := by
    rw [after_tamedCalls]
    decide +kernel
  refine ⟨_, resolved, by decide +kernel, by decide +kernel, ?_⟩
  refine validate_of_clamped tamedCalls wild _ ?_ resolved
  rw [after_tamedCalls]
  intro formula member
  rcases List.mem_cons.mp member with rfl | member
  · have free : Admits 0.0 100.0 none := by
      change (0.0 : Float) ≤ 0.0
      decide
    exact ⟨[.flat (.scaled "critical" 4.0), .mult (.scaled "speed" 1.0)], 0.0, 100.0, rfl, free⟩
  · have bounded : Admits 0.25 0.75 (some ⟨0.0, 1.0⟩) := by
      change (0.0 : Float) ≤ 0.25 ∧ (0.75 : Float) ≤ 1.0
      decide
    rcases List.mem_singleton.mp member with rfl
    exact ⟨[.flat (.scaled "luck" 2.0)], 0.25, 0.75, rfl, bounded⟩

end Resolver

end Statline

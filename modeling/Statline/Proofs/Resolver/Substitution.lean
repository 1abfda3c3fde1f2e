import Mathlib
import Statline.Proofs.Graph.Recursion
import Statline.Proofs.Resolver.Changes

namespace Statline

theorem PrimaryStats.value?_insert (primary : PrimaryStats) (name stat : String) (value : Float) :
    PrimaryStats.value? (primary.insert name (.ofFloat value)) stat =
      if stat = name then some value else primary.value? stat := by
  rw [value?, Table.get?_insert]
  split
  next => exact congrArg some (Float.ofBits_toBits value)
  next => rfl

theorem PrimaryStats.contains_insert (primary : PrimaryStats) (name stat : String)
    (pattern : Double.Pattern) :
    Table.contains (primary.insert name pattern) stat = true ↔
      stat = name ∨ primary.contains stat = true := by
  rw [Table.contains, Table.get?_insert]
  split
  next same => simp [same]
  next apart => simp [Table.contains, apart]

theorem mem_names_filter {formulas : List Formula} {name other : String} :
    other ∈ (formulas.filter (·.name ≠ name)).map (·.name) ↔
      other ∈ formulas.map (·.name) ∧ other ≠ name := by
  simp only [List.mem_map, List.mem_filter, decide_eq_true_eq]
  constructor
  · rintro ⟨formula, ⟨member, apart⟩, rfl⟩
    exact ⟨⟨formula, member, rfl⟩, apart⟩
  · rintro ⟨⟨formula, member, rfl⟩, apart⟩
    exact ⟨formula, ⟨member, apart⟩, rfl⟩

/-- Whether a reader finds the value among the formulas or in the input makes no difference. -/
theorem Denotes.supply {formulas : List Formula} {primary : PrimaryStats} {name other : String}
    {known value : Float} (distinct : (formulas.map (·.name)).Nodup)
    (supplied : Denotes formulas primary name known) (h : Denotes formulas primary other value)
    (apart : other ≠ name) :
    Denotes (formulas.filter (·.name ≠ name)) (primary.insert name (.ofFloat known)) other
      value := by
  induction h with
  | formula member inner outer ih =>
    refine .formula (List.mem_filter.mpr ⟨member, by simpa using apart⟩) ?_ ?_
    · intro stat read remains
      obtain ⟨registered, other⟩ := mem_names_filter.mp remains
      exact ih stat read registered other
    · intro stat read gone
      rw [PrimaryStats.value?_insert]
      split
      next same =>
        subst same
        exact congrArg some (supplied.unique distinct (inner stat read supplied.mem))
      next other =>
        exact outer stat read fun registered => gone (mem_names_filter.mpr ⟨registered, other⟩)

namespace Resolver

theorem Sound.remove {resolver next : Resolver} {name : String} {formula : Formula}
    (sound : resolver.Sound) (h : resolver.remove name = .ok (formula, next)) : next.Sound := by
  have called : resolver.call (.remove name) = next := by
    rw [Resolver.call, h]
    rfl
  exact called ▸ sound.call (.remove name)

section without

variable {resolver next : Resolver} {primary : PrimaryStats} {result again : DerivedStats}
  {name other : String} {value : Float} (sound : resolver.Sound) (without : next.Sound)
  (fewer : next.sheet.formulas = resolver.sheet.formulas.filter (·.name ≠ name))
  (resolved : resolver.resolve primary none = .ok result)
  (computed : next.resolve (primary.insert name (.ofFloat value)) none = .ok again)

include sound without fewer resolved

/-- What is read is still there: in the smaller table, in the input, or it is the new input. -/
theorem resolve_without_ok (value : Float) :
    ∃ again, next.resolve (primary.insert name (.ofFloat value)) none = .ok again := by
  have supplied := sound.resolve_ok_iff.mp ⟨result, resolved⟩
  refine without.resolve_ok_iff.mpr fun formula member stat read => ?_
  have kept := fewer ▸ member
  rw [PrimaryStats.contains_insert, FormulaSheet.names, fewer, mem_names_filter]
  by_cases same : stat = name
  · exact .inr (.inl same)
  · rcases supplied formula (List.mem_filter.mp kept).1 stat read with registered | given
    · exact .inl ⟨registered, same⟩
    · exact .inr (.inr given)

include computed

theorem contains_without :
    again.values.contains other = true ↔
      result.values.contains other = true ∧ other ≠ name := by
  rw [without.contains_iff computed, sound.contains_iff resolved, FormulaSheet.names, fewer,
    mem_names_filter, FormulaSheet.names]

theorem get?_without (held : result.values.get? name = some value) (apart : other ≠ name) :
    again.values.get? other = result.values.get? other := by
  have denotes := (sound.resolve_ok resolved).2
  have denotes' := (without.resolve_ok computed).2
  rw [fewer] at denotes'
  cases found : result.values.get? other with
  | some known =>
    have meaning := (denotes other known).mp found
    have supplied := (denotes name value).mp held
    exact (denotes' other known).mpr (supplied.supply sound.sheet.distinct meaning apart)
  | none =>
    have listed : again.values.contains other = true ↔ _ :=
      contains_without sound without fewer resolved computed
    simpa [Table.contains, found] using listed

end without

/-- Whatever calls came before: when all stats are resolved, any registered formula can be removed
and its value be supplied instead. The others are resolved again, and each of them has the value it
had before. -/
theorem resolve_of_supplied (calls : List Call) (primary : PrimaryStats) (result : DerivedStats)
    (name : String) (registered : name ∈ (after calls).sheet.names)
    (resolved : (after calls).resolve primary none = .ok result) :
    ∃ value formula next again,
      result.values.get? name = some value ∧
      (after calls).remove name = .ok (formula, next) ∧
      next.resolve (primary.insert name (.ofFloat value)) none = .ok again ∧
      (∀ other, again.values.contains other = true ↔
        other ∈ (after calls).sheet.names ∧ other ≠ name) ∧
      ∀ other, other ≠ name → again.values.get? other = result.values.get? other := by
  have sound := sound_after calls
  obtain ⟨value, held⟩ : ∃ value, result.values.get? name = some value :=
    Option.isSome_iff_exists.mp ((sound.contains_iff resolved name).mpr registered)
  obtain ⟨formula, _, _, next, removed, fewer⟩ := sound.remove_ok registered
  have without := sound.remove removed
  obtain ⟨again, computed⟩ := resolve_without_ok sound without fewer resolved value
  refine ⟨value, formula, next, again, held, removed, computed, fun other => ?_, ?_⟩
  · rw [← sound.contains_iff resolved]
    exact contains_without sound without fewer resolved computed
  · exact fun other apart => get?_without sound without fewer resolved computed held apart

/-- The rating reads the attack itself and once more through the damage. -/
def weapons : List Formula :=
  [⟨"damage", ["attack", "bonus"], [.flat (.scaled "attack" 1.5), .mult (.scaled "bonus" 1.0)]⟩,
    ⟨"attack", ["strength"], [.flat (.scaled "strength" 2.0)]⟩,
    ⟨"rating", ["damage", "attack"], [.flat (.scaled "damage" 1.0), .flat (.scaled "attack" 0.5)]⟩]

/-- The attack that is given is not read as long as there is a formula for it. -/
def might : PrimaryStats :=
  Table.ofList [("attack", .ofFloat 7.0), ("bonus", .ofFloat 3.0), ("strength", .ofFloat 10.0)]

theorem after_addAll_weapons :
    after [.addAll weapons] =
      ⟨⟨weapons, some ["attack", "damage", "rating"]⟩, 1, {}, Table.empty⟩ := by
  have added : empty.sheet.addAll weapons = .ok ⟨weapons, none⟩ := by decide +kernel
  have sorted : (FormulaSheet.graph ⟨weapons, none⟩).order =
      .ok ["attack", "damage", "rating"] := by
    rw [FormulaSheet.graph_eq, Graph.order_eq, Graph.nodes_after,
      funext (Graph.dependencies_after _)]
    decide +kernel
  have accepted : empty.addAll weapons =
      .ok ⟨⟨weapons, some ["attack", "damage", "rating"]⟩, 1, {}, Table.empty⟩ := by
    refine bind_eq_ok.mpr ⟨_, added, ?_⟩
    rw [adopt, FormulaSheet.build, sorted]
    rfl
  simp only [after, List.foldl_cons, List.foldl_nil, call, accepted]
  rfl

theorem resolve_of_supplied_attack :
    ∃ formula next again,
      (after [.addAll weapons]).remove "attack" = .ok (formula, next) ∧
      next.resolve (might.insert "attack" (.ofFloat 20.0)) none = .ok again ∧
      again.values.get? "attack" = none ∧ again.values.get? "damage" = some 90.0 ∧
      again.values.get? "rating" = some 100.0 := by
  have registered : "attack" ∈ (after [.addAll weapons]).sheet.names := by
    rw [after_addAll_weapons]
    decide
  have resolved : (after [.addAll weapons]).resolve might none =
      .ok ⟨Table.ofList [("attack", 20.0), ("damage", 90.0), ("rating", 100.0)], 4⟩ := by
    rw [after_addAll_weapons]
    decide +kernel
  obtain ⟨value, formula, next, again, held, removed, computed, listed, same⟩ :=
    resolve_of_supplied [.addAll weapons] might _ "attack" registered resolved
  have supplied : value = 20.0 := Option.some.inj (held.symm.trans (by decide +kernel))
  subst supplied
  refine ⟨formula, next, again, removed, computed, ?_, ?_, ?_⟩
  · simpa [Table.contains] using mt (listed "attack").mp
  · rw [same "damage" (by decide)]
    decide +kernel
  · rw [same "rating" (by decide)]
    decide +kernel

end Resolver

end Statline

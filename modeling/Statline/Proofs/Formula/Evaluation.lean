import Statline.Proofs.Formula.Meaning

namespace Statline

theorem PrimaryStats.value?_isSome (primary : PrimaryStats) (stat : String) :
    (primary.value? stat).isSome = primary.contains stat := by
  simp [PrimaryStats.value?, Table.contains]

namespace DerivedStats

theorem get?_set (stats : DerivedStats) (stat other : String) (value : Float) :
    (stats.set stat value).values.get? other =
      if other = stat then some value else stats.values.get? other :=
  Table.get?_insert stats.values stat other value

theorem version_set (stats : DerivedStats) (stat : String) (value : Float) :
    (stats.set stat value).version = stats.version + 1 := rfl

end DerivedStats

namespace FormulaSheet

variable {sheet : FormulaSheet} {primary : PrimaryStats} {computed : DerivedStats}
  {formula : Formula} {name stat : String}

theorem contains_eq_true : sheet.contains stat = true ↔ stat ∈ sheet.names := by
  simp [contains, names]

theorem mem_of_formula? (h : sheet.formula? name = some formula) :
    formula ∈ sheet.formulas ∧ formula.name = name :=
  ⟨List.mem_of_find?_eq_some h, by simpa using List.find?_some h⟩

theorem formula?_of_mem (distinct : sheet.names.Nodup) (h : formula ∈ sheet.formulas) :
    sheet.formula? formula.name = some formula := by
  have known : (sheet.formula? formula.name).isSome := by
    rw [formula?, List.find?_isSome]
    exact ⟨formula, h, by simp⟩
  obtain ⟨found, hf⟩ := Option.isSome_iff_exists.mp known
  obtain ⟨member, same⟩ := mem_of_formula? hf
  rw [hf, List.inj_on_of_nodup_map distinct member h same]

theorem lookup_of_mem (h : stat ∈ sheet.names) {value : Float}
    (hv : computed.values.get? stat = some value) :
    sheet.lookup primary computed stat = .ok value := by
  simp [lookup, contains_eq_true.mpr h, hv]

theorem lookup_of_not_mem (h : stat ∉ sheet.names) {value : Float}
    (hv : primary.value? stat = some value) : sheet.lookup primary computed stat = .ok value := by
  have unregistered : sheet.contains stat = false := by
    simpa using mt contains_eq_true.mp h
  simp [lookup, unregistered, hv]

theorem evaluateNext_eq (h : sheet.formula? name = some formula) :
    sheet.evaluateNext primary computed name =
      (formula.evaluate (sheet.lookup primary computed)).map (computed.set name) := by
  simp only [evaluateNext, h]
  cases formula.evaluate (sheet.lookup primary computed) <;> rfl

/-- All that a formula reads from outside is among the primary stats. -/
def Supplied (sheet : FormulaSheet) (primary : PrimaryStats) (formula : Formula) : Prop :=
  ∀ stat ∈ formula.reads, stat ∈ sheet.names ∨ primary.contains stat = true

/-- The names have their values in the stats. -/
def Filed (sheet : FormulaSheet) (primary : PrimaryStats) (names : List String)
    (stats : DerivedStats) : Prop :=
  ∀ name ∈ names, ∃ value, stats.values.get? name = some value ∧
    Denotes sheet.formulas primary name value

theorem Filed.set {done : List String} {value : Float} (h : sheet.Filed primary done computed)
    (hv : Denotes sheet.formulas primary name value) :
    sheet.Filed primary (done ++ [name]) (computed.set name value) := by
  intro other member
  by_cases same : other = name
  · subst same
    exact ⟨value, by simp [DerivedStats.get?_set], hv⟩
  · have earlier : other ∈ done := by simpa [same] using member
    obtain ⟨old, filed, denotes⟩ := h other earlier
    exact ⟨old, by simpa [DerivedStats.get?_set, same] using filed, denotes⟩

theorem evaluateNext_ok {done : List String} (found : sheet.formula? name = some formula)
    (reads : ∀ stat ∈ formula.reads, stat ∈ sheet.names → stat ∈ done)
    (filed : sheet.Filed primary done computed)
    (supplied : sheet.Supplied primary formula) :
    ∃ value, sheet.evaluateNext primary computed name = .ok (computed.set name value) ∧
      Denotes sheet.formulas primary name value := by
  have readable : ∀ stat, ∃ value, stat ∈ formula.reads →
      sheet.lookup primary computed stat = .ok value ∧
      (stat ∈ sheet.names → Denotes sheet.formulas primary stat value) ∧
      (stat ∉ sheet.names → primary.value? stat = some value) := by
    intro stat
    by_cases member : stat ∈ formula.reads
    · by_cases registered : stat ∈ sheet.names
      · obtain ⟨value, hv, denotes⟩ := filed stat (reads stat member registered)
        exact ⟨value, fun _ => ⟨lookup_of_mem registered hv, fun _ => denotes,
          fun outside => absurd registered outside⟩⟩
      · have present := (supplied stat member).resolve_left registered
        rw [← PrimaryStats.value?_isSome] at present
        obtain ⟨value, hv⟩ := Option.isSome_iff_exists.mp present
        exact ⟨value, fun _ => ⟨lookup_of_not_mem registered hv,
          fun inside => absurd inside registered, fun _ => hv⟩⟩
    · exact ⟨0.0, fun absent => absurd absent member⟩
  choose reading hr using readable
  obtain ⟨member, rfl⟩ := mem_of_formula? found
  refine ⟨formula.run reading, ?_, .formula member ?_ ?_⟩
  · rw [evaluateNext_eq found, Formula.evaluate_ok fun stat hs => (hr stat hs).1]
    rfl
  · exact fun stat hs => (hr stat hs).2.1
  · exact fun stat hs => (hr stat hs).2.2

theorem evaluateNext_eq_ok {after : DerivedStats}
    (h : sheet.evaluateNext primary computed name = .ok after) :
    ∃ formula value, sheet.formula? name = some formula ∧ sheet.Supplied primary formula ∧
      after = computed.set name value := by
  cases found : sheet.formula? name with
  | none => simp [evaluateNext, found] at h
  | some formula =>
    rw [evaluateNext_eq found] at h
    cases hv : formula.evaluate (sheet.lookup primary computed) with
    | error fault => rw [hv] at h; cases h
    | ok value =>
      rw [hv] at h
      cases h
      refine ⟨formula, value, rfl, fun stat hs => ?_, rfl⟩
      obtain ⟨read, hr⟩ := Formula.exists_of_evaluate_ok hv stat hs
      by_cases registered : stat ∈ sheet.names
      · exact .inl registered
      · have unregistered : sheet.contains stat = false := by
          simpa using mt contains_eq_true.mp registered
        right
        rw [← PrimaryStats.value?_isSome]
        cases present : primary.value? stat with
        | none => simp [lookup, unregistered, present] at hr
        | some value => rfl

/-- Every name has a formula, and the registered names that it reads come before it. -/
def Ready (sheet : FormulaSheet) : List String → List String → Prop
  | _, [] => True
  | done, name :: rest =>
    (∃ formula, sheet.formula? name = some formula ∧
      ∀ stat ∈ formula.reads, stat ∈ sheet.names → stat ∈ done) ∧
    Ready sheet (done ++ [name]) rest

variable {done order : List String}

/-- Along a ready order each name receives its value, whatever was there before. -/
theorem foldlM_evaluateNext_ok (ready : sheet.Ready done order) (start : DerivedStats)
    (filed : sheet.Filed primary done start)
    (supplied : ∀ name ∈ order, ∀ formula, sheet.formula? name = some formula →
      sheet.Supplied primary formula) :
    ∃ after, order.foldlM (sheet.evaluateNext primary) start = .ok after ∧
      after.version = start.version + order.length ∧
      sheet.Filed primary (done ++ order) after ∧
      ∀ name, name ∉ order → after.values.get? name = start.values.get? name := by
  induction order generalizing done start with
  | nil => exact ⟨start, rfl, rfl, by simpa using filed, fun _ _ => rfl⟩
  | cons name rest ih =>
    obtain ⟨⟨formula, found, reads⟩, ready⟩ := ready
    obtain ⟨value, computed, denotes⟩ :=
      evaluateNext_ok found reads filed (supplied name List.mem_cons_self formula found)
    obtain ⟨after, folded, version, filled, kept⟩ := ih ready (start.set name value)
      (filed.set denotes) fun other member => supplied other (List.mem_cons_of_mem name member)
    refine ⟨after, ?_, ?_, by simpa using filled, ?_⟩
    · rw [List.foldlM_cons, computed]
      exact folded
    · rw [version, DerivedStats.version_set, List.length_cons]
      omega
    · intro other absent
      obtain ⟨apart, absent⟩ : other ≠ name ∧ other ∉ rest := by simpa using absent
      rw [kept other absent, DerivedStats.get?_set, if_neg apart]

theorem supplied_of_foldlM_ok {start after : DerivedStats}
    (h : order.foldlM (sheet.evaluateNext primary) start = .ok after) :
    ∀ name ∈ order, ∀ formula, sheet.formula? name = some formula →
      sheet.Supplied primary formula := by
  induction order generalizing start with
  | nil => simp
  | cons first rest ih =>
    rw [List.foldlM_cons] at h
    obtain ⟨computed, next, h⟩ := bind_eq_ok.mp h
    intro name member formula found
    rcases List.mem_cons.mp member with rfl | member
    · obtain ⟨other, _, hf, supplied, _⟩ := evaluateNext_eq_ok next
      obtain rfl : other = formula := Option.some.inj (hf.symm.trans found)
      exact supplied
    · exact ih h name member formula found

/-- Stats that were computed on top of a previous result. -/
structure Overlays (previous computed combined : DerivedStats) : Prop where
  version : combined.version = previous.version + computed.version
  values : ∀ stat, combined.values.get? stat =
    (computed.values.get? stat).or (previous.values.get? stat)

theorem Overlays.set {previous combined : DerivedStats} (h : Overlays previous computed combined)
    (value : Float) : Overlays previous (computed.set name value) (combined.set name value) where
  version := by simp only [DerivedStats.version_set, h.version, Nat.add_assoc]
  values stat := by
    rw [DerivedStats.get?_set, DerivedStats.get?_set]
    split
    next => rfl
    next => exact h.values stat

/-- Along a ready order the values of a previous result are never read. -/
theorem foldlM_evaluateNext_overlays (primary : PrimaryStats) (ready : sheet.Ready done order)
    {previous combined : DerivedStats} (h : Overlays previous computed combined)
    (hd : ∀ name ∈ done, (computed.values.get? name).isSome) :
    match order.foldlM (sheet.evaluateNext primary) computed with
    | .ok after => ∃ last, order.foldlM (sheet.evaluateNext primary) combined = .ok last ∧
        Overlays previous after last
    | .error fault => order.foldlM (sheet.evaluateNext primary) combined = .error fault := by
  induction order generalizing done computed combined with
  | nil => exact ⟨combined, rfl, h⟩
  | cons name rest ih =>
    obtain ⟨⟨formula, found, reads⟩, ready⟩ := ready
    have same : formula.evaluate (sheet.lookup primary computed) =
        formula.evaluate (sheet.lookup primary combined) := by
      refine Formula.evaluate_congr fun stat hs => ?_
      by_cases registered : stat ∈ sheet.names
      · obtain ⟨value, hv⟩ := Option.isSome_iff_exists.mp (hd stat (reads stat hs registered))
        rw [lookup_of_mem registered hv, lookup_of_mem registered (by rw [h.values, hv]; rfl)]
      · simp [lookup, mt contains_eq_true.mp registered]
    rw [List.foldlM_cons, List.foldlM_cons, evaluateNext_eq found, evaluateNext_eq found, ← same]
    cases formula.evaluate (sheet.lookup primary computed) with
    | error fault => exact rfl
    | ok value =>
      refine ih ready (h.set value) fun other member => ?_
      rw [DerivedStats.get?_set]
      split
      next => rfl
      next apart => exact hd other (by simpa [apart] using member)

theorem evaluate_eq (sheet : FormulaSheet) (order : List String) (primary : PrimaryStats)
    (previous : Option DerivedStats) :
    sheet.evaluate order primary previous =
      (order.foldlM (sheet.evaluateNext primary) (previous.getD DerivedStats.empty)).map
        DerivedStats.touch := by
  rw [evaluate]
  cases order.foldlM (sheet.evaluateNext primary) (previous.getD DerivedStats.empty) <;> rfl

theorem filed_nil (sheet : FormulaSheet) (primary : PrimaryStats) (stats : DerivedStats) :
    sheet.Filed primary [] stats := by
  simp [Filed]

theorem evaluate_ok_iff (ready : sheet.Ready [] order) (previous : Option DerivedStats) :
    (∃ result, sheet.evaluate order primary previous = .ok result) ↔
      ∀ name ∈ order, ∀ formula, sheet.formula? name = some formula →
        sheet.Supplied primary formula := by
  constructor
  · rintro ⟨result, h⟩
    obtain ⟨after, folded, _⟩ := bind_eq_ok.mp h
    exact supplied_of_foldlM_ok folded
  · intro supplied
    obtain ⟨after, folded, _⟩ := foldlM_evaluateNext_ok ready (previous.getD DerivedStats.empty)
      (filed_nil sheet primary _) supplied
    exact ⟨after.touch, bind_eq_ok.mpr ⟨after, folded, rfl⟩⟩

theorem evaluate_filed (ready : sheet.Ready [] order) {result : DerivedStats}
    (h : sheet.evaluate order primary none = .ok result) :
    result.version = order.length + 1 ∧ sheet.Filed primary order result ∧
      ∀ name, name ∉ order → result.values.get? name = none := by
  have supplied := (evaluate_ok_iff ready none).mp ⟨result, h⟩
  obtain ⟨after, folded, version, filed, kept⟩ := foldlM_evaluateNext_ok ready DerivedStats.empty
    (filed_nil sheet primary _) supplied
  rw [evaluate_eq, Option.getD_none, folded] at h
  cases h
  refine ⟨?_, filed, fun name absent => ?_⟩
  · simp [DerivedStats.touch, version, DerivedStats.empty]
  · exact (kept name absent).trans (Table.get?_empty name)

theorem evaluate_ok (distinct : sheet.names.Nodup) (ready : sheet.Ready [] order)
    {result : DerivedStats} (h : sheet.evaluate order primary none = .ok result)
    (name : String) (value : Float) :
    result.values.get? name = some value ↔
      name ∈ order ∧ Denotes sheet.formulas primary name value := by
  obtain ⟨-, filed, absent⟩ := evaluate_filed ready h
  by_cases member : name ∈ order
  · obtain ⟨own, hv, denotes⟩ := filed name member
    simp only [hv, Option.some.injEq, member, true_and]
    constructor
    · rintro rfl
      exact denotes
    · exact denotes.unique distinct
  · simp [absent name member, member]

/-- On top of a previous result the same values come out, or the same fault. -/
theorem evaluate_some (ready : sheet.Ready [] order) (primary : PrimaryStats)
    (previous : DerivedStats) :
    match sheet.evaluate order primary none with
    | .ok result => ∃ combined, sheet.evaluate order primary (some previous) = .ok combined ∧
        Overlays previous result combined
    | .error fault => sheet.evaluate order primary (some previous) = .error fault := by
  have start : Overlays previous DerivedStats.empty previous :=
    ⟨rfl, fun _ => by rw [DerivedStats.empty, Table.get?_empty, Option.none_or]⟩
  have follows := foldlM_evaluateNext_overlays primary ready start (by simp)
  rw [evaluate_eq, evaluate_eq, Option.getD_none, Option.getD_some]
  cases folded : order.foldlM (sheet.evaluateNext primary) DerivedStats.empty with
  | error fault =>
    rw [folded] at follows
    rw [follows]
    rfl
  | ok result =>
    rw [folded] at follows
    obtain ⟨combined, last, version, values⟩ := follows
    refine ⟨combined.touch, by rw [last]; rfl, ?_, values⟩
    simp only [DerivedStats.touch, version, Nat.add_assoc]

end FormulaSheet

end Statline

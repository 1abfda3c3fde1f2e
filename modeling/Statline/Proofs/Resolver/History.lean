import Statline.Proofs.Formula.Sheet
import Statline.Resolver

namespace Statline.Resolver

inductive Call where
  | add (formula : Formula)
  | addAll (formulas : List Formula)
  | remove (name : String)
  | resolve (primary : PrimaryStats) (previous : Option DerivedStats)
  | resolveStat (name : String) (primary : PrimaryStats)
  | resolveStatWith (context : Context) (moment : Moment) (name : String) (primary : PrimaryStats)
  | clearMemo
  | setBounds (stat : String) (range : Caps)
  | removeBounds (stat : String)

/-- The resolver after a call; a refused change leaves it as it was. -/
def call (resolver : Resolver) : Call → Resolver
  | .add formula => (resolver.add formula).toOption.getD resolver
  | .addAll formulas => (resolver.addAll formulas).toOption.getD resolver
  | .remove name => ((resolver.remove name).map (·.2)).toOption.getD resolver
  | .resolve _ _ => resolver
  | .resolveStat name primary => (resolver.resolveStat name primary).2
  | .resolveStatWith context moment name primary =>
    (resolver.resolveStatWith context moment name primary).2
  | .clearMemo => resolver.clearMemo
  | .setBounds stat range => (resolver.setBounds stat range).toOption.getD resolver
  | .removeBounds stat => resolver.removeBounds stat

/-- Whether a call succeeds, or the fault with which it is refused. -/
def outcome (resolver : Resolver) : Call → Except Fault Unit
  | .add formula => (resolver.add formula).map fun _ => ()
  | .addAll formulas => (resolver.addAll formulas).map fun _ => ()
  | .remove name => (resolver.remove name).map fun _ => ()
  | .resolve primary previous => (resolver.resolve primary previous).map fun _ => ()
  | .resolveStat name primary => (resolver.resolveStat name primary).1.map fun _ => ()
  | .resolveStatWith context moment name primary =>
    (resolver.resolveStatWith context moment name primary).1.map fun _ => ()
  | .setBounds stat range => (resolver.setBounds stat range).map fun _ => ()
  | .clearMemo | .removeBounds _ => .ok ()

def after (calls : List Call) : Resolver :=
  calls.foldl call empty

variable {resolver : Resolver} {staged : FormulaSheet}

theorem adopt_eq_ok {next : Resolver} (h : resolver.adopt staged = .ok next) :
    ∃ order, staged.graph.order = .ok order ∧
      next = { resolver with
        sheet := { staged with order := some order }
        version := resolver.version + 1
        memo := {} } := by
  unfold adopt at h
  cases built : staged.graph.order with
  | error fault =>
    simp only [FormulaSheet.build, built] at h
    cases h
  | ok order =>
    simp only [FormulaSheet.build, built] at h
    cases h
    exact ⟨order, rfl, rfl⟩

/-- Calls that leave the formulas alone: the memo stays, is emptied, or takes a computed value. -/
inductive Keeps (resolver : Resolver) : Resolver → Prop
  | bounds (bounds : Table Caps) : Keeps resolver { resolver with bounds }
  | forget : Keeps resolver resolver.clearMemo
  | remember {name : String} {primary : PrimaryStats} {value : Float} :
      resolver.compute name primary = .ok value →
      Keeps resolver (resolver.remember (resolver.memoKey name primary) value)

theorem Keeps.of_eq {next : Resolver} (h : next = resolver) : Keeps resolver next := by
  subst h
  exact .bounds next.bounds

theorem keeps_resolveStat (resolver : Resolver) (name : String) (primary : PrimaryStats) :
    Keeps resolver (resolver.resolveStat name primary).2 := by
  unfold resolveStat
  split
  next => exact .of_eq rfl
  next =>
    dsimp only
    split
    next => exact .of_eq rfl
    next =>
      split
      next value computed => exact .remember computed
      next => exact .of_eq rfl

theorem addAll_eq_ok {next : Resolver} {formulas : List Formula}
    (h : resolver.addAll formulas = .ok next) :
    ∃ staged, resolver.sheet.addAll formulas = .ok staged ∧ resolver.adopt staged = .ok next :=
  bind_eq_ok.mp h

theorem remove_eq_ok {next : Resolver} {name : String}
    (h : (resolver.remove name).map (·.2) = .ok next) :
    ∃ formula staged, resolver.sheet.remove name = .ok (formula, staged) ∧
      resolver.adopt staged = .ok next := by
  cases removed : resolver.remove name with
  | error fault => rw [removed] at h; cases h
  | ok pair =>
    rw [removed] at h
    cases h
    obtain ⟨⟨formula, staged⟩, taken, rest⟩ := bind_eq_ok.mp removed
    obtain ⟨next, adopted, same⟩ := bind_eq_ok.mp rest
    cases same
    exact ⟨formula, staged, taken, adopted⟩

theorem setBounds_eq_ok {next : Resolver} {stat : String} {range : Caps}
    (h : resolver.setBounds stat range = .ok next) :
    ∃ bounds, next = { resolver with bounds } := by
  unfold setBounds at h
  split at h
  next => cases h
  next =>
    obtain ⟨_, _, same⟩ := bind_eq_ok.mp h
    cases same
    exact ⟨_, rfl⟩

/-- A call puts a changed sheet into force or leaves the formulas alone. -/
theorem call_cases (resolver : Resolver) (made : Call) :
    (∃ staged, (resolver.sheet.Sound → staged.Sound) ∧
      resolver.adopt staged = .ok (resolver.call made)) ∨ Keeps resolver (resolver.call made) := by
  cases made with
  | add formula =>
    rcases getD_cases resolver (resolver.add formula) with accepted | refused
    · obtain ⟨staged, added, adopted⟩ := addAll_eq_ok accepted
      exact .inl ⟨staged, fun sound => sound.addAll added, adopted⟩
    · exact .inr (.of_eq refused)
  | addAll formulas =>
    rcases getD_cases resolver (resolver.addAll formulas) with accepted | refused
    · obtain ⟨staged, added, adopted⟩ := addAll_eq_ok accepted
      exact .inl ⟨staged, fun sound => sound.addAll added, adopted⟩
    · exact .inr (.of_eq refused)
  | remove name =>
    rcases getD_cases resolver ((resolver.remove name).map (·.2)) with accepted | refused
    · obtain ⟨_, staged, removed, adopted⟩ := remove_eq_ok accepted
      exact .inl ⟨staged, fun sound => sound.remove removed, adopted⟩
    · exact .inr (.of_eq refused)
  | resolve _ _ => exact .inr (.of_eq rfl)
  | resolveStat name primary => exact .inr (keeps_resolveStat resolver name primary)
  | resolveStatWith context moment name primary =>
    right
    simp only [call, resolveStatWith]
    split
    next => exact keeps_resolveStat resolver name primary
    next => exact .of_eq rfl
  | clearMemo => exact .inr .forget
  | setBounds stat range =>
    right
    rcases getD_cases resolver (resolver.setBounds stat range) with accepted | refused
    · obtain ⟨bounds, same⟩ := setBounds_eq_ok accepted
      simp only [call, same]
      exact .bounds bounds
    · exact .of_eq refused
  | removeBounds stat => exact .inr (.bounds _)

/-- What every call preserves. -/
structure Sound (resolver : Resolver) : Prop where
  sheet : resolver.sheet.Sound
  order : resolver.sheet.graph.order = .ok resolver.order

theorem sound_empty : empty.Sound where
  sheet := FormulaSheet.sound_empty
  order := rfl

theorem Sound.adopt {next : Resolver} (hs : staged.Sound) (h : resolver.adopt staged = .ok next) :
    next.Sound := by
  obtain ⟨order, built, rfl⟩ := adopt_eq_ok h
  exact ⟨⟨hs.distinct, hs.valid⟩, built⟩

theorem Sound.keeps {next : Resolver} (sound : resolver.Sound) (h : Keeps resolver next) :
    next.Sound := by
  cases h with
  | bounds | forget | remember => exact ⟨sound.sheet, sound.order⟩

theorem Sound.call (sound : resolver.Sound) (made : Call) : (resolver.call made).Sound := by
  rcases call_cases resolver made with ⟨staged, kept, adopted⟩ | kept
  · exact .adopt (kept sound.sheet) adopted
  · exact sound.keeps kept

theorem sound_after (calls : List Call) : (after calls).Sound :=
  List.foldlRecOn calls Resolver.call sound_empty fun _ sound made _ => sound.call made

end Statline.Resolver

import Statline.Proofs.InPlace
import Statline.Proofs.Ranking
import Statline.Proofs.Roster.Record
import Statline.Proofs.Table

namespace Statline

/-- A subsystem and the number of its registration. -/
structure Registration where
  subsystem : Subsystem
  sequence : Nat

/-- The higher priority comes first, and of one priority the lower number. -/
def Registration.precedes (a b : Registration) : Bool :=
  ((compare b.subsystem.priority a.subsystem.priority).then (compare a.sequence b.sequence)).isLE

theorem Registration.precedes_iff {a b : Registration} :
    a.precedes b = true ↔ b.subsystem.priority < a.subsystem.priority ∨
      a.subsystem.priority = b.subsystem.priority ∧ a.sequence ≤ b.sequence := by
  rw [precedes, Ordering.isLE_then_iff_or, Std.isLE_compare, Std.compare_eq_iff_eq,
    Std.compare_eq_lt, eq_comm (a := b.subsystem.priority)]

theorem Registration.pairwise_mergeSort (entries : List Registration) :
    (entries.mergeSort precedes).Pairwise fun a b => a.precedes b = true := by
  refine List.pairwise_mergeSort (fun a b c hab hbc => ?_) (fun a b => ?_) entries
  · simp only [precedes_iff, Int64.lt_iff_toInt_lt, ← Int64.toInt_inj] at *
    omega
  · simp only [Bool.or_eq_true, precedes_iff, Int64.lt_iff_toInt_lt, ← Int64.toInt_inj]
    omega

/-- The registered subsystems by their ids, each with the number of its registration. -/
structure Registry where
  entries : Table Registration
  next : Nat

namespace Registry

open Roster (Call)

def empty : Registry := ⟨Table.empty, 0⟩

def register (subsystem : Subsystem) : InPlace Registry (Option Subsystem) := do
  if Text.isBlank subsystem.id then throw (.invalidInput "subsystem ID cannot be empty")
  if (← get).entries.contains subsystem.id then throw (.duplicateSubsystem subsystem.id)
  let sequence := (← get).next
  modify ({ · with next := sequence + 1 })
  modify fun registry =>
    { registry with entries := registry.entries.insert subsystem.id ⟨subsystem, sequence⟩ }
  return none

/-- The id is given up before it turns out whether it was taken. -/
def unregister (id : String) : InPlace Registry (Option Subsystem) := do
  let removed := (← get).entries.get? id
  modify fun registry => { registry with entries := registry.entries.erase id }
  match removed with
  | some entry => return some entry.subsystem
  | none => throw (.subsystemNotFound id)

/-- The numbers keep counting. -/
def clear : InPlace Registry (Option Subsystem) := do
  modify ({ · with entries := Table.empty })
  return none

def inPlace : Call → InPlace Registry (Option Subsystem)
  | .register subsystem => register subsystem
  | .unregister id => unregister id
  | .clear => clear

def after (calls : List Call) : Registry :=
  calls.foldl (fun registry made => ((inPlace made).run registry).2) empty

/-- The entries in the order of their ids, which is one of many. -/
def entryList (registry : Registry) : List Registration :=
  registry.entries.entries.map (·.2)

/-- Whatever order the entries come in, they are sorted by their numbers. -/
def inSequence (entries : List Registration) : List Subsystem :=
  (entries.mergeSort fun a b => decide (a.sequence ≤ b.sequence)).map (·.subsystem)

/-- Whatever order the entries come in, they are sorted by priority and number. -/
def inOrder (entries : List Registration) : List Subsystem :=
  (entries.mergeSort Registration.precedes).map (·.subsystem)

def inRange (entries : List Registration) (low high : Int64) : List Subsystem :=
  (inOrder entries).filter fun subsystem => low ≤ subsystem.priority && subsystem.priority ≤ high

variable {registry : Registry} {subsystem : Subsystem} {id : String} {entry : Registration}

theorem run_register_of_blank (h : Text.isBlank subsystem.id = true) :
    (register subsystem).run registry =
      (.error (.invalidInput "subsystem ID cannot be empty"), registry) := by
  rw [register, if_pos h]
  rfl

theorem run_register_of_taken (named : Text.isBlank subsystem.id = false)
    (taken : registry.entries.contains subsystem.id = true) :
    (register subsystem).run registry = (.error (.duplicateSubsystem subsystem.id), registry) := by
  rw [register, if_neg (Bool.eq_false_iff.mp named)]
  exact congrFun (if_pos taken) registry

theorem run_register_of_new (named : Text.isBlank subsystem.id = false)
    (new : registry.entries.contains subsystem.id = false) :
    (register subsystem).run registry = (.ok none,
      ⟨registry.entries.insert subsystem.id ⟨subsystem, registry.next⟩, registry.next + 1⟩) := by
  rw [register, if_neg (Bool.eq_false_iff.mp named)]
  exact congrFun (if_neg (Bool.eq_false_iff.mp new)) registry

theorem run_unregister_eq (registry : Registry) (id : String) :
    (unregister id).run registry =
      (match registry.entries.get? id with
        | some entry => .ok (some entry.subsystem)
        | none => .error (.subsystemNotFound id),
      { registry with entries := registry.entries.erase id }) := by
  change (match registry.entries.get? id with
    | some entry => pure (some entry.subsystem)
    | none => throw (.subsystemNotFound id) : InPlace Registry (Option Subsystem)).run
      { registry with entries := registry.entries.erase id } = _
  cases registry.entries.get? id <;> rfl

theorem run_unregister_of_unknown (h : registry.entries.get? id = none) :
    (unregister id).run registry = (.error (.subsystemNotFound id), registry) := by
  rw [run_unregister_eq, h, Table.erase_of_get?_eq_none h]

theorem run_unregister_of_known (h : registry.entries.get? id = some entry) :
    (unregister id).run registry =
      (.ok (some entry.subsystem), { registry with entries := registry.entries.erase id }) := by
  rw [run_unregister_eq, h]

/-- The entries in the order of their registration: their numbers ascend, and they hold what the
roster holds. -/
structure Numbers (registry : Registry) (roster : Roster) (entries : List Registration) :
    Prop where
  ascending : entries.Pairwise fun a b => a.sequence < b.sequence
  below : ∀ entry ∈ entries, entry.sequence < registry.next
  subsystems : entries.map (·.subsystem) = roster.all
  filed : ∀ id entry, registry.entries.get? id = some entry ↔
    entry ∈ entries ∧ entry.subsystem.id = id

/-- A change answers as it does for the roster. If it is refused, everything stays as it was; if
not, what is registered is numbered again. -/
def Follows (registry : Registry) (roster : Roster) (made : Call) : Prop :=
  (∃ fault, roster.answer made = .error fault ∧
    (inPlace made).run registry = (.error fault, registry)) ∨
  ∃ taken next entries, roster.answer made = .ok taken ∧
    (inPlace made).run registry = (.ok taken, next) ∧ Numbers next (roster.call made) entries

variable {roster next : Roster} {entries : List Registration} {made : Call}

theorem Follows.numbers (follows : Follows registry roster made)
    (h : Numbers registry roster entries) :
    ∃ entries, Numbers ((inPlace made).run registry).2 (roster.call made) entries := by
  rcases follows with ⟨fault, refused, same⟩ | ⟨_, next, renumbered, _, same, numbers⟩
  · rw [same, Roster.call_of_error refused]
    exact ⟨entries, h⟩
  · rw [same]
    exact ⟨renumbered, numbers⟩

/-- Whatever the next number: nothing is registered. -/
theorem numbers_cleared (next : Nat) : Numbers ⟨Table.empty, next⟩ Roster.empty [] where
  ascending := .nil
  below := nofun
  subsystems := rfl
  filed _ _ := ⟨nofun, fun held => absurd held.1 List.not_mem_nil⟩

namespace Numbers

theorem get?_eq (h : Numbers registry roster entries) (id : String) :
    roster.get? id = (registry.entries.get? id).map (·.subsystem) := by
  rw [Roster.get?_eq_find?, ← h.subsystems, List.find?_map]
  cases found : registry.entries.get? id with
  | none =>
    have absent : entries.find? (·.subsystem.id = id) = none :=
      List.find?_eq_none.mpr fun entry member same => by
        have filed := (h.filed id entry).mpr ⟨member, of_decide_eq_true same⟩
        rw [found] at filed
        cases filed
    exact congrArg _ absent
  | some entry =>
    obtain ⟨member, named⟩ := (h.filed id entry).mp found
    have known : (entries.find? (·.subsystem.id = id)).isSome = true :=
      List.find?_isSome.mpr ⟨entry, member, decide_eq_true named⟩
    obtain ⟨first, held⟩ := Option.isSome_iff_exists.mp known
    have filed := (h.filed id first).mpr
      ⟨List.mem_of_find?_eq_some held, by simpa using List.find?_some held⟩
    obtain rfl : entry = first := Option.some.inj (found.symm.trans filed)
    exact congrArg _ held

theorem contains_eq (h : Numbers registry roster entries) (id : String) :
    registry.entries.contains id = roster.contains id := by
  rw [Roster.contains_eq_isSome, h.get?_eq, Option.isSome_map]
  rfl

/-- A new entry gets the highest number. -/
theorem register (h : Numbers registry roster entries)
    (new : registry.entries.get? subsystem.id = none)
    (all : next.all = roster.all ++ [subsystem]) :
    Numbers ⟨registry.entries.insert subsystem.id ⟨subsystem, registry.next⟩, registry.next + 1⟩
      next (entries ++ [⟨subsystem, registry.next⟩]) where
  ascending := by
    refine List.pairwise_append.mpr ⟨h.ascending, List.pairwise_singleton _ _, ?_⟩
    intro entry member last same
    rw [List.mem_singleton.mp same]
    exact h.below entry member
  below entry member := by
    rcases List.mem_append.mp member with old | last
    · exact Nat.lt_succ_of_lt (h.below entry old)
    · rw [List.mem_singleton.mp last]
      exact Nat.lt_succ_self _
  subsystems := by rw [List.map_append, h.subsystems, all]; rfl
  filed id entry := by
    rw [Table.get?_insert]
    by_cases same : id = subsystem.id
    · subst same
      have absent : ¬(entry ∈ entries ∧ entry.subsystem.id = subsystem.id) := fun held => by
        rw [(h.filed _ entry).mpr held] at new
        cases new
      rw [if_pos rfl, List.mem_append, List.mem_singleton, or_and_right]
      simp only [absent, false_or]
      constructor
      · rintro ⟨⟩
        exact ⟨rfl, rfl⟩
      · rintro ⟨rfl, _⟩
        rfl
    · rw [if_neg same, h.filed, List.mem_append, List.mem_singleton, or_and_right]
      refine (or_iff_left ?_).symm
      rintro ⟨rfl, named⟩
      exact same named.symm

theorem unregister (h : Numbers registry roster entries) (id : String)
    (all : next.all = roster.all.filter (·.id ≠ id)) :
    Numbers { registry with entries := registry.entries.erase id } next
      (entries.filter (·.subsystem.id ≠ id)) where
  ascending := h.ascending.filter _
  below entry member := h.below entry (List.mem_filter.mp member).1
  subsystems := by
    rw [all, ← h.subsystems, List.filter_map]
    rfl
  filed other entry := by
    rw [Table.get?_erase]
    split
    next same =>
      subst same
      simp
    next apart =>
      rw [h.filed, List.mem_filter, decide_eq_true_eq]
      constructor
      · rintro ⟨member, rfl⟩
        exact ⟨⟨member, apart⟩, rfl⟩
      · rintro ⟨⟨member, _⟩, named⟩
        exact ⟨member, named⟩

end Numbers

theorem run_register (h : Numbers registry roster entries) (subsystem : Subsystem) :
    Follows registry roster (.register subsystem) := by
  cases blank : Text.isBlank subsystem.id with
  | true =>
    refine .inl ⟨_, ?_, run_register_of_blank blank⟩
    rw [Roster.answer_register, if_pos blank]
  | false =>
    have contained := h.contains_eq subsystem.id
    cases taken : registry.entries.contains subsystem.id with
    | true =>
      refine .inl ⟨_, ?_, run_register_of_taken blank taken⟩
      rw [Roster.answer_register, blank, ← contained, taken]
      rfl
    | false =>
      have answered : roster.answer (.register subsystem) = .ok none := by
        rw [Roster.answer_register, blank, ← contained, taken]
        rfl
      have new : registry.entries.get? subsystem.id = none :=
        Option.isNone_iff_eq_none.mp (Option.isSome_eq_false_iff.mp taken)
      refine .inr ⟨_, _, _, answered, run_register_of_new blank taken, h.register new ?_⟩
      have done : (roster.answer (.register subsystem)).isOk = true := by rw [answered]; rfl
      simpa [Call.move, Move.ends, Move.brings] using Roster.all_call_of_ok done

theorem run_unregister (h : Numbers registry roster entries) (id : String) :
    Follows registry roster (.unregister id) := by
  have held := h.get?_eq id
  cases found : registry.entries.get? id with
  | none =>
    refine .inl ⟨_, ?_, run_unregister_of_unknown found⟩
    rw [Roster.answer_unregister, held, found]
    rfl
  | some entry =>
    have answered : roster.answer (.unregister id) = .ok (some entry.subsystem) := by
      rw [Roster.answer_unregister, held, found]
      rfl
    refine .inr ⟨_, _, _, answered, run_unregister_of_known found, h.unregister id ?_⟩
    have done : (roster.answer (.unregister id)).isOk = true := by rw [answered]; rfl
    simpa [Call.move, Move.ends, Move.brings, eq_comm] using Roster.all_call_of_ok done

theorem run_inPlace (h : Numbers registry roster entries) (made : Call) :
    Follows registry roster made := by
  cases made with
  | register subsystem => exact run_register h subsystem
  | unregister id => exact run_unregister h id
  | clear => exact .inr ⟨_, _, [], rfl, rfl, numbers_cleared _⟩

/-- By induction on the changes, from any roster whose entries are numbered. -/
theorem numbers_after (calls : List Call) :
    ∃ entries, Numbers (after calls) (Roster.after calls) entries := by
  suffices general : ∀ (registry : Registry) (roster : Roster) entries,
      Numbers registry roster entries →
      ∃ entries, Numbers
        (calls.foldl (fun registry made => ((inPlace made).run registry).2) registry)
        (calls.foldl Roster.call roster) entries from
    general _ _ _ (numbers_cleared 0)
  induction calls with
  | nil => exact fun _ _ entries h => ⟨entries, h⟩
  | cons made rest ih =>
    intro registry roster entries h
    rw [List.foldl_cons, List.foldl_cons]
    obtain ⟨next, numbers⟩ := (run_inPlace h made).numbers h
    exact ih _ _ _ numbers

theorem Numbers.entryList_perm (h : Numbers registry roster entries) :
    registry.entryList.Perm entries := by
  have filed : ∀ id entry, (id, entry) ∈ registry.entries.entries ↔
      entry ∈ entries ∧ entry.subsystem.id = id := fun id entry => by
    rw [← Table.get?_eq_some_iff, h.filed]
  have distinct : registry.entryList.Nodup := by
    refine List.pairwise_map.mpr (registry.entries.ascending.imp_of_mem ?_)
    rintro ⟨id, entry⟩ ⟨other, again⟩ member member' below same
    obtain rfl : entry = again := same
    have named := ((filed id entry).mp member).2
    rw [((filed other entry).mp member').2] at named
    exact String.lt_irrefl _ (named ▸ below)
  have numbered : entries.Nodup := h.ascending.imp fun below same =>
    Nat.ne_of_lt below (congrArg Registration.sequence same)
  refine (List.perm_ext_iff_of_nodup distinct numbered).mpr fun entry => ?_
  simp [entryList, filed]

/-- The numbers bring back the order of registration. -/
theorem Numbers.inSequence_eq (h : Numbers registry roster entries) {order : List Registration}
    (perm : order.Perm registry.entryList) : inSequence order = roster.all := by
  have sorted : (order.mergeSort fun a b => decide (a.sequence ≤ b.sequence)).Pairwise
      fun a b => decide (a.sequence ≤ b.sequence) = true := by
    refine List.pairwise_mergeSort (fun a b c hab hbc => ?_) (fun a b => ?_) order
    · exact decide_eq_true (Nat.le_trans (of_decide_eq_true hab) (of_decide_eq_true hbc))
    · simpa using Nat.le_total a.sequence b.sequence
  have held : order.Perm entries := perm.trans h.entryList_perm
  have same := eq_of_ascending h.ascending ((List.mergeSort_perm order _).trans held)
    (sorted.imp of_decide_eq_true)
  rw [inSequence, same, h.subsystems]

/-- The numbers settle what the priorities leave open. -/
theorem Numbers.inOrder_eq (h : Numbers registry roster entries) {order : List Registration}
    (perm : order.Perm registry.entryList) : inOrder order = roster.byPriority := by
  have held : order.Perm entries := perm.trans h.entryList_perm
  have arranged : Arranged (·.subsystem.priority) entries (order.mergeSort Registration.precedes) :=
    .of_numbers h.ascending ((List.mergeSort_perm order _).trans held)
      ((Registration.pairwise_mergeSort order).imp Registration.precedes_iff.mp)
  rw [inOrder, arranged.eq_ranked, ← ranked_map fun entry : Registration => entry.subsystem,
    h.subsystems]
  rfl

theorem Numbers.inRange_eq (h : Numbers registry roster entries) {order : List Registration}
    (perm : order.Perm registry.entryList) (low high : Int64) :
    inRange order low high = roster.byPriorityRange low high := by
  rw [inRange, h.inOrder_eq perm]
  rfl

end Registry

namespace Roster

/-- Whatever changes came before, refused ones among them: the subsystems are those that were
registered and not taken out since, in the order of their registration. By priority each of them
comes once, those of one priority in the order of their registration, and a range of priorities
keeps what lies in it. A registry that numbers the registrations gives the same answers and hands
out the same subsystems, in whatever order its entries come. A change that is refused changes
nothing. -/
theorem handed_out_after_calls (calls : List Call) :
    let roster := after calls
    let registry := Registry.after calls
    let registered := standing (·.id) (empty.accepted calls)
    roster.all = registered ∧
    (registered.map (·.id)).Nodup ∧
    roster.byPriority.Perm registered ∧
    Arranged (·.priority) registered roster.byPriority ∧
    (∀ low high, (roster.byPriorityRange low high).Sublist roster.byPriority ∧
      ∀ subsystem, subsystem ∈ roster.byPriorityRange low high ↔
        subsystem ∈ roster.byPriority ∧ low ≤ subsystem.priority ∧ subsystem.priority ≤ high) ∧
    (∀ order, order.Perm registry.entryList →
      Registry.inSequence order = roster.all ∧ Registry.inOrder order = roster.byPriority ∧
        ∀ low high, Registry.inRange order low high = roster.byPriorityRange low high) ∧
    ∀ made, ((Registry.inPlace made).run registry).1 = roster.answer made ∧
      ∀ fault, roster.answer made = .error fault →
        roster.call made = roster ∧ ((Registry.inPlace made).run registry).2 = registry := by
  intro roster registry registered
  have all : roster.all = registered := all_after calls
  obtain ⟨entries, numbers⟩ := Registry.numbers_after calls
  rw [← all]
  refine ⟨rfl, nodup_enrolled_after calls, ranked_perm _ _, arranged_ranked _ _,
    fun low high => ⟨List.filter_sublist, fun _ => mem_byPriorityRange⟩,
    fun order perm => ⟨numbers.inSequence_eq perm, numbers.inOrder_eq perm,
      numbers.inRange_eq perm⟩, fun made => ?_⟩
  rcases Registry.run_inPlace numbers made with ⟨fault, refused, same⟩ | ⟨_, _, _, taken, same, _⟩
  · rw [same, refused]
    exact ⟨rfl, fun _ _ => ⟨call_of_error refused, rfl⟩⟩
  · rw [same, taken]
    exact ⟨rfl, nofun⟩

/-- The gear is taken out and comes back behind the buffs, with which it is tied. -/
example :
    let silent (id : String) := Subsystem.always id 5 fun _ _ _ => .ok none
    let registry := Registry.after [.register (silent "gear"), .register (silent "buffs"),
      .unregister "gear", .register (silent "gear")]
    (Registry.inOrder registry.entryList).map (·.id) = ["buffs", "gear"] := by
  cbv

end Roster

end Statline

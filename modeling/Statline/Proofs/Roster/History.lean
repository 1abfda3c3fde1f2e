import Mathlib.Data.List.Nodup
import Statline.Proofs.Except
import Statline.Roster

namespace Statline.Roster

/-- Takes a subsystem out of the roster. -/
def dismiss (roster : Roster) (id : String) : Except Fault Roster :=
  (roster.unregister id).map (·.2)

/-- A change of the subsystems that are registered. -/
inductive Call where
  | register (subsystem : Subsystem)
  | unregister (id : String)
  | clear

/-- The roster after a change; a refused one leaves it as it was. -/
def call (roster : Roster) : Call → Roster
  | .register subsystem => (roster.register subsystem).toOption.getD roster
  | .unregister id => (roster.dismiss id).toOption.getD roster
  | .clear => empty

def after (calls : List Call) : Roster :=
  calls.foldl call empty

/-- The ids of the registered subsystems, in the order of their registration. -/
def enrolled (roster : Roster) : List String :=
  roster.all.map (·.id)

variable {roster next : Roster} {subsystem : Subsystem} {id : String} {ids : List String}

theorem mem_enrolled :
    id ∈ roster.enrolled ↔ ∃ seat ∈ roster.seats, seat.subsystem.id = id := by
  simp [enrolled, all]

theorem register_eq_ok (h : roster.register subsystem = .ok next) :
    subsystem.id ∉ roster.enrolled ∧ next.all = roster.all ++ [subsystem] := by
  unfold register at h
  split at h
  next => cases h
  next =>
    split at h
    next => cases h
    next new =>
      cases h
      refine ⟨fun member => new ?_, List.map_append⟩
      obtain ⟨seat, sits, same⟩ := mem_enrolled.mp member
      exact List.any_eq_true.mpr ⟨seat, sits, decide_eq_true same⟩

theorem dismiss_eq_ok (h : roster.dismiss id = .ok next) :
    next = ⟨roster.seats.filter (·.subsystem.id ≠ id)⟩ := by
  unfold dismiss unregister at h
  split at h
  next => cases h; rfl
  next => cases h

theorem dismiss_of_mem (h : id ∈ roster.enrolled) :
    roster.dismiss id = .ok ⟨roster.seats.filter (·.subsystem.id ≠ id)⟩ := by
  obtain ⟨seat, sits, same⟩ := mem_enrolled.mp h
  have found : (roster.seat? id).isSome = true :=
    List.find?_isSome.mpr ⟨seat, sits, decide_eq_true same⟩
  obtain ⟨first, held⟩ := Option.isSome_iff_exists.mp found
  simp [dismiss, unregister, get?, held, Except.map]

/-- Whatever the order in which registered subsystems are taken out, the others stay as they are. -/
theorem foldlM_dismiss (distinct : ids.Nodup) (held : ∀ id ∈ ids, id ∈ roster.enrolled) :
    ids.foldlM dismiss roster = .ok ⟨roster.seats.filter (·.subsystem.id ∉ ids)⟩ := by
  induction ids generalizing roster with
  | nil =>
    have all : roster.seats.filter (·.subsystem.id ∉ []) = roster.seats := by simp
    rw [all]
    rfl
  | cons id rest ih =>
    obtain ⟨first, others⟩ := List.forall_mem_cons.mp held
    obtain ⟨fresh, distinct⟩ := List.nodup_cons.mp distinct
    have still : ∀ other ∈ rest,
        other ∈ (Roster.mk (roster.seats.filter (·.subsystem.id ≠ id))).enrolled := by
      intro other member
      obtain ⟨seat, sits, same⟩ := mem_enrolled.mp (others other member)
      have apart : seat.subsystem.id ≠ id := by
        rintro rfl
        exact fresh (same ▸ member)
      exact mem_enrolled.mpr ⟨seat, List.mem_filter.mpr ⟨sits, decide_eq_true apart⟩, same⟩
    rw [List.foldlM_cons, dismiss_of_mem first]
    refine (ih distinct still).trans ?_
    simp only [List.filter_filter, List.mem_cons, not_or]
    congr 3
    funext seat
    simp [Bool.and_comm]

theorem nodup_enrolled_call (h : roster.enrolled.Nodup) (made : Call) :
    (roster.call made).enrolled.Nodup := by
  cases made with
  | register subsystem =>
    refine getD_of (P := fun next : Roster => next.enrolled.Nodup) h fun next registered => ?_
    obtain ⟨fresh, all⟩ := register_eq_ok registered
    rw [enrolled, all, List.map_append]
    exact h.append (List.nodup_singleton _) (by simpa [enrolled] using fresh)
  | unregister id =>
    refine getD_of (P := fun next : Roster => next.enrolled.Nodup) h fun next dismissed => ?_
    rw [dismiss_eq_ok dismissed]
    exact h.sublist ((List.filter_sublist.map _).map _)
  | clear => exact List.nodup_nil

/-- Whatever the changes, no two registered subsystems have the same id. -/
theorem nodup_enrolled_after (calls : List Call) : (after calls).enrolled.Nodup :=
  List.foldlRecOn (motive := fun roster : Roster => roster.enrolled.Nodup) calls call
    List.nodup_nil fun _ distinct made _ => nodup_enrolled_call distinct made

end Statline.Roster

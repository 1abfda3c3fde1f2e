import Statline.Aggregator
import Statline.Proofs.Except

namespace Statline

variable {context : Context} {actor : Actor} {output : Output} {cap : CapContribution}

theorem CapContribution.isFinite_of_validate (h : cap.validate = .ok ()) :
    cap.value.isFinite = true := by
  unfold validate at h
  split at h
  next => cases h
  next =>
    split at h
    next => cases h
    next =>
      split at h
      next finite => exact finite
      next => cases h

theorem Contribution.isFinite_of_validate {c : Contribution} (h : c.validate = .ok ()) :
    c.value.isFinite = true := by
  unfold validate at h
  split at h
  next => cases h
  split at h
  next => cases h
  split at h
  next finite => exact finite
  next => cases h

theorem Output.validate_eq_ok :
    output.validate = .ok () ↔
      (∀ c ∈ output.primary, c.validate = .ok ()) ∧ (∀ c ∈ output.derived, c.validate = .ok ()) ∧
        ∀ cap ∈ output.caps, cap.validate = .ok () := by
  constructor
  · intro h
    obtain ⟨_, primary, h⟩ := bind_eq_ok.mp h
    obtain ⟨_, derived, caps⟩ := bind_eq_ok.mp h
    exact ⟨forM_eq_ok.mp primary, forM_eq_ok.mp derived, forM_eq_ok.mp caps⟩
  · rintro ⟨primary, derived, caps⟩
    exact bind_eq_ok.mpr ⟨(), forM_eq_ok.mpr primary,
      bind_eq_ok.mpr ⟨(), forM_eq_ok.mpr derived, forM_eq_ok.mpr caps⟩⟩

theorem isFinite_of_validated {outputs : List Output}
    (valid : ∀ output ∈ outputs, output.validate = .ok ()) (h : cap ∈ capsOf outputs) :
    cap.value.isFinite = true := by
  obtain ⟨output, member, held⟩ := List.mem_flatMap.mp h
  exact CapContribution.isFinite_of_validate
    ((Output.validate_eq_ok.mp (valid output member)).2.2 cap held)

theorem Seat.validate_of_answer {seat : Seat} (h : seat.answer context actor = .ok (some output)) :
    output.validate = .ok () := by
  obtain ⟨_, _, h⟩ := bind_eq_ok.mp h
  obtain ⟨given, _, h⟩ := bind_eq_ok.mp h
  cases given with
  | none => cases h
  | some other =>
    obtain ⟨_, valid, ⟨⟩⟩ := bind_eq_ok.mp h
    exact valid

namespace Aggregator

variable {roster : Roster}

theorem mem_accepted {answers : List (Except Fault (Option Output))} :
    output ∈ accepted answers ↔ .ok (some output) ∈ answers := by
  have given (answer : Except Fault (Option Output)) :
      answer.toOption.join = some output ↔ answer = .ok (some output) := by
    cases answer <;> simp [Except.toOption]
  simp [accepted, List.mem_filterMap, given]

theorem validate_of_mem_accepted (h : output ∈ accepted (roster.answers context actor)) :
    output.validate = .ok () := by
  obtain ⟨seat, _, answered⟩ := List.mem_map.mp (mem_accepted.mp h)
  exact Seat.validate_of_answer answered

theorem isFinite_of_mem_capsOf (h : cap ∈ capsOf (accepted (roster.answers context actor))) :
    cap.value.isFinite = true :=
  isFinite_of_validated (fun _ => validate_of_mem_accepted) h

end Aggregator

end Statline

import Statline.Proofs.Except
import Statline.Fault

namespace Statline

/-- A change made in place: what it has written before it fails stays written. -/
abbrev InPlace (σ : Type) := ExceptT Fault (StateM σ)

/-- The answer to a change that gives a new state, and what it leaves: if it is refused, the state
as it was. -/
def settle {σ : Type} (before : σ) : Except Fault σ → Except Fault Unit × σ
  | .ok next => (.ok (), next)
  | .error fault => (.error fault, before)

/-- As `settle`, for a change that also gives an answer. -/
def settleWith {σ α : Type} (before : σ) : Except Fault (α × σ) → Except Fault α × σ
  | .ok (answer, next) => (.ok answer, next)
  | .error fault => (.error fault, before)

variable {σ τ α β : Type} {before next : σ} {changed : Except Fault σ} {fault : Fault}

theorem settle_of_error (h : (settle before changed).1 = .error fault) :
    (settle before changed).2 = before := by
  cases changed with
  | error other => rfl
  | ok next => cases h

theorem settle_eq_ok : settle before changed = (.ok (), next) ↔ changed = .ok next := by
  cases changed with
  | error other => exact ⟨nofun, nofun⟩
  | ok value => simp [settle]

theorem settle_of {P : σ → Prop} (h : P before) (accepted : ∀ next, changed = .ok next → P next) :
    P (settle before changed).2 := by
  cases changed with
  | error other => exact h
  | ok next => exact accepted next rfl

theorem settle_map (before : σ) (changed : Except Fault σ) (f : σ → τ) :
    settle (f before) (changed.map f) =
      (changed.map fun _ => (), f (changed.toOption.getD before)) := by
  cases changed <;> rfl

theorem settleWith_fst (before : σ) (changed : Except Fault (α × σ)) :
    (settleWith before changed).1 = changed.map Prod.fst := by
  cases changed <;> rfl

/-- A check made first, before anything is written. -/
theorem run_ofExcept_bind {check : Except Fault α} {rest : α → InPlace σ Unit}
    {change : α → Except Fault σ}
    (h : ∀ value, (rest value).run before = settle before (change value)) :
    (ofExcept check >>= rest : InPlace σ Unit).run before = settle before (check >>= change) := by
  cases check with
  | error fault => rfl
  | ok value => exact h value

/-- What follows a step that fails is not reached, and what the step has written stays. -/
theorem run_bind (action : InPlace σ α) (rest : α → InPlace σ β) (before : σ) :
    (action >>= rest).run before =
      match action.run before with
      | (.ok value, next) => (rest value).run next
      | (.error fault, next) => (.error fault, next) := by
  have stepwise : (action >>= rest).run before =
      (ExceptT.bindCont rest (action.run before).1).run (action.run before).2 := rfl
  rw [stepwise]
  rcases action.run before with ⟨_ | _, _⟩ <;> rfl

theorem run_discard (action : InPlace σ α) (before : σ) :
    (discard action).run before =
      ((action.run before).1.map fun _ => (), (action.run before).2) := by
  rw [discard, map_const, Function.comp_apply, map_eq_pure_bind, run_bind]
  rcases action.run before with ⟨_ | _, _⟩ <;> rfl

/-- A loop that writes is a fold over what it writes. -/
theorem run_forM_modify (write : σ → α → σ) (items : List α) (start : σ) :
    (items.forM fun item => (modify (write · item) : InPlace σ Unit)).run start =
      (.ok (), items.foldl write start) := by
  induction items generalizing start with
  | nil => rfl
  | cons item rest ih => exact ih (write start item)

end Statline

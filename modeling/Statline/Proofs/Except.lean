namespace Statline

variable {ε α β : Type} {changed : Except ε α} {fallback : α} {fault : ε}

theorem bind_eq_ok {x : Except ε α} {f : α → Except ε β} {result : β} :
    x >>= f = .ok result ↔ ∃ value, x = .ok value ∧ f value = .ok result := by
  cases x with
  | error fault => exact ⟨nofun, nofun⟩
  | ok value =>
    constructor
    · exact fun h => ⟨value, rfl, h⟩
    · rintro ⟨_, ⟨⟩, h⟩
      exact h

theorem check_bind_eq_ok {check : Except ε Unit} {rest : Except ε α} {result : α} :
    (check >>= fun _ => rest) = .ok result ↔ check = .ok () ∧ rest = .ok result := by
  rw [bind_eq_ok]
  constructor
  · rintro ⟨_, passed, h⟩
    exact ⟨passed, h⟩
  · rintro ⟨passed, h⟩
    exact ⟨(), passed, h⟩

theorem check_pure_eq_ok {check : Except ε Unit} {value result : α} :
    (check >>= fun _ => pure value : Except ε α) = .ok result ↔
      check = .ok () ∧ value = result := by
  rw [check_bind_eq_ok]
  exact and_congr_right fun _ => Iff.of_eq (Except.ok.injEq value result)

theorem bind_eq_error {x : Except ε α} {f : α → Except ε β} :
    x >>= f = .error fault ↔
      x = .error fault ∨ ∃ value, x = .ok value ∧ f value = .error fault := by
  cases x with
  | error other =>
    constructor
    · intro h
      injection h with same
      exact .inl (congrArg _ same)
    · rintro (⟨⟨⟩⟩ | ⟨_, ⟨⟩, _⟩)
      rfl
  | ok value =>
    constructor
    · exact fun h => .inr ⟨value, rfl, h⟩
    · rintro (⟨⟨⟩⟩ | ⟨_, ⟨⟩, h⟩)
      exact h

theorem forM_eq_ok {xs : List α} {f : α → Except ε Unit} :
    xs.forM f = .ok () ↔ ∀ x ∈ xs, f x = .ok () := by
  induction xs with
  | nil => exact ⟨nofun, fun _ => rfl⟩
  | cons x rest ih =>
    have step : (x :: rest).forM f = f x >>= fun _ => rest.forM f := rfl
    rw [step, bind_eq_ok, List.forall_mem_cons]
    constructor
    · rintro ⟨_, head, tail⟩
      exact ⟨head, ih.mp tail⟩
    · rintro ⟨head, tail⟩
      exact ⟨(), head, ih.mpr tail⟩

theorem getD_cases (fallback : α) (changed : Except ε α) :
    changed = .ok (changed.toOption.getD fallback) ∨
      changed.toOption.getD fallback = fallback := by
  cases changed with
  | error fault => exact .inr rfl
  | ok next => exact .inl rfl

theorem getD_of {P : α → Prop} (h : P fallback) (accepted : ∀ next, changed = .ok next → P next) :
    P (changed.toOption.getD fallback) := by
  cases changed with
  | error fault => exact h
  | ok next => exact accepted next rfl

theorem getD_of_error (h : changed = .error fault) (fallback : α) :
    changed.toOption.getD fallback = fallback := by
  rw [h]
  rfl

theorem map_eq_error {f : α → β} :
    changed.map f = .error fault ↔ changed = .error fault := by
  cases changed with
  | error other =>
    constructor
    · intro h
      injection h with same
      rw [same]
    · rintro ⟨⟩
      rfl
  | ok value => exact ⟨nofun, nofun⟩

theorem map_eq_ok {f : α → β} {result : β} :
    changed.map f = .ok result ↔ ∃ value, changed = .ok value ∧ f value = result := by
  cases changed with
  | error fault => exact ⟨nofun, nofun⟩
  | ok value =>
    constructor
    · rintro ⟨⟩
      exact ⟨value, rfl, rfl⟩
    · rintro ⟨_, ⟨⟩, rfl⟩
      rfl

theorem exists_of_isOk {result : Except ε α} (h : result.isOk = true) :
    ∃ value, result = .ok value := by
  cases result with
  | error fault => cases h
  | ok value => exact ⟨value, rfl⟩

theorem isOk_map (changed : Except ε α) (f : α → β) : (changed.map f).isOk = changed.isOk := by
  cases changed <;> rfl

end Statline

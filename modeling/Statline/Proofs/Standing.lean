namespace Statline

/-- What happens to items that are kept under names of their own. -/
inductive Move (α : Type) where
  | added (item : α)
  | removed (name : String)
  | cleared

namespace Move

variable {α : Type}

/-- Whether an item of the name that was there before is gone. -/
def ends (move : Move α) (name : String) : Bool :=
  match move with
  | .added _ => false
  | .removed other => other = name
  | .cleared => true

def brings : Move α → List α
  | .added item => [item]
  | .removed _ | .cleared => []

end Move

variable {α : Type}

/-- The items that were added and not taken out since, in the order in which they were added. The
moves come earliest first. -/
def standing (nameOf : α → String) : List (Move α) → List α
  | [] => []
  | move :: later =>
    (move.brings.filter fun item => !later.any (·.ends (nameOf item))) ++ standing nameOf later

theorem standing_concat (nameOf : α → String) (moves : List (Move α)) (move : Move α) :
    standing nameOf (moves ++ [move]) =
      (standing nameOf moves).filter (fun item => !move.ends (nameOf item)) ++ move.brings := by
  induction moves with
  | nil => simp [standing]
  | cons first rest ih =>
    have later (item : α) : (!(rest ++ [move]).any (·.ends (nameOf item))) =
        (!move.ends (nameOf item) && !rest.any (·.ends (nameOf item))) := by
      simp [Bool.and_comm]
    simp only [List.cons_append, standing, ih, later, List.filter_append, List.filter_filter,
      List.append_assoc]

end Statline

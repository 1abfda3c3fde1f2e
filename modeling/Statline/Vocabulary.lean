namespace Statline

/-- A closed set of members, each with one written name. -/
class Vocabulary (α : Type) where
  /-- What messages call a member of the set. -/
  noun : String
  all : List α
  name : α → String
  /-- What callers may say for a member instead of its name. -/
  shorthands : List (String × α)

namespace Vocabulary

variable {α : Type} [Vocabulary α]

/-- The member whose written name a text is. -/
def memberNamed (α : Type) [Vocabulary α] (text : String) : Option α :=
  (all : List α).find? fun member => name member = text

/-- The member that a caller means by a text. -/
def ofName? (text : String) : Option α :=
  (shorthands.lookup text).or (memberNamed α text)

end Vocabulary

end Statline

/-! Lists put in order by repeated insertion. -/

namespace Readiness

/-- Puts a value in front of the first element that it may precede. -/
def insertOrdered {α : Type} (le : α → α → Bool) (value : α) : List α → List α
  -- Everything passed over stays in front, so an ordered list stays ordered.
  | [] => [value]
  | head :: rest =>
    if le value head then value :: head :: rest else head :: insertOrdered le value rest

/-- Insertion adds the value and keeps all others. -/
theorem insertOrdered_perm {α : Type} (le : α → α → Bool) (value : α) (values : List α) :
    (insertOrdered le value values).Perm (value :: values) := by
  -- Passing over the head swaps it with the value.
  induction values with
  | nil => exact .refl _
  | cons head rest ih =>
    unfold insertOrdered
    split
    · exact .refl _
    · exact (ih.cons head).trans (.swap value head rest)

/-- The same elements in order, with equal ones left in the order they had. -/
def sortOrdered {α : Type} (le : α → α → Bool) (values : List α) : List α :=
  -- Inserting from the back puts an earlier element in front of its equals.
  values.foldr (insertOrdered le) []

/-- Sorting neither adds nor drops an element. -/
theorem sortOrdered_perm {α : Type} (le : α → α → Bool) (values : List α) :
    (sortOrdered le values).Perm values := by
  -- Each insertion adds the element that it takes off the list.
  induction values with
  | nil => exact .refl _
  | cons head rest ih => exact (insertOrdered_perm le head _).trans (ih.cons head)

/-- Texts compare by their code points, which is also the order of their UTF-8 bytes. -/
def textLe (left right : String) : Bool :=
  !decide (right < left)

end Readiness

/-!
# Sorted lists and lists of different elements

`sortBy le` puts a list in the order `le` and keeps equal elements in the order in which they came. `distinct` keeps of
equal elements the first.
-/

namespace TypeBindings

variable {α : Type}

/-- Puts an element before the first one that it may precede. -/
def insertBy (le : α → α → Bool) (a : α) : List α → List α
  | [] => [a]
  | b :: rest => if le a b then a :: b :: rest else b :: insertBy le a rest

def sortBy (le : α → α → Bool) : List α → List α
  | [] => []
  | a :: rest => insertBy le a (sortBy le rest)

/-- Texts in the order of their characters. -/
def sortTexts (texts : List String) : List String :=
  sortBy (fun a b => decide (a ≤ b)) texts

/-- The first occurrences of the elements of a list. -/
def distinct [DecidableEq α] : List α → List α
  | [] => []
  | a :: rest => a :: (distinct rest).filter (· ≠ a)

end TypeBindings

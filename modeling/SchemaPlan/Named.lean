/-!
# Lists of named things

Declarations and observations list columns, indexes, changefeeds and consumers by name. Where a
name is repeated on the observed side the last entry counts (`lastNamed?`); `repeats` are the
entries of a list that stand in it a second time, and `sameElements` compares two lists as sets.
-/

namespace SchemaPlan

variable {α : Type}

/-- The last element of the list whose name is `name`. -/
def lastNamed? (nameOf : α → String) (name : String) (l : List α) : Option α :=
  l.reverse.find? fun a => nameOf a = name

variable [DecidableEq α]

/-- The elements of the list that are among `seen` or stand in the list before. -/
def repeatsAfter (seen : List α) : List α → List α
  | [] => []
  | a :: l => if a ∈ seen then a :: repeatsAfter seen l else repeatsAfter (a :: seen) l

/-- The elements of a list that stand in it before, once for each time. -/
def repeats (l : List α) : List α :=
  repeatsAfter [] l

/-- Whether two lists have the same elements, whatever their order and repetitions. -/
def sameElements (l m : List α) : Bool :=
  l.all (· ∈ m) && m.all (· ∈ l)

end SchemaPlan

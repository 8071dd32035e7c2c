/-!
# Distinct texts

Texts in order, each once.

* `mem_of_mem_distinctSorted`: no other text comes in.
-/

namespace AgentFlow.Text

/-- The list without the items that equal the one before them. -/
def dropRepeats : List String → List String
  | [] => []
  | [s] => [s]
  | s :: t :: rest => if s == t then dropRepeats (t :: rest) else s :: dropRepeats (t :: rest)

/-- The texts in order, each once. -/
def distinctSorted (xs : List String) : List String :=
  dropRepeats (xs.mergeSort fun a b => !(b < a))

theorem dropRepeats_sublist (xs : List String) : (dropRepeats xs).Sublist xs := by
  induction xs with
  | nil => exact .slnil
  | cons s rest ih =>
    cases rest with
    | nil => exact .refl _
    | cons t more =>
      rw [dropRepeats]
      split
      · exact ih.cons s
      · exact ih.cons_cons s

theorem mem_of_mem_distinctSorted {s : String} {xs : List String} (h : s ∈ distinctSorted xs) :
    s ∈ xs :=
  (List.mergeSort_perm xs _).mem_iff.mp ((dropRepeats_sublist _).subset h)

end AgentFlow.Text

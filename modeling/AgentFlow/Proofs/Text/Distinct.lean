import AgentFlow.Data.SortedMap
import AgentFlow.Text.Distinct
import Mathlib.Data.List.Sort

/-!
# Equal lists of distinct texts

Texts in order, each once, depend on which texts there are only.

* `mem_distinctSorted`: the texts are those of the list.
* `pairwise_distinctSorted`: they increase.
* `distinctSorted_eq_iff`: **two lists give the same texts exactly if they have the same members.**
-/

namespace AgentFlow.Text

open Data

variable {xs ys : List String}

theorem mem_dropRepeats {s : String} : s ∈ dropRepeats xs ↔ s ∈ xs := by
  induction xs with
  | nil => exact .rfl
  | cons t rest ih =>
    cases rest with
    | nil => exact .rfl
    | cons u more =>
      rw [dropRepeats]
      split
      · next h => rw [ih, beq_iff_eq.mp h]; simp
      · rw [List.mem_cons, ih, ← List.mem_cons]

theorem mem_distinctSorted {s : String} : s ∈ distinctSorted xs ↔ s ∈ xs := by
  rw [distinctSorted, mem_dropRepeats, List.mem_mergeSort]

/-- Texts in order increase where no two neighbours are equal. -/
theorem pairwise_dropRepeats (h : xs.Pairwise fun a b => ¬ b < a) :
    (dropRepeats xs).Pairwise (· < ·) := by
  induction xs with
  | nil => exact .nil
  | cons s rest ih =>
    obtain ⟨hs, hrest⟩ := List.pairwise_cons.mp h
    cases rest with
    | nil => exact List.pairwise_singleton _ s
    | cons t more =>
      rw [dropRepeats]
      split
      · exact ih hrest
      · next hne =>
        refine List.pairwise_cons.mpr ⟨fun u hu => ?_, ih hrest⟩
        have hst : s < t := by
          by_contra hlt
          exact hne (beq_iff_eq.mpr (Key.trichotomous hlt (hs t List.mem_cons_self)))
        -- The next text lies above `s`, and all others do not lie below it.
        rcases List.mem_cons.mp (mem_dropRepeats.mp hu) with rfl | hu
        · exact hst
        · by_contra hlt
          have hsu : s = u := Key.trichotomous hlt (hs u (List.mem_cons_of_mem t hu))
          exact (List.pairwise_cons.mp hrest).1 u hu (hsu ▸ hst)

theorem pairwise_distinctSorted (xs : List String) : (distinctSorted xs).Pairwise (· < ·) := by
  refine pairwise_dropRepeats ?_
  have htrans : ∀ a b c : String, (!decide (b < a)) = true → (!decide (c < b)) = true →
      (!decide (c < a)) = true := by
    intro a b c hab hbc
    rw [Bool.not_eq_true', decide_eq_false_iff_not] at *
    exact fun hca => String.not_lt.mpr (String.le_trans (String.not_lt.mp hab)
      (String.not_lt.mp hbc)) hca
  have htotal : ∀ a b : String, ((!decide (b < a)) || !decide (a < b)) = true := by
    intro a b
    rw [Bool.or_eq_true, Bool.not_eq_true', Bool.not_eq_true', decide_eq_false_iff_not,
      decide_eq_false_iff_not]
    by_contra h
    rw [not_or, not_not, not_not] at h
    exact Key.irrefl a (Key.trans h.2 h.1)
  refine (List.pairwise_mergeSort htrans htotal xs).imp fun h => ?_
  rwa [Bool.not_eq_true', decide_eq_false_iff_not] at h

/-- **Two lists give the same texts in order exactly if they have the same members.** -/
theorem distinctSorted_eq_iff :
    distinctSorted xs = distinctSorted ys ↔ ∀ s, s ∈ xs ↔ s ∈ ys := by
  have hantisymm : Std.Antisymm fun a b : String => a < b :=
    ⟨fun a b hab hba => absurd (Key.trans hab hba) (Key.irrefl a)⟩
  constructor
  · intro h s
    rw [← mem_distinctSorted, h, mem_distinctSorted]
  · intro h
    refine (pairwise_distinctSorted xs).eq_of_mem_iff (pairwise_distinctSorted ys) fun s => ?_
    rw [mem_distinctSorted, mem_distinctSorted, h]

end AgentFlow.Text

import AgentFlow.Text.Case
import AgentFlow.Text.Split
import Mathlib.Data.List.Forall2
import Mathlib.Data.List.Infix

/-!
# Phrases in texts in lower case

A phrase is looked for in the lower-case form of a text.  What a letter becomes there depends on
what stands around it in one case only: a capital sigma has a form of its own at the end of a word.
Up to the form of its sigmas, the lower-case form of a text is put together from those of its
characters (`map_plainSigma_lowerAfter`), so a phrase without a sigma is found in a text whenever it
is found in a part of it.

The letters of the alphabet have one lower-case form in both cases, and the rule for the sigma
cannot tell the cases apart either.  So a text has the same lower-case form whatever the case of
these letters is.

* `occursIn_iff`: the search finds a pattern exactly if it is a part of the text.
* `contains_lower_iff`: where a phrase without a sigma is found.
* `contains_lower_append`: **such a phrase is found in every text around a text that has it.**
* `lower_recase`: **the case of the letters of the alphabet does not matter.**
-/

namespace AgentFlow.Text

/-! ### Search -/

/-- **The search finds exactly the parts of a text.** -/
theorem occursIn_iff {pattern cs : List Char} : occursIn pattern cs = true ↔ pattern <:+: cs := by
  induction cs with
  | nil => cases pattern <;> simp [occursIn, splitFirst]
  | cons c rest ih =>
    rw [List.infix_cons_iff, ← ih, ← List.isPrefixOf_iff_prefix]
    by_cases hhere : pattern.isPrefixOf (c :: rest) = true
    · have hfound : occursIn pattern (c :: rest) = true := by
        rw [occursIn, splitFirst, if_pos hhere, Option.isSome_some]
      exact iff_of_true hfound (.inl hhere)
    · have hlater : occursIn pattern (c :: rest) = occursIn pattern rest := by
        rw [occursIn, splitFirst, if_neg hhere, Option.isSome_map, occursIn]
      rw [hlater]
      exact (or_iff_right hhere).symm

/-! ### Sigmas -/

/-- A small sigma in its usual form, also at the end of a word. -/
def plainSigma (c : Char) : Char := if c = 'ς' then 'σ' else c

/-- What a character becomes in lower case, up to the form of sigmas. -/
def plainLower (c : Char) : List Char := if c = 'Σ' then ['σ'] else (lowerChar c).map plainSigma

/-- **Up to the form of sigmas, every character has its lower-case form wherever it stands.** -/
theorem map_plainSigma_lowerAfter (before cs : List Char) :
    (lowerAfter before cs).map plainSigma = cs.flatMap plainLower := by
  induction cs generalizing before with
  | nil => rfl
  | cons c rest ih =>
    rw [lowerAfter, List.map_append, ih, List.flatMap_cons, plainLower]
    by_cases hsigma : c = 'Σ'
    · rw [if_pos hsigma, if_pos (beq_iff_eq.mpr hsigma), List.map_singleton]
      split <;> rfl
    · rw [if_neg hsigma, if_neg (mt beq_iff_eq.mp hsigma)]

/-- A phrase has no small sigma of either form. -/
def SigmaFree (phrase : String) : Prop := 'σ' ∉ phrase.toList ∧ 'ς' ∉ phrase.toList

instance (phrase : String) : Decidable (SigmaFree phrase) :=
  inferInstanceAs (Decidable ('σ' ∉ phrase.toList ∧ 'ς' ∉ phrase.toList))

theorem eq_of_plainSigma {c : Char} (h : plainSigma c ≠ 'σ') : plainSigma c = c := by
  by_cases hend : c = 'ς'
  · exact absurd (if_pos hend) h
  · exact if_neg hend

variable {phrase s t : String}

/-- The form of sigmas does not matter for a phrase that has none. -/
theorem SigmaFree.infix_map_iff (h : SigmaFree phrase) {cs : List Char} :
    phrase.toList <:+: cs.map plainSigma ↔ phrase.toList <:+: cs := by
  constructor
  · intro hmap
    obtain ⟨part, hpart, heq⟩ := List.infix_map_iff.mp hmap
    have hchars : ∀ c ∈ part, plainSigma c = c := fun c hc =>
      eq_of_plainSigma (ne_of_mem_of_not_mem (heq ▸ List.mem_map_of_mem hc) h.1)
    rwa [heq, List.map_congr_left hchars, List.map_id']
  · intro hcs
    have hchars : ∀ c ∈ phrase.toList, plainSigma c = c := fun c hc =>
      if_neg (ne_of_mem_of_not_mem hc h.2)
    have himage := hcs.map plainSigma
    rwa [List.map_congr_left hchars, List.map_id'] at himage

/-- **Where a phrase without a sigma is found.** -/
theorem contains_lower_iff (h : SigmaFree phrase) :
    contains (lower s) phrase = true ↔ phrase.toList <:+: s.toList.flatMap plainLower := by
  rw [contains, occursIn_iff, lower, String.toList_ofList, ← h.infix_map_iff,
    map_plainSigma_lowerAfter]

/-- **A phrase without a sigma that is found in a text is found in every text around it.** -/
theorem contains_lower_append (h : SigmaFree phrase) (u v : String)
    (hfound : contains (lower t) phrase = true) :
    contains (lower (u ++ t ++ v)) phrase = true := by
  rw [contains_lower_iff h] at hfound ⊢
  rw [String.toList_append, String.toList_append, List.flatMap_append, List.flatMap_append]
  exact hfound.trans (List.infix_append _ _ _)

/-! ### The case of the alphabet -/

/-- A letter of the alphabet in its other case; every other character as it is. -/
def otherCase (c : Char) : Char := if c.isUpper then c.toLower else c.toUpper

/-- The text with the letters of the alphabet at some of its places in their other case. -/
def recase (places : Nat → Bool) (s : String) : String :=
  String.ofList (s.toList.mapIdx fun i c => if places i then otherCase c else c)

/-- The rules of lower case do not tell two characters apart. -/
structure SameLower (c d : Char) : Prop where
  lowerChar_eq : lowerChar c = lowerChar d
  isCased_eq : isCased c = isCased d
  isCaseIgnorable_eq : isCaseIgnorable c = isCaseIgnorable d
  sigma_eq : (c == 'Σ') = (d == 'Σ')

theorem SameLower.refl (c : Char) : SameLower c c := ⟨rfl, rfl, rfl, rfl⟩

theorem otherCase_of_le {c : Char} (h : 128 ≤ c.toNat) : otherCase c = c := by
  -- The letters of the alphabet end below 128 in both cases.
  have hupper : c.isUpper = false := decide_eq_false fun hrange =>
    absurd (Nat.le_trans h hrange.2) (by decide)
  have hlower : c.toUpper = c := dif_neg fun hrange =>
    absurd (Nat.le_trans h hrange.2) (by decide)
  rw [otherCase, hupper, if_neg Bool.false_ne_true, hlower]

theorem sameLower_otherCase (c : Char) : SameLower (otherCase c) c := by
  by_cases hascii : c.toNat < 128
  · have hall : ∀ n < 128, lowerChar (otherCase (Char.ofNat n)) = lowerChar (Char.ofNat n) ∧
        isCased (otherCase (Char.ofNat n)) = isCased (Char.ofNat n) ∧
        isCaseIgnorable (otherCase (Char.ofNat n)) = isCaseIgnorable (Char.ofNat n) ∧
        (otherCase (Char.ofNat n) == 'Σ') = (Char.ofNat n == 'Σ') := by
      decide +kernel
    obtain ⟨hlower, hcased, hignorable, hsigma⟩ := hall c.toNat hascii
    rw [Char.ofNat_toNat] at hlower hcased hignorable hsigma
    exact ⟨hlower, hcased, hignorable, hsigma⟩
  · rw [otherCase_of_le (Nat.le_of_not_lt hascii)]
    exact .refl c

theorem casedNext_congr {cs ds : List Char} (h : List.Forall₂ SameLower cs ds) :
    casedNext cs = casedNext ds := by
  induction h with
  | nil => rfl
  | @cons c d cs ds hhead _ ih =>
    by_cases hmark : isCaseIgnorable c = true
    · have hmark' : isCaseIgnorable d = true := hhead.isCaseIgnorable_eq ▸ hmark
      simpa only [casedNext, List.dropWhile_cons_of_pos hmark, List.dropWhile_cons_of_pos hmark']
        using ih
    · have hmark' : ¬ isCaseIgnorable d = true := hhead.isCaseIgnorable_eq ▸ hmark
      simp only [casedNext, List.dropWhile_cons_of_neg hmark, List.dropWhile_cons_of_neg hmark',
        hhead.isCased_eq]

/-- Texts whose characters the rules do not tell apart have the same lower-case form. -/
theorem lowerAfter_congr {cs ds : List Char} (h : List.Forall₂ SameLower cs ds) :
    ∀ {before before' : List Char}, List.Forall₂ SameLower before before' →
      lowerAfter before cs = lowerAfter before' ds := by
  induction h with
  | nil => intro _ _ _; rfl
  | cons hhead hrest ih =>
    intro before before' hbefore
    rw [lowerAfter, lowerAfter, hhead.sigma_eq, hhead.lowerChar_eq, casedNext_congr hbefore,
      casedNext_congr hrest, ih (hbefore.cons hhead)]

/-- **The case of the letters of the alphabet does not matter for the lower-case form.** -/
theorem lower_recase (places : Nat → Bool) (s : String) : lower (recase places s) = lower s := by
  have hsame : List.Forall₂ SameLower (recase places s).toList s.toList := by
    rw [recase, String.toList_ofList, List.forall₂_iff_get]
    refine ⟨List.length_mapIdx, fun i hi hi' => ?_⟩
    rw [List.get_eq_getElem, List.get_eq_getElem, List.getElem_mapIdx]
    cases places i
    · exact .refl _
    · exact sameLower_otherCase _
  rw [lower, lower, lowerAfter_congr hsame .nil]

example : recase (· < 2) "Rag für Ähren" = "rAg für Ähren" := by decide +kernel

end AgentFlow.Text

import AgentFlow.Proofs.Number.Comparison
import AgentFlow.Scoring.Score

/-!
# Ranked scores

Patterns are ranked by the total order of their scores, which tells the two zeros apart, but the
best pattern must have a score above zero in the order of numbers, which does not.  The sort is
stable, so that patterns with identical scores keep the order of their declaration.

* `pairwise_mergeSort_stable`: what a stable sort says of two places of its result.
* `Beats`: one score beats another one, or comes first among identical ones.
* `Scores.pairwise_ranked`: **every pattern in the ranking beats those after it.**
* `Scores.primary?_eq_some_iff`: the best pattern.
* `Scores.ranked_exact`: **ranking, best pattern and emptiness agree, whatever the scores are.**
-/

namespace AgentFlow

open Data Number

/-! ### Stable sorting -/

/-- **What is sorted is in order, and what the order does not tell apart stays as it was.** -/
theorem pairwise_mergeSort_stable {β : Type} {le : β → β → Bool} {before : β → β → Prop}
    (trans : ∀ a b c, le a b = true → le b c = true → le a c = true)
    (total : ∀ a b, (le a b || le b a) = true) {l : List β} (h : l.Pairwise before) :
    (l.mergeSort le).Pairwise fun a b => le a b = true ∧ (le b a = true → before a b) := by
  refine (List.pairwise_mergeSort trans total l).and ?_
  induction l with
  | nil =>
    rw [List.mergeSort_nil]
    exact .nil
  | cons a rest ih =>
    obtain ⟨ha, hrest⟩ := List.pairwise_cons.mp h
    -- The first item is put before the first one that is not below it.
    obtain ⟨l₁, l₂, hsorted, hrest', hbelow⟩ := List.mergeSort_cons trans total a rest
    have hmem : ∀ b ∈ l₁ ++ l₂, before a b := fun b hb =>
      ha b (List.mem_mergeSort.mp (hrest' ▸ hb))
    have hpairs := ih hrest
    rw [hrest', List.pairwise_append] at hpairs
    obtain ⟨hl₁, hl₂, hcross⟩ := hpairs
    rw [hsorted, List.pairwise_append, List.pairwise_cons]
    refine ⟨hl₁, ⟨fun b hb _ => hmem b (List.mem_append_right l₁ hb), hl₂⟩, ?_⟩
    intro b hb c hc hle
    rcases List.mem_cons.mp hc with rfl | hc
    · have hnot := hbelow b hb
      rw [hle] at hnot
      exact absurd hnot Bool.false_ne_true
    · exact hcross b hb c hc hle

/-! ### One score against another -/

/-- The first of two entries has the higher score in the total order, or the same score and the
earlier key. -/
def Beats {κ : Type} [Key κ] (a b : κ × Float32) : Prop :=
  Single.Below b.2 a.2 ∨ a.2 = b.2 ∧ a.1 < b.1

section

variable {κ : Type} [Key κ] {a b : κ × Float32}

theorem beats_iff (ha : a.2.isNaN = false) (hb : b.2.isNaN = false) :
    Beats a b ↔ Single.key b.2 < Single.key a.2 ∨
      Single.key a.2 = Single.key b.2 ∧ a.1 < b.1 := by
  have hsame : a.2 = b.2 ↔ Single.key a.2 = Single.key b.2 :=
    ⟨congrArg Single.key, Single.key_injective⟩
  rw [Beats, Single.key_lt_iff hb ha, hsame]

theorem Beats.asymm (ha : a.2.isNaN = false) (hb : b.2.isNaN = false) (h : Beats a b) :
    ¬ Beats b a := by
  rw [beats_iff ha hb] at h
  rw [beats_iff hb ha]
  rintro (hlt | ⟨heq, hkey⟩)
  · omega
  · rcases h with hlt | ⟨-, hkey'⟩
    · omega
    · exact Key.irrefl a.1 (Key.trans hkey' hkey)

/-- Whatever beats is at least as great in the order of numbers, too. -/
theorem Beats.le (ha : a.2.isNaN = false) (hb : b.2.isNaN = false) (h : Beats a b) :
    b.2 ≤ a.2 := by
  rw [Single.le_iff hb ha]
  rcases h with (hlt | ⟨hb', ha'⟩) | ⟨heq, -⟩
  · exact Int.le_of_lt ((Single.lt_iff hb ha).mp hlt)
  · calc Single.steps b.2 = Single.steps (-0.0) := congrArg _ hb'
      _ ≤ Single.steps 0.0 := by decide
      _ = Single.steps a.2 := congrArg _ ha'.symm
  · exact Int.le_of_eq (congrArg _ heq.symm)

end

namespace Scores

variable {s : Scores Float32}

def Numbers (s : Scores Float32) : Prop := ∀ x ∈ s.ofPattern.values, x.isNaN = false

theorem Numbers.entry (h : s.Numbers) {e : Pattern × Float32} (he : e ∈ s.ofPattern.entries) :
    e.2.isNaN = false :=
  h e.2 (List.mem_map_of_mem he)

theorem ranked_perm {α : Type} [Scale α] (s : Scores α) : s.ranked.Perm s.ofPattern.entries :=
  List.mergeSort_perm _ _

theorem orderLe_trans (x y z : Float32) (hxy : Scale.orderLe x y = true)
    (hyz : Scale.orderLe y z = true) : Scale.orderLe x z = true :=
  decide_eq_true (Int.le_trans (of_decide_eq_true hxy) (of_decide_eq_true hyz))

theorem orderLe_total (x y : Float32) : (Scale.orderLe x y || Scale.orderLe y x) = true := by
  rw [Bool.or_eq_true]
  exact (Int.le_total _ _).imp decide_eq_true decide_eq_true

/-- **Every pattern in the ranking beats those after it.** -/
theorem pairwise_ranked (h : s.Numbers) : s.ranked.Pairwise Beats := by
  have hstable : s.ranked.Pairwise fun a b => Scale.orderLe b.2 a.2 = true ∧
      (Scale.orderLe a.2 b.2 = true → a.1 < b.1) :=
    pairwise_mergeSort_stable (fun a b c hab hbc => orderLe_trans c.2 b.2 a.2 hbc hab)
      (fun a b => orderLe_total b.2 a.2) s.ofPattern.increasing
  refine hstable.imp_of_mem fun {a b} ha hb hab => ?_
  have ha' := h.entry (s.ranked_perm.mem_iff.mp ha)
  have hb' := h.entry (s.ranked_perm.mem_iff.mp hb)
  obtain ⟨hle, htie⟩ := hab
  rw [beats_iff ha' hb']
  rcases Int.lt_or_eq_of_le (of_decide_eq_true hle) with hlt | heq
  · exact .inl hlt
  · exact .inr ⟨heq.symm, htie (decide_eq_true (Int.le_of_eq heq.symm))⟩

/-! ### The best pattern -/

/-- The first entry of the ranking beats all others. -/
theorem head?_ranked (h : s.Numbers) {e : Pattern × Float32} (he : s.ranked.head? = some e) :
    e ∈ s.ofPattern.entries ∧ ∀ d ∈ s.ofPattern.entries, d = e ∨ Beats e d := by
  obtain ⟨rest, hranked⟩ := List.head?_eq_some_iff.mp he
  have hperm := s.ranked_perm
  have hpairs := pairwise_ranked h
  rw [hranked] at hperm hpairs
  refine ⟨hperm.mem_iff.mp List.mem_cons_self, fun d hd => ?_⟩
  rcases List.mem_cons.mp (hperm.mem_iff.mpr hd) with rfl | hd
  · exact .inl rfl
  · exact .inr (List.rel_of_pairwise_cons hpairs hd)

theorem primary?_eq_some {e : Pattern × Float32} :
    s.primary? = some e ↔ s.ranked.head? = some e ∧ 0 < e.2 := by
  rw [primary?, Option.filter_eq_some_iff]
  exact and_congr_right fun _ => decide_eq_true_iff

theorem isEmpty_iff : s.isEmpty = true ↔ ∀ x ∈ s.ofPattern.values, x ≤ 0 := by
  rw [isEmpty, List.all_eq_true]
  exact forall₂_congr fun _ _ => decide_eq_true_iff

/-- There is no best pattern exactly if no score is above zero. -/
theorem primary?_eq_none_iff (h : s.Numbers) : s.primary? = none ↔ s.isEmpty = true := by
  rw [isEmpty_iff, Option.eq_none_iff_forall_ne_some]
  constructor
  · intro hnone x hx
    obtain ⟨d, hd, rfl⟩ := List.mem_map.mp hx
    cases hhead : s.ranked.head? with
    | none =>
      rw [List.head?_eq_none_iff] at hhead
      exact absurd (hhead ▸ s.ranked_perm.mem_iff.mpr hd) List.not_mem_nil
    | some e =>
      obtain ⟨he, hbest⟩ := head?_ranked h hhead
      have hle : e.2 ≤ 0 := (Single.not_lt_iff rfl (h.entry he)).mp fun hlt =>
        hnone e (primary?_eq_some.mpr ⟨hhead, hlt⟩)
      rcases hbest d hd with rfl | hbeats
      · exact hle
      · have hle' := hbeats.le (h.entry he) (h.entry hd)
        rw [Single.le_iff (h.entry hd) rfl]
        rw [Single.le_iff (h.entry he) rfl] at hle
        rw [Single.le_iff (h.entry hd) (h.entry he)] at hle'
        exact Int.le_trans hle' hle
  · intro hle e he
    obtain ⟨hhead, hlt⟩ := primary?_eq_some.mp he
    have hmem := (head?_ranked h hhead).1
    exact (Single.not_lt_iff rfl (h.entry hmem)).mpr (hle e.2 (List.mem_map_of_mem hmem)) hlt

/-- The best pattern has the greatest score, and is the first one that has it. -/
theorem primary?_eq_some_iff (h : s.Numbers) {e : Pattern × Float32} :
    s.primary? = some e ↔ 0 < e.2 ∧ e ∈ s.ofPattern.entries ∧
      ∀ d ∈ s.ofPattern.entries, d.2 ≤ e.2 ∧ (d.2 = e.2 → d.1 = e.1 ∨ e.1.rank < d.1.rank) := by
  rw [primary?_eq_some]
  constructor
  · rintro ⟨hhead, hpositive⟩
    obtain ⟨he, hbest⟩ := head?_ranked h hhead
    refine ⟨hpositive, he, fun d hd => ?_⟩
    rcases hbest d hd with rfl | hbeats
    · exact ⟨(Single.le_iff (h.entry hd) (h.entry hd)).mpr (Int.le_refl _), fun _ => .inl rfl⟩
    · refine ⟨hbeats.le (h.entry he) (h.entry hd), fun hsame => .inr ?_⟩
      rcases (beats_iff (h.entry he) (h.entry hd)).mp hbeats with hlt | ⟨-, hfirst⟩
      · rw [hsame] at hlt
        exact absurd hlt (Int.lt_irrefl _)
      · exact hfirst
  · rintro ⟨hpositive, he, hbest⟩
    refine ⟨?_, hpositive⟩
    cases hhead : s.ranked.head? with
    | none =>
      rw [List.head?_eq_none_iff] at hhead
      exact absurd (hhead ▸ s.ranked_perm.mem_iff.mpr he) List.not_mem_nil
    | some d =>
      obtain ⟨hd, hfirst⟩ := head?_ranked h hhead
      obtain ⟨hle, htie⟩ := hbest d hd
      rcases hfirst e he with rfl | (hlt | ⟨hzero, -⟩) | ⟨hsame, hkey⟩
      · rfl
      · exact absurd hle ((Single.not_le_iff (h.entry hd) (h.entry he)).mpr hlt)
      · rw [hzero] at hpositive
        exact absurd hpositive (by decide)
      · rcases htie hsame with hpattern | hrank
        · exact absurd (hpattern ▸ hkey) (Nat.lt_irrefl _)
        · exact absurd hrank (Nat.lt_asymm hkey)

/-- **Ranking, best pattern and emptiness agree, for all scores that are numbers.**  The ranking has
every entry once, the higher scores first in the total order of single precision and identical ones
as they are declared.  There is no best pattern exactly if no score is above zero in the order of
numbers; otherwise it is the first one with the greatest score. -/
theorem ranked_exact (s : Scores Float32) (h : ∀ x ∈ s.ofPattern.values, x.isNaN = false) :
    (s.ranked.Perm s.ofPattern.entries ∧ s.ranked.Pairwise Beats) ∧
      (s.primary? = none ↔ s.isEmpty = true) ∧
      (s.isEmpty = true ↔ ∀ x ∈ s.ofPattern.values, x ≤ 0) ∧
      ∀ p x, s.primary? = some (p, x) ↔
        0 < x ∧ (p, x) ∈ s.ofPattern.entries ∧
          ∀ q y, (q, y) ∈ s.ofPattern.entries → y ≤ x ∧ (y = x → q = p ∨ p.rank < q.rank) := by
  refine ⟨⟨s.ranked_perm, pairwise_ranked h⟩, primary?_eq_none_iff h, isEmpty_iff, fun p x => ?_⟩
  rw [primary?_eq_some_iff h, Prod.forall]

/-- Both zeros, an infinity below them, and two patterns with the same score above them. -/
theorem ranked_exact_tie :
    ∃ s : Scores Float32, s.ofPattern.entries =
        [(.rag, 0.0), (.agent, -0.0), (.tool, 0.5), (.workflow, 0.5), (.mapReduce, -1.0 / 0.0)] ∧
      (∀ x ∈ s.ofPattern.values, x.isNaN = false) ∧ s.ranked.Pairwise Beats ∧
        s.isEmpty = false ∧ s.primary? = some (.tool, 0.5) := by
  let s : Scores Float32 := ⟨⟨[(.rag, 0.0), (.agent, -0.0), (.tool, 0.5), (.workflow, 0.5),
    (.mapReduce, -1.0 / 0.0)], by unfold Increasing; decide⟩⟩
  have h : ∀ x ∈ s.ofPattern.values, x.isNaN = false := by decide +kernel
  obtain ⟨⟨-, hranked⟩, hnone, -, hsome⟩ := ranked_exact s h
  have hfirst : ∀ d ∈ s.ofPattern.entries,
      d.2 ≤ 0.5 ∧ (d.2 = 0.5 → d.1 = .tool ∨ Pattern.tool.rank < d.1.rank) := by
    decide +kernel
  have hprimary : s.primary? = some (.tool, 0.5) :=
    (hsome .tool 0.5).mpr ⟨by decide +kernel, by simp [s], fun q y => hfirst (q, y)⟩
  refine ⟨s, rfl, h, hranked, ?_, hprimary⟩
  rw [← Bool.not_eq_true, ← hnone, hprimary]
  exact Option.some_ne_none _

end Scores

end AgentFlow

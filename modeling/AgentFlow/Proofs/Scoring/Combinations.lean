import AgentFlow.Proofs.Recommendation.Patterns
import AgentFlow.Proofs.Scoring.Exact
import Mathlib.Tactic.Linarith
import Mathlib.Tactic.Ring

/-!
# Scores and combinations

The scores of patterns are found in rounds.  First the evidence is normalized, then conflicts damp
some of the scores, then synergies raise some of those that are left, and at last the pairs of
strong patterns are looked up in the result.  A pattern is strong or not at several times on this
way, and the rounds agree about it as far as scores are exact.

* `Scorer.value_damped_of_yields`, `Scorer.get_damped_of_not_yields`: **a conflict damps the weaker
  pattern and no other.**
* `Scorer.value_score`: **the score of a pattern is what it kept with its bonuses, capped at one.**
* `Scorer.strong_score`: bonuses make no pattern strong, and leave every strong one strong.
* `Scorer.mem_combinations_iff`: the combinations of strong patterns with their keys.
* `Scorer.score_agrees`: **the combinations agree with the scores.**
-/

namespace AgentFlow

open Data

variable {α K : Type}

/-! ### Changed scores -/

namespace Scores

variable (s : Scores α) (p x : Pattern) (f : α → α)

theorem get?_adjust :
    (s.adjust p f).ofPattern.get? x =
      if x = p then (s.ofPattern.get? p).map f else s.ofPattern.get? x := by
  rw [adjust]
  split
  · next v hv =>
    split
    · next h => rw [h, SortedMap.get?_insert_self, hv, Option.map_some]
    · next h => exact SortedMap.get?_insert_of_ne _ h _
  · next hv =>
    split
    · next h => rw [h, hv, Option.map_none]
    · rfl

@[simp] theorem isSome_adjust :
    ((s.adjust p f).ofPattern.get? x).isSome = (s.ofPattern.get? x).isSome := by
  rw [get?_adjust]
  split
  · next h => rw [h, Option.isSome_map]
  · rfl

variable [Scale α]

theorem get_adjust_of_ne {p x : Pattern} (h : x ≠ p) : (s.adjust p f).get x = s.get x := by
  rw [get, get?_adjust, if_neg h, ← get]

theorem get_adjust_self {p : Pattern} (h : (s.ofPattern.get? p).isSome = true) :
    (s.adjust p f).get p = f (s.get p) := by
  obtain ⟨v, hv⟩ := Option.isSome_iff_exists.mp h
  rw [get, get, get?_adjust, if_pos rfl, hv]
  rfl

theorem get_eq_zero (h : (s.ofPattern.get? p).isSome = false) : s.get p = Scale.zero := by
  rw [get, Option.isSome_eq_false_iff.mp h |> Option.isNone_iff_eq_none.mp, Option.getD_none]

end Scores

/-! ### Pairs of patterns -/

theorem mem_patternPairs {p q : Pattern} :
    (p, q) ∈ patternPairs ↔ p ∈ Pattern.base ∧ q ∈ Pattern.base ∧ p.rank < q.rank := by
  simp [patternPairs]

theorem ne_of_mem_patternPairs {p q : Pattern} (h : (p, q) ∈ patternPairs) : p ≠ q := by
  rintro rfl
  exact Nat.lt_irrefl _ (mem_patternPairs.mp h).2.2

/-- Patterns that compose well do not exclude each other. -/
theorem isConflict_of_isSynergy {p q : Pattern} (h : isSynergy p q = true) :
    isConflict p q = false := by
  revert h
  cases p <;> cases q <;> decide

theorem isConflict_comm (p q : Pattern) : isConflict p q = isConflict q p := listsPair_comm _ p q

theorem isConflict_cases {p q : Pattern} (h : isConflict p q = true) :
    (p, q) = (.agent, .mapReduce) ∨ (p, q) = (.mapReduce, .agent) ∨
      (p, q) = (.workflow, .multiAgent) ∨ (p, q) = (.multiAgent, .workflow) := by
  revert h
  cases p <;> cases q <;> decide

/-- The pairs that are tried for a conflict and are in one. -/
theorem filter_isConflict : (patternPairs.filter fun pair => isConflict pair.1 pair.2) =
    [(.agent, .mapReduce), (.workflow, .multiAgent)] := by
  decide

theorem Pattern.plus_notMem_name (p : Pattern) : '+' ∉ p.name.toList := by
  cases p <;> decide

/-- The key of a combination tells its patterns. -/
theorem Combination.patterns_of_key {c d : Combination α} (hc : c.patterns ≠ [])
    (hd : d.patterns ≠ []) (h : c.key = d.key) : c.patterns = d.patterns := by
  have hpieces : ∀ ps : List Pattern, ps ≠ [] →
      ("+".intercalate (ps.map (·.name))).toList.splitOn '+' = ps.map (·.name.toList) := by
    intro ps hps
    rw [String.toList_intercalate, List.map_map]
    refine List.splitOn_intercalate '+' ?_ (by simpa using hps)
    intro l hl
    obtain ⟨p, -, rfl⟩ := List.mem_map.mp hl
    exact p.plus_notMem_name
  have heq := hpieces c.patterns hc
  rw [show "+".intercalate (c.patterns.map (·.name)) = d.key from h, Combination.key,
    hpieces d.patterns hd] at heq
  exact ((List.map_inj_right fun p q hpq =>
    Pattern.name_injective (String.toList_inj.mp hpq)).mp heq).symm

namespace Scorer

variable [Scale α] (r : Scorer α) (s : Scores α)

/-! ### The combinations of strong patterns -/

theorem combine?_eq_some_iff {p q : Pattern} {c : Combination α} :
    r.combine? s (p, q) = some c ↔ r.strong s p = true ∧ r.strong s q = true ∧
      isConflict p q = false ∧ c = ⟨[p, q], Scale.min (s.get p) (s.get q), isSynergy p q⟩ := by
  rw [combine?]
  split
  · next h =>
    simp only [Bool.and_eq_true, Bool.not_eq_true'] at h
    simp [h, eq_comm]
  · next h =>
    simp only [Bool.and_eq_true, Bool.not_eq_true'] at h
    refine iff_of_false (Option.some_ne_none c).symm fun hc => h ?_
    exact ⟨⟨hc.1, hc.2.1⟩, hc.2.2.1⟩

/-- A pair of strong patterns is found under its own key. -/
theorem mem_combinations_iff {k : String} {c : Combination α} :
    (k, c) ∈ (r.combinations s).entries ↔
      k = c.key ∧ ∃ p q, (p, q) ∈ patternPairs ∧ r.combine? s (p, q) = some c := by
  have hlisted : ∀ d, (∃ p q, (p, q) ∈ patternPairs ∧ r.combine? s (p, q) = some d) ↔
      (d.key, d) ∈ (patternPairs.filterMap (r.combine? s)).map fun c => (c.key, c) := by
    intro d
    simp only [List.mem_map, List.mem_filterMap, Prod.exists, Prod.mk.injEq, existsAndEq, and_true]
  constructor
  · intro h
    obtain ⟨d, hd, heq⟩ := List.mem_map.mp (SortedMap.mem_of_mem_ofList h)
    obtain ⟨rfl, rfl⟩ := Prod.mk.inj heq
    exact ⟨rfl, (hlisted d).mpr (List.mem_map.mpr ⟨d, hd, rfl⟩)⟩
  · rintro ⟨rfl, p, q, hpq, hc⟩
    have hkeys := SortedMap.mem_keys_ofList.mpr
      (List.mem_map_of_mem (f := (·.1)) ((hlisted c).mp ⟨p, q, hpq, hc⟩))
    obtain ⟨⟨k, d⟩, hd, rfl⟩ := List.mem_map.mp hkeys
    obtain ⟨e, he, heq⟩ := List.mem_map.mp (SortedMap.mem_of_mem_ofList hd)
    obtain ⟨hkey, rfl⟩ := Prod.mk.inj heq
    obtain ⟨⟨p', q'⟩, hpq', he⟩ := List.mem_filterMap.mp he
    obtain ⟨-, -, -, hform⟩ := (r.combine?_eq_some_iff s).mp hc
    obtain ⟨-, -, -, hform'⟩ := (r.combine?_eq_some_iff s).mp he
    -- Two pairs with one key are the same pair, so the entry was not replaced.
    have hsame : e.patterns = c.patterns :=
      Combination.patterns_of_key (by simp [hform']) (by simp [hform]) hkey
    rw [hform, hform'] at hsame
    simp only [List.cons.injEq, and_true] at hsame
    obtain ⟨rfl, rfl⟩ := hsame
    obtain rfl : c = e := hform.trans hform'.symm
    exact hd

/-! ### Conflicts -/

def damping (x : α) : α := Scale.mul x conflictDamping

/-- Two strong patterns exclude each other, and the first one has the lower score, or is the later
one of two patterns with the same score. -/
def Yields [Field K] [LinearOrder K] (value : α → K) (p q : Pattern) : Prop :=
  isConflict p q = true ∧ r.strong s p = true ∧ r.strong s q = true ∧
    (value (s.get p) < value (s.get q) ∨ value (s.get p) = value (s.get q) ∧ q.rank < p.rank)

theorem get_damp_of_ne {p q x : Pattern} (hp : x ≠ p) (hq : x ≠ q) :
    (r.damp s (p, q)).get x = s.get x := by
  rw [damp]
  simp only
  split
  · split
    · exact s.get_adjust_of_ne _ hq
    · exact s.get_adjust_of_ne _ hp
  · rfl

@[simp] theorem isSome_damp (pair : Pattern × Pattern) (x : Pattern) :
    ((r.damp s pair).ofPattern.get? x).isSome = (s.ofPattern.get? x).isSome := by
  rw [damp]
  simp only
  split
  · exact s.isSome_adjust _ _ _
  · rfl

section Exact

variable [Field K] [LinearOrder K] {value : α → K}

/-- **A conflict damps the pattern that yields, if one does.** -/
theorem damp_cases (hv : Scale.Exact value) {p q : Pattern} (h : p.rank < q.rank) :
    (r.Yields s value p q ∧ ¬ r.Yields s value q p ∧ r.damp s (p, q) = s.adjust p damping) ∨
    (r.Yields s value q p ∧ ¬ r.Yields s value p q ∧ r.damp s (p, q) = s.adjust q damping) ∨
    (¬ r.Yields s value p q ∧ ¬ r.Yields s value q p ∧ r.damp s (p, q) = s) := by
  rw [damp]
  simp only
  split
  · next hboth =>
    simp only [Bool.and_eq_true] at hboth
    obtain ⟨⟨hconflict, hp⟩, hq⟩ := hboth
    have hconflict' : isConflict q p = true := isConflict_comm p q ▸ hconflict
    split
    · next hle =>
      rw [hv.le_iff] at hle
      refine .inr (.inl ⟨⟨hconflict', hq, hp, ?_⟩, ?_, rfl⟩)
      · exact hle.lt_or_eq.imp id fun heq => ⟨heq, h⟩
      · rintro ⟨-, -, -, hlt | ⟨-, hrank⟩⟩
        · exact absurd hle (not_le.mpr hlt)
        · exact absurd h (Nat.lt_asymm hrank)
    · next hle =>
      rw [hv.le_iff, not_le] at hle
      refine .inl ⟨⟨hconflict, hp, hq, .inl hle⟩, ?_, rfl⟩
      rintro ⟨-, -, -, hlt | ⟨heq, -⟩⟩
      · exact absurd hle (lt_asymm hlt)
      · exact absurd heq hle.ne'
  · next hboth =>
    simp only [Bool.and_eq_true] at hboth
    refine .inr (.inr ⟨?_, ?_, rfl⟩)
    · rintro ⟨hconflict, hp, hq, -⟩
      exact hboth ⟨⟨hconflict, hp⟩, hq⟩
    · rintro ⟨hconflict, hq, hp, -⟩
      exact hboth ⟨⟨isConflict_comm p q ▸ hconflict, hp⟩, hq⟩

open Classical in
/-- What a conflict leaves of the scores of its two patterns. -/
theorem get_damp (hv : Scale.Exact value) {p q : Pattern} (h : p.rank < q.rank)
    (hp : (s.ofPattern.get? p).isSome = true) (hq : (s.ofPattern.get? q).isSome = true) :
    (r.damp s (p, q)).get p =
        (if r.Yields s value p q then damping (s.get p) else s.get p) ∧
      (r.damp s (p, q)).get q =
        (if r.Yields s value q p then damping (s.get q) else s.get q) := by
  have hne : p ≠ q := fun heq => Nat.lt_irrefl _ (heq ▸ h)
  rcases r.damp_cases s hv h with ⟨hyes, hno, heq⟩ | ⟨hyes, hno, heq⟩ | ⟨hno, hno', heq⟩
  · rw [heq, if_pos hyes, if_neg hno]
    exact ⟨s.get_adjust_self _ hp, s.get_adjust_of_ne _ hne.symm⟩
  · rw [heq, if_neg hno, if_pos hyes]
    exact ⟨s.get_adjust_of_ne _ hne, s.get_adjust_self _ hq⟩
  · rw [heq, if_neg hno, if_neg hno']
    exact ⟨rfl, rfl⟩

/-- Who yields depends on the two scores only. -/
theorem yields_congr {t : Scores α} {p q : Pattern} (hp : s.get p = t.get p)
    (hq : s.get q = t.get q) : r.Yields s value p q ↔ r.Yields t value p q := by
  rw [Yields, Yields, strong, strong, strong, strong, hp, hq]

end Exact

/-! ### All conflicts -/

variable (a : Analysis)

theorem get_plain {p : Pattern} (h : p.isBase = true) :
    (r.plain a).get p = r.normalize (a.rawScore p) := by
  cases p <;> first | rfl | exact absurd h (by decide)

omit [Scale α] in
theorem isSome_plain (p : Pattern) : ((r.plain a).ofPattern.get? p).isSome = p.isBase := by
  cases p <;> rfl

theorem isSome_damped (p : Pattern) : ((r.damped a).ofPattern.get? p).isSome = p.isBase := by
  rw [damped, ← r.isSome_plain a]
  generalize r.plain a = s
  induction patternPairs generalizing s with
  | nil => rfl
  | cons pair rest ih => rw [List.foldl_cons, ih, isSome_damp]

theorem damped_eq :
    r.damped a = r.damp (r.damp (r.plain a) (.agent, .mapReduce)) (.workflow, .multiAgent) := by
  have hfilter : patternPairs.foldl r.damp (r.plain a) =
      (patternPairs.filter fun pair => isConflict pair.1 pair.2).foldl r.damp (r.plain a) := by
    rw [List.foldl_filter]
    congr 1
    funext s pair
    by_cases h : isConflict pair.1 pair.2 = true
    · rw [if_pos h]
    · rw [if_neg h, damp]
      simp [h]
  rw [damped, hfilter, filter_isConflict]
  rfl

theorem get_damped_of_no_conflict {p : Pattern} (h : ∀ q, isConflict p q = false) :
    (r.damped a).get p = (r.plain a).get p := by
  have hne : p ≠ .agent ∧ p ≠ .mapReduce ∧ p ≠ .workflow ∧ p ≠ .multiAgent := by
    refine ⟨?_, ?_, ?_, ?_⟩ <;> rintro rfl
    · exact absurd (h .mapReduce) (by decide)
    · exact absurd (h .agent) (by decide)
    · exact absurd (h .multiAgent) (by decide)
    · exact absurd (h .workflow) (by decide)
  rw [damped_eq, get_damp_of_ne _ _ hne.2.2.1 hne.2.2.2, get_damp_of_ne _ _ hne.1 hne.2.1]

section Exact

variable [Field K] [LinearOrder K] {value : α → K}

open Classical in
/-- The two conflicts have no pattern in common, so each of them is decided by plain scores. -/
theorem get_damped (hv : Scale.Exact value) {p q : Pattern} (h : isConflict p q = true) :
    (r.damped a).get p =
      if r.Yields (r.plain a) value p q then damping ((r.plain a).get p)
      else (r.plain a).get p := by
  have hfirst := r.get_damp (r.plain a) hv (p := .agent) (q := .mapReduce) (by decide)
    (r.isSome_plain a _) (r.isSome_plain a _)
  have hkept : ∀ x, x ≠ .agent → x ≠ .mapReduce →
      (r.damp (r.plain a) (.agent, .mapReduce)).get x = (r.plain a).get x :=
    fun x => r.get_damp_of_ne _
  have hsecond := r.get_damp (r.damp (r.plain a) (.agent, .mapReduce)) hv
    (p := .workflow) (q := .multiAgent) (by decide)
    (by rw [isSome_damp, isSome_plain]; rfl) (by rw [isSome_damp, isSome_plain]; rfl)
  rw [r.yields_congr _ (hkept .workflow (by decide) (by decide))
      (hkept .multiAgent (by decide) (by decide)),
    r.yields_congr _ (hkept .multiAgent (by decide) (by decide))
      (hkept .workflow (by decide) (by decide)), hkept .workflow (by decide) (by decide),
    hkept .multiAgent (by decide) (by decide)] at hsecond
  rw [damped_eq]
  rcases isConflict_cases h with h | h | h | h <;> obtain ⟨rfl, rfl⟩ := Prod.mk.inj h
  · rw [get_damp_of_ne _ _ (by decide) (by decide), hfirst.1]
  · rw [get_damp_of_ne _ _ (by decide) (by decide), hfirst.2]
  · exact hsecond.1
  · exact hsecond.2

/-- **A pattern that yields is damped.** -/
theorem value_damped_of_yields (hv : Scale.Exact value) {p q : Pattern}
    (h : r.Yields (r.plain a) value p q) :
    value ((r.damped a).get p) = value ((r.plain a).get p) * (85 / 100) := by
  rw [r.get_damped a hv h.1, if_pos h, damping, hv.mul, conflictDamping, hv.hundredths]
  norm_num

/-- **A pattern that yields to none keeps its score.** -/
theorem get_damped_of_not_yields (hv : Scale.Exact value) {p : Pattern}
    (h : ∀ q, ¬ r.Yields (r.plain a) value p q) : (r.damped a).get p = (r.plain a).get p := by
  by_cases hq : ∃ q, isConflict p q = true
  · obtain ⟨q, hq⟩ := hq
    rw [r.get_damped a hv hq, if_neg (h q)]
  · refine r.get_damped_of_no_conflict a fun q => ?_
    rw [← Bool.not_eq_true]
    exact fun hpq => hq ⟨q, hpq⟩

end Exact

/-! ### Bonuses -/

/-- The pairs of patterns that give each other a bonus: they compose well, and both are strong. -/
def bonusPairs : List (Pattern × Pattern) :=
  patternPairs.filter fun (p, q) => isSynergy p q && r.strong s p && r.strong s q

def bonuses (p : Pattern) : Nat :=
  (r.bonusPairs s).countP fun pair => pair.1 == p || pair.2 == p

theorem mem_bonusPairs {p q : Pattern} :
    (p, q) ∈ r.bonusPairs s ↔ (p, q) ∈ patternPairs ∧ isSynergy p q = true ∧
      r.strong s p = true ∧ r.strong s q = true := by
  simp [bonusPairs, and_assoc]

theorem count_raised (p : Pattern) : (r.raised s).count p = r.bonuses s p := by
  have hcount : ∀ pairs : List (Pattern × Pattern), (∀ e ∈ pairs, e.1 ≠ e.2) →
      (pairs.flatMap fun (p, q) => [p, q]).count p =
        pairs.countP fun pair => pair.1 == p || pair.2 == p := by
    intro pairs hne
    induction pairs with
    | nil => rfl
    | cons e rest ih =>
      obtain ⟨x, y⟩ := e
      have hxy : x ≠ y := hne (x, y) List.mem_cons_self
      rw [List.flatMap_cons, List.count_append, List.countP_cons,
        ih fun e he => hne e (List.mem_cons_of_mem _ he), Nat.add_comm]
      congr 1
      by_cases hx : x = p
      · have hy : y ≠ p := fun h => hxy (hx.trans h.symm)
        simp [hx, hy]
      · by_cases hy : y = p <;> simp [hx, hy]
  refine hcount (r.bonusPairs s) ?_
  rintro ⟨x, y⟩ he
  exact ne_of_mem_patternPairs ((r.mem_bonusPairs s).mp he).1

theorem bonuses_of_not_strong {p : Pattern} (h : r.strong s p = false) : r.bonuses s p = 0 := by
  rw [bonuses, List.countP_eq_zero]
  rintro ⟨x, y⟩ he
  obtain ⟨-, -, hx, hy⟩ := (r.mem_bonusPairs s).mp he
  simp only [Bool.or_eq_true, beq_iff_eq]
  rintro (rfl | rfl)
  · exact absurd hx (by simp [h])
  · exact absurd hy (by simp [h])

omit r in
theorem get_foldl_raise_of_notMem {ps : List Pattern} {p : Pattern} (h : p ∉ ps) :
    (ps.foldl (fun s p => s.adjust p raise) s).get p = s.get p := by
  induction ps generalizing s with
  | nil => rfl
  | cons q rest ih =>
    rw [List.mem_cons, not_or] at h
    rw [List.foldl_cons, ih _ h.2, s.get_adjust_of_ne _ h.1]

section Exact

variable [Field K] [LinearOrder K] {value : α → K}

theorem strong_iff (hv : Scale.Exact value) {p : Pattern} :
    r.strong s p = true ↔ value r.threshold < value (s.get p) := hv.lt_iff _ _

variable [IsStrictOrderedRing K]

omit r in
/-- Bonuses one after another: none is lost before the score reaches one. -/
theorem value_foldl_raise (hv : Scale.Exact value) {ps : List Pattern} {p : Pattern}
    (hp : p ∈ ps → (s.ofPattern.get? p).isSome = true) (hone : value (s.get p) ≤ 1) :
    value ((ps.foldl (fun s p => s.adjust p raise) s).get p) =
      min 1 (value (s.get p) + ps.count p * (5 / 100)) := by
  induction ps generalizing s with
  | nil => simp [hone]
  | cons q rest ih =>
    have hrest : p ∈ rest → ((s.adjust q raise).ofPattern.get? p).isSome = true := by
      intro h
      rw [s.isSome_adjust]
      exact hp (List.mem_cons_of_mem _ h)
    rw [List.foldl_cons]
    by_cases h : p = q
    · subst h
      have hraise : value ((s.adjust p raise).get p) = min (value (s.get p) + 5 / 100) 1 := by
        rw [s.get_adjust_self _ (hp List.mem_cons_self), raise, hv.min, hv.add, hv.one,
          synergyBonus, hv.hundredths]
        norm_num
      have hmore : (0 : K) ≤ (rest.count p : K) * (5 / 100) := by positivity
      rw [ih _ hrest (hraise ▸ min_le_right _ _), hraise, List.count_cons_self, Nat.cast_add,
        Nat.cast_one]
      rcases le_total (value (s.get p) + 5 / 100) 1 with hle | hle
      · rw [min_eq_left hle]
        congr 1
        ring
      · rw [min_eq_right hle, min_eq_left (by linarith), min_eq_left (by linarith)]
    · rw [ih _ hrest (by rwa [s.get_adjust_of_ne _ h]), s.get_adjust_of_ne _ h,
        List.count_cons_of_ne (Ne.symm h)]

end Exact

/-! ### Final scores -/

/-- A pattern that is not strong after the conflicts keeps its score. -/
theorem get_score_of_not_strong {p : Pattern} (h : r.strong (r.damped a) p = false) :
    (r.score a).get p = (r.damped a).get p := by
  refine get_foldl_raise_of_notMem _ ?_
  rw [← List.count_eq_zero, count_raised]
  exact r.bonuses_of_not_strong _ h

theorem isSome_score (p : Pattern) : ((r.score a).ofPattern.get? p).isSome = p.isBase := by
  rw [score, ← r.isSome_damped a]
  generalize r.damped a = s
  induction r.raised s generalizing s with
  | nil => rfl
  | cons q rest ih => rw [List.foldl_cons, ih, s.isSome_adjust]

section Exact

variable [Field K] [LinearOrder K] [IsStrictOrderedRing K] {value : α → K}

/-- What the scores of the patterns and the combinations of them say about each other. -/
structure Agrees (value : α → K) : Prop where
  /-- The base patterns have scores, and only they. -/
  scored : ∀ p, ((r.score a).ofPattern.get? p).isSome = p.isBase
  bounded : ∀ e ∈ (r.score a).ofPattern.entries, 0 ≤ value e.2 ∧ value e.2 ≤ 1
  normalized : ∀ p, p.isBase = true → (r.plain a).get p = r.normalize (a.rawScore p)
  /-- A pattern that is weaker than one that it excludes is damped, if both are strong. -/
  yields : ∀ p q, r.Yields (r.plain a) value p q →
    value ((r.damped a).get p) = value ((r.plain a).get p) * (85 / 100)
  /-- No other pattern is damped. -/
  holds : ∀ p, (∀ q, ¬ r.Yields (r.plain a) value p q) → (r.damped a).get p = (r.plain a).get p
  /-- What is left is raised by five hundredths for each bonus, up to one. -/
  raised : ∀ p, value ((r.score a).get p) =
    min 1 (value ((r.damped a).get p) + r.bonuses (r.damped a) p * (5 / 100))
  kept : ∀ p, r.strong (r.damped a) p = false → (r.score a).get p = (r.damped a).get p
  /-- The known combinations are of the patterns that gave each other a bonus. -/
  known : ∀ p q, (∃ c ∈ (r.combinations (r.score a)).values,
    c.knownHybrid = true ∧ c.patterns = [p, q]) ↔ (p, q) ∈ r.bonusPairs (r.damped a)
  /-- A combination is of a pair that is not in conflict.  It is found under the names of the two
  patterns, and it is as strong as the weaker one. -/
  stored : ∀ k c, (k, c) ∈ (r.combinations (r.score a)).entries → ∃ p q,
    (p, q) ∈ patternPairs ∧ isConflict p q = false ∧ k = p.name ++ "+" ++ q.name ∧
      c.patterns = [p, q] ∧
        value c.strength = min (value ((r.score a).get p)) (value ((r.score a).get q))

variable (hv : Scale.Exact value)
  (hn : ∀ x, 0 ≤ value (r.normalize x) ∧ value (r.normalize x) ≤ 1)

include hv hn

theorem value_plain (p : Pattern) :
    0 ≤ value ((r.plain a).get p) ∧ value ((r.plain a).get p) ≤ 1 := by
  by_cases hp : p.isBase = true
  · rw [r.get_plain a hp]
    exact hn _
  · rw [Scores.get_eq_zero _ p (by rw [r.isSome_plain]; simpa using hp), hv.zero]
    exact ⟨le_rfl, zero_le_one⟩

theorem value_damped (p : Pattern) :
    0 ≤ value ((r.damped a).get p) ∧ value ((r.damped a).get p) ≤ 1 := by
  obtain ⟨hzero, hone⟩ := r.value_plain a hv hn p
  by_cases h : ∃ q, r.Yields (r.plain a) value p q
  · obtain ⟨q, hq⟩ := h
    rw [r.value_damped_of_yields a hv hq]
    constructor <;> linarith
  · rw [r.get_damped_of_not_yields a hv fun q hq => h ⟨q, hq⟩]
    exact ⟨hzero, hone⟩

/-- **The score of a pattern is what it kept, with its bonuses, capped at one.** -/
theorem value_score (p : Pattern) :
    value ((r.score a).get p) =
      min 1 (value ((r.damped a).get p) + r.bonuses (r.damped a) p * (5 / 100)) := by
  rw [← count_raised]
  refine value_foldl_raise _ hv ?_ (r.value_damped a hv hn p).2
  intro hp
  -- Only patterns of the pairs are raised, and they all have a score.
  rw [isSome_damped, Pattern.isBase_iff_mem]
  obtain ⟨⟨x, y⟩, he, hxy⟩ := List.mem_flatMap.mp hp
  obtain ⟨hx, hy, -⟩ := mem_patternPairs.mp (List.mem_filter.mp he).1
  simp only [List.mem_cons, List.not_mem_nil, or_false] at hxy
  rcases hxy with rfl | rfl
  · exact hx
  · exact hy

/-- **Bonuses make no pattern strong,** and every strong pattern stays strong. -/
theorem strong_score (p : Pattern) :
    r.strong (r.score a) p = r.strong (r.damped a) p := by
  cases h : r.strong (r.damped a) p with
  | false =>
    rw [strong, r.get_score_of_not_strong a h]
    exact h
  | true =>
    have hlt := (r.strong_iff _ hv).mp h
    have hone := (r.value_damped a hv hn p).2
    have hmore : (0 : K) ≤ r.bonuses (r.damped a) p * (5 / 100) := by positivity
    rw [strong_iff _ _ hv, r.value_score a hv hn]
    exact lt_min (hlt.trans_le hone) (by linarith)

/-- **The combinations agree with the scores,** for every analysis and every threshold. -/
theorem score_agrees : r.Agrees a value where
  scored := r.isSome_score a
  bounded := by
    intro e he
    have hget : (r.score a).get e.1 = e.2 := by
      rw [Scores.get, (SortedMap.get?_eq_some_iff _ _ _).mpr he, Option.getD_some]
    rw [← hget, r.value_score a hv hn]
    have hmore : (0 : K) ≤ r.bonuses (r.damped a) e.1 * (5 / 100) := by positivity
    have hzero := (r.value_damped a hv hn e.1).1
    exact ⟨le_min zero_le_one (by linarith), min_le_left _ _⟩
  normalized p := r.get_plain a
  yields p q := r.value_damped_of_yields a hv
  holds p := r.get_damped_of_not_yields a hv
  raised := r.value_score a hv hn
  kept p := r.get_score_of_not_strong a
  known p q := by
    rw [mem_bonusPairs, ← r.strong_score a hv hn, ← r.strong_score a hv hn]
    constructor
    · rintro ⟨c, hc, hknown, hpatterns⟩
      obtain ⟨⟨k, d⟩, hd, rfl⟩ := List.mem_map.mp hc
      obtain ⟨-, p', q', hpq, hd⟩ := (r.mem_combinations_iff _).mp hd
      obtain ⟨hp, hq, -, rfl⟩ := (r.combine?_eq_some_iff _).mp hd
      simp only [List.cons.injEq, and_true] at hpatterns
      obtain ⟨rfl, rfl⟩ := hpatterns
      exact ⟨hpq, hknown, hp, hq⟩
    · rintro ⟨hpq, hsynergy, hp, hq⟩
      have hc := (r.combine?_eq_some_iff _).mpr
        ⟨hp, hq, isConflict_of_isSynergy hsynergy, rfl⟩
      have hmem := (r.mem_combinations_iff _).mpr ⟨rfl, p, q, hpq, hc⟩
      exact ⟨_, List.mem_map_of_mem hmem, hsynergy, rfl⟩
  stored k c h := by
    obtain ⟨rfl, p, q, hpq, hc⟩ := (r.mem_combinations_iff _).mp h
    obtain ⟨-, -, hconflict, rfl⟩ := (r.combine?_eq_some_iff _).mp hc
    exact ⟨p, q, hpq, hconflict, rfl, rfl, hv.min _ _⟩

end Exact

/-- With exact scores: seven equal scores, of which both conflicts damp the later one. -/
theorem score_agrees_rational :
    ∃ (r : Scorer ℚ) (a : Analysis), (∀ x, 0 ≤ r.normalize x ∧ r.normalize x ≤ 1) ∧
      r.Agrees a id ∧ (r.score a).get .mapReduce = 425 / 1000 ∧
        ∃ c ∈ (r.combinations (r.score a)).values,
          c.knownHybrid = true ∧ c.patterns = [.rag, .agent] := by
  let r : Scorer ℚ := { normalize := fun _ => 1 / 2, threshold := 45 / 100 }
  let a : Analysis := .ofText "" .createSpec
  have hn : ∀ x, 0 ≤ r.normalize x ∧ r.normalize x ≤ 1 := by
    intro x
    change (0 : ℚ) ≤ 1 / 2 ∧ (1 / 2 : ℚ) ≤ 1
    norm_num
  have hagrees : r.Agrees a id := r.score_agrees a Scale.exact_rational hn
  refine ⟨r, a, hn, hagrees, ?_, (hagrees.known .rag .agent).mpr ?_⟩
  · decide +kernel
  · decide +kernel

end Scorer

end AgentFlow

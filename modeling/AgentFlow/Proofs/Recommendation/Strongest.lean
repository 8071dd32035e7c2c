import AgentFlow.Proofs.Data.SortedMaps
import AgentFlow.Proofs.Scoring.Ranking
import AgentFlow.Recommendation.Basic

/-!
# The strongest combination

Of the combinations that are known to compose well, the search takes one with the greatest strength.
It goes through the combinations by their keys and gives up what it has for a stronger one only, so
that the first key wins among identical strengths.

* `exists_foldl_strongerOf`: what the search has found, with what was before it and after it.
* `Leads`: a known combination that beats all other known ones.
* `leads_of_filter_eq`: from the places in the list to the combination that leads.
* `Customizations.strongestHybrid?_eq_some_iff`: **the search finds the combination that leads.**
* `Customizations.strongestHybrid?_exact`: **what is found depends neither on the order in which the
  combinations were recorded nor on those that are not known to compose well.**
-/

namespace AgentFlow

open Data Number

/-! ### The search -/

/-- What the search finds is stronger than everything before it and at least as strong as everything
after it. -/
theorem exists_foldl_strongerOf (c : Combination Float32) (later : List (Combination Float32)) :
    ∃ best l₁ l₂, later.foldl strongerOf (some c) = some best ∧ c :: later = l₁ ++ best :: l₂ ∧
      (∀ d ∈ l₁, Single.key d.strength < Single.key best.strength) ∧
      ∀ d ∈ l₂, Single.key d.strength ≤ Single.key best.strength := by
  induction later generalizing c with
  | nil => exact ⟨c, [], [], rfl, rfl, nofun, nofun⟩
  | cons x rest ih =>
    by_cases hle : Single.key x.strength ≤ Single.key c.strength
    · have hstep : strongerOf (some c) x = some c := if_pos (decide_eq_true hle)
      obtain ⟨best, l₁, l₂, hfold, hsplit, hbefore, hafter⟩ := ih c
      rw [List.foldl_cons, hstep]
      cases l₁ with
      | nil =>
        obtain ⟨rfl, rfl⟩ := List.cons.inj hsplit
        exact ⟨c, [], x :: rest, hfold, rfl, nofun, List.forall_mem_cons.mpr ⟨hle, hafter⟩⟩
      | cons d l₁ =>
        obtain ⟨rfl, rfl⟩ := List.cons.inj hsplit
        obtain ⟨hc, hbefore⟩ := List.forall_mem_cons.mp hbefore
        exact ⟨best, c :: x :: l₁, l₂, hfold, rfl, List.forall_mem_cons.mpr
          ⟨hc, List.forall_mem_cons.mpr ⟨Int.lt_of_le_of_lt hle hc, hbefore⟩⟩, hafter⟩
    · have hstep : strongerOf (some c) x = some x := if_neg (mt of_decide_eq_true hle)
      obtain ⟨best, l₁, l₂, hfold, hsplit, hbefore, hafter⟩ := ih x
      rw [List.foldl_cons, hstep]
      have hc : Single.key c.strength < Single.key best.strength := by
        cases l₁ with
        | nil =>
          obtain ⟨rfl, -⟩ := List.cons.inj hsplit
          exact Int.not_le.mp hle
        | cons d l₁ =>
          obtain ⟨rfl, -⟩ := List.cons.inj hsplit
          exact Int.lt_trans (Int.not_le.mp hle) (hbefore x List.mem_cons_self)
      exact ⟨best, c :: l₁, l₂, hfold, by rw [hsplit]; rfl,
        List.forall_mem_cons.mpr ⟨hc, hbefore⟩, hafter⟩

/-! ### The combination that leads -/

/-- Under the key stands a combination that is known to compose well and beats all others that
are. -/
def Leads (entries : List (String × Combination Float32)) (k : String)
    (best : Combination Float32) : Prop :=
  (k, best) ∈ entries ∧ best.knownHybrid = true ∧
    ∀ k' d, (k', d) ∈ entries → d.knownHybrid = true →
      k' = k ∨ Beats (k, best.strength) (k', d.strength)

section

variable {entries entries' : List (String × Combination Float32)} {k : String}
  {best : Combination Float32}

/-- Only the combinations that are known to compose well matter. -/
theorem leads_congr (h : ∀ k d, d.knownHybrid = true → ((k, d) ∈ entries ↔ (k, d) ∈ entries')) :
    Leads entries k best ↔ Leads entries' k best := by
  have hothers : (∀ k' d, (k', d) ∈ entries → d.knownHybrid = true →
        k' = k ∨ Beats (k, best.strength) (k', d.strength)) ↔
      ∀ k' d, (k', d) ∈ entries' → d.knownHybrid = true →
        k' = k ∨ Beats (k, best.strength) (k', d.strength) :=
    ⟨fun hall k' d hd hknown => hall k' d ((h k' d hknown).mpr hd) hknown,
      fun hall k' d hd hknown => hall k' d ((h k' d hknown).mp hd) hknown⟩
  rw [Leads, Leads, hothers]
  constructor
  · rintro ⟨hmem, hknown, hall⟩
    exact ⟨(h k best hknown).mp hmem, hknown, hall⟩
  · rintro ⟨hmem, hknown, hall⟩
    exact ⟨(h k best hknown).mpr hmem, hknown, hall⟩

/-- The strengths of the combinations that are known to compose well are numbers. -/
def KnownNumbers (entries : List (String × Combination Float32)) : Prop :=
  ∀ e ∈ entries, e.2.knownHybrid = true → e.2.strength.isNaN = false

/-- Only one combination leads. -/
theorem Leads.unique (hkeys : (entries.map (·.1)).Nodup) (hnumbers : KnownNumbers entries)
    {k' : String} {best' : Combination Float32} (h : Leads entries k best)
    (h' : Leads entries k' best') : best = best' := by
  obtain ⟨hmem, hknown, hall⟩ := h
  obtain ⟨hmem', hknown', hall'⟩ := h'
  have hsame : k' = k → best = best' := fun hk =>
    (Prod.mk.inj (List.inj_on_of_nodup_map hkeys hmem hmem' hk.symm)).2
  rcases hall k' best' hmem' hknown' with hk | hbeats
  · exact hsame hk
  · rcases hall' k best hmem hknown with hk | hbeats'
    · exact hsame hk.symm
    · have hnumber : best.strength.isNaN = false := hnumbers (k, best) hmem hknown
      have hnumber' : best'.strength.isNaN = false := hnumbers (k', best') hmem' hknown'
      exact absurd hbeats' (Beats.asymm (a := (k, best.strength)) hnumber hnumber' hbeats)

/-- What is stronger than everything before it and at least as strong as everything after it
leads. -/
theorem leads_of_filter_eq (hincreasing : Increasing entries) (hnumbers : KnownNumbers entries)
    {es₁ es₂ : List (String × Combination Float32)}
    (hsplit : entries.filter (·.2.knownHybrid) = es₁ ++ (k, best) :: es₂)
    (hbefore : ∀ e ∈ es₁, Single.key e.2.strength < Single.key best.strength)
    (hafter : ∀ e ∈ es₂, Single.key e.2.strength ≤ Single.key best.strength) :
    Leads entries k best := by
  have hlisted : ∀ e, e ∈ entries ∧ e.2.knownHybrid = true ↔ e ∈ es₁ ++ (k, best) :: es₂ := by
    intro e
    rw [← hsplit, List.mem_filter]
  have hkeys : (es₁ ++ (k, best) :: es₂).Pairwise fun a b => a.1 < b.1 :=
    hsplit ▸ hincreasing.filter _
  obtain ⟨hmem, hknown⟩ := (hlisted (k, best)).mpr (List.mem_append_right _ List.mem_cons_self)
  refine ⟨hmem, hknown, fun k' d hd hyes => ?_⟩
  have hnumber : best.strength.isNaN = false := hnumbers (k, best) hmem hknown
  have hnumber' : d.strength.isNaN = false := hnumbers (k', d) hd hyes
  rw [beats_iff (a := (k, best.strength)) (b := (k', d.strength)) hnumber hnumber']
  rcases List.mem_append.mp ((hlisted (k', d)).mp ⟨hd, hyes⟩) with hd | hd
  · exact .inr (.inl (hbefore (k', d) hd))
  · rcases List.mem_cons.mp hd with hsame | hd
    · exact .inl (Prod.mk.inj hsame).1
    · right
      have hkey : k < k' := List.rel_of_pairwise_cons (List.pairwise_append.mp hkeys).2.1 hd
      rcases Int.lt_or_eq_of_le (hafter (k', d) hd) with hlt | heq
      · exact .inl hlt
      · exact .inr ⟨heq.symm, hkey⟩

end

namespace Customizations

variable {c : Customizations Float32}

/-- The search finds the combination that leads, if any is known to compose well. -/
theorem strongestHybrid?_cases (hnumbers : KnownNumbers c.combinations.entries) :
    (c.strongestHybrid? = none ∧ ∀ e ∈ c.combinations.entries, e.2.knownHybrid = false) ∨
      ∃ k best, c.strongestHybrid? = some best ∧ Leads c.combinations.entries k best := by
  have hvalues : c.combinations.values.filter (·.knownHybrid) =
      (c.combinations.entries.filter (·.2.knownHybrid)).map (·.2) := List.filter_map
  rw [strongestHybrid?, hvalues]
  cases hknown : c.combinations.entries.filter (·.2.knownHybrid) with
  | nil =>
    refine .inl ⟨rfl, fun e he => ?_⟩
    exact Bool.eq_false_iff.mpr (List.filter_eq_nil_iff.mp hknown e he)
  | cons first rest =>
    obtain ⟨best, l₁, l₂, hfold, hsplit, hbefore, hafter⟩ :=
      exists_foldl_strongerOf first.2 (rest.map (·.2))
    -- The place of the strongest combination among the values is its place among the entries.
    have hparts : (c.combinations.entries.filter (·.2.knownHybrid)).map (·.2) =
        l₁ ++ best :: l₂ := by rw [hknown, ← hsplit]; rfl
    obtain ⟨es₁, es, hes, rfl, hbest⟩ := List.map_eq_append_iff.mp hparts
    obtain ⟨⟨k, d⟩, es₂, rfl, rfl, rfl⟩ := List.map_eq_cons_iff.mp hbest
    exact .inr ⟨k, d, hfold, leads_of_filter_eq c.combinations.increasing hnumbers hes
      (fun e he => hbefore e.2 (List.mem_map_of_mem he))
      fun e he => hafter e.2 (List.mem_map_of_mem he)⟩

theorem strongestHybrid?_eq_some_iff (hnumbers : KnownNumbers c.combinations.entries)
    {best : Combination Float32} :
    c.strongestHybrid? = some best ↔ ∃ k, Leads c.combinations.entries k best := by
  rcases strongestHybrid?_cases hnumbers with ⟨hnone, hunknown⟩ | ⟨k, found, hfound, hleads⟩
  · rw [hnone]
    refine ⟨nofun, ?_⟩
    rintro ⟨k, hmem, hknown, -⟩
    exact absurd hknown (Bool.eq_false_iff.mp (hunknown (k, best) hmem))
  · rw [hfound, Option.some.injEq]
    constructor
    · rintro rfl
      exact ⟨k, hleads⟩
    · rintro ⟨k', hleads'⟩
      exact hleads.unique c.combinations.nodup_keys hnumbers hleads'

theorem strongestHybrid?_eq_none_iff (hnumbers : KnownNumbers c.combinations.entries) :
    c.strongestHybrid? = none ↔ ∀ e ∈ c.combinations.entries, e.2.knownHybrid = false := by
  rcases strongestHybrid?_cases hnumbers with ⟨hnone, hunknown⟩ | ⟨k, found, hfound, hleads⟩
  · exact iff_of_true hnone hunknown
  · refine iff_of_false (by rw [hfound]; exact Option.some_ne_none _) fun hunknown => ?_
    exact absurd hleads.2.1 (Bool.eq_false_iff.mp (hunknown (k, found) hleads.1))

/-- **The strongest combination, whatever combinations there are.**  Recorded in any order, there is
none exactly if no combination is known to compose well, and otherwise it is the known one with the
greatest strength in the total order of single precision and, among those of identical strength,
with the least key.  The same is found if the combinations are recorded in another order, and with
any others that are not known to compose well. -/
theorem strongestHybrid?_exact (entries : List (String × Combination Float32))
    (hkeys : (entries.map (·.1)).Nodup) (hnumbers : KnownNumbers entries)
    (c : Customizations Float32) (hc : c.combinations = .ofList entries) :
    (c.strongestHybrid? = none ↔ ∀ e ∈ entries, e.2.knownHybrid = false) ∧
      (∀ best, c.strongestHybrid? = some best ↔ ∃ k, Leads entries k best) ∧
      ∀ (others : List (String × Combination Float32)) (c' : Customizations Float32),
        (others.map (·.1)).Nodup → c'.combinations = .ofList others →
          (others.filter (·.2.knownHybrid)).Perm (entries.filter (·.2.knownHybrid)) →
            c'.strongestHybrid? = c.strongestHybrid? := by
  have hmem : ∀ e, e ∈ c.combinations.entries ↔ e ∈ entries := fun e =>
    hc ▸ SortedMap.mem_entries_ofList hkeys
  have hnumbers' : KnownNumbers c.combinations.entries := fun e he =>
    hnumbers e ((hmem e).mp he)
  refine ⟨?_, fun best => ?_, ?_⟩
  · rw [strongestHybrid?_eq_none_iff hnumbers']
    exact forall_congr' fun e => imp_congr_left (hmem e)
  · rw [strongestHybrid?_eq_some_iff hnumbers']
    exact exists_congr fun k => leads_congr fun k d _ => hmem (k, d)
  · intro others c' hothers hc' hperm
    have hmem' : ∀ e, e ∈ c'.combinations.entries ↔ e ∈ others := fun e =>
      hc' ▸ SortedMap.mem_entries_ofList hothers
    have hsame : ∀ k d, d.knownHybrid = true →
        ((k, d) ∈ c'.combinations.entries ↔ (k, d) ∈ c.combinations.entries) := by
      intro k d hknown
      have hfilter := hperm.mem_iff (a := (k, d))
      rw [List.mem_filter, List.mem_filter] at hfilter
      rw [hmem, hmem']
      simpa [hknown] using hfilter
    have hothersNumbers : KnownNumbers c'.combinations.entries := fun e he hknown =>
      hnumbers' e ((hsame e.1 e.2 hknown).mp he) hknown
    refine Option.ext fun best => ?_
    rw [strongestHybrid?_eq_some_iff hnumbers', strongestHybrid?_eq_some_iff hothersNumbers]
    exact exists_congr fun k => leads_congr hsame

/-- Two combinations of the same strength, recorded with the later key first, and a stronger one
that is not known to compose well. -/
theorem strongestHybrid?_exact_tie :
    ∃ (entries : List (String × Combination Float32)) (c : Customizations Float32),
      entries = [("RAG+TOOL", ⟨[.rag, .tool], 0.6, true⟩),
        ("RAG+AGENT", ⟨[.rag, .agent], 0.6, true⟩),
        ("TOOL+MAPREDUCE", ⟨[.tool, .mapReduce], 0.9, false⟩)] ∧
      (entries.map (·.1)).Nodup ∧ KnownNumbers entries ∧ c.combinations = .ofList entries ∧
        c.strongestHybrid? = some ⟨[.rag, .agent], 0.6, true⟩ := by
  let entries : List (String × Combination Float32) :=
    [("RAG+TOOL", ⟨[.rag, .tool], 0.6, true⟩), ("RAG+AGENT", ⟨[.rag, .agent], 0.6, true⟩),
      ("TOOL+MAPREDUCE", ⟨[.tool, .mapReduce], 0.9, false⟩)]
  have hkeys : (entries.map (·.1)).Nodup := by decide
  have hnumbers : KnownNumbers entries := by unfold KnownNumbers; decide +kernel
  obtain ⟨-, hsome, -⟩ := strongestHybrid?_exact entries hkeys hnumbers
    { combinations := .ofList entries } rfl
  refine ⟨entries, { combinations := .ofList entries }, rfl, hkeys, hnumbers, rfl, ?_⟩
  refine (hsome _).mpr ⟨"RAG+AGENT", by simp [entries], rfl, ?_⟩
  intro k d hd hknown
  simp only [entries, List.mem_cons, Prod.mk.injEq, List.not_mem_nil, or_false] at hd
  rcases hd with ⟨rfl, rfl⟩ | ⟨rfl, rfl⟩ | ⟨rfl, rfl⟩
  · exact .inr (.inr ⟨rfl, by decide⟩)
  · exact .inl rfl
  · exact absurd hknown Bool.false_ne_true

end Customizations

end AgentFlow

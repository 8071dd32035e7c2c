import AgentFlow.Proofs.Recommendation.Pipeline

/-!
# Compositions of patterns

The nodes of several patterns are those of one pattern after the other, and so are their utilities.
Of members with the same name only the first one is taken: the walk over all members keeps the names
that it has seen.  This file says what a composition is without that walk.  It begins with the
composition of the first patterns and goes on with what the others add to it.

* `firstOfKey_append_seen`, `firstOfKey_append`: **names that were seen before are left out, and
  nothing else is changed.**
* `MergesByName`: the laws of a composition.
* `mergesByName_merged`: the walk over tables of distinct names obeys them.
* `compositions_merge`: **nodes and utilities are merged by name, the first pattern first.**
-/

namespace AgentFlow.Catalog

/-! ### The walk with the names that it has seen -/

section

variable {β : Type} {key : β → String} {seen : List String}

/-- Only which names were seen matters, not when. -/
theorem firstOfKey_congr {seen' : List String} (h : ∀ k, k ∈ seen ↔ k ∈ seen') (xs : List β) :
    firstOfKey key seen xs = firstOfKey key seen' xs := by
  induction xs generalizing seen seen' with
  | nil => rfl
  | cons x rest ih =>
    have hsame : seen.contains (key x) = seen'.contains (key x) := by
      rw [Bool.eq_iff_iff, List.contains_iff_mem, List.contains_iff_mem, h]
    have hmore : ∀ k, k ∈ key x :: seen ↔ k ∈ key x :: seen' := by
      intro k
      rw [List.mem_cons, List.mem_cons, h]
    rw [firstOfKey, firstOfKey, hsame, ih h, ih hmore]

theorem firstOfKey_cons_of_mem {x : β} (h : key x ∈ seen) (xs : List β) :
    firstOfKey key seen (x :: xs) = firstOfKey key seen xs := by
  rw [firstOfKey, if_pos (List.contains_iff_mem.mpr h)]

theorem firstOfKey_cons_of_not_mem {x : β} (h : key x ∉ seen) (xs : List β) :
    firstOfKey key seen (x :: xs) = x :: firstOfKey key (key x :: seen) xs := by
  rw [firstOfKey, if_neg (mt List.contains_iff_mem.mp h)]

/-- **More names that were seen leave out the members of these names.** -/
theorem firstOfKey_append_seen (names : List String) (xs : List β) :
    firstOfKey key (names ++ seen) xs =
      (firstOfKey key seen xs).filter fun x => key x ∉ names := by
  induction xs generalizing seen with
  | nil => rfl
  | cons x rest ih =>
    have hmove : ∀ k, k ∈ names ++ key x :: seen ↔ k ∈ key x :: (names ++ seen) := by
      intro k
      rw [List.mem_append, List.mem_cons, List.mem_cons, List.mem_append, or_left_comm]
    by_cases hseen : key x ∈ seen
    · rw [firstOfKey_cons_of_mem (List.mem_append_right names hseen), firstOfKey_cons_of_mem hseen,
        ih]
    · rw [firstOfKey_cons_of_not_mem hseen]
      by_cases hnames : key x ∈ names
      · -- The member is left out on both sides, and its name is among the others already.
        have hknown : ∀ k, k ∈ names ++ seen ↔ k ∈ names ++ key x :: seen := by
          intro k
          rw [hmove, List.mem_cons]
          refine ⟨.inr, ?_⟩
          rintro (rfl | hk)
          · exact List.mem_append_left seen hnames
          · exact hk
        rw [firstOfKey_cons_of_mem (List.mem_append_left seen hnames),
          List.filter_cons_of_neg (by simpa using hnames), firstOfKey_congr hknown, ih]
      · have hnew : key x ∉ names ++ seen := by
          rw [List.mem_append, not_or]
          exact ⟨hnames, hseen⟩
        rw [firstOfKey_cons_of_not_mem hnew, List.filter_cons_of_pos (by simpa using hnames),
          ← firstOfKey_congr hmove, ih]

/-- The walk over two lists goes on in the second one with the names of the first. -/
theorem firstOfKey_append (xs ys : List β) :
    firstOfKey key seen (xs ++ ys) =
      firstOfKey key seen xs ++ firstOfKey key (xs.map key ++ seen) ys := by
  induction xs generalizing seen with
  | nil => rfl
  | cons x rest ih =>
    by_cases hx : key x ∈ seen
    · have hknown : ∀ k, k ∈ rest.map key ++ seen ↔ k ∈ (x :: rest).map key ++ seen := by
        intro k
        rw [List.map_cons, List.cons_append, List.mem_cons]
        refine ⟨.inr, ?_⟩
        rintro (rfl | hk)
        · exact List.mem_append_right _ hx
        · exact hk
      rw [List.cons_append, firstOfKey_cons_of_mem hx, firstOfKey_cons_of_mem hx, ih,
        firstOfKey_congr hknown]
    · have hmove : ∀ k, k ∈ rest.map key ++ key x :: seen ↔ k ∈ (x :: rest).map key ++ seen := by
        intro k
        rw [List.map_cons, List.cons_append, List.mem_append, List.mem_cons, List.mem_cons,
          List.mem_append, or_left_comm]
      rw [List.cons_append, firstOfKey_cons_of_not_mem hx, firstOfKey_cons_of_not_mem hx, ih,
        firstOfKey_congr hmove, List.cons_append]

/-- The walk misses no name but those seen before. -/
theorem mem_map_firstOfKey {xs : List β} {k : String} :
    k ∈ (firstOfKey key seen xs).map key ↔ k ∈ xs.map key ∧ k ∉ seen := by
  induction xs generalizing seen with
  | nil => simp [firstOfKey]
  | cons x rest ih =>
    by_cases hx : key x ∈ seen
    · rw [firstOfKey_cons_of_mem hx, ih, List.map_cons, List.mem_cons]
      constructor
      · rintro ⟨hk, hnew⟩
        exact ⟨.inr hk, hnew⟩
      · rintro ⟨rfl | hk, hnew⟩
        · exact absurd hx hnew
        · exact ⟨hk, hnew⟩
    · rw [firstOfKey_cons_of_not_mem hx, List.map_cons, List.map_cons, List.mem_cons, ih,
        List.mem_cons, List.mem_cons, not_or]
      constructor
      · rintro (rfl | ⟨hk, -, hnew⟩)
        · exact ⟨.inl rfl, hx⟩
        · exact ⟨.inr hk, hnew⟩
      · rintro ⟨rfl | hk, hnew⟩
        · exact .inl rfl
        · by_cases hkx : k = key x
          · exact .inl hkx
          · exact .inr ⟨hk, hkx, hnew⟩

/-- A walk over distinct new names takes every member. -/
theorem firstOfKey_eq_self {xs : List β} (h : Fresh seen (xs.map key)) :
    firstOfKey key seen xs = xs := by
  induction xs generalizing seen with
  | nil => rfl
  | cons x rest ih =>
    rw [List.map_cons, fresh_cons] at h
    rw [firstOfKey_cons_of_not_mem h.1, ih h.2]

end

/-! ### Laws of compositions -/

/-- How lists of named members, one list for each pattern, are put together so that the first member
of each name counts.  A member is marked with the pattern that it is from. -/
structure MergesByName {β : Type} (name : β → String) (table : Pattern → List β)
    (mark : Pattern → β → β) (compose : List Pattern → List β) : Prop where
  single : ∀ p, compose [p] = (table p).map (mark p)
  /-- More patterns only add members, those with names of their own. -/
  append : ∀ ps qs, compose (ps ++ qs) =
    compose ps ++ (compose qs).filter fun b => name b ∉ (compose ps).map name
  nodup_names : ∀ ps, ((compose ps).map name).Nodup
  mem_names : ∀ ps k, k ∈ (compose ps).map name ↔ ∃ p ∈ ps, k ∈ (table p).map name
  /-- A member is that of the first pattern that has one of its name. -/
  from_first : ∀ ps, ∀ b ∈ compose ps, ∃ before p after, ps = before ++ p :: after ∧
    (∃ m ∈ table p, b = mark p m) ∧ ∀ q ∈ before, name b ∉ (table q).map name

section

variable {β : Type} (name : β → String) (table : Pattern → List β) (mark : Pattern → β → β)

/-- The walk over the marked tables of the patterns, one after the other. -/
def merged (ps : List Pattern) : List β :=
  firstOfKey name [] (ps.flatMap fun p => (table p).map (mark p))

theorem nodup_merged (ps : List Pattern) : ((merged name table mark ps).map name).Nodup :=
  fresh_of_nothing_seen.mp fresh_firstOfKey

/-- **A walk over more patterns goes on with what they add.** -/
theorem merged_append (ps qs : List Pattern) :
    merged name table mark (ps ++ qs) = merged name table mark ps ++
      (merged name table mark qs).filter fun b =>
        name b ∉ (merged name table mark ps).map name := by
  have hnames : ∀ k, k ∈ (merged name table mark ps).map name ↔
      k ∈ (ps.flatMap fun p => (table p).map (mark p)).map name := by
    intro k
    rw [merged, mem_map_firstOfKey, and_iff_left List.not_mem_nil]
  simp only [hnames]
  rw [merged, List.flatMap_append, firstOfKey_append, firstOfKey_append_seen]
  rfl

variable {name table mark} (hmark : ∀ p b, name (mark p b) = name b)

include hmark

theorem map_marked (p : Pattern) : ((table p).map (mark p)).map name = (table p).map name := by
  rw [List.map_map]
  exact List.map_congr_left fun b _ => hmark p b

theorem mem_map_merged {ps : List Pattern} {k : String} :
    k ∈ (merged name table mark ps).map name ↔ ∃ p ∈ ps, k ∈ (table p).map name := by
  rw [merged, mem_map_firstOfKey, and_iff_left List.not_mem_nil, List.map_flatMap, List.mem_flatMap]
  simp only [map_marked hmark]

variable (hnodup : ∀ p, ((table p).map name).Nodup)

include hnodup

theorem merged_singleton (p : Pattern) : merged name table mark [p] = (table p).map (mark p) := by
  rw [merged, List.flatMap_singleton]
  refine firstOfKey_eq_self (fresh_of_nothing_seen.mpr ?_)
  rw [map_marked hmark]
  exact hnodup p

/-- **A member is that of the first pattern that has one of its name.** -/
theorem exists_of_mem_merged {ps : List Pattern} {b : β} (h : b ∈ merged name table mark ps) :
    ∃ before p after, ps = before ++ p :: after ∧ (∃ m ∈ table p, b = mark p m) ∧
      ∀ q ∈ before, name b ∉ (table q).map name := by
  induction ps with
  | nil => exact absurd h List.not_mem_nil
  | cons p rest ih =>
    rw [← List.singleton_append, merged_append, merged_singleton hmark hnodup, map_marked hmark,
      List.mem_append, List.mem_filter] at h
    rcases h with hhere | ⟨hlater, hnew⟩
    · obtain ⟨m, hm, rfl⟩ := List.mem_map.mp hhere
      exact ⟨[], p, rest, rfl, ⟨m, hm, rfl⟩, fun _ hq => absurd hq List.not_mem_nil⟩
    · obtain ⟨before, q, after, rfl, hmember, hbefore⟩ := ih hlater
      exact ⟨p :: before, q, after, rfl, hmember,
        List.forall_mem_cons.mpr ⟨of_decide_eq_true hnew, hbefore⟩⟩

/-- **The walk over tables of distinct names merges them by name.** -/
theorem mergesByName_merged : MergesByName name table mark (merged name table mark) where
  single := merged_singleton hmark hnodup
  append := merged_append name table mark
  nodup_names := nodup_merged name table mark
  mem_names := fun _ _ => mem_map_merged hmark
  from_first := fun _ _ hb => exists_of_mem_merged hmark hnodup hb

end

theorem composeUtilities_eq_merged :
    composeUtilities = merged (·.name) utilities fun _ u => u := by
  funext ps
  rw [composeUtilities, merged]
  simp only [List.map_id']

/-- **Nodes and utilities of several patterns are merged by name, the first pattern first.**  A node
is marked with the pattern that it is from. -/
theorem compositions_merge :
    MergesByName (·.name) nodes (fun p n => { n with origin := some p }) composeNodes ∧
      MergesByName (·.name) utilities (fun _ u => u) composeUtilities := by
  constructor
  · exact mergesByName_merged (fun _ _ => rfl) fun p => (nodesValid p).nodup
  · rw [composeUtilities_eq_merged]
    exact mergesByName_merged (fun _ _ => rfl) fun p => (utilitiesValid p).nodup

/-- Two patterns have a node of the same name, of different kinds. -/
example : ((composeNodes [.multiAgent, .hybrid, .rag]).find? (·.name == "ResponseGenerator")).map
      (fun n => (n.kind, n.origin)) = some (.node, some .multiAgent) ∧
    ((composeNodes [.hybrid, .rag, .multiAgent]).find? (·.name == "ResponseGenerator")).map
      (fun n => (n.kind, n.origin)) = some (.asyncNode, some .rag) := by
  decide +kernel

end AgentFlow.Catalog

import AgentFlow.Proofs.Recommendation.Replay

/-!
# Merged overrides

Overrides are merged one after another, the later ones into the earlier ones.  A feature is taken
over unless it is known already, and it is known from then on.  So the walk over the later features
never adds one twice, and it does not matter which two of three overrides are merged first.

* `Overrides.foldl_addNew_eq`: **what a walk with a growing list of known items adds to it.**
* `Overrides.merge_assoc`: **merging is associative.**
* `Overrides.latest_foldl_merge`: of what the overrides state, the latest statement is the result's.
* `Overrides.merge_lossless`: **the laws of merging.**
-/

namespace AgentFlow.Overrides

/-! ### Features -/

/-- **New items come after the known ones, each once, in the order in which they first occur.** -/
theorem foldl_addNew_eq (items more : List String) :
    more.foldl addNew items = items ++ (more.filter (· ∉ items)).eraseDups := by
  induction more generalizing items with
  | nil => rw [List.foldl_nil, List.filter_nil, List.eraseDups_nil, List.append_nil]
  | cons item rest ih =>
    by_cases hknown : item ∈ items
    · have hsame : addNew items item = items := if_pos (List.contains_iff_mem.mpr hknown)
      rw [List.foldl_cons, hsame, ih, List.filter_cons_of_neg (by simpa using hknown)]
    · have hnew : addNew items item = items ++ [item] :=
        if_neg (mt List.contains_iff_mem.mp hknown)
      -- The other items are new if they are neither known nor the one that has just been added.
      have hrest : rest.filter (· ∉ items ++ [item]) =
          (rest.filter (· ∉ items)).filter fun x => !x == item := by
        rw [List.filter_filter]
        refine List.filter_congr fun x _ => ?_
        rw [Bool.eq_iff_iff]
        simp [and_comm]
      rw [List.foldl_cons, hnew, ih, hrest, List.filter_cons_of_pos (by simpa using hknown),
        List.eraseDups_cons, List.append_assoc, List.singleton_append]

theorem disableFeatures_merge (a b : Overrides) :
    (a.merge b).disableFeatures =
      a.disableFeatures ++ (b.disableFeatures.filter (· ∉ a.disableFeatures)).eraseDups :=
  foldl_addNew_eq _ _

/-! ### Merging -/

/-- **It does not matter which two of three overrides are merged first.** -/
theorem merge_assoc (a b c : Overrides) : (a.merge b).merge c = a.merge (b.merge c) := by
  have hfeatures : c.disableFeatures.foldl addNew (b.disableFeatures.foldl addNew
        a.disableFeatures) =
      (c.disableFeatures.foldl addNew b.disableFeatures).foldl addNew a.disableFeatures := by
    have hwalk := foldl_addNew_map id a.disableFeatures b.disableFeatures c.disableFeatures
    rw [List.map_id, List.map_id, List.foldl_append] at hwalk
    exact hwalk.symm
  rw [merge, merge, merge, merge, Option.or_assoc, Option.or_assoc, hfeatures]

theorem isEmpty_iff (o : Overrides) : o.isEmpty = true ↔ o = {} := by
  obtain ⟨forcePattern, size, disableFeatures⟩ := o
  simp [isEmpty, and_assoc]

theorem merge_empty (a : Overrides) : a.merge {} = a := rfl

theorem merge_self (a : Overrides) : a.merge a = a := by
  have hnone : a.disableFeatures.filter (· ∉ a.disableFeatures) = [] := by
    rw [List.filter_eq_nil_iff]
    intro x hx
    simpa using hx
  rw [merge, Option.or_self, Option.or_self, foldl_addNew_eq, hnone, List.eraseDups_nil,
    List.append_nil]

/-! ### The latest statement -/

/-- A part of overrides that the later ones replace if they state it. -/
def Replaced {β : Type} (part : Overrides → Option β) : Prop :=
  ∀ o later, part (o.merge later) = (part later).or (part o)

/-- Of what overrides state, the latest statement is in the result. -/
theorem latest_foldl_merge {β : Type} {part : Overrides → Option β} (h : Replaced part)
    (a : Overrides) (os : List Overrides) :
    part (os.foldl merge a) = ((a :: os).filterMap part).getLast? := by
  have hcons : ∀ (o : Overrides) (rest : List Overrides),
      ((o :: rest).filterMap part).getLast? = (rest.filterMap part).getLast?.or (part o) := by
    intro o rest
    rw [List.filterMap_cons]
    cases part o with
    | none => rw [Option.or_none]
    | some x => rw [List.getLast?_cons, Option.or_some]
  induction os generalizing a with
  | nil => rw [hcons]; rfl
  | cons o rest ih => rw [List.foldl_cons, ih, hcons, hcons, hcons, h, Option.or_assoc]

/-- **Merging is associative and loses nothing.**  Empty overrides, and the same ones again, change
nothing.  The features of later overrides come after those that are known, each once, in the order
in which they first occur.  The pattern and the size are those of the latest overrides that state
one. -/
theorem merge_lossless (a b c : Overrides) :
    (a.merge b).merge c = a.merge (b.merge c) ∧
      ((∀ e : Overrides, e.isEmpty = true ↔ e = {}) ∧ a.merge {} = a ∧ a.merge a = a) ∧
      (a.merge b).disableFeatures =
        a.disableFeatures ++ (b.disableFeatures.filter (· ∉ a.disableFeatures)).eraseDups ∧
      ∀ os : List Overrides,
        (os.foldl merge a).forcePattern = ((a :: os).filterMap (·.forcePattern)).getLast? ∧
          (os.foldl merge a).size = ((a :: os).filterMap (·.size)).getLast? :=
  ⟨merge_assoc a b c, ⟨isEmpty_iff, merge_empty a, merge_self a⟩, disableFeatures_merge a b,
    fun os => ⟨latest_foldl_merge (fun _ _ => rfl) a os, latest_foldl_merge (fun _ _ => rfl) a os⟩⟩

end AgentFlow.Overrides

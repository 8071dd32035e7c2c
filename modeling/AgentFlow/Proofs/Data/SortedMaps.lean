import AgentFlow.Data.SortedMap
import Mathlib.Algebra.GroupWithZero.Nat
import Mathlib.Data.List.Nodup
import Mathlib.Data.List.Sort

/-!
# Equal sorted maps and gathered items

A sorted map is determined by what it answers, since its entries stand in one order only.

* `SortedMap.ext_get?`: **maps with the same answers are equal.**
* `SortedMap.ofList_entries`: **a map is made again from its entries.**
* `SortedMap.nodup_keys`: no key stands twice.
* `SortedMap.keys_sublist`: the keys of a map stand in the same order in one that has them all.
* `SortedMap.entries_ofList_perm`: **a map that is made from entries with distinct keys has all of
  them.**
* `SortedMap.get?_mapValues`: a function that is applied to the values is applied to the answers.

Items may also be gathered in a map, each under its key: a new item is added to what its key has so
far.  Every key then has what its own items add up to, and nothing is lost or counted twice.

* `SortedMap.insert_cases`: an insertion adds one entry, or replaces the one of its key.
* `SortedMap.mem_keys_gather`: the keys are those of the items.
* `SortedMap.getD_gather`: a key has what its own items add up to, in their order.
* `SortedMap.sum_gather`: **a sum over the entries is a sum over the items.**
-/

namespace AgentFlow.Data.SortedMap

variable {κ β : Type} [Key κ] {m m' : SortedMap κ β}

theorem nodup_keys (m : SortedMap κ β) : (m.entries.map (·.1)).Nodup := by
  rw [List.Nodup, List.pairwise_map]
  refine m.increasing.imp ?_
  intro a b hlt he
  exact Key.irrefl a.1 (he ▸ hlt)

theorem pairwise_keys (m : SortedMap κ β) : m.keys.Pairwise (· < ·) :=
  List.pairwise_map.mpr m.increasing

/-- The keys of a map stand in the same order in a map that has them all. -/
theorem keys_sublist (h : m.keys ⊆ m'.keys) : m.keys.Sublist m'.keys := by
  have hantisymm : Std.Antisymm fun a b : κ => a < b :=
    ⟨fun a b hab hba => absurd (Key.trans hab hba) (Key.irrefl a)⟩
  exact List.sublist_of_subperm_of_pairwise (List.subperm_of_subset m.nodup_keys h)
    m.pairwise_keys m'.pairwise_keys

/-- Maps with the same entries are equal. -/
theorem ext_entries (h : ∀ e, e ∈ m.entries ↔ e ∈ m'.entries) : m = m' := by
  have hirrefl : Std.Irrefl fun a b : κ × β => a.1 < b.1 := ⟨fun a => Key.irrefl a.1⟩
  have hantisymm : Std.Antisymm fun a b : κ × β => a.1 < b.1 :=
    ⟨fun a b hab hba => absurd (Key.trans hab hba) (Key.irrefl a.1)⟩
  have heq := m.increasing.eq_of_mem_iff m'.increasing h
  cases m
  cases m'
  cases heq
  rfl

/-- **Maps with the same answers are equal.** -/
theorem ext_get? (h : ∀ k, m.get? k = m'.get? k) : m = m' := by
  refine ext_entries ?_
  rintro ⟨k, v⟩
  rw [← get?_eq_some_iff, ← get?_eq_some_iff, h]

/-- **A map is made again from its entries.** -/
theorem ofList_entries (m : SortedMap κ β) : ofList m.entries = m := by
  refine ext_entries ?_
  rintro ⟨k, v⟩
  refine ⟨mem_of_mem_ofList, ?_⟩
  intro h
  -- The key has a value in the new map, which can only be the one that it had.
  obtain ⟨⟨k', v'⟩, he, hk⟩ := List.mem_map.mp (mem_keys_ofList.mpr (List.mem_map_of_mem h))
  obtain rfl : k' = k := hk
  have hold := (get?_eq_some_iff m k' v').mpr (mem_of_mem_ofList he)
  have hnew := (get?_eq_some_iff m k' v).mpr h
  rw [hold] at hnew
  exact Option.some.inj hnew ▸ he

/-- Entries with distinct keys do not replace one another. -/
theorem mem_entries_ofList {entries : List (κ × β)} (h : (entries.map (·.1)).Nodup) {e : κ × β} :
    e ∈ (ofList entries).entries ↔ e ∈ entries := by
  constructor
  · exact mem_of_mem_ofList
  · intro he
    -- The key has a value, and it is that of an entry of the list.
    obtain ⟨e', he', hkey⟩ := List.mem_map.mp (mem_keys_ofList.mpr (List.mem_map_of_mem he))
    have heq : e' = e := List.inj_on_of_nodup_map h (mem_of_mem_ofList he') he hkey
    exact heq ▸ he'

/-- **A map that is made from entries with distinct keys has all of them.** -/
theorem entries_ofList_perm {entries : List (κ × β)} (h : (entries.map (·.1)).Nodup) :
    (ofList entries).entries.Perm entries :=
  (List.perm_ext_iff_of_nodup ((ofList entries).nodup_keys.of_map _) (h.of_map _)).mpr
    fun _ => mem_entries_ofList h

/-! ## Gathering -/

variable {α : Type}

/-- An item added to what its key has so far, or to `d` if it is the first one. -/
def add (key : α → κ) (d : β) (step : β → α → β) (m : SortedMap κ β) (x : α) : SortedMap κ β :=
  m.insert (key x) (step ((m.get? (key x)).getD d) x)

def gather (key : α → κ) (d : β) (step : β → α → β) (xs : List α) : SortedMap κ β :=
  xs.foldl (add key d step) .empty

/-! ### Insertion -/

theorem lookup_eq_none {k : κ} {entries : List (κ × β)} (h : ∀ e ∈ entries, k < e.1) :
    lookup k entries = none := by
  induction entries with
  | nil => rfl
  | cons e rest ih =>
    obtain ⟨k', v'⟩ := e
    rw [List.forall_mem_cons] at h
    rw [lookup, if_pos (.inl h.1), ih h.2]

/-- **An insertion adds one entry, or replaces the one of its key.** -/
theorem insert_cases (m : SortedMap κ β) (k : κ) (v : β) :
    ∃ pre post, (m.insert k v).entries = pre ++ (k, v) :: post ∧
      ((m.entries = pre ++ post ∧ m.get? k = none) ∨
        ∃ v', m.entries = pre ++ (k, v') :: post ∧ m.get? k = some v') := by
  obtain ⟨entries, hinc⟩ := m
  simp only [insert, get?]
  induction entries with
  | nil => exact ⟨[], [], rfl, .inl ⟨rfl, rfl⟩⟩
  | cons e rest ih =>
    obtain ⟨k', v'⟩ := e
    obtain ⟨hhead, hrest⟩ := List.pairwise_cons.mp hinc
    by_cases hlt : k < k'
    · have hall : ∀ e ∈ (k', v') :: rest, k < e.1 :=
        List.forall_mem_cons.mpr ⟨hlt, fun e he => Key.trans hlt (hhead e he)⟩
      exact ⟨[], (k', v') :: rest, by rw [insertInto, if_pos hlt]; rfl,
        .inl ⟨rfl, lookup_eq_none hall⟩⟩
    · by_cases hgt : k' < k
      · have hne : k ≠ k' := fun he => Key.irrefl k (he ▸ hgt)
        obtain ⟨pre, post, hnew, hold⟩ := ih hrest
        refine ⟨(k', v') :: pre, post, ?_, ?_⟩
        · rw [insertInto, if_neg hlt, if_pos hgt, hnew]
          rfl
        · rw [lookup_cons_of_ne hne]
          rcases hold with ⟨hentries, hnone⟩ | ⟨w, hentries, hsome⟩
          · exact .inl ⟨congrArg _ hentries, hnone⟩
          · exact .inr ⟨w, congrArg _ hentries, hsome⟩
      · obtain rfl : k = k' := Key.trichotomous hlt hgt
        exact ⟨[], rest, by rw [insertInto, if_neg hlt, if_neg hgt]; rfl,
          .inr ⟨v', rfl, lookup_self k v' rest⟩⟩

/-! ### Keys and values -/

theorem mem_keys_iff (m : SortedMap κ β) (k : κ) : k ∈ m.keys ↔ (m.get? k).isSome = true := by
  rw [Option.isSome_iff_exists, keys, List.mem_map]
  constructor
  · rintro ⟨⟨_, v⟩, he, rfl⟩
    exact ⟨v, (m.get?_eq_some_iff _ v).mpr he⟩
  · rintro ⟨v, hv⟩
    exact ⟨(k, v), (m.get?_eq_some_iff k v).mp hv, rfl⟩

theorem get?_eq_none_iff (m : SortedMap κ β) (k : κ) : m.get? k = none ↔ k ∉ m.keys := by
  rw [mem_keys_iff, Bool.not_eq_true, Option.isSome_eq_false_iff, Option.isNone_iff_eq_none]

section

variable {γ : Type} (f : κ → β → γ) (m : SortedMap κ β)

theorem keys_mapValues : (m.mapValues f).keys = m.keys := by
  rw [keys, mapValues, List.map_map]
  rfl

theorem get?_mapValues (k : κ) : (m.mapValues f).get? k = (m.get? k).map (f k) := by
  cases hk : m.get? k with
  | none =>
    rw [get?_eq_none_iff] at hk
    exact (get?_eq_none_iff _ k).mpr (keys_mapValues f m ▸ hk)
  | some v =>
    have he := (m.get?_eq_some_iff k v).mp hk
    exact ((m.mapValues f).get?_eq_some_iff k (f k v)).mpr (List.mem_map_of_mem he)

end

variable [DecidableEq κ] (key : α → κ) (d : β) (step : β → α → β)

theorem get?_add (m : SortedMap κ β) (x : α) (k : κ) :
    (m.add key d step x).get? k =
      if key x = k then some (step ((m.get? k).getD d) x) else m.get? k := by
  by_cases hx : key x = k
  · rw [if_pos hx, add, hx, get?_insert_self]
  · rw [if_neg hx, add, get?_insert_of_ne _ (Ne.symm hx)]

theorem mem_keys_foldl_add (xs : List α) (m : SortedMap κ β) (k : κ) :
    k ∈ (xs.foldl (add key d step) m).keys ↔ k ∈ m.keys ∨ ∃ x ∈ xs, key x = k := by
  induction xs generalizing m with
  | nil => simp
  | cons x rest ih =>
    have hadd : k ∈ (m.add key d step x).keys ↔ k ∈ m.keys ∨ key x = k := by
      rw [mem_keys_iff, mem_keys_iff, get?_add]
      by_cases hx : key x = k <;> simp [hx]
    rw [List.foldl_cons, ih, hadd]
    simp only [List.mem_cons, exists_eq_or_imp, or_assoc]

/-- The keys are those of the items. -/
theorem mem_keys_gather {xs : List α} {k : κ} :
    k ∈ (gather key d step xs).keys ↔ ∃ x ∈ xs, key x = k :=
  (mem_keys_foldl_add key d step xs .empty k).trans (or_iff_right List.not_mem_nil)

theorem getD_foldl_add (xs : List α) (m : SortedMap κ β) (k : κ) :
    ((xs.foldl (add key d step) m).get? k).getD d =
      (xs.filter fun x => key x = k).foldl step ((m.get? k).getD d) := by
  induction xs generalizing m with
  | nil => rfl
  | cons x xs ih =>
    rw [List.foldl_cons, ih, get?_add]
    by_cases hx : key x = k
    · rw [if_pos hx, List.filter_cons_of_pos (by simpa using hx)]
      rfl
    · rw [if_neg hx, List.filter_cons_of_neg (by simpa using hx)]

/-- A key has what its own items add up to, in their order. -/
theorem getD_gather (xs : List α) (k : κ) :
    ((gather key d step xs).get? k).getD d = (xs.filter fun x => key x = k).foldl step d :=
  getD_foldl_add key d step xs .empty k

/-! ### Sums -/

section

variable {key d step} {f : β → Nat} {w : α → Nat} (hd : f d = 0)
  (hstep : ∀ b x, f (step b x) = f b + w x)
include hd hstep

omit [DecidableEq κ] in
/-- One more item adds its weight, whether its key is new or has something. -/
theorem sum_add (m : SortedMap κ β) (x : α) :
    ((m.add key d step x).entries.map fun e => f e.2).sum =
      (m.entries.map fun e => f e.2).sum + w x := by
  obtain ⟨pre, post, hnew, ⟨hold, hget⟩ | ⟨v, hold, hget⟩⟩ :=
    m.insert_cases (key x) (step ((m.get? (key x)).getD d) x)
  · rw [add, hnew, hold, hget]
    simp only [List.map_append, List.map_cons, List.sum_append, List.sum_cons, hstep,
      Option.getD_none, hd]
    omega
  · rw [add, hnew, hold, hget]
    simp only [List.map_append, List.map_cons, List.sum_append, List.sum_cons, hstep,
      Option.getD_some]
    omega

omit [DecidableEq κ] in
theorem sum_foldl_add (xs : List α) (m : SortedMap κ β) :
    ((xs.foldl (add key d step) m).entries.map fun e => f e.2).sum =
      (m.entries.map fun e => f e.2).sum + (xs.map w).sum := by
  induction xs generalizing m with
  | nil => rfl
  | cons x xs ih =>
    rw [List.foldl_cons, ih, sum_add hd hstep, List.map_cons, List.sum_cons, Nat.add_assoc]

omit [DecidableEq κ] in
/-- **A sum over the entries is a sum over the items**, if an item adds its weight to its key. -/
theorem sum_gather (xs : List α) :
    ((gather key d step xs).entries.map fun e => f e.2).sum = (xs.map w).sum :=
  (sum_foldl_add hd hstep xs .empty).trans (Nat.zero_add _)

end

end AgentFlow.Data.SortedMap

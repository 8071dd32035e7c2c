/-!
# Sorted maps

A finite map is the list of its entries in increasing order of their keys, so that two maps with the
same entries are equal.

* `SortedMap.get?_insert_self`, `SortedMap.get?_insert_of_ne`: an insertion is seen at its own key
  and nowhere else.
* `SortedMap.get?_eq_some_iff`: the answers of a map are its entries.
* `SortedMap.mem_keys_ofList`: a map that is made from a list has the keys of the list.
-/

namespace AgentFlow.Data

/-- Keys with a decidable strict linear order. -/
class Key (κ : Type) extends LT κ where
  decLt : (a b : κ) → Decidable (a < b)
  trans : ∀ {a b c : κ}, a < b → b < c → a < c
  irrefl : ∀ a : κ, ¬ a < a
  trichotomous : ∀ {a b : κ}, ¬ a < b → ¬ b < a → a = b

instance Key.decidableLt {κ : Type} [Key κ] (a b : κ) : Decidable (a < b) := Key.decLt a b

instance Key.ofString : Key String where
  decLt := inferInstance
  trans := String.lt_trans
  irrefl := String.lt_irrefl
  trichotomous := Std.Trichotomous.trichotomous (r := fun a b : String => a < b) _ _

section

variable {κ : Type} [Key κ]

instance Key.transLt : Trans (α := κ) (β := κ) (γ := κ) (· < ·) (· < ·) (· < ·) := ⟨Key.trans⟩

instance Key.irreflLt : Std.Irrefl (α := κ) (· < ·) := ⟨Key.irrefl⟩

instance Key.trichotomousLt : Std.Trichotomous (α := κ) (· < ·) := ⟨fun _ _ => Key.trichotomous⟩

/-- Lists in the order of dictionaries. -/
instance Key.ofList [DecidableEq κ] : Key (List κ) where
  decLt := List.decidableLT
  trans := List.lt_trans
  irrefl := List.lt_irrefl
  trichotomous := fun h₁ h₂ => List.le_antisymm h₂ h₁

end

def Increasing {κ β : Type} [Key κ] (entries : List (κ × β)) : Prop :=
  entries.Pairwise fun a b => a.1 < b.1

/-- A finite map from keys to values. -/
structure SortedMap (κ β : Type) [Key κ] where
  entries : List (κ × β)
  increasing : Increasing entries

namespace SortedMap

variable {κ β γ : Type} [Key κ]

/-- Insertion into a list of entries in increasing order. -/
def insertInto (k : κ) (v : β) : List (κ × β) → List (κ × β)
  | [] => [(k, v)]
  | (k', v') :: rest =>
    if k < k' then (k, v) :: (k', v') :: rest
    else if k' < k then (k', v') :: insertInto k v rest
    else (k, v) :: rest

theorem mem_insertInto {k : κ} {v : β} {e : κ × β} {entries : List (κ × β)}
    (h : e ∈ insertInto k v entries) : e = (k, v) ∨ e ∈ entries := by
  induction entries with
  | nil => simpa [insertInto] using h
  | cons head rest ih =>
    obtain ⟨k', v'⟩ := head
    unfold insertInto at h
    split at h
    · simpa using h
    · split at h
      · rcases List.mem_cons.mp h with rfl | h
        · simp
        · rcases ih h with h | h <;> simp [h]
      · rcases List.mem_cons.mp h with rfl | h <;> simp [*]

theorem increasing_insertInto (k : κ) (v : β) {entries : List (κ × β)} (h : Increasing entries) :
    Increasing (insertInto k v entries) := by
  induction entries with
  | nil => simp [insertInto, Increasing]
  | cons head rest ih =>
    obtain ⟨k', v'⟩ := head
    have ⟨hhead, hrest⟩ := List.pairwise_cons.mp h
    unfold insertInto
    split
    · next hlt =>
      refine List.pairwise_cons.mpr ⟨fun e he => ?_, h⟩
      rcases List.mem_cons.mp he with rfl | he
      · exact hlt
      · exact Key.trans hlt (hhead e he)
    · next hnlt =>
      split
      · next hgt =>
        refine List.pairwise_cons.mpr ⟨fun e he => ?_, ih hrest⟩
        rcases mem_insertInto he with rfl | he
        · exact hgt
        · exact hhead e he
      · next hngt =>
        have : k = k' := Key.trichotomous hnlt hngt
        subst this
        exact List.pairwise_cons.mpr ⟨hhead, hrest⟩

def empty : SortedMap κ β := ⟨[], List.Pairwise.nil⟩

instance : Inhabited (SortedMap κ β) := ⟨empty⟩

def insert (m : SortedMap κ β) (k : κ) (v : β) : SortedMap κ β :=
  ⟨insertInto k v m.entries, increasing_insertInto k v m.increasing⟩

/-- The map with the entries of a list, the last one of each key. -/
def ofList (entries : List (κ × β)) : SortedMap κ β :=
  entries.foldl (fun m e => m.insert e.1 e.2) empty

theorem mem_entries_foldl_insert {entries : List (κ × β)} {m : SortedMap κ β} {e : κ × β}
    (h : e ∈ (entries.foldl (fun m e => m.insert e.1 e.2) m).entries) :
    e ∈ entries ∨ e ∈ m.entries := by
  induction entries generalizing m with
  | nil => exact .inr h
  | cons head rest ih =>
    rcases ih h with h | h
    · exact .inl (List.mem_cons_of_mem head h)
    · rcases mem_insertInto h with rfl | h
      · exact .inl List.mem_cons_self
      · exact .inr h

/-- A map that is made from a list has entries of the list only. -/
theorem mem_of_mem_ofList {entries : List (κ × β)} {e : κ × β}
    (h : e ∈ (ofList entries).entries) : e ∈ entries := by
  rcases mem_entries_foldl_insert h with h | h
  · exact h
  · exact absurd h List.not_mem_nil

def lookup (k : κ) : List (κ × β) → Option β
  | [] => none
  | (k', v) :: rest => if k < k' ∨ k' < k then lookup k rest else some v

def get? (m : SortedMap κ β) (k : κ) : Option β := lookup k m.entries

def keys (m : SortedMap κ β) : List κ := m.entries.map (·.1)

def values (m : SortedMap κ β) : List β := m.entries.map (·.2)

def isEmpty (m : SortedMap κ β) : Bool := m.entries.isEmpty

def size (m : SortedMap κ β) : Nat := m.entries.length

def mapValues (f : κ → β → γ) (m : SortedMap κ β) : SortedMap κ γ :=
  ⟨m.entries.map fun e => (e.1, f e.1 e.2), by
    unfold Increasing; rw [List.pairwise_map]; exact m.increasing⟩

/-! ## What a map answers -/

@[simp] theorem lookup_self (k : κ) (v : β) (rest : List (κ × β)) :
    lookup k ((k, v) :: rest) = some v := by
  simp [lookup, Key.irrefl]

theorem lookup_cons_of_ne {k k' : κ} (h : k ≠ k') (v : β) (rest : List (κ × β)) :
    lookup k ((k', v) :: rest) = lookup k rest := by
  have : k < k' ∨ k' < k := by
    by_cases h₁ : k < k'
    · exact Or.inl h₁
    · by_cases h₂ : k' < k
      · exact Or.inr h₂
      · exact absurd (Key.trichotomous h₁ h₂) h
  simp [lookup, this]

theorem lookup_insertInto_self (k : κ) (v : β) (entries : List (κ × β)) :
    lookup k (insertInto k v entries) = some v := by
  induction entries with
  | nil => simp [insertInto]
  | cons head rest ih =>
    obtain ⟨k', v'⟩ := head
    unfold insertInto
    split
    · simp
    · split
      · next hgt => simp [lookup, hgt, ih]
      · simp

theorem lookup_insertInto_of_ne {k k₀ : κ} (h : k₀ ≠ k) (v : β) (entries : List (κ × β)) :
    lookup k₀ (insertInto k v entries) = lookup k₀ entries := by
  induction entries with
  | nil => rw [insertInto, lookup_cons_of_ne h]
  | cons head rest ih =>
    obtain ⟨k', v'⟩ := head
    unfold insertInto
    split
    · rw [lookup_cons_of_ne h]
    · next hnlt =>
      split
      · simp [lookup, ih]
      · next hngt =>
        have : k = k' := Key.trichotomous hnlt hngt
        subst this
        rw [lookup_cons_of_ne h, lookup_cons_of_ne h]

theorem get?_insert_self (m : SortedMap κ β) (k : κ) (v : β) : (m.insert k v).get? k = some v :=
  lookup_insertInto_self k v m.entries

theorem get?_insert_of_ne (m : SortedMap κ β) {k k₀ : κ} (h : k₀ ≠ k) (v : β) :
    (m.insert k v).get? k₀ = m.get? k₀ :=
  lookup_insertInto_of_ne h v m.entries

theorem isSome_get?_insert {m : SortedMap κ β} {k k₀ : κ} {v : β}
    (h : k₀ = k ∨ (m.get? k₀).isSome = true) : ((m.insert k v).get? k₀).isSome = true := by
  by_cases hk : k₀ = k
  · rw [hk, get?_insert_self]
    rfl
  · rw [get?_insert_of_ne m hk]
    exact h.resolve_left hk

theorem isSome_get?_foldl_insert {entries : List (κ × β)} {m : SortedMap κ β} {k : κ}
    (h : k ∈ entries.map (·.1) ∨ (m.get? k).isSome = true) :
    ((entries.foldl (fun m e => m.insert e.1 e.2) m).get? k).isSome = true := by
  induction entries generalizing m with
  | nil => exact h.resolve_left List.not_mem_nil
  | cons e rest ih =>
    apply ih
    rcases h with h | h
    · rcases List.mem_cons.mp h with rfl | h
      · exact .inr (isSome_get?_insert (.inl rfl))
      · exact .inl h
    · exact .inr (isSome_get?_insert (.inr h))

theorem mem_of_lookup {k : κ} {v : β} {entries : List (κ × β)} (h : lookup k entries = some v) :
    (k, v) ∈ entries := by
  induction entries with
  | nil => simp [lookup] at h
  | cons head rest ih =>
    obtain ⟨k', v'⟩ := head
    by_cases hk : k = k'
    · subst hk; simp at h; simp [h]
    · rw [lookup_cons_of_ne hk] at h; simp [ih h]

theorem lookup_of_mem {k : κ} {v : β} {entries : List (κ × β)} (hinc : Increasing entries)
    (h : (k, v) ∈ entries) : lookup k entries = some v := by
  induction entries with
  | nil => simp at h
  | cons head rest ih =>
    obtain ⟨k', v'⟩ := head
    have ⟨hhead, hrest⟩ := List.pairwise_cons.mp hinc
    rcases List.mem_cons.mp h with h | h
    · obtain ⟨rfl, rfl⟩ := Prod.mk.inj h; simp
    · have hlt : k' < k := hhead _ h
      have : k ≠ k' := fun he => Key.irrefl k (he ▸ hlt)
      rw [lookup_cons_of_ne this, ih hrest h]

theorem get?_eq_some_iff (m : SortedMap κ β) (k : κ) (v : β) :
    m.get? k = some v ↔ (k, v) ∈ m.entries :=
  ⟨mem_of_lookup, lookup_of_mem m.increasing⟩

/-- A map that is made from a list has the keys of the list. -/
theorem mem_keys_ofList {entries : List (κ × β)} {k : κ} :
    k ∈ (ofList entries).keys ↔ k ∈ entries.map (·.1) := by
  constructor
  · intro h
    obtain ⟨e, he, rfl⟩ := List.mem_map.mp h
    exact List.mem_map_of_mem (mem_of_mem_ofList he)
  · intro h
    obtain ⟨v, hv⟩ := Option.isSome_iff_exists.mp (isSome_get?_foldl_insert (.inl h))
    exact List.mem_map_of_mem (f := (·.1)) ((get?_eq_some_iff _ _ _).mp hv)

end SortedMap

instance {κ β : Type} [Key κ] [DecidableEq κ] [DecidableEq β] : DecidableEq (SortedMap κ β) :=
  fun a b =>
    if h : a.entries = b.entries then
      isTrue (by cases a; cases b; cases h; rfl)
    else isFalse fun e => h (by rw [e])

end AgentFlow.Data

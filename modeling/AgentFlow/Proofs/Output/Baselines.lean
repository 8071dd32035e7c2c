import AgentFlow.Output.Baseline
import AgentFlow.Proofs.Data.SortedMaps

/-!
# What a comparison with a baseline finds

Files are compared with the digests of earlier ones in two passes, one over the paths that there are
now and one over those of the digests.  What the passes list is told by what the two sets of files
have under each path.

* `BaselineDiff.Between`: what the differences between two sets of files are.
* `BaselineDiff.Between.unique`: **there is one list of differences of each kind.**
* `BaselineDiff.Between.not_mem_iff`: no path falls between the lists.
* `Baseline.between_compare`: **a comparison finds the differences.**
* `Baseline.compare_exact`: in both directions, and nothing is found exactly if the digests are the
  same.
-/

namespace AgentFlow

open Data

/-! ### Differences -/

namespace BaselineDiff

/-- What is added, removed and changed between the files `A` and the files `B`. -/
structure Between (A B : FileSet) (d : BaselineDiff) : Prop where
  mem_added : ∀ path, path ∈ d.added ↔ path ∈ B.keys ∧ path ∉ A.keys
  mem_removed : ∀ path, path ∈ d.removed ↔ path ∈ A.keys ∧ path ∉ B.keys
  mem_changed : ∀ path, path ∈ d.changed ↔
    ∃ a b, A.get? path = some a ∧ B.get? path = some b ∧ digestOf a ≠ digestOf b
  /-- The paths of each list increase, so that none stands twice. -/
  pairwise_added : d.added.Pairwise (· < ·)
  pairwise_removed : d.removed.Pairwise (· < ·)
  pairwise_changed : d.changed.Pairwise (· < ·)

/-- The differences in the other direction. -/
def swap (d : BaselineDiff) : BaselineDiff := ⟨d.removed, d.added, d.changed⟩

variable {A B : FileSet} {d d' : BaselineDiff}

theorem Between.swap (h : Between A B d) : Between B A d.swap where
  mem_added := h.mem_removed
  mem_removed := h.mem_added
  mem_changed := by
    intro path
    rw [BaselineDiff.swap, h.mem_changed]
    constructor
    · rintro ⟨a, b, ha, hb, hne⟩
      exact ⟨b, a, hb, ha, hne.symm⟩
    · rintro ⟨b, a, hb, ha, hne⟩
      exact ⟨a, b, ha, hb, hne.symm⟩
  pairwise_added := h.pairwise_removed
  pairwise_removed := h.pairwise_added
  pairwise_changed := h.pairwise_changed

/-- **Two sets of files have one list of differences of each kind.** -/
theorem Between.unique (h : Between A B d) (h' : Between A B d') : d = d' := by
  have hantisymm : Std.Antisymm fun a b : String => a < b :=
    ⟨fun a b hab hba => absurd (Key.trans hab hba) (Key.irrefl a)⟩
  obtain ⟨added, removed, changed⟩ := d
  obtain ⟨added', removed', changed'⟩ := d'
  have hadded : added = added' := h.pairwise_added.eq_of_mem_iff h'.pairwise_added
    fun path => (h.mem_added path).trans (h'.mem_added path).symm
  have hremoved : removed = removed' := h.pairwise_removed.eq_of_mem_iff h'.pairwise_removed
    fun path => (h.mem_removed path).trans (h'.mem_removed path).symm
  have hchanged : changed = changed' := h.pairwise_changed.eq_of_mem_iff h'.pairwise_changed
    fun path => (h.mem_changed path).trans (h'.mem_changed path).symm
  rw [hadded, hremoved, hchanged]

/-- **What is listed nowhere is under the same digest in both, or in neither.** -/
theorem Between.not_mem_iff (h : Between A B d) (path : String) :
    (path ∉ d.added ∧ path ∉ d.removed ∧ path ∉ d.changed) ↔
      (A.get? path).map digestOf = (B.get? path).map digestOf := by
  rw [h.mem_added, h.mem_removed, h.mem_changed, SortedMap.mem_keys_iff, SortedMap.mem_keys_iff]
  cases A.get? path with
  | none => cases B.get? path <;> simp
  | some a => cases B.get? path <;> simp

theorem Between.isClean_iff (h : Between A B d) :
    d.isClean = true ↔ ∀ path, (A.get? path).map digestOf = (B.get? path).map digestOf := by
  simp only [← h.not_mem_iff, forall_and, ← List.eq_nil_iff_forall_not_mem]
  rw [isClean, Bool.and_eq_true, Bool.and_eq_true, List.isEmpty_iff, List.isEmpty_iff,
    List.isEmpty_iff, and_assoc]

end BaselineDiff

/-! ### Comparisons -/

namespace Baseline

variable (A B : FileSet)

theorem keys_capture : (capture A).digests.keys = A.keys := SortedMap.keys_mapValues _ A

theorem get?_capture (path : String) :
    (capture A).digests.get? path = (A.get? path).map digestOf := SortedMap.get?_mapValues _ A path

theorem mem_entries_capture (path digest : String) :
    (path, digest) ∈ (capture A).digests.entries ↔
      ∃ content, A.get? path = some content ∧ digestOf content = digest := by
  rw [← SortedMap.get?_eq_some_iff, get?_capture, Option.map_eq_some_iff]

/-- **A comparison finds the differences between the files.** -/
theorem between_compare : BaselineDiff.Between A B ((capture A).compare B) where
  mem_added path := by
    simp only [compare, List.mem_filter, Option.isNone_iff_eq_none, SortedMap.get?_eq_none_iff,
      keys_capture]
  mem_removed path := by
    simp only [compare, List.mem_filter, Option.isNone_iff_eq_none, SortedMap.get?_eq_none_iff,
      keys_capture]
  mem_changed path := by
    simp only [compare, List.mem_map, List.mem_filter, get?_capture, Prod.exists,
      mem_entries_capture]
    constructor
    · rintro ⟨k, digest, ⟨⟨b, hb, rfl⟩, hdiffers⟩, rfl⟩
      cases ha : A.get? k with
      | none =>
        rw [ha] at hdiffers
        exact absurd hdiffers Bool.false_ne_true
      | some a =>
        rw [ha] at hdiffers
        exact ⟨a, b, rfl, hb, bne_iff_ne.mp hdiffers⟩
    · rintro ⟨a, b, ha, hb, hne⟩
      refine ⟨path, digestOf b, ⟨⟨b, hb, rfl⟩, ?_⟩, rfl⟩
      rw [ha]
      exact bne_iff_ne.mpr hne
  pairwise_added := (SortedMap.pairwise_keys _).filter _
  pairwise_removed := (SortedMap.pairwise_keys _).filter _
  pairwise_changed := List.pairwise_map.mpr ((capture B).digests.increasing.filter _)

/-! ### No differences -/

variable {A B}

/-- Two sets of files have the same digests exactly if they have the same one under each path. -/
theorem capture_eq_capture_iff :
    capture A = capture B ↔ ∀ path, (A.get? path).map digestOf = (B.get? path).map digestOf := by
  simp only [← get?_capture]
  constructor
  · intro heq path
    rw [heq]
  · intro h
    exact congrArg Baseline.mk (SortedMap.ext_get? h)

/-- The digest tells different contents apart that `A` and `B` have under one path.  It cannot tell
all texts apart, since its values are of one length. -/
def TellsApart (A B : FileSet) : Prop :=
  ∀ path a b, A.get? path = some a → B.get? path = some b → digestOf a = digestOf b → a = b

theorem tellsApart_iff : TellsApart A B ↔ ∀ e ∈ A.entries, ∀ e' ∈ B.entries,
    e.1 = e'.1 → digestOf e.2 = digestOf e'.2 → e.2 = e'.2 := by
  simp only [TellsApart, SortedMap.get?_eq_some_iff]
  constructor
  · rintro h ⟨path, a⟩ ha ⟨path', b⟩ hb rfl hsame
    exact h path a b ha hb hsame
  · intro h path a b ha hb hsame
    exact h (path, a) ha (path, b) hb rfl hsame

instance : Decidable (TellsApart A B) := decidable_of_iff _ tellsApart_iff.symm

/-- Where the digest tells the contents apart, only the same files have the same digests. -/
theorem TellsApart.capture_eq_iff (h : TellsApart A B) : capture A = capture B ↔ A = B := by
  rw [capture_eq_capture_iff]
  constructor
  · intro hdigest
    refine SortedMap.ext_get? ?_
    intro path
    have hpath := hdigest path
    cases ha : A.get? path with
    | none =>
      rw [ha] at hpath
      exact (Option.map_eq_none_iff.mp hpath.symm).symm
    | some a =>
      rw [ha] at hpath
      obtain ⟨b, hb, hsame⟩ := Option.map_eq_some_iff.mp hpath.symm
      rw [hb, h path a b ha hb hsame.symm]
  · intro heq path
    rw [heq]

/-- **A comparison finds exactly what differs.**  It lists the paths that are only in `B`, those
only in `A` and those whose contents have other digests, each list in order and without repeats.
In the other direction what is added and what is removed change places.  Nothing is found exactly if
the digests are the same, which means that the files are if no two contents share a digest. -/
theorem compare_exact (A B : FileSet) :
    BaselineDiff.Between A B ((capture A).compare B) ∧
      (capture B).compare A = ((capture A).compare B).swap ∧
      (((capture A).compare B).isClean = true ↔ capture A = capture B) ∧
      (TellsApart A B → (((capture A).compare B).isClean = true ↔ A = B)) := by
  have hclean : ((capture A).compare B).isClean = true ↔ capture A = capture B :=
    (between_compare A B).isClean_iff.trans capture_eq_capture_iff.symm
  refine ⟨between_compare A B, ?_, hclean, ?_⟩
  · exact (between_compare B A).unique (between_compare A B).swap
  · intro htells
    exact hclean.trans htells.capture_eq_iff

/-- Two files, from which a baseline is captured. -/
def draftFiles : FileSet := .ofList [("nodes.py", "a"), ("flow.py", "b")]

/-- Two files of which one has another content and one a new path. -/
def driftedFiles : FileSet := .ofList [("nodes.py", "a2"), ("tasks.md", "c")]

theorem compare_exact_drift :
    (capture draftFiles).compare driftedFiles = ⟨["tasks.md"], ["flow.py"], ["nodes.py"]⟩ ∧
      (capture driftedFiles).compare draftFiles = ⟨["flow.py"], ["tasks.md"], ["nodes.py"]⟩ ∧
      TellsApart draftFiles driftedFiles ∧
      (((capture draftFiles).compare driftedFiles).isClean = true ↔ draftFiles = driftedFiles) := by
  have hfound : (capture draftFiles).compare driftedFiles =
      ⟨["tasks.md"], ["flow.py"], ["nodes.py"]⟩ := by
    decide +kernel
  have htells : TellsApart draftFiles driftedFiles := by
    decide +kernel
  obtain ⟨-, hswap, -, hclean⟩ := compare_exact draftFiles driftedFiles
  refine ⟨hfound, ?_, htells, hclean htells⟩
  rw [hswap, hfound]
  rfl

end Baseline

end AgentFlow

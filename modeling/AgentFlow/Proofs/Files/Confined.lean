import AgentFlow.Proofs.Files.Paths

/-!
# Confined changes

What an activity does to a tree is read off the tree before and the tree after, whether it came to
its end or stopped at a fault.

* `Tree.Confined`: all changes lie at a place or below it, apart from directories that were missing
  on the way to it.
* `Tree.Confined.trans`: changes one after another.
* `Disk.perform_bind_eq_ok_iff`, `Disk.after_bind`: two activities, at their end and in between.
* `Disk.makeSteps_changes`, `Disk.write_cases`: what making directories and writing a file change.
* `Disk.confined_makeDirectory`, `Disk.confined_makeParent`, `Disk.confined_writeText`: **work at
  contained paths is confined.**
-/

namespace AgentFlow.Files

variable {α β : Type}

/-! ### Ways and changes -/

namespace Tree

/-- The places that steps lead through from a directory, up to the last one. -/
def way (p : Place) : List String → List Place
  | [] => []
  | step :: rest => next p step :: way (next p step) rest

theorem way_append (p : Place) (as bs : List String) :
    way p (as ++ bs) = way p as ++ way (as.foldl next p) bs := by
  induction as generalizing p with
  | nil => rfl
  | cons step rest ih => rw [List.cons_append, way, ih, way, List.cons_append, List.foldl_cons]

theorem prefix_of_mem_way {p q : Place} {ss : List String} (h : ∀ step ∈ ss, IsPlainStep step)
    (hq : q ∈ way p ss) : p <+: q := by
  induction ss generalizing p with
  | nil => exact absurd hq List.not_mem_nil
  | cons step rest ih =>
    rw [List.forall_mem_cons] at h
    have hstep : p <+: next p step := by
      rw [next_of_isPlainStep h.1]
      exact List.prefix_append _ _
    rcases List.mem_cons.mp hq with rfl | hq
    · exact hstep
    · exact hstep.trans (ih h.2 hq)

theorem mem_way_of_mem_dropLast {p q : Place} {ss : List String} (h : q ∈ way p ss.dropLast) :
    q ∈ way p ss := by
  rcases List.eq_nil_or_concat ss with rfl | ⟨init, step, rfl⟩
  · exact h
  · rw [List.concat_eq_append, List.dropLast_concat] at h
    rw [List.concat_eq_append, way_append]
    exact List.mem_append_left _ h

/-- What is different in the second tree lies at `root` or below it, apart from directories on the
way to it that were missing; and no file is gone. -/
structure Confined (root : Place) (trail : List Place) (t t' : Tree) : Prop where
  outside : ∀ q, t'.get? q = t.get? q ∨ root <+: q ∨
    q ∈ trail ∧ t.get? q = none ∧ t'.get? q = some .directory
  files : ∀ q c, t.get? q = some (.file c) → ∃ c', t'.get? q = some (.file c')

namespace Confined

variable {root : Place} {trail : List Place} {t t' t'' : Tree}

theorem refl (t : Tree) : Confined root trail t t :=
  ⟨fun _ => .inl rfl, fun _ c h => ⟨c, h⟩⟩

theorem trans (h : Confined root trail t t') (h' : Confined root trail t' t'') :
    Confined root trail t t'' := by
  refine ⟨?_, ?_⟩
  · intro q
    rcases h.outside q with heq | hroot | ⟨htrail, hnone, hmade⟩
    · rw [← heq]
      exact h'.outside q
    · exact .inr (.inl hroot)
    · rcases h'.outside q with heq' | hroot | ⟨-, hnone', -⟩
      · exact .inr (.inr ⟨htrail, hnone, heq'.trans hmade⟩)
      · exact .inr (.inl hroot)
      · exact absurd (hmade.symm.trans hnone') nofun
  · intro q c hc
    obtain ⟨c', hc'⟩ := h.files q c hc
    exact h'.files q c' hc'

end Confined

end Tree

/-! ### Activities -/

namespace Disk

open Files.Tree

/-- What an activity answers, and the tree that it leaves. -/
def perform (work : Disk α) (t : Tree) : Except Fault α × Tree := work.run.run t

theorem perform_bind (work : Disk α) (more : α → Disk β) (t : Tree) :
    perform (work >>= more) t =
      match perform work t with
      | (.ok a, t') => perform (more a) t'
      | (.error f, t') => (.error f, t') := by
  rcases hwork : perform work t with ⟨f | a, t'⟩
  all_goals
    unfold perform at hwork ⊢
    rw [ExceptT.run_bind, StateT.run_bind, hwork]
    rfl

/-- Two activities come to their end together if each of them does. -/
theorem perform_bind_eq_ok_iff {work : Disk α} {more : α → Disk β} {t t' : Tree} {b : β} :
    perform (work >>= more) t = (.ok b, t') ↔
      ∃ a t₁, perform work t = (.ok a, t₁) ∧ perform (more a) t₁ = (.ok b, t') := by
  rw [perform_bind]
  rcases perform work t with ⟨f | a, t₁⟩
  · simp
  · simp only [Prod.mk.injEq, Except.ok.injEq, and_assoc, exists_and_left, exists_eq_left']

theorem perform_get_bind (more : Tree → Disk α) (t : Tree) :
    perform (get >>= more) t = perform (more t) t := rfl

theorem perform_modify_bind (f : Tree → Tree) (more : Unit → Disk α) (t : Tree) :
    perform (modify f >>= more) t = perform (more ()) (f t) := rfl

def after (work : Disk α) (t : Tree) : Tree := (perform work t).2

/-- What two activities one after the other keep. -/
theorem after_bind {R : Tree → Tree → Prop} (htrans : ∀ {t t' t''}, R t t' → R t' t'' → R t t'')
    {work : Disk α} {more : α → Disk β} (hwork : ∀ t, R t (work.after t))
    (hmore : ∀ a t, R t ((more a).after t)) (t : Tree) : R t ((work >>= more).after t) := by
  have hfirst := hwork t
  rw [after] at hfirst ⊢
  rw [perform_bind]
  rcases h : perform work t with ⟨f | a, t'⟩ <;> rw [h] at hfirst
  · exact hfirst
  · exact htrans hfirst (hmore a t')

/-! ### Making directories -/

/-- Directories are made on the way of the steps, where nothing was. -/
theorem makeSteps_changes (p : Place) (ss : List String) (t : Tree) (q : Place) :
    ((makeSteps p ss).after t).get? q = t.get? q ∨
      q ∈ way p ss ∧ t.get? q = none ∧ ((makeSteps p ss).after t).get? q = some .directory := by
  induction ss generalizing p t with
  | nil => exact .inl rfl
  | cons step rest ih =>
    rw [after, makeSteps, perform_get_bind]
    cases hentry : t.get? (next p step) with
    | none =>
      dsimp only
      split
      · next hname =>
        rw [perform_modify_bind, ← after]
        -- The root is always a directory, so what is missing is another place.
        have hne : next p step ≠ [] := by
          intro hroot
          rw [hroot, get?, if_pos rfl] at hentry
          exact Option.some_ne_none _ hentry
        by_cases hq : q = next p step
        · subst hq
          have hmade := t.get?_put_self hne .directory
          refine .inr ⟨List.mem_cons_self, hentry, ?_⟩
          rcases ih (next p step) (t.put (next p step) .directory) with heq | ⟨-, hnone, -⟩
          · exact heq.trans hmade
          · exact absurd (hmade.symm.trans hnone) (Option.some_ne_none _)
        · rw [← t.get?_put_of_ne hq .directory]
          exact (ih (next p step) _).imp_right (And.imp_left (List.mem_cons_of_mem _))
      · exact .inl rfl
    | some e =>
      cases e with
      | directory => exact (ih (next p step) t).imp_right (And.imp_left (List.mem_cons_of_mem _))
      | file c => exact .inl rfl

/-! ### Writing files -/

theorem enter_eq_ok {t : Tree} {p q : Place} {ss : List String} (h : t.enter p ss = .ok q) :
    q = ss.foldl next p := by
  induction ss generalizing p with
  | nil => exact (Except.ok.inj h).symm
  | cons step rest ih =>
    rw [enter] at h
    split at h
    · exact ih h
    · exact absurd h nofun
    · exact absurd h nofun

theorem isPlainStep_of_isName {step : String} (h : isName step = true) : IsPlainStep step := by
  simp only [isName, Bool.and_eq_true, bne_iff_ne] at h
  exact ⟨h.1.1.1.1, h.1.1.1.2, h.1.1.2⟩

theorem rawSteps_eq (path : String) :
    rawSteps path = (rawSteps path).dropLast ++ [(rawSteps path).getLastD ""] := by
  have hne : rawSteps path ≠ [] := by
    rw [rawSteps, Text.pieces, ne_eq, List.map_eq_nil_iff]
    exact Text.splitWhere_ne_nil _ _
  rw [List.getLastD_eq_getLast?, List.getLast?_eq_some_getLast hne, Option.getD_some,
    List.dropLast_concat_getLast]

/-- A file is written at the end of its path, where no directory is. -/
theorem write_cases (path : String) (content : ByteArray) (t : Tree) :
    perform (write path content) t = (.error .io, t) ∨
      perform (write path content) t = (.ok (), t.put (placeOf path) (.file content)) ∧
        placeOf path ≠ [] ∧ t.get? (placeOf path) ≠ some .directory := by
  rw [write, perform_get_bind]
  dsimp only
  split
  · exact .inl rfl
  · next p hp =>
    split
    · next hname =>
      rw [Bool.and_eq_true, Bool.not_eq_true'] at hname
      have hplace : placeOf path = p ++ [(rawSteps path).getLastD ""] := by
        have hlast := next_of_isPlainStep (isPlainStep_of_isName hname.1) p
        have hsplit := congrArg (List.foldl next []) (rawSteps_eq path)
        rw [List.foldl_append, ← enter_eq_ok hp] at hsplit
        exact hsplit.trans hlast
      rw [hplace]
      refine .inr ⟨rfl, by simp, ?_⟩
      intro hdirectory
      rw [hasDirectory, hdirectory] at hname
      exact absurd hname.2 nofun
    · exact .inl rfl

theorem write_eq_ok {path : String} {content : ByteArray} {t t' : Tree}
    (h : perform (write path content) t = (.ok (), t')) :
    t' = t.put (placeOf path) (.file content) ∧ placeOf path ≠ [] := by
  rcases write_cases path content t with hfault | ⟨hok, hne, -⟩
  · exact absurd (congrArg Prod.fst (hfault.symm.trans h)) (by simp)
  · exact ⟨congrArg Prod.snd (h.symm.trans hok), hne⟩

/-! ### Work at contained paths -/

variable {root : Place} {trail : List Place}

theorem confined_makeSteps {ss : List String}
    (h : ∀ q ∈ way [] ss, root <+: q ∨ q ∈ trail) (t : Tree) :
    Confined root trail t ((makeSteps [] ss).after t) := by
  refine ⟨?_, ?_⟩
  · intro q
    rcases makeSteps_changes [] ss t q with heq | ⟨hway, hchange⟩
    · exact .inl heq
    · rcases h q hway with hroot | htrail
      · exact .inr (.inl hroot)
      · exact .inr (.inr ⟨htrail, hchange⟩)
  · intro q c hc
    rcases makeSteps_changes [] ss t q with heq | ⟨-, hnone, -⟩
    · exact ⟨c, heq.trans hc⟩
    · exact absurd (hc.symm.trans hnone) nofun

theorem confined_write {path : String} (h : root <+: placeOf path) (content : ByteArray)
    (t : Tree) : Confined root trail t ((write path content).after t) := by
  rw [after]
  rcases write_cases path content t with heq | ⟨heq, hne, -⟩
  · rw [heq]
    exact .refl t
  · rw [heq]
    refine ⟨?_, ?_⟩
    · intro q
      by_cases hq : q = placeOf path
      · exact .inr (.inl (hq ▸ h))
      · exact .inl (t.get?_put_of_ne hq _)
    · intro q c hc
      by_cases hq : q = placeOf path
      · subst hq
        exact ⟨content, t.get?_put_self hne _⟩
      · exact ⟨c, (t.get?_put_of_ne hq _).trans hc⟩

/-- A directory is made with the missing ones on the way to it. -/
theorem confined_makeDirectory (path : String) (t : Tree) :
    Confined (placeOf path) (way [] (plainSteps path)) t ((makeDirectory path).after t) :=
  confined_makeSteps (fun _ => .inr) t

/-- **For a contained path, directories are made below the one that it is seen from.** -/
theorem confined_makeParent {base path : String} (h : isContained path = true) (t : Tree) :
    Confined (placeOf base) (way [] (plainSteps base)) t
      ((makeParent (joinPath base path)).after t) := by
  refine confined_makeSteps ?_ t
  intro q hq
  have hq := mem_way_of_mem_dropLast hq
  rw [plainSteps_joinPath (startsWith_of_isContained h), way_append] at hq
  rcases List.mem_append.mp hq with hq | hq
  · exact .inr hq
  · rw [← placeOf_eq] at hq
    exact .inl (prefix_of_mem_way (isPlainStep_of_isContained h) hq)

/-- **A file at a contained path is written below the directory that it is seen from.** -/
theorem confined_writeText {base path : String} (h : isContained path = true) (text : String)
    (t : Tree) :
    Confined (placeOf base) trail t ((writeText (joinPath base path) text).after t) := by
  refine confined_write ?_ _ t
  rw [placeOf_joinPath h]
  exact List.prefix_append _ _

end Disk

end AgentFlow.Files

import AgentFlow.Lint.Detect
import AgentFlow.Proofs.Lint.SharedAccesses

/-!
# Changes of the shared store

A utility gets the shared store as an argument and must not change it.  What counts as a change is
told by a node and its direct target, so that a statement with several targets may write to an item
of the store and not count.

* `rootName?_eq_some_iff`: the root of a chain of subscripts and attributes.
* `WritesItem`: what writes to an item are, `ChangesInPlace`: what the readings count.
* `WritesItem.changes_iff`: **a write counts if and only if the item is a target of its own.**
* `mem_mutations_functionFacts`: the changes in a body, at any depth.
* `mutations_exact`: **a check reports the utilities that change an argument, each once.**
-/

namespace AgentFlow.Lint

open Code

/-! ### Roots and items -/

/-- The tree is a name, or a chain of subscripts and attributes behind it. -/
inductive RootedAt (s : String) : Tree → Prop
  | name {t : Tree} (htype : t.type = .identifier) (htext : t.text = s) : RootedAt s t
  | item {t v : Tree} (htype : t.type = .subscript) (hv : t.child? .value = some v)
      (h : RootedAt s v) : RootedAt s t
  | part {t o : Tree} (htype : t.type = .attribute) (ho : t.child? .object = some o)
      (h : RootedAt s o) : RootedAt s t

theorem rootOfPart_eq (r : Role) (ts : List Tree) :
    rootOfPart r ts = (ts.find? (·.role == r)).bind rootName? := by
  induction ts with
  | nil => rfl
  | cons t ts ih =>
    rw [rootOfPart, List.find?_cons]
    cases t.role == r with
    | true => rfl
    | false => exact ih

theorem rootName?_eq_some_iff {s : String} {t : Tree} :
    rootName? t = some s ↔ RootedAt s t := by
  constructor
  · induction t using Tree.ind with
    | h ty r l m text cs ih =>
      intro h
      have hpart : ∀ role, rootOfPart role cs = some s →
          ∃ c, (Code.Tree.node ty r l m text cs).child? role = some c ∧ RootedAt s c := by
        intro role hrole
        rw [rootOfPart_eq] at hrole
        obtain ⟨c, hc, hname⟩ := Option.bind_eq_some_iff.mp hrole
        exact ⟨c, hc, ih c (List.mem_of_find?_eq_some hc) hname⟩
      by_cases hname : ty = .identifier
      · subst hname
        exact .name rfl (Option.some.inj h)
      by_cases hitem : ty = .subscript
      · subst hitem
        obtain ⟨c, hc, hroot⟩ := hpart .value h
        exact .item rfl hc hroot
      by_cases hmember : ty = .attribute
      · subst hmember
        obtain ⟨c, hc, hroot⟩ := hpart .object h
        exact .part rfl hc hroot
      cases ty <;> contradiction
  · intro h
    induction h with
    | @name t htype htext =>
      obtain ⟨ty, r, l, m, text, cs⟩ := t
      obtain rfl : ty = .identifier := htype
      exact congrArg some htext
    | @item t v htype hv h ih =>
      obtain ⟨ty, r, l, m, text, cs⟩ := t
      obtain rfl : ty = .subscript := htype
      rw [rootName?, rootOfPart_eq]
      exact Option.bind_eq_some_iff.mpr ⟨v, hv, ih⟩
    | @part t o htype ho h ih =>
      obtain ⟨ty, r, l, m, text, cs⟩ := t
      obtain rfl : ty = .attribute := htype
      rw [rootName?, rootOfPart_eq]
      exact Option.bind_eq_some_iff.mpr ⟨o, ho, ih⟩

theorem mutationOf_eq_some_iff {t : Tree} {m : Located String} :
    mutationOf t = some m ↔ RootedAt m.value t ∧ m.line = t.line := by
  obtain ⟨s, line⟩ := m
  rw [mutationOf, Option.map_eq_some_iff]
  constructor
  · rintro ⟨s', hs, heq⟩
    obtain ⟨rfl, rfl⟩ := Located.mk.inj heq
    exact ⟨rootName?_eq_some_iff.mp hs, rfl⟩
  · rintro ⟨hroot, rfl⟩
    exact ⟨s, rootName?_eq_some_iff.mpr hroot, rfl⟩

/-- The tree is an item of what `s` names, such as `s[k]` or `s.a[k]`. -/
def IsItem (s : String) (t : Tree) : Prop := t.type = .subscript ∧ RootedAt s t

/-! ### Writes to items -/

/-- A target, or one of the targets that it is made of: those between commas or in brackets, and the
one behind a star. -/
inductive TargetIn (target : Tree) : Tree → Prop
  | self : TargetIn target target
  | part {t c : Tree} (htype : t.type = .sequence ∨ t.type = .starred) (hc : c ∈ t.children)
      (h : TargetIn target c) : TargetIn target t

/-- The node assigns to an item of what `s` names, augments or deletes it, as the only target or as
one of several. -/
inductive WritesItem (s : String) (n : Tree) : Prop
  | assigns {left target : Tree} (htype : n.type = .assignment) (hleft : n.child? .left = some left)
      (htarget : TargetIn target left) (hitem : IsItem s target)
  | deletes {c target : Tree} (htype : n.type = .deleteStatement) (hc : c ∈ n.children)
      (htarget : TargetIn target c) (hitem : IsItem s target)

/-- The node writes to an item of what `s` names, and the item is a target of its own. -/
inductive WritesItemAlone (s : String) (n : Tree) : Prop
  | assigns {left : Tree} (htype : n.type = .assignment) (hleft : n.child? .left = some left)
      (hitem : IsItem s left)
  | deletes {c : Tree} (htype : n.type = .deleteStatement) (hc : c ∈ n.children)
      (hitem : IsItem s c)

/-- The change in place that the node makes: an assignment to an item or an attribute, a deletion of
an item, or a call of a changing method. -/
inductive ChangesInPlace (n : Tree) (m : Located String) : Prop
  | assigns {left : Tree} (htype : n.type = .assignment) (hleft : n.child? .left = some left)
      (hkind : left.type = .subscript ∨ left.type = .attribute) (hroot : RootedAt m.value left)
      (hline : m.line = left.line)
  | deletes {c : Tree} (htype : n.type = .deleteStatement) (hc : c ∈ n.children)
      (hitem : IsItem m.value c) (hline : m.line = c.line)
  | calls {f method : Tree} (htype : n.type = .call) (hf : n.child? .function = some f)
      (hkind : f.type = .attribute) (hmethod : f.child? .attribute = some method)
      (hname : method.text ∈ mutatingMethods) (hroot : RootedAt m.value f)
      (hline : m.line = f.line)

theorem mem_mutationsAt_iff {n : Tree} {m : Located String} :
    m ∈ mutationsAt n ↔ ChangesInPlace n m := by
  rw [mutationsAt]
  constructor
  · intro h
    split at h
    · next htype =>
      split at h
      · next f hf =>
        dsimp only at h
        split at h
        · next hboth =>
          simp only [Bool.and_eq_true, beq_iff_eq, List.contains_iff_mem] at hboth
          obtain ⟨hroot, hline⟩ := mutationOf_eq_some_iff.mp (Option.mem_toList.mp h)
          cases hmethod : f.child? .attribute with
          | none =>
            rw [hmethod] at hboth
            exact absurd hboth.2 (by decide)
          | some method =>
            rw [hmethod] at hboth
            exact .calls htype hf hboth.1 hmethod hboth.2 hroot hline
        · exact absurd h List.not_mem_nil
      · exact absurd h List.not_mem_nil
    · next htype =>
      split at h
      · next left hleft =>
        split at h
        · next hkind =>
          simp only [Bool.or_eq_true, beq_iff_eq] at hkind
          obtain ⟨hroot, hline⟩ := mutationOf_eq_some_iff.mp (Option.mem_toList.mp h)
          exact .assigns htype hleft hkind hroot hline
        · exact absurd h List.not_mem_nil
      · exact absurd h List.not_mem_nil
    · next htype =>
      obtain ⟨c, hc, hm⟩ := List.mem_filterMap.mp h
      obtain ⟨hmem, hkind⟩ := List.mem_filter.mp hc
      obtain ⟨hroot, hline⟩ := mutationOf_eq_some_iff.mp hm
      exact .deletes htype hmem ⟨by simpa using hkind, hroot⟩ hline
    · exact absurd h List.not_mem_nil
  · rintro (⟨htype, hleft, hkind, hroot, hline⟩ | ⟨htype, hc, hitem, hline⟩ |
      ⟨htype, hf, hkind, hmethod, hname, hroot, hline⟩)
    · rw [htype, hleft]
      dsimp only
      rw [if_pos (by simpa using hkind), Option.mem_toList]
      exact mutationOf_eq_some_iff.mpr ⟨hroot, hline⟩
    · rw [htype]
      exact List.mem_filterMap.mpr ⟨_, List.mem_filter.mpr ⟨hc, by simpa using hitem.1⟩,
        mutationOf_eq_some_iff.mpr ⟨hitem.2, hline⟩⟩
    · rw [htype, hf]
      dsimp only
      rw [if_pos (by simp [hkind, hmethod, hname]), Option.mem_toList]
      exact mutationOf_eq_some_iff.mpr ⟨hroot, hline⟩

theorem WritesItemAlone.changes {s : String} {n : Tree} (h : WritesItemAlone s n) :
    ∃ line, ChangesInPlace n ⟨s, line⟩ := by
  cases h with
  | assigns htype hleft hitem => exact ⟨_, .assigns htype hleft (.inl hitem.1) hitem.2 rfl⟩
  | deletes htype hc hitem => exact ⟨_, .deletes htype hc hitem rfl⟩

/-- A target that has no parts is a target of its own. -/
theorem TargetIn.eq {target t : Tree} (h : TargetIn target t)
    (htype : t.type = .subscript ∨ t.type = .attribute) : target = t := by
  cases h with
  | self => rfl
  | part hparts => rcases htype with htype | htype <;> simp [htype] at hparts

/-- **A write to an item counts as a change if and only if the item is a target of its own.** -/
theorem WritesItem.changes_iff {s : String} {n : Tree} (h : WritesItem s n) :
    (∃ line, ChangesInPlace n ⟨s, line⟩) ↔ WritesItemAlone s n := by
  constructor
  · rintro ⟨line, hchanges⟩
    cases hchanges with
    | assigns htype hleft hkind hroot hline =>
      cases h with
      | assigns _ hleft' htarget hitem =>
        obtain rfl := Option.some.inj (hleft.symm.trans hleft')
        obtain rfl := htarget.eq hkind
        exact .assigns htype hleft hitem
      | deletes htype' => exact absurd (htype.symm.trans htype') nofun
    | deletes htype hc hitem hline => exact .deletes htype hc hitem
    | calls htype =>
      cases h with
      | assigns htype' => exact absurd (htype.symm.trans htype') nofun
      | deletes htype' => exact absurd (htype.symm.trans htype') nofun
  · exact WritesItemAlone.changes

/-! ### Changes in a body -/

/-- **The changes in a body are those of its nodes, at any depth.** -/
theorem mem_mutations_functionFacts {f : Tree} {m : Located String} :
    m ∈ (functionFacts f).mutations ↔
      ∃ body p n, f.child? .body = some body ∧ body.at? p = some n ∧ ChangesInPlace n m := by
  rw [functionFacts]
  cases f.child? .body with
  | none => simp
  | some body =>
    simp only [Tree.nodesIn_eq, List.map_filterMap, Tree.map_place?, List.mem_flatMap,
      List.mem_filterMap, mem_mutationsAt_iff, Option.some.injEq, existsAndEq, true_and]
    constructor
    · rintro ⟨n, ⟨p, -, hp⟩, hm⟩
      exact ⟨p, n, hp, hm⟩
    · rintro ⟨p, n, hp, hm⟩
      exact ⟨n, ⟨p, Tree.mem_addresses.mpr (by rw [hp]; rfl), hp⟩, hm⟩

def changedArgument? (f : FunctionFacts) : Option (Located String) :=
  f.mutations.find? fun m => (f.parameters.filter sharedNames.contains).contains m.value

theorem isSome_changedArgument? {f : FunctionFacts} :
    (changedArgument? f).isSome = true ↔
      ∃ m ∈ f.mutations, m.value ∈ f.parameters ∧ m.value ∈ sharedNames := by
  simp [changedArgument?, List.mem_filter]

/-! ### What a check finds -/

/-- The finding about a function outside classes that changes an argument. -/
def mutationFinding (path : String) (f : FunctionFacts) (m : Located String) : Violation :=
  .of .sharedStateMutationInUtility path m.line
    ("Utility '" ++ f.name ++ "' mutates its '" ++ m.value ++ "' argument")
    "Return values from the utility and write them to the shared store in post"

/-- Whether a violation is a finding about a change of an argument. -/
def isMutationFinding (v : Violation) : Bool :=
  v.ruleId == Rule.sharedStateMutationInUtility.id

section Check

variable (path : String) (s : DetectionSettings)

theorem isMutationFinding_other {r : Rule} (hr : r ≠ .sharedStateMutationInUtility)
    {severity : Severity} {path message suggestion : String} {line : Nat} :
    isMutationFinding (.withSeverity r severity path line message suggestion) = false := by
  have hids : ∀ r : Rule, r ≠ .sharedStateMutationInUtility →
      (r.id == Rule.sharedStateMutationInUtility.id) = false := by
    intro r
    cases r <;> decide
  exact hids r hr

theorem checkExec_other (c : ClassFacts) (f : FunctionFacts) :
    ∀ v ∈ checkExec path s c f, isMutationFinding v = false := by
  simp only [checkExec, List.forall_mem_append]
  refine ⟨⟨?_, ?_⟩, ?_⟩
  · split <;> simp [isMutationFinding_other, Violation.of]
  · split_ifs <;> simp [isMutationFinding_other, Violation.of]
  · intro v hv
    obtain ⟨t, -, hv⟩ := List.mem_flatMap.mp hv
    split at hv
    · exact absurd hv List.not_mem_nil
    · obtain rfl := List.mem_singleton.mp hv
      exact isMutationFinding_other (by decide)

theorem checkAround_other (c : ClassFacts) (f : FunctionFacts) :
    ∀ v ∈ checkAround path s c f, isMutationFinding v = false := by
  rw [checkAround]
  split_ifs <;> simp [isMutationFinding_other, Violation.of]

/-- The rules on nodes find no changes of arguments. -/
theorem checkNode_other (c : ClassFacts) :
    ∀ v ∈ checkNode path s c, isMutationFinding v = false := by
  simp only [checkNode, List.forall_mem_append]
  refine ⟨⟨⟨?_, ?_⟩, ?_⟩, ?_⟩
  · split_ifs <;> simp [isMutationFinding_other, Violation.of]
  · intro v hv
    obtain ⟨f, -, hv⟩ := List.mem_flatMap.mp hv
    exact checkExec_other path s c f v hv
  · intro v hv
    obtain ⟨f, -, hv⟩ := List.mem_flatMap.mp hv
    exact checkAround_other path s c f v hv
  · split <;> simp [isMutationFinding_other, Violation.of]

theorem filter_checkUtility (f : FunctionFacts) :
    (checkUtility path s f).filter isMutationFinding =
      ((changedArgument? f).map (mutationFinding path f)).toList := by
  rw [checkUtility, List.filter_append]
  have hlogic : ∀ {logic : List Violation}, (∀ v ∈ logic, isMutationFinding v = false) →
      logic.filter isMutationFinding = [] := by
    intro logic h
    exact List.filter_eq_nil_iff.mpr fun v hv => by simp [h v hv]
  rw [hlogic (by split_ifs <;> simp [isMutationFinding_other, Violation.of]), List.nil_append]
  cases h : changedArgument? f <;> rw [changedArgument?] at h <;> simp only [h] <;> rfl

/-- A check reports the functions outside classes that change an argument, each once. -/
theorem filter_check (facts : SourceFacts) :
    ((check path s facts).filter isMutationFinding).Perm
      (facts.functions.filterMap fun f => (changedArgument? f).map (mutationFinding path f)) := by
  have hnodes : ((facts.classes.filter (·.isNode)).flatMap (checkNode path s)).filter
      isMutationFinding = [] := by
    refine List.filter_eq_nil_iff.mpr fun v hv => ?_
    obtain ⟨c, -, hv⟩ := List.mem_flatMap.mp hv
    simp [checkNode_other path s c v hv]
  have hall : ((facts.classes.filter (·.isNode)).flatMap (checkNode path s) ++
      facts.functions.flatMap (checkUtility path s)).filter isMutationFinding =
        facts.functions.filterMap fun f => (changedArgument? f).map (mutationFinding path f) := by
    rw [List.filter_append, hnodes, List.nil_append, List.filter_flatMap,
      List.filterMap_eq_flatMap_toList]
    simp only [filter_checkUtility]
  exact hall ▸ (List.mergeSort_perm _ _).filter _

end Check

def utilities (t : Tree) : List Tree :=
  (t.children.map undecorated).filter (·.type == .functionDefinition)

/-- **A check reports the utilities that change an argument in place, each once and at the first
change.**  A change at any depth of the body counts, and so does every write to an item of the
argument whose target is the item; an item among several targets does not. -/
theorem mutations_exact (path : String) (s : DetectionSettings) (t : Tree) :
    ((check path s (sourceFacts t)).filter isMutationFinding).Perm
      (((utilities t).map functionFacts).filterMap fun f =>
        (changedArgument? f).map (mutationFinding path f)) ∧
    (∀ f ∈ utilities t, (changedArgument? (functionFacts f)).isSome = true ↔
      ∃ name ∈ sharedNames, name ∈ (functionFacts f).parameters ∧
        ∃ body p n line, f.child? .body = some body ∧ body.at? p = some n ∧
          ChangesInPlace n ⟨name, line⟩) ∧
    ∀ name n, WritesItem name n →
      ((∃ line, ChangesInPlace n ⟨name, line⟩) ↔ WritesItemAlone name n) := by
  refine ⟨filter_check path s (sourceFacts t), ?_, fun name n => WritesItem.changes_iff⟩
  intro f _
  rw [isSome_changedArgument?]
  constructor
  · rintro ⟨⟨name, line⟩, hm, hparameter, hname⟩
    obtain ⟨body, p, n, hbody, hn, hchanges⟩ := mem_mutations_functionFacts.mp hm
    exact ⟨name, hname, hparameter, body, p, n, line, hbody, hn, hchanges⟩
  · rintro ⟨name, hname, hparameter, body, p, n, line, hbody, hn, hchanges⟩
    exact ⟨⟨name, line⟩, mem_mutations_functionFacts.mpr ⟨body, p, n, hbody, hn, hchanges⟩,
      hparameter, hname⟩

/-- The statement `shared["a"], shared["b"] = 1, 2`. -/
def pairAssignment : Tree :=
  .node .assignment .plain 2 2 ""
    [.node .sequence .left 2 2 ""
      [.node .subscript .plain 2 2 ""
        [.node .identifier .value 2 2 "shared" [], .node .group .plain 2 2 "" []],
        .node .subscript .plain 2 2 ""
          [.node .identifier .value 2 2 "shared" [], .node .group .plain 2 2 "" []]],
      .node .sequence .plain 2 2 "" [.node .group .plain 2 2 "" [], .node .group .plain 2 2 "" []]]

def storePair : Tree :=
  .node .functionDefinition .plain 1 2 ""
    [.node .identifier .name 1 1 "store" [],
      .node .parameters .parameters 1 1 "" [.node .identifier .plain 1 1 "shared" []],
      .node .block .body 2 2 "" [pairAssignment]]

/-- The text of the function. -/
def storeModule : Tree := .node .module .plain 1 2 "" [storePair]

/-- The statement writes to items of the argument, and no change is found. -/
theorem mutations_exact_storePair :
    detect "nodes.py" {} "def store(shared):\n    shared[\"a\"], shared[\"b\"] = 1, 2\n" = [] ∧
      storePair ∈ utilities storeModule ∧ "shared" ∈ (functionFacts storePair).parameters ∧
      (∃ body, storePair.child? .body = some body ∧ body.at? [0] = some pairAssignment) ∧
        WritesItem "shared" pairAssignment ∧
          (¬∃ line, ChangesInPlace pairAssignment ⟨"shared", line⟩) ∧
            (check "nodes.py" {} (sourceFacts storeModule)).filter isMutationFinding = [] := by
  have hitem : WritesItem "shared" pairAssignment := by
    refine .assigns rfl rfl (.part (.inl rfl) List.mem_cons_self .self) ⟨rfl, .item rfl rfl ?_⟩
    exact .name rfl rfl
  obtain ⟨hfindings, -, hwrites⟩ := mutations_exact "nodes.py" {} storeModule
  refine ⟨by decide +kernel, List.mem_singleton_self _, by decide, ⟨_, rfl, rfl⟩, hitem, ?_,
    List.perm_nil.mp hfindings⟩
  intro hchanges
  cases (hwrites _ _ hitem).mp hchanges with
  | assigns _ hleft htarget =>
    obtain rfl := Option.some.inj hleft
    exact absurd htarget.1 nofun
  | deletes htype => exact absurd htype nofun

end AgentFlow.Lint

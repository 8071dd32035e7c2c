import AgentFlow.Proofs.Code.Laid

/-!
# Calm phrases

Phrases in whose trees nothing opens a branch or changes anything in place, by their parts.

* `Phrase.Calm`: such a phrase.
* `Phrase.calm_call`, `Phrase.calm_assign`: **a call of a method that changes nothing and an
  assignment to a name are calm if their parts are.**
-/

namespace AgentFlow.Code

open Lint

/-- The types of the nodes that may open a branch or change something in place. -/
def restlessTypes : List NodeType :=
  [.ifStatement, .elifClause, .caseClause, .call, .assignment, .deleteStatement]

section Tree

variable {ty : NodeType} {r role : Role} {l m : Nat} {s : String} {t : Tree} {cs : List Tree}

theorem isCalm_node (h : ty ∉ restlessTypes) : IsCalm (.node ty r l m s cs) := by
  constructor
  · cases ty <;> first | rfl | exact absurd (by decide) h
  · cases ty <;> first | rfl | exact absurd (by decide) h

theorem everywhere_calm (h : ty ∉ restlessTypes) :
    Everywhere IsCalm (.node ty r l m s cs) ↔ ∀ c ∈ cs, Everywhere IsCalm c := by
  rw [everywhere_node, and_iff_right (isCalm_node h)]

@[simp] theorem calm_as : Everywhere IsCalm (t.as role) ↔ Everywhere IsCalm t := by
  obtain ⟨ty, r, l, m, s, cs⟩ := t
  rw [Tree.as, everywhere_node, everywhere_node]
  exact and_congr_left fun _ => ⟨fun h => ⟨h.branch, h.changes⟩, fun h => ⟨h.branch, h.changes⟩⟩

@[simp] theorem calm_group {ts : List Tree} :
    Everywhere IsCalm (Phrase.group ts) ↔ ∀ t ∈ ts, Everywhere IsCalm t :=
  everywhere_calm (by decide)

@[simp] theorem calm_identifier : Everywhere IsCalm (Phrase.identifier s) :=
  (everywhere_calm (by decide)).mpr fun _ hc => absurd hc List.not_mem_nil

end Tree

namespace Phrase

variable {p q : Phrase} {s : String} {ps : List Phrase} {rs : List Line}

/-- Nothing in the phrase opens a branch or changes anything in place. -/
def Calm (p : Phrase) : Prop := Everywhere IsCalm p.tree

/-- Whether a call of the phrase changes something in place. -/
def mutates (p : Phrase) : Bool :=
  p.tree.type == .attribute && mutatingMethods.contains
    (((p.tree.child? .attribute).map (·.text)).getD "")

/-! ### Expressions -/

@[simp] theorem calm_name : (name s).Calm := calm_identifier

@[simp] theorem calm_constant : (constant s).Calm :=
  calm_group.mpr fun _ h => absurd h List.not_mem_nil

@[simp] theorem calm_number : (number s).Calm := calm_group.mpr fun _ h => absurd h List.not_mem_nil

@[simp] theorem calm_literal : (literal s).Calm :=
  calm_group.mpr fun _ h => absurd h List.not_mem_nil

@[simp] theorem calm_braces : braces.Calm := calm_group.mpr fun _ h => absurd h List.not_mem_nil

@[simp] theorem calm_collection {o c : String} : (collection o c ps).Calm ↔ ∀ p ∈ ps, p.Calm := by
  rw [Calm, collection, everywhere_calm (by decide), List.forall_mem_map]
  rfl

@[simp] theorem calm_attr : (p.attr s).Calm ↔ p.Calm := by
  rw [Calm, attr, tree_grow, everywhere_calm (by decide)]
  simp [Calm]

@[simp] theorem calm_named : (named s p).Calm ↔ p.Calm := by
  rw [Calm, named, tree_grow, everywhere_calm (by decide)]
  simp [Calm]

@[simp] theorem calm_dict {y : Layout} {e : Phrase × Phrase} {es : List (Phrase × Phrase)} :
    (dict y e es).Calm ↔ ∀ x ∈ e :: es, x.1.Calm ∧ x.2.Calm := by
  rw [Calm, dict, calm_group, List.forall_mem_cons, List.forall_mem_cons, List.forall_mem_map,
    List.forall_mem_cons, and_assoc]
  simp [Calm]

@[simp] theorem calm_index {rs : List Row} {a b : Nat} :
    (p.index rs a b).Calm ↔ p.Calm ∧ ∀ r ∈ rs, r.phrase.Calm := by
  rw [Calm, index, tree_grow, everywhere_calm (by decide)]
  simp [Calm, treesOf]

@[simp] theorem calm_chain {xs : List Step} :
    (p.chain xs).Calm ↔ p.Calm ∧ ∀ x ∈ xs, x.phrase.Calm := by
  simp [Calm, chain]

@[simp] theorem calm_orElse : (p.orElse q).Calm ↔ p.Calm ∧ q.Calm := by
  simp [Calm, orElse]

@[simp] theorem calm_aliased : (p.aliased s).Calm ↔ p.Calm := by
  simp [Calm, aliased]

@[simp] theorem calm_awaited : p.awaited.Calm ↔ p.Calm := by
  simp [Calm, awaited]

theorem isCalm_call {args : Tree} (hp : p.mutates = false) :
    IsCalm (.node .call .plain 0 0 "" [calleeOf p.text p.tree, args]) := by
  refine ⟨rfl, ?_⟩
  rw [mutates] at hp
  cases htree : p.tree with
  | node ty r l m s cs =>
    rw [htree] at hp
    exact if_neg (by rw [Bool.not_eq_true]; exact hp)

theorem calm_calleeOf {t : Tree} : Everywhere IsCalm (calleeOf s t) ↔ Everywhere IsCalm t := by
  obtain ⟨ty, r, l, m, s, cs⟩ := t
  rw [calleeOf, everywhere_node, everywhere_node]
  exact and_congr_left fun _ => ⟨fun h => ⟨h.branch, h.changes⟩, fun h => ⟨h.branch, h.changes⟩⟩

@[simp] theorem calm_call (hm : p.mutates = false) :
    (p.call ps).Calm ↔ p.Calm ∧ ∀ q ∈ ps, q.Calm := by
  rw [Calm, call, tree_grow, everywhere_node, and_iff_right (isCalm_call hm)]
  simp [Calm, calm_calleeOf, everywhere_calm (show NodeType.arguments ∉ restlessTypes by decide)]

@[simp] theorem calm_callEach {e : Phrase} (hm : p.mutates = false) :
    (p.callEach e s q).Calm ↔ p.Calm ∧ e.Calm ∧ q.Calm := by
  rw [Calm, callEach, tree_grow, everywhere_node, and_iff_right (isCalm_call hm)]
  simp [Calm, calm_calleeOf]

@[simp] theorem mutates_name : (name s).mutates = false := by
  simp [mutates, name, identifier, Tree.type]

@[simp] theorem mutates_attr : (p.attr s).mutates = mutatingMethods.contains s := by
  cases htree : p.tree with
  | node ty r l m u cs =>
    simp [mutates, attr, Tree.type, Tree.child?, Tree.children, htree, Tree.as,
      identifier, Tree.role, Tree.text]

/-! ### Statements -/

@[simp] theorem calm_assign {v : Phrase} : ((name s).assign v).Calm ↔ v.Calm := by
  have hself : IsCalm (.node .assignment .plain 0 0 "" [(name s).tree.as .left, v.tree]) :=
    ⟨rfl, rfl⟩
  rw [Calm, assign, tree_grow, everywhere_node, and_iff_right hself]
  simp [Calm, name]

@[simp] theorem calm_worded {w : String} : (worded w p).Calm ↔ p.Calm := by
  simp [Calm, worded]

@[simp] theorem calm_raiseFrom : (raiseFrom p q).Calm ↔ p.Calm ∧ q.Calm := by
  simp [Calm, raiseFrom]

@[simp] theorem calm_block : Everywhere IsCalm (blockOfLines rs) ↔ ∀ r ∈ rs, r.phrase.Calm := by
  rw [blockOfLines, everywhere_calm (by decide), List.forall_mem_map]
  rfl

@[simp] theorem calm_clause : (Clause.phrase ⟨p, rs⟩).Calm ↔ p.Calm ∧ ∀ r ∈ rs, r.phrase.Calm := by
  rw [Calm, Clause.phrase, headed, everywhere_calm (by decide)]
  simp [Calm]

@[simp] theorem calm_try {m : Nat} {cs : List Clause} :
    (tryStatement m rs cs).Calm ↔ (∀ r ∈ rs, r.phrase.Calm) ∧ ∀ c ∈ cs, c.phrase.Calm := by
  rw [Calm, tryStatement, everywhere_calm (by decide)]
  simp [Calm]

@[simp] theorem calm_withStatement :
    (withStatement p rs).Calm ↔ p.Calm ∧ ∀ r ∈ rs, r.phrase.Calm := by
  simp [Calm, withStatement, headed]

@[simp] theorem everywhere_tree : Everywhere IsCalm p.tree ↔ p.Calm := .rfl

end Phrase

end AgentFlow.Code

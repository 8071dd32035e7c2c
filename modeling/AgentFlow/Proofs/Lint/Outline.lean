import AgentFlow.Proofs.Code.Outline
import AgentFlow.Proofs.Lint.Tolerated

/-!
# Facts about outlines

The facts that the rules look at, apart from the lines on which they are found, are the same for a
tree and for its outline.

* `functionFacts_outline`: the facts about a function are those about its outline.
* `sourceFacts_fits`: **what the nodes and functions of a text do is seen in the outline of its
  tree.**
-/

namespace AgentFlow.Lint

open Code

/-! ### Nodes of outlines -/

/-- The outlines of a node and of the node that it stands in. -/
def outlines₂ (x : Tree × Tree) : Tree × Tree := (x.1.outline, x.2.outline)

mutual

theorem nodesOnto_outline (after : List (Tree × Tree)) (parent : Tree) : ∀ t : Tree,
    Tree.nodesOnto (after.map outlines₂) parent.outline t.outline =
      (Tree.nodesOnto after parent t).map outlines₂
  | .node t r l m s cs => by
    have hall := nodesOntoAll_outlines after (.node t r l m s cs) cs
    rw [Tree.outline] at hall ⊢
    rw [Tree.nodesOnto, Tree.nodesOnto, List.map_cons, hall, outlines₂, Tree.outline]

theorem nodesOntoAll_outlines (after : List (Tree × Tree)) (parent : Tree) : ∀ ts : List Tree,
    Tree.nodesOntoAll (after.map outlines₂) parent.outline (Tree.outlines ts) =
      (Tree.nodesOntoAll after parent ts).map outlines₂
  | [] => rfl
  | t :: ts => by
    rw [Tree.outlines, Tree.nodesOntoAll, Tree.nodesOntoAll, nodesOntoAll_outlines after parent ts,
      nodesOnto_outline _ parent t]

end

theorem nodesIn_outline (t parent : Tree) :
    t.outline.nodesIn parent.outline = (t.nodesIn parent).map outlines₂ :=
  nodesOnto_outline [] parent t

theorem child?_outline (t : Tree) (r : Role) :
    t.outline.child? r = (t.child? r).map Tree.outline := by
  have hrole : ((·.role == r) ∘ Tree.outline) = (·.role == r) := by
    funext c
    rw [Function.comp_apply, Tree.role_outline]
  rw [Tree.child?, Tree.child?, Tree.children_outline, List.find?_map, hrole]

/-! ### Readings of single nodes -/

section Node

variable (t : Tree)

@[simp] theorem isBranch_outline : isBranch t.outline = isBranch t := by
  simp [isBranch]

@[simp] theorem callee?_outline : callee? t.outline = callee? t := by
  simp [callee?, child?_outline, Option.map_map, Function.comp_def]

def values {α : Type} (xs : List (Located α)) : List α := xs.map (·.value)

@[simp] theorem isReference_outline (parent : Tree) :
    isReference parent.outline t.outline = isReference parent t := by
  simp [isReference]

@[simp] theorem sharedAccess?_outline (parent : Tree) :
    (sharedAccess? parent.outline t.outline).map (·.value) =
      (sharedAccess? parent t).map (·.value) := by
  rw [sharedAccess?, sharedAccess?, Tree.type_outline, child?_outline, child?_outline]
  -- only attributes and identifiers are looked at
  cases t.type <;> try rfl
  · cases t.child? .object <;> cases t.child? .attribute <;> try rfl
    simp only [Option.map_some, Tree.type_outline, Tree.text_outline]
    split <;> rfl
  · simp only [Tree.text_outline, isReference_outline]
    split <;> rfl

mutual

@[simp] theorem rootName?_outline : ∀ t : Tree, rootName? t.outline = rootName? t
  | .node t r l m s cs => by
    have hvalue := rootOfPart_outlines .value cs
    have hobject := rootOfPart_outlines .object cs
    cases t <;> first | rfl | exact hvalue | exact hobject

theorem rootOfPart_outlines (r : Role) : ∀ ts : List Tree,
    rootOfPart r (Tree.outlines ts) = rootOfPart r ts
  | [] => rfl
  | t :: ts => by
    rw [Tree.outlines, rootOfPart, rootOfPart, Tree.role_outline, rootName?_outline t,
      rootOfPart_outlines r ts]

end

@[simp] theorem mutationOf_outline :
    (mutationOf t.outline).map (·.value) = (mutationOf t).map (·.value) := by
  simp [mutationOf, Option.map_map, Function.comp_def]

theorem mutationsAt_outline : values (mutationsAt t.outline) = values (mutationsAt t) := by
  have hone : ∀ u : Tree, values (mutationOf u.outline).toList = values (mutationOf u).toList := by
    intro u
    have := mutationOf_outline u
    cases h : mutationOf u.outline <;> cases h' : mutationOf u <;> simp_all [values]
  rw [mutationsAt, mutationsAt, Tree.type_outline, child?_outline, child?_outline]
  cases t.type with
  | call =>
    cases t.child? .function with
    | none => rfl
    | some f =>
      simp only [Option.map_some, Tree.type_outline, child?_outline, Option.map_map,
        Function.comp_def, Tree.text_outline]
      split
      · exact hone f
      · rfl
  | assignment =>
    cases t.child? .left with
    | none => rfl
    | some l =>
      simp only [Option.map_some, Tree.type_outline]
      split
      · exact hone l
      · rfl
  | deleteStatement =>
    simp [values, Tree.children_outline, List.map_filterMap, List.filterMap_map, List.filter_map,
      Function.comp_def]
  | _ => rfl

@[simp] theorem tryFacts?_outline :
    (tryFacts? t.outline).map (·.handlers) = (tryFacts? t).map (·.handlers) := by
  rw [tryFacts?, tryFacts?, Tree.type_outline]
  split
  · simp [List.filter_map, Function.comp_def]
  · rfl

@[simp] theorem parameterName?_outline : parameterName? t.outline = parameterName? t := by
  rw [parameterName?, parameterName?, Tree.type_outline, child?_outline]
  cases t.type <;> simp [List.find?_map, Function.comp_def, Option.map_map]

@[simp] theorem nameOf_outline : nameOf t.outline = nameOf t := by
  simp [nameOf, child?_outline, Option.map_map, Function.comp_def]

theorem undecorated_outline : undecorated t.outline = (undecorated t).outline := by
  rw [undecorated, undecorated, Tree.type_outline, child?_outline]
  split
  · cases t.child? .definition <;> rfl
  · rfl

end Node

/-! ### Functions, classes and texts -/

/-- The facts are the same, wherever they are found. -/
structure FunctionFacts.Alike (f g : FunctionFacts) : Prop where
  name : f.name = g.name
  parameters : f.parameters = g.parameters
  bodyLines : f.bodyLines = g.bodyLines
  branches : f.branches = g.branches
  callees : f.callees = g.callees
  accesses : values f.sharedAccesses = values g.sharedAccesses
  tries : f.tries.map (·.handlers) = g.tries.map (·.handlers)
  mutations : values f.mutations = values g.mutations

theorem FunctionFacts.Alike.fitsExec {f g : FunctionFacts} (h : f.Alike g) {s : DetectionSettings}
    (hf : f.FitsExec s) : g.FitsExec s where
  accesses := List.map_eq_nil_iff.mp (h.accesses.symm.trans (congrArg values hf.accesses))
  tries := List.map_eq_nil_iff.mp (h.tries.symm.trans (congrArg (List.map _) hf.tries))
  calls := by
    have := hf.calls
    rwa [modelCalls, h.callees] at this
  lines := h.bodyLines ▸ hf.lines

theorem FunctionFacts.Alike.fitsMethod {f g : FunctionFacts} (h : f.Alike g) {s : DetectionSettings}
    (hf : f.FitsMethod s) : g.FitsMethod s where
  exec hname := h.fitsExec (hf.exec (h.name ▸ hname))
  around hname := by
    have := hf.around (h.name ▸ hname)
    rwa [modelCalls, h.callees] at this

theorem FunctionFacts.Alike.fitsUtility {f g : FunctionFacts} (h : f.Alike g)
    {s : DetectionSettings}
    (hf : f.FitsUtility s) : g.FitsUtility s where
  branches := h.branches ▸ hf.branches
  mutations := hf.mutations.imp
    (fun hnone => List.map_eq_nil_iff.mp (h.mutations.symm.trans (congrArg values hnone)))
    (h.parameters ▸ ·)

/-- The body of the definition is a block. -/
def HasBlock (t : Tree) : Prop := ∀ b ∈ t.child? .body, b.type = .block

/-- **The facts about a function are those about its outline.** -/
theorem functionFacts_outline {t : Tree} (h : HasBlock t.outline) :
    (functionFacts t.outline).Alike (functionFacts t) := by
  have hparameters : (((t.child? .parameters).map Tree.outline).map fun p =>
      p.children.filterMap parameterName?) =
        (t.child? .parameters).map fun p => p.children.filterMap parameterName? := by
    simp [Option.map_map, Function.comp_def, List.filterMap_map]
  rw [HasBlock, child?_outline] at h
  rw [functionFacts, functionFacts, child?_outline, child?_outline, hparameters]
  cases hbody : t.child? .body with
  | none => exact ⟨nameOf_outline t, rfl, rfl, rfl, rfl, rfl, rfl, rfl⟩
  | some b =>
    have hblock : b.type = .block := by
      have := h b.outline (by rw [hbody]; rfl)
      rwa [Tree.type_outline] at this
    have hlines : b.outline.endLine - b.outline.line = b.endLine - b.line := by
      obtain ⟨ty, r, l, m, s, cs⟩ := b
      obtain rfl : ty = .block := hblock
      rfl
    exact
      { name := nameOf_outline t
        parameters := rfl
        bodyLines := congrArg (· + 1) hlines
        branches := by simp [nodesIn_outline, List.countP_map, outlines₂, Function.comp_def]
        callees := by simp [nodesIn_outline, outlines₂, List.filterMap_map, Function.comp_def]
        accesses := by
          simp [values, nodesIn_outline, outlines₂, List.map_filterMap, List.filterMap_map,
            Function.comp_def]
        tries := by
          simp [nodesIn_outline, outlines₂, List.map_filterMap, List.filterMap_map,
            Function.comp_def]
        mutations := by
          have := mutationsAt_outline
          simp only [values] at this
          simp [values, nodesIn_outline, outlines₂, List.map_flatMap, List.flatMap_map,
            Function.comp_def, this] }

def methodsOf (t : Tree) : List Tree :=
  ((t.child? .body).map fun b =>
    (b.children.map undecorated).filter (·.type == .functionDefinition)).getD []

theorem methods_classFacts (t : Tree) :
    (classFacts t).methods = (methodsOf t).map functionFacts := by
  rw [classFacts, methodsOf]
  cases t.child? .body <;> rfl

theorem methodsOf_outline (t : Tree) : methodsOf t.outline = (methodsOf t).map Tree.outline := by
  rw [methodsOf, methodsOf, child?_outline]
  cases t.child? .body with
  | none => rfl
  | some b => simp [List.filter_map, Function.comp_def, undecorated_outline]

theorem bases_outline (t : Tree) : (classFacts t.outline).bases = (classFacts t).bases := by
  rw [classFacts, classFacts, child?_outline]
  cases t.child? .superclasses with
  | none => rfl
  | some a => simp [List.filter_map, Function.comp_def]

/-- What a statement at the top of a text may be, by its outline. -/
structure StatementFits (s : DetectionSettings) (t : Tree) : Prop where
  classes : (undecorated t).type = .classDefinition → (classFacts (undecorated t)).isNode = true →
    ∀ m ∈ methodsOf (undecorated t), HasBlock m ∧ (functionFacts m).FitsMethod s
  functions : (undecorated t).type = .functionDefinition →
    HasBlock (undecorated t) ∧ (functionFacts (undecorated t)).FitsUtility s

/-- **What the nodes and functions of a text do is seen in the outline of its tree.** -/
theorem sourceFacts_fits {s : DetectionSettings} {t : Tree}
    (h : ∀ u ∈ t.outline.children, StatementFits s u) : (sourceFacts t).Fits s := by
  have hall : ∀ d ∈ t.children.map undecorated,
      ∃ u, StatementFits s u ∧ undecorated u = d.outline := by
    rw [List.forall_mem_map]
    intro u hu
    refine ⟨u.outline, h _ ?_, undecorated_outline u⟩
    rw [Tree.children_outline]
    exact List.mem_map_of_mem hu
  constructor
  · intro c hc hnode f hf
    obtain ⟨d, hd, rfl⟩ := List.mem_map.mp hc
    obtain ⟨hmem, htype⟩ := List.mem_filter.mp hd
    obtain ⟨u, hu, hout⟩ := hall d hmem
    rw [methods_classFacts] at hf
    obtain ⟨m, hm, rfl⟩ := List.mem_map.mp hf
    have hclass : (classFacts (undecorated u)).isNode = true := by
      rwa [hout, ClassFacts.isNode, bases_outline]
    have hkind : (undecorated u).type = .classDefinition := by
      rw [hout, Tree.type_outline]
      simpa using htype
    have hmethod : m.outline ∈ methodsOf (undecorated u) := by
      rw [hout, methodsOf_outline]
      exact List.mem_map_of_mem hm
    obtain ⟨hblock, hfits⟩ := hu.classes hkind hclass _ hmethod
    exact (functionFacts_outline hblock).fitsMethod hfits
  · intro f hf
    obtain ⟨d, hd, rfl⟩ := List.mem_map.mp hf
    obtain ⟨hmem, htype⟩ := List.mem_filter.mp hd
    obtain ⟨u, hu, hout⟩ := hall d hmem
    have hkind : (undecorated u).type = .functionDefinition := by
      rw [hout, Tree.type_outline]
      simpa using htype
    obtain ⟨hblock, hfits⟩ := hu.functions hkind
    rw [hout] at hblock hfits
    exact (functionFacts_outline hblock).fitsUtility hfits

end AgentFlow.Lint

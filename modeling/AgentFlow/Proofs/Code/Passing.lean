import AgentFlow.Proofs.Code.Layout
import AgentFlow.Proofs.Lint.SharedAccesses

/-!
# Statements that pass a check

What the rules look at in the outlines of statements: plain statements are of no interest to them,
and definitions pass if all nodes in their bodies satisfy conditions.

* `Everywhere`: all nodes of a tree satisfy a condition.
* `statementFits_function`, `statementFits_decorated`: functions pass a check if nothing in them
  opens a branch or changes anything in place.
* `methodFits_around`, `methodFits_exec`, `statementFits_classOf`: **nodes whose methods only do
  what they may pass a check.**
-/

namespace AgentFlow.Code

open Lint Phrase

variable {settings : DetectionSettings} {rs : List Line}

/-! ### Nodes -/

/-- All nodes of the tree satisfy the condition. -/
def Everywhere (P : Tree → Prop) (t : Tree) : Prop := ∀ p n, t.at? p = some n → P n

section Everywhere

variable {P : Tree → Prop} {ty : NodeType} {r role : Role} {l m : Nat} {s : String} {t : Tree}
  {cs : List Tree}

@[simp] theorem everywhere_node : Everywhere P (.node ty r l m s cs) ↔
    P (.node ty r l m s cs) ∧ ∀ c ∈ cs, Everywhere P c := by
  constructor
  · refine fun h => ⟨h [] _ rfl, fun c hc p n hn => ?_⟩
    obtain ⟨k, hk⟩ := List.mem_iff_getElem?.mp hc
    refine h (k :: p) n ?_
    rw [Tree.at?, Tree.children, hk]
    exact hn
  · rintro ⟨hself, hall⟩ p n hn
    cases p with
    | nil => exact Option.some.inj hn ▸ hself
    | cons k p =>
      obtain ⟨c, hc, hn⟩ := Option.bind_eq_some_iff.mp hn
      exact hall c (List.mem_of_getElem? hc) p n hn

theorem Everywhere.nodesIn (h : Everywhere P t) (parent : Tree) :
    ∀ n ∈ (t.nodesIn parent).map (·.2), P n := by
  rw [List.forall_mem_map]
  intro x hx
  rw [Tree.nodesIn_eq] at hx
  obtain ⟨p, -, hp⟩ := List.mem_filterMap.mp hx
  refine h p x.2 ?_
  rw [← t.map_place? parent, hp]
  rfl

theorem everywhere_iff : Everywhere P t ↔ ∀ n ∈ (t.nodesIn t).map (·.2), P n := by
  refine ⟨fun h => h.nodesIn t, fun h p n hn => h n ?_⟩
  have hplace := t.map_place? t p
  rw [hn] at hplace
  obtain ⟨x, hx, rfl⟩ := Option.map_eq_some_iff.mp hplace
  refine List.mem_map_of_mem ?_
  rw [Tree.nodesIn_eq]
  exact List.mem_filterMap.mpr ⟨p, Tree.mem_addresses.mpr (by rw [hn]; rfl), hx⟩

instance [DecidablePred P] : Decidable (Everywhere P t) := decidable_of_iff _ everywhere_iff.symm

end Everywhere

/-- A node that opens no branch and changes nothing in place. -/
structure IsCalm (n : Tree) : Prop where
  branch : isBranch n = false
  changes : mutationsAt n = []

def IsQuiet (n : Tree) : Prop := ∀ c ∈ callee? n, isModelCall c = false

instance (n : Tree) : Decidable (IsQuiet n) :=
  inferInstanceAs (Decidable (∀ c ∈ callee? n, isModelCall c = false))

/-- A node that is no such call, no use of the shared store and no statement with handlers. -/
structure IsPure (n : Tree) : Prop where
  quiet : IsQuiet n
  attributes : n.type ≠ .attribute
  names : n.type = .identifier → n.text ∉ sharedNames
  tries : n.type ≠ .tryStatement

instance (n : Tree) : Decidable (IsPure n) :=
  decidable_of_iff (IsQuiet n ∧ n.type ≠ .attribute ∧
    (n.type = .identifier → n.text ∉ sharedNames) ∧ n.type ≠ .tryStatement)
    ⟨fun ⟨hq, ha, hn, ht⟩ => ⟨hq, ha, hn, ht⟩, fun ⟨hq, ha, hn, ht⟩ => ⟨hq, ha, hn, ht⟩⟩

theorem IsPure.sharedAccess?_eq_none {n : Tree} (h : IsPure n) (parent : Tree) :
    sharedAccess? parent n = none := by
  rw [sharedAccess?]
  split
  · next htype =>
    exact if_neg (by simp [h.names htype])
  · next htype => exact absurd htype h.attributes
  · rfl

theorem IsPure.tryFacts?_eq_none {n : Tree} (h : IsPure n) : tryFacts? n = none :=
  if_neg (by simpa using h.tries)

/-! ### Statements -/

/-- The types of the nodes that the rules look at, at the top of a text. -/
def definitionTypes : List NodeType := [.decorated, .classDefinition, .functionDefinition]

theorem statementFits_plain {t : Tree} (h : t.type ∉ definitionTypes) :
    StatementFits settings t := by
  simp only [definitionTypes, List.mem_cons, List.not_mem_nil, or_false, not_or] at h
  have hself : undecorated t = t := by
    rw [undecorated, if_neg (by simpa using h.1)]
  exact ⟨fun hc => absurd (hself ▸ hc) h.2.1, fun hf => absurd (hself ▸ hf) h.2.2⟩

def nodesOf (s : String) (ps : List Phrase) (r : Option Phrase) (rs : List Line) (role : Role) :
    List Tree :=
  ((blockOfLines rs).nodesIn ((functionTree s ps r rs).as role)).map (·.2)

/-- The facts about a function. -/
theorem functionFacts_function (s : String) (ps : List Phrase) (r : Option Phrase) (rs : List Line)
    (role : Role) : functionFacts ((functionTree s ps r rs).as role) =
      { name := s
        line := 0
        parameters := ps.filterMap fun p => parameterName? p.tree
        bodyLines := heightOf (lines rs).tail + 1
        branches := (nodesOf s ps r rs role).countP isBranch
        callees := (nodesOf s ps r rs role).filterMap callee?
        sharedAccesses := ((blockOfLines rs).nodesIn ((functionTree s ps r rs).as role)).filterMap
          fun (parent, n) => sharedAccess? parent n
        tries := (nodesOf s ps r rs role).filterMap tryFacts?
        mutations := (nodesOf s ps r rs role).flatMap mutationsAt } := by
  have hbody : ((functionTree s ps r rs).as role).child? .body = some (blockOfLines rs) := by
    cases r <;> rfl
  have hparameters : ((functionTree s ps r rs).as role).child? .parameters =
      some (.node .parameters .parameters 0 0 "" (ps.map (·.tree))) := by
    cases r <;> rfl
  have hname : nameOf ((functionTree s ps r rs).as role) = s := by
    cases r <;> rfl
  rw [functionFacts, hbody, hparameters, hname]
  simp only [nodesOf, Option.map_some, Option.getD_some, Tree.children, List.filterMap_map,
    Function.comp_def]
  rfl

theorem hasBlock_function (s : String) (ps : List Phrase) (r : Option Phrase) (rs : List Line)
    (role : Role) : HasBlock ((functionTree s ps r rs).as role) := by
  intro b hb
  have hbody : ((functionTree s ps r rs).as role).child? .body = some (blockOfLines rs) := by
    cases r <;> rfl
  rw [hbody] at hb
  obtain rfl := Option.some.inj hb
  rfl

theorem nodesOf_block {P : Tree → Prop} (hblock : P (blockOfLines rs))
    (h : ∀ r ∈ rs, Everywhere P r.phrase.tree) {s : String} {ps : List Phrase} {r : Option Phrase}
    {role : Role} : ∀ n ∈ nodesOf s ps r rs role, P n :=
  have hall : Everywhere P (blockOfLines rs) :=
    everywhere_node.mpr ⟨hblock, List.forall_mem_map.mpr h⟩
  hall.nodesIn _

section Function

variable {ps : List Phrase}

/-- A function passes if nothing in it opens a branch or changes anything in place. -/
theorem fitsUtility_of_calm (h : ∀ r ∈ rs, Everywhere IsCalm r.phrase.tree) (s : String)
    (r : Option Phrase) (role : Role) :
    (functionFacts ((functionTree s ps r rs).as role)).FitsUtility {} := by
  have hcalm : ∀ n ∈ nodesOf s ps r rs role, IsCalm n := nodesOf_block ⟨rfl, rfl⟩ h
  have hstraight : (nodesOf s ps r rs role).countP isBranch = 0 :=
    List.countP_eq_zero.mpr fun n hn => by
      rw [(hcalm n hn).branch]
      exact Bool.false_ne_true
  rw [functionFacts_function]
  exact ⟨hstraight.trans_lt (show 0 < 2 by decide),
    .inl (List.flatMap_eq_nil_iff.mpr fun n hn => (hcalm n hn).changes)⟩

theorem statementFits_function (h : ∀ r ∈ rs, Everywhere IsCalm r.phrase.tree) (s : String)
    (r : Option Phrase) : StatementFits {} (functionTree s ps r rs) :=
  ⟨fun hc => NodeType.noConfusion hc,
    fun _ => ⟨hasBlock_function s ps r rs .plain, fitsUtility_of_calm h s r .plain⟩⟩

theorem statementFits_decorated (h : ∀ r ∈ rs, Everywhere IsCalm r.phrase.tree) {e p : Phrase}
    (s : String) (r : Option Phrase) (hp : p.tree = functionTree s ps r rs)
    (he : e.tree.role ≠ .definition) (m : Nat) : StatementFits {} (decorated m e p).tree := by
  have hchild : (decorated m e p).tree.child? .definition =
      some ((functionTree s ps r rs).as .definition) := by
    rw [decorated, hp, Tree.child?, Tree.children, List.find?_cons_of_neg (by simpa using he)]
    rfl
  have hself : undecorated (decorated m e p).tree = (functionTree s ps r rs).as .definition := by
    have htype : ((decorated m e p).tree.type == .decorated) = true := rfl
    rw [undecorated, htype, hchild]
    rfl
  constructor
  · intro hc
    rw [hself] at hc
    exact NodeType.noConfusion hc
  · intro _
    rw [hself]
    exact ⟨hasBlock_function s ps r rs .definition, fitsUtility_of_calm h s r .definition⟩

end Function

/-! ### Classes -/

/-- A statement that may stand in a node. -/
structure MethodFits (t : Tree) : Prop where
  bare : t.type ≠ .decorated
  method : t.type = .functionDefinition → HasBlock t ∧ (functionFacts t).FitsMethod {}

theorem methodFits_plain {t : Tree} (h : t.type ∉ definitionTypes) : MethodFits t where
  bare hd := h (hd ▸ by decide)
  method hf := absurd (hf ▸ by decide) h

section Method

variable {s : String} {ps : List Phrase} {r : Option Phrase}

theorem modelCalls_eq_zero (h : ∀ r ∈ rs, Everywhere IsQuiet r.phrase.tree) :
    (functionFacts (functionTree s ps r rs)).modelCalls = 0 := by
  have hquiet : ∀ n ∈ nodesOf s ps r rs .plain, IsQuiet n :=
    nodesOf_block (fun c hc => absurd hc (by simp [callee?, blockOfLines, Tree.type])) h
  rw [show functionTree s ps r rs = (functionTree s ps r rs).as .plain from rfl,
    functionFacts_function, FunctionFacts.modelCalls, List.countP_eq_zero]
  intro c hc
  obtain ⟨n, hn, hcallee⟩ := List.mem_filterMap.mp hc
  rw [hquiet n hn c hcallee]
  exact Bool.false_ne_true

/-- A method around the one that computes. -/
theorem methodFits_around (h : ∀ r ∈ rs, Everywhere IsQuiet r.phrase.tree) (hs : s ∉ execNames) :
    MethodFits (functionTree s ps r rs) where
  bare := nofun
  method _ := by
    refine ⟨hasBlock_function s ps r rs .plain, fun hname => absurd ?_ hs, fun _ =>
      modelCalls_eq_zero h⟩
    rwa [show functionTree s ps r rs = (functionTree s ps r rs).as .plain from rfl,
      functionFacts_function] at hname

/-- The method that computes. -/
theorem methodFits_exec (h : ∀ r ∈ rs, Everywhere IsPure r.phrase.tree)
    (hlines : heightOf (lines rs).tail < ({} : DetectionSettings).maxExecLines) :
    MethodFits (functionTree s ps r rs) where
  bare := nofun
  method _ := by
    have hcalls : (functionFacts (functionTree s ps r rs)).modelCalls = 0 :=
      modelCalls_eq_zero fun q hq p n hn => (h q hq p n hn).quiet
    have hpure : ∀ n ∈ nodesOf s ps r rs .plain, IsPure n := by
      refine nodesOf_block ⟨fun c hc => absurd hc ?_, nofun, nofun, nofun⟩ h
      simp [callee?, blockOfLines, Tree.type]
    refine ⟨hasBlock_function s ps r rs .plain, fun _ => ⟨?_, ?_, hcalls.le.trans (by decide), ?_⟩,
      fun _ => hcalls⟩
    · rw [show functionTree s ps r rs = (functionTree s ps r rs).as .plain from rfl,
        functionFacts_function]
      refine List.filterMap_eq_nil_iff.mpr fun x hx => ?_
      exact (hpure x.2 (List.mem_map_of_mem hx)).sharedAccess?_eq_none x.1
    · rw [show functionTree s ps r rs = (functionTree s ps r rs).as .plain from rfl,
        functionFacts_function]
      exact List.filterMap_eq_nil_iff.mpr fun n hn => (hpure n hn).tryFacts?_eq_none
    · rw [show functionTree s ps r rs = (functionTree s ps r rs).as .plain from rfl,
        functionFacts_function]
      exact hlines

end Method

/-- A class passes if each statement in it may stand in a node. -/
theorem statementFits_classOf {s : String} {b : Option String}
    (h : ∀ r ∈ rs, MethodFits r.phrase.tree) : StatementFits {} (classOf s b rs).tree := by
  have hself : undecorated (classOf s b rs).tree = (classOf s b rs).tree := rfl
  have hbody : (classOf s b rs).tree.child? .body = some (blockOfLines rs) := by
    cases b <;> rfl
  constructor
  · intro _ _ t ht
    rw [hself, methodsOf, hbody] at ht
    obtain ⟨hmem, htype⟩ := List.mem_filter.mp ht
    obtain ⟨u, hu, rfl⟩ := List.mem_map.mp hmem
    obtain ⟨q, hq, rfl⟩ := List.mem_map.mp hu
    have hplain : undecorated q.phrase.tree = q.phrase.tree := by
      rw [undecorated, if_neg (by simpa using (h q hq).bare)]
    rw [hplain] at htype ⊢
    exact (h q hq).method (by simpa using htype)
  · exact fun hf => NodeType.noConfusion hf

/-- A class that is no node. -/
theorem statementFits_class {s : String} {b : Option String}
    (hb : ∀ c ∈ b, Text.endsWith (lastSegment c) "Node" = false) :
    StatementFits settings (classOf s b rs).tree := by
  constructor
  · intro _ hnode
    have hself : undecorated (classOf s b rs).tree = (classOf s b rs).tree := rfl
    rw [hself] at hnode
    cases b with
    | none => exact Bool.noConfusion hnode
    | some c =>
      have hbases : (classFacts (classOf s (some c) rs).tree).bases = [lastSegment c] := rfl
      rw [ClassFacts.isNode, hbases, List.any_cons, hb c rfl] at hnode
      exact Bool.noConfusion hnode
  · exact fun hf => NodeType.noConfusion hf

end AgentFlow.Code

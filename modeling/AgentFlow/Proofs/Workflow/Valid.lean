import AgentFlow.Workflow.Validation

/-!
# What validation accepts

`WorkflowSpec.validate` goes through the parts of a specification in order and remembers the names
that came before.  This file says what it looks for without that order: each part is well formed by
itself, and the names of each kind of part are distinct.

* `Fresh`: what the names seen before have to do with those still to come.
* `validateAll_nodes`, `validateAll_parameters`, `validateAll_utilities`, `validateAll_endpoints`,
  `validateAll_edges`: the parts of a kind are accepted exactly when they are well formed and fresh.
* `WorkflowSpec.validate_eq_ok_iff`: **validation accepts exactly the valid specifications.**
-/

namespace AgentFlow

/-! ### Checks one after another -/

theorem ensure_eq_ok_iff {holds : Bool} {f : SpecFault} {u : Unit} :
    ensure holds f = .ok u ↔ holds = true := by
  cases holds <;> simp [ensure]

/-- A check passes and is followed by `rest`. -/
theorem check_bind_eq_ok_iff {β : Type} {check : Except SpecFault Unit}
    {rest : Unit → Except SpecFault β} {b : β} :
    (check >>= rest) = .ok b ↔ check = .ok () ∧ rest () = .ok b := by
  cases check <;> simp [bind, Except.bind]

/-! ### Names seen before -/

/-- The keys are distinct, and none of them was seen before. -/
def Fresh {κ : Type} (seen keys : List κ) : Prop := keys.Nodup ∧ ∀ k ∈ keys, k ∉ seen

variable {κ : Type} {seen keys : List κ}

@[simp] theorem fresh_nil : Fresh seen [] := ⟨List.nodup_nil, fun _ h => absurd h List.not_mem_nil⟩

@[simp] theorem fresh_of_nothing_seen : Fresh [] keys ↔ keys.Nodup :=
  ⟨fun h => h.1, fun h => ⟨h, fun _ _ => List.not_mem_nil⟩⟩

/-- The first key is new, and it counts as seen for the others. -/
theorem fresh_cons {k : κ} : Fresh seen (k :: keys) ↔ k ∉ seen ∧ Fresh (k :: seen) keys := by
  rw [Fresh, Fresh, List.nodup_cons, List.forall_mem_cons]
  simp only [List.mem_cons, not_or]
  constructor
  · rintro ⟨⟨hk, hn⟩, hs, hr⟩
    exact ⟨hs, hn, fun x hx => ⟨fun he => hk (he ▸ hx), hr x hx⟩⟩
  · rintro ⟨hs, hn, hr⟩
    exact ⟨⟨fun hk => (hr k hk).1 rfl, hn⟩, hs, fun x hx => (hr x hx).2⟩

/-! ### Well-formed parts -/

theorem isPlainDirectory_iff {s : String} :
    isPlainDirectory s = true ↔ s ≠ "." ∧ s ≠ ".." ∧ ∀ c ∈ s.toList, c ≠ '/' ∧ c ≠ '\\' := by
  rw [isPlainDirectory, Bool.and_eq_true, Bool.and_eq_true, bne_iff_ne, bne_iff_ne,
    Bool.not_eq_true', List.any_eq_false, and_assoc]
  simp only [Bool.or_eq_true, beq_iff_eq, not_or]

structure IsNodeName (s : String) : Prop where
  isClassName : isClassName s = true
  not_imported : s ∉ importedClasses
  not_keyword : s ∉ chartKeywords
  ne_handler : s ≠ errorHandler

instance (s : String) : Decidable (IsNodeName s) :=
  decidable_of_iff (isClassName s = true ∧ s ∉ importedClasses ∧ s ∉ chartKeywords ∧
    s ≠ errorHandler)
    ⟨fun ⟨hc, hi, hk, he⟩ => ⟨hc, hi, hk, he⟩, fun ⟨hc, hi, hk, he⟩ => ⟨hc, hi, hk, he⟩⟩

/-- A parameter with a name and a type that may go into generated code. -/
structure ParamSpec.Valid (p : ParamSpec) : Prop where
  name : isFunctionName p.name = true
  type : isTypeText p.type = true

instance (p : ParamSpec) : Decidable p.Valid :=
  decidable_of_iff (isFunctionName p.name = true ∧ isTypeText p.type = true)
    ⟨fun ⟨hn, ht⟩ => ⟨hn, ht⟩, fun ⟨hn, ht⟩ => ⟨hn, ht⟩⟩

structure UtilitySpec.Valid (u : UtilitySpec) : Prop where
  name : isFunctionName u.name = true
  parameters : ∀ p ∈ u.parameters, p.Valid
  distinct : (u.parameters.map (·.name)).Nodup
  returnType : isTypeText u.returnType = true

instance (u : UtilitySpec) : Decidable u.Valid :=
  decidable_of_iff (isFunctionName u.name = true ∧ (∀ p ∈ u.parameters, p.Valid) ∧
    (u.parameters.map (·.name)).Nodup ∧ isTypeText u.returnType = true)
    ⟨fun ⟨hn, hp, hd, hr⟩ => ⟨hn, hp, hd, hr⟩, fun ⟨hn, hp, hd, hr⟩ => ⟨hn, hp, hd, hr⟩⟩

structure EndpointSpec.Valid (e : EndpointSpec) : Prop where
  method : e.upperMethod ∈ httpMethods
  path : e.path.toList.head? = some '/'

def EndpointSpec.route (e : EndpointSpec) : String × String := (e.upperMethod, e.path)

/-- A transition between the named nodes with an action of its own. -/
structure EdgeSpec.Valid (nodes : List String) (e : EdgeSpec) : Prop where
  source : e.source ∈ nodes
  target : e.target ∈ nodes
  action : isActionLabel e.action = true
  ne_error : e.action ≠ errorAction

def EdgeSpec.trigger (e : EdgeSpec) : String × String := (e.source, e.action)

/-- A specification that code can be generated from. -/
structure WorkflowSpec.Valid (w : WorkflowSpec) : Prop where
  named : Text.hasInk w.name = true
  plain : isPlainDirectory w.directoryName = true
  nodes_ne_nil : w.nodes ≠ []
  bases : w.pattern = .hybrid → 2 ≤ w.basePatterns.length
  nodeNames : ∀ n ∈ w.nodes, IsNodeName n.name
  nodup_nodeNames : w.nodeNames.Nodup
  utilities : ∀ u ∈ w.utilities, u.Valid
  nodup_utilities : (w.utilities.map (·.name)).Nodup
  keys : ∀ k ∈ w.sharedStore.keys, isFunctionName k = true
  endpoints : ∀ e ∈ w.endpoints, e.Valid
  nodup_routes : (w.endpoints.map (·.route)).Nodup
  edges : ∀ e ∈ w.edges, e.Valid w.nodeNames
  nodup_triggers : (w.edges.map (·.trigger)).Nodup

/-! ### Parts of a kind -/

theorem validateAll_nodes {nodes : List NodeSpec} {seen : List String} :
    NodeSpec.validateAll seen nodes = .ok () ↔
      (∀ n ∈ nodes, IsNodeName n.name) ∧ Fresh seen (nodes.map (·.name)) := by
  induction nodes generalizing seen with
  | nil => simp [NodeSpec.validateAll]
  | cons n rest ih =>
    simp only [NodeSpec.validateAll, check_bind_eq_ok_iff, ensure_eq_ok_iff, ih, List.map_cons,
      fresh_cons, List.forall_mem_cons, Bool.and_eq_true, Bool.not_eq_true', List.contains_eq_mem,
      decide_eq_false_iff_not, bne_iff_ne]
    constructor
    · rintro ⟨hc, hi, ⟨hk, he⟩, hs, hr, hf⟩
      exact ⟨⟨⟨hc, hi, hk, he⟩, hr⟩, hs, hf⟩
    · rintro ⟨⟨⟨hc, hi, hk, he⟩, hr⟩, hs, hf⟩
      exact ⟨hc, hi, ⟨hk, he⟩, hs, hr, hf⟩

theorem validateAll_parameters {ps : List ParamSpec} {utility : String} {seen : List String} :
    ParamSpec.validateAll utility seen ps = .ok () ↔
      (∀ p ∈ ps, p.Valid) ∧ Fresh seen (ps.map (·.name)) := by
  induction ps generalizing seen with
  | nil => simp [ParamSpec.validateAll]
  | cons p rest ih =>
    simp only [ParamSpec.validateAll, check_bind_eq_ok_iff, ensure_eq_ok_iff, ih, List.map_cons,
      fresh_cons, List.forall_mem_cons, Bool.not_eq_true', List.contains_eq_mem,
      decide_eq_false_iff_not]
    constructor
    · rintro ⟨hn, hs, ht, hr, hf⟩
      exact ⟨⟨⟨hn, ht⟩, hr⟩, hs, hf⟩
    · rintro ⟨⟨⟨hn, ht⟩, hr⟩, hs, hf⟩
      exact ⟨hn, hs, ht, hr, hf⟩

theorem validateAll_utilities {us : List UtilitySpec} {seen : List String} :
    UtilitySpec.validateAll seen us = .ok () ↔
      (∀ u ∈ us, u.Valid) ∧ Fresh seen (us.map (·.name)) := by
  induction us generalizing seen with
  | nil => simp [UtilitySpec.validateAll]
  | cons u rest ih =>
    simp only [UtilitySpec.validateAll, check_bind_eq_ok_iff, ensure_eq_ok_iff,
      validateAll_parameters, fresh_of_nothing_seen, ih, List.map_cons, fresh_cons,
      List.forall_mem_cons, Bool.not_eq_true', List.contains_eq_mem, decide_eq_false_iff_not]
    constructor
    · rintro ⟨hn, ⟨hp, hd⟩, ht, hs, hr, hf⟩
      exact ⟨⟨⟨hn, hp, hd, ht⟩, hr⟩, hs, hf⟩
    · rintro ⟨⟨⟨hn, hp, hd, ht⟩, hr⟩, hs, hf⟩
      exact ⟨hn, ⟨hp, hd⟩, ht, hs, hr, hf⟩

theorem validateKeys_eq_ok_iff {keys : List String} :
    validateKeys keys = .ok () ↔ ∀ k ∈ keys, isFunctionName k = true := by
  induction keys with
  | nil => simp [validateKeys]
  | cons k rest ih =>
    rw [validateKeys, check_bind_eq_ok_iff, ensure_eq_ok_iff, ih, List.forall_mem_cons]

theorem validateAll_endpoints {es : List EndpointSpec} {seen : List (String × String)} :
    EndpointSpec.validateAll seen es = .ok () ↔
      (∀ e ∈ es, e.Valid) ∧ Fresh seen (es.map (·.route)) := by
  induction es generalizing seen with
  | nil => simp [EndpointSpec.validateAll]
  | cons e rest ih =>
    simp only [EndpointSpec.validateAll, check_bind_eq_ok_iff, ensure_eq_ok_iff, ih,
      List.map_cons, fresh_cons, List.forall_mem_cons, Bool.not_eq_true', List.contains_eq_mem,
      decide_eq_false_iff_not, decide_eq_true_eq, beq_iff_eq]
    constructor
    · rintro ⟨hm, hp, hs, hr, hf⟩
      exact ⟨⟨⟨hm, hp⟩, hr⟩, hs, hf⟩
    · rintro ⟨⟨⟨hm, hp⟩, hr⟩, hs, hf⟩
      exact ⟨hm, hp, hs, hr, hf⟩

theorem validateAll_edges {es : List EdgeSpec} {nodes : List String}
    {seen : List (String × String)} :
    EdgeSpec.validateAll nodes seen es = .ok () ↔
      (∀ e ∈ es, e.Valid nodes) ∧ Fresh seen (es.map (·.trigger)) := by
  induction es generalizing seen with
  | nil => simp [EdgeSpec.validateAll]
  | cons e rest ih =>
    simp only [EdgeSpec.validateAll, check_bind_eq_ok_iff, ensure_eq_ok_iff, ih, List.map_cons,
      fresh_cons, List.forall_mem_cons, Bool.not_eq_true', List.contains_eq_mem,
      decide_eq_false_iff_not, decide_eq_true_eq, bne_iff_ne]
    constructor
    · rintro ⟨hs, ht, ha, he, hn, hr, hf⟩
      exact ⟨⟨⟨hs, ht, ha, he⟩, hr⟩, hn, hf⟩
    · rintro ⟨⟨⟨hs, ht, ha, he⟩, hr⟩, hn, hf⟩
      exact ⟨hs, ht, ha, he, hn, hr, hf⟩

/-! ### Whole specifications -/

namespace WorkflowSpec

/-- **Validation accepts exactly the valid specifications.** -/
theorem validate_eq_ok_iff {w : WorkflowSpec} : w.validate = .ok () ↔ w.Valid := by
  simp only [validate, check_bind_eq_ok_iff, ensure_eq_ok_iff, validateAll_nodes,
    validateAll_utilities, validateKeys_eq_ok_iff, validateAll_endpoints, validateAll_edges,
    fresh_of_nothing_seen, Bool.or_eq_true, bne_iff_ne, decide_eq_true_eq, Bool.not_eq_true',
    List.isEmpty_eq_false_iff]
  constructor
  · rintro ⟨hi, hp, hn, hb, ⟨hnn, hnd⟩, ⟨hu, hud⟩, hk, ⟨he, hed⟩, hx, hxd⟩
    exact ⟨hi, hp, hn, fun h => hb.resolve_left (fun hne => hne h), hnn, hnd, hu, hud, hk, he, hed,
      hx, hxd⟩
  · rintro ⟨hi, hp, hn, hb, hnn, hnd, hu, hud, hk, he, hed, hx, hxd⟩
    refine ⟨hi, hp, hn, ?_, ⟨hnn, hnd⟩, ⟨hu, hud⟩, hk, ⟨he, hed⟩, hx, hxd⟩
    by_cases h : w.pattern = .hybrid
    · exact .inr (hb h)
    · exact .inl h

variable {w : WorkflowSpec}

theorem Valid.isNodeName (h : w.Valid) {s : String} (hs : s ∈ w.nodeNames) : IsNodeName s := by
  obtain ⟨n, hn, rfl⟩ := List.mem_map.mp hs
  exact h.nodeNames n hn

/-- A draft that is reviewed until it passes. -/
def reviewLoop : WorkflowSpec where
  name := "review loop"
  pattern := .agent
  nodes := [.of "Draft" .node "Writes a draft", .of "Review" .asyncNode "Reads it",
    .of "Publish" .node ""]
  edges := [⟨"Draft", "Review", "default"⟩, ⟨"Review", "Draft", "try-again"⟩,
    ⟨"Review", "Publish", "passed"⟩]

end WorkflowSpec

end AgentFlow

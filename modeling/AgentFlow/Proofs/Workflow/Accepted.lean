import AgentFlow.Proofs.Workflow.Names
import Mathlib.Data.List.Perm.Basic

/-!
# Which specifications are accepted

Validation goes through a specification part by part and stops at the first fault.  What it accepts
can be said without that order, in terms of characters, members and pairs, so that the order of the
parts cannot matter.

* `isClassName_iff`, `isFunctionName_iff`, `isActionLabel_iff`: the forms of names, by their
  characters.
* `WorkflowSpec.Accepted`: all conditions on a specification.
* `WorkflowSpec.Reorders`: the same parts in another order.
* `WorkflowSpec.validate_iff`: **a specification is accepted exactly under these conditions, and
  so is each one with the same parts in another order.**
-/

namespace AgentFlow

open Text

/-! ### Forms of names -/

def IsCapital (c : Char) : Prop := 'A' ≤ c ∧ c ≤ 'Z'

def IsLetter (c : Char) : Prop := IsCapital c ∨ ('a' ≤ c ∧ c ≤ 'z')

def IsDigit (c : Char) : Prop := '0' ≤ c ∧ c ≤ '9'

/-- A letter or an underscore, and after it letters, digits and underscores. -/
def IsIdentifier (s : String) : Prop :=
  ∃ c rest, s.toList = c :: rest ∧ (IsLetter c ∨ c = '_') ∧
    ∀ d ∈ rest, IsLetter d ∨ IsDigit d ∨ d = '_'

structure IsFunctionIdentifier (s : String) : Prop where
  identifier : IsIdentifier s
  not_keyword : s ∉ codeKeywords
  no_capital : ∀ c ∈ s.toList, ¬ IsCapital c

variable {c : Char} {s : String}

theorem isUpper_iff : c.isUpper = true ↔ IsCapital c := decide_eq_true_iff

theorem isAlpha_iff : c.isAlpha = true ↔ IsLetter c := by
  have hlower : c.isLower = (decide ('a' ≤ c) && decide (c ≤ 'z')) := rfl
  have halpha : c.isAlpha = (c.isUpper || c.isLower) := rfl
  rw [halpha, hlower, Bool.or_eq_true, isUpper_iff, Bool.and_eq_true, decide_eq_true_eq,
    decide_eq_true_eq, IsLetter]

theorem isDigit_iff : c.isDigit = true ↔ IsDigit c := by
  have hdigit : c.isDigit = (decide ('0' ≤ c) && decide (c ≤ '9')) := rfl
  rw [hdigit, Bool.and_eq_true, decide_eq_true_eq, decide_eq_true_eq, IsDigit]

theorem isNameChar_iff : isNameChar c = true ↔ IsLetter c ∨ IsDigit c ∨ c = '_' := by
  rw [isNameChar, Char.isAlphanum, Bool.or_eq_true, Bool.or_eq_true, isAlpha_iff, isDigit_iff,
    beq_iff_eq, or_assoc]

theorem isClassName_iff : isClassName s = true ↔ IsIdentifier s ∧ s ∉ codeKeywords := by
  rw [isClassName, Bool.and_eq_true, Bool.not_eq_true', List.contains_eq_mem,
    decide_eq_false_iff_not, IsIdentifier]
  refine and_congr_left fun _ => ?_
  cases s.toList with
  | nil => simp
  | cons c rest =>
    simp only [Bool.and_eq_true, Bool.or_eq_true, isAlpha_iff, beq_iff_eq, List.all_eq_true,
      isNameChar_iff, List.cons.injEq]
    constructor
    · rintro ⟨hc, hrest⟩
      exact ⟨c, rest, ⟨rfl, rfl⟩, hc, hrest⟩
    · rintro ⟨_, _, ⟨rfl, rfl⟩, hc, hrest⟩
      exact ⟨hc, hrest⟩

theorem isFunctionName_iff : isFunctionName s = true ↔ IsFunctionIdentifier s := by
  rw [isFunctionName, Bool.and_eq_true, isClassName_iff, Bool.not_eq_true', List.any_eq_false]
  simp only [isUpper_iff]
  constructor
  · rintro ⟨⟨hi, hk⟩, hu⟩
    exact ⟨hi, hk, hu⟩
  · rintro ⟨hi, hk, hu⟩
    exact ⟨⟨hi, hk⟩, hu⟩

theorem isActionLabel_iff :
    isActionLabel s = true ↔
      s ≠ "" ∧ ∀ c ∈ s.toList, IsLetter c ∨ IsDigit c ∨ c = '_' ∨ c = '-' := by
  rw [isActionLabel, Bool.and_eq_true, Bool.not_eq_true', List.all_eq_true]
  simp only [Bool.or_eq_true, isNameChar_iff, beq_iff_eq, or_assoc]
  exact and_congr_left fun _ => by rw [← Bool.not_eq_true, String.isEmpty_iff]

theorem hasInk_iff : hasInk s = true ↔ ∃ c ∈ s.toList, isBlank c = false := by
  rw [hasInk, List.any_eq_true]
  simp only [Bool.not_eq_true']

/-! ### Conditions on specifications -/

/-- Names and types of a utility that may go into generated code. -/
structure UtilitySpec.Accepted (u : UtilitySpec) : Prop where
  name : IsFunctionIdentifier u.name
  parameters : ∀ p ∈ u.parameters, IsFunctionIdentifier p.name ∧ isTypeText p.type = true
  distinct : u.parameters.Pairwise fun p q => p.name ≠ q.name
  returnType : isTypeText u.returnType = true

/-- All that a specification is asked for. -/
structure WorkflowSpec.Accepted (w : WorkflowSpec) : Prop where
  inked : ∃ c ∈ w.name.toList, isBlank c = false
  directory : w.directoryName ≠ "." ∧ w.directoryName ≠ ".." ∧
    ∀ c ∈ w.directoryName.toList, c ≠ '/' ∧ c ≠ '\\'
  nodes_ne_nil : w.nodes ≠ []
  bases : w.pattern = .hybrid → 2 ≤ w.basePatterns.length
  nodeNames : ∀ n ∈ w.nodes, IsIdentifier n.name ∧ n.name ∉ codeKeywords ∧
    n.name ∉ importedClasses ∧ n.name ∉ chartKeywords ∧ n.name ≠ errorHandler
  distinctNodes : w.nodes.Pairwise fun n m => n.name ≠ m.name
  utilities : ∀ u ∈ w.utilities, u.Accepted
  distinctUtilities : w.utilities.Pairwise fun u v => u.name ≠ v.name
  keys : ∀ k ∈ w.sharedStore.keys, IsFunctionIdentifier k
  methods : ∀ e ∈ w.endpoints, upper e.method ∈ httpMethods
  paths : ∀ e ∈ w.endpoints, e.path.toList.head? = some '/'
  distinctEndpoints : w.endpoints.Pairwise fun e f =>
    (upper e.method, e.path) ≠ (upper f.method, f.path)
  edgeNodes : ∀ e ∈ w.edges, (∃ n ∈ w.nodes, n.name = e.source) ∧ ∃ n ∈ w.nodes, n.name = e.target
  actions : ∀ e ∈ w.edges, e.action ≠ "" ∧ e.action ≠ "error" ∧
    ∀ c ∈ e.action.toList, IsLetter c ∨ IsDigit c ∨ c = '_' ∨ c = '-'
  distinctEdges : w.edges.Pairwise fun e f => (e.source, e.action) ≠ (f.source, f.action)

theorem isNodeName_iff :
    IsNodeName s ↔ IsIdentifier s ∧ s ∉ codeKeywords ∧ s ∉ importedClasses ∧ s ∉ chartKeywords ∧
      s ≠ errorHandler := by
  constructor
  · rintro ⟨hc, hi, hk, he⟩
    obtain ⟨hid, hkey⟩ := isClassName_iff.mp hc
    exact ⟨hid, hkey, hi, hk, he⟩
  · rintro ⟨hid, hkey, hi, hk, he⟩
    exact ⟨isClassName_iff.mpr ⟨hid, hkey⟩, hi, hk, he⟩

theorem UtilitySpec.valid_iff {u : UtilitySpec} : u.Valid ↔ u.Accepted := by
  have hparameter {p : ParamSpec} :
      p.Valid ↔ IsFunctionIdentifier p.name ∧ isTypeText p.type = true :=
    ⟨fun h => ⟨isFunctionName_iff.mp h.name, h.type⟩,
      fun h => ⟨isFunctionName_iff.mpr h.1, h.2⟩⟩
  constructor
  · rintro ⟨hn, hp, hd, hr⟩
    exact ⟨isFunctionName_iff.mp hn, fun p h => hparameter.mp (hp p h), List.pairwise_map.mp hd, hr⟩
  · rintro ⟨hn, hp, hd, hr⟩
    exact ⟨isFunctionName_iff.mpr hn, fun p h => hparameter.mpr (hp p h), List.pairwise_map.mpr hd,
      hr⟩

namespace WorkflowSpec

variable {w v : WorkflowSpec}

theorem valid_iff : w.Valid ↔ w.Accepted := by
  constructor
  · intro h
    exact
      { inked := hasInk_iff.mp h.named
        directory := isPlainDirectory_iff.mp h.plain
        nodes_ne_nil := h.nodes_ne_nil
        bases := h.bases
        nodeNames := fun n hn => isNodeName_iff.mp (h.nodeNames n hn)
        distinctNodes := List.pairwise_map.mp h.nodup_nodeNames
        utilities := fun u hu => UtilitySpec.valid_iff.mp (h.utilities u hu)
        distinctUtilities := List.pairwise_map.mp h.nodup_utilities
        keys := fun k hk => isFunctionName_iff.mp (h.keys k hk)
        methods := fun e he => (h.endpoints e he).method
        paths := fun e he => (h.endpoints e he).path
        distinctEndpoints := List.pairwise_map.mp h.nodup_routes
        edgeNodes := fun e he =>
          ⟨List.mem_map.mp (h.edges e he).source, List.mem_map.mp (h.edges e he).target⟩
        actions := fun e he =>
          ⟨(isActionLabel_iff.mp (h.edges e he).action).1, (h.edges e he).ne_error,
            (isActionLabel_iff.mp (h.edges e he).action).2⟩
        distinctEdges := List.pairwise_map.mp h.nodup_triggers }
  · intro h
    exact
      { named := hasInk_iff.mpr h.inked
        plain := isPlainDirectory_iff.mpr h.directory
        nodes_ne_nil := h.nodes_ne_nil
        bases := h.bases
        nodeNames := fun n hn => isNodeName_iff.mpr (h.nodeNames n hn)
        nodup_nodeNames := List.pairwise_map.mpr h.distinctNodes
        utilities := fun u hu => UtilitySpec.valid_iff.mpr (h.utilities u hu)
        nodup_utilities := List.pairwise_map.mpr h.distinctUtilities
        keys := fun k hk => isFunctionName_iff.mpr (h.keys k hk)
        endpoints := fun e he => ⟨h.methods e he, h.paths e he⟩
        nodup_routes := List.pairwise_map.mpr h.distinctEndpoints
        edges := fun e he =>
          ⟨List.mem_map.mpr (h.edgeNodes e he).1, List.mem_map.mpr (h.edgeNodes e he).2,
            isActionLabel_iff.mpr ⟨(h.actions e he).1, (h.actions e he).2.2⟩, (h.actions e he).2.1⟩
        nodup_triggers := List.pairwise_map.mpr h.distinctEdges }

end WorkflowSpec

/-! ### The same parts in another order -/

/-- The same utility with its parameters in another order. -/
structure UtilitySpec.Reorders (u v : UtilitySpec) : Prop where
  name : v.name = u.name
  parameters : u.parameters.Perm v.parameters
  returnType : v.returnType = u.returnType

theorem UtilitySpec.Reorders.symm {u v : UtilitySpec} (h : u.Reorders v) : v.Reorders u :=
  ⟨h.name.symm, h.parameters.symm, h.returnType.symm⟩

theorem UtilitySpec.Reorders.valid {u v : UtilitySpec} (h : u.Reorders v) (hu : u.Valid) :
    v.Valid where
  name := h.name.symm ▸ hu.name
  parameters p hp := hu.parameters p (h.parameters.mem_iff.mpr hp)
  distinct := (h.parameters.map _).nodup_iff.mp hu.distinct
  returnType := h.returnType.symm ▸ hu.returnType

theorem UtilitySpec.valid_of_forall₂ {us vs : List UtilitySpec}
    (h : List.Forall₂ UtilitySpec.Reorders us vs) (hus : ∀ u ∈ us, u.Valid) :
    ∀ v ∈ vs, v.Valid := by
  induction h with
  | nil => exact hus
  | cons hreorders _ ih =>
    rw [List.forall_mem_cons] at hus ⊢
    exact ⟨hreorders.valid hus.1, ih hus.2⟩

namespace WorkflowSpec

/-- The same specification with its nodes, base patterns, utilities, the parameters of utilities,
endpoints and transitions in another order, whatever the free texts say. -/
structure Reorders (w v : WorkflowSpec) : Prop where
  name : v.name = w.name
  pattern : v.pattern = w.pattern
  bases : w.basePatterns.Perm v.basePatterns
  nodes : w.nodes.Perm v.nodes
  utilities : ∃ us, w.utilities.Perm us ∧ List.Forall₂ UtilitySpec.Reorders us v.utilities
  keys : v.sharedStore.keys = w.sharedStore.keys
  endpoints : w.endpoints.Perm v.endpoints
  edges : w.edges.Perm v.edges

variable {w v : WorkflowSpec}

theorem Reorders.symm (h : w.Reorders v) : v.Reorders w where
  name := h.name.symm
  pattern := h.pattern.symm
  bases := h.bases.symm
  nodes := h.nodes.symm
  utilities := by
    obtain ⟨us, hperm, hutilities⟩ := h.utilities
    have hback : List.Forall₂ UtilitySpec.Reorders v.utilities us :=
      (hutilities.imp fun _ _ => UtilitySpec.Reorders.symm).flip
    obtain ⟨vs, hvs, hws⟩ := List.perm_comp_forall₂ hperm hback.flip
    exact ⟨vs, hws.symm, hvs.flip⟩
  keys := h.keys.symm
  endpoints := h.endpoints.symm
  edges := h.edges.symm

/-- The order of the parts does not matter to validity. -/
theorem Reorders.valid (h : w.Reorders v) (hw : w.Valid) : v.Valid := by
  obtain ⟨us, hperm, hutilities⟩ := h.utilities
  have hnames : v.nodeNames.Perm w.nodeNames := (h.nodes.map _).symm
  have hutilityNames : us.map (·.name) = v.utilities.map (·.name) := by
    rw [← List.forall₂_eq_eq_eq, List.forall₂_map_left_iff, List.forall₂_map_right_iff]
    exact hutilities.imp fun _ _ hu => hu.name.symm
  refine
    { named := h.name.symm ▸ hw.named
      plain := ?plain
      nodes_ne_nil := fun hnil => hw.nodes_ne_nil (hnil ▸ h.nodes).eq_nil
      bases := fun hhybrid => h.bases.length_eq ▸ hw.bases (h.pattern ▸ hhybrid)
      nodeNames := fun n hn => hw.nodeNames n (h.nodes.mem_iff.mpr hn)
      nodup_nodeNames := hnames.nodup_iff.mpr hw.nodup_nodeNames
      utilities := ?utilities
      nodup_utilities := hutilityNames ▸ (hperm.map _).nodup_iff.mp hw.nodup_utilities
      keys := h.keys.symm ▸ hw.keys
      endpoints := fun e he => hw.endpoints e (h.endpoints.mem_iff.mpr he)
      nodup_routes := (h.endpoints.map _).nodup_iff.mp hw.nodup_routes
      edges := ?edges
      nodup_triggers := (h.edges.map _).nodup_iff.mp hw.nodup_triggers }
  case plain =>
    have hdirectory : v.directoryName = w.directoryName := by
      rw [directoryName, directoryName, h.name]
    exact hdirectory.symm ▸ hw.plain
  case utilities =>
    exact UtilitySpec.valid_of_forall₂ hutilities fun u hu =>
      hw.utilities u (hperm.mem_iff.mpr hu)
  case edges =>
    intro e he
    obtain ⟨hs, ht, ha, hne⟩ := hw.edges e (h.edges.mem_iff.mpr he)
    exact ⟨hnames.mem_iff.mpr hs, hnames.mem_iff.mpr ht, ha, hne⟩

/-- **A specification is accepted exactly if it meets all conditions, in whatever order its parts
are listed.** -/
theorem validate_iff (w : WorkflowSpec) :
    (w.validate = .ok () ↔ w.Accepted) ∧
      ∀ v, w.Reorders v → (v.validate = .ok () ↔ w.validate = .ok ()) := by
  refine ⟨validate_eq_ok_iff.trans valid_iff, fun v h => ?_⟩
  rw [validate_eq_ok_iff, validate_eq_ok_iff]
  exact ⟨h.symm.valid, h.valid⟩

/-- Two nodes, the parameters of a utility and two transitions, listed the other way round. -/
theorem validate_iff_reviewLoop :
    ∃ w v : WorkflowSpec, w.Reorders v ∧ v ≠ w ∧ w.validate = .ok () ∧
      (v.validate = .ok () ↔ w.validate = .ok ()) := by
  let search (ps : List ParamSpec) : UtilitySpec := ⟨"search", "", ps, "list[str]"⟩
  let query : ParamSpec := ⟨"query", "str"⟩
  let limit : ParamSpec := ⟨"limit", "int | None"⟩
  let w := { reviewLoop with utilities := [search [query, limit]] }
  let v :=
    { w with
      nodes := w.nodes.reverse
      utilities := [search [limit, query]]
      edges := w.edges.reverse }
  have hsearch : (search [query, limit]).Reorders (search [limit, query]) :=
    ⟨rfl, List.Perm.swap _ _ _, rfl⟩
  have hreorders : w.Reorders v :=
    { name := rfl
      pattern := rfl
      bases := List.Perm.refl _
      nodes := (List.reverse_perm _).symm
      utilities := ⟨w.utilities, List.Perm.refl _, .cons hsearch .nil⟩
      keys := rfl
      endpoints := List.Perm.refl _
      edges := (List.reverse_perm _).symm }
  have hw : w.validate = .ok () := by decide +kernel
  exact ⟨w, v, hreorders, by decide, hw, (validate_iff w).2 v hreorders⟩

end WorkflowSpec

end AgentFlow

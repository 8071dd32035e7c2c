import AgentFlow.Output.Files
import AgentFlow.Output.Plan
import AgentFlow.Proofs.Recommendation.Patterns
import AgentFlow.Proofs.Text.Trim
import AgentFlow.Proofs.Workflow.Valid

/-!
# From a requirement to generated files

Whatever a text asks for and however a user corrects the recommendation, the workflow that is built
from it is valid, unless its name stands for no directory.  Then its files can be generated.

* `NodesValid`, `UtilitiesValid`: what a specification asks of its nodes and utilities;
  `Catalog.nodesValid` and `Catalog.nodesValid_composeNodes`: the catalog and compositions have it.
* `Recommendation.Sound.valid_contents`: so have the contents of every sound recommendation.
* `Recommendation.Sound.valid_draft_iff`: the workflow is valid exactly if its name is.
* `Recommender.generates`: **the way from a text to files succeeds exactly for these names.**
-/

namespace AgentFlow

open Data Text Output

/-! ### Names of workflows -/

/-- The name of the directory of a workflow with the given name. -/
def directoryOf (name : String) : String :=
  lower (String.ofList (name.toList.filter fun c => !isBlank c))

/-- A name that is not blank and that stands for a directory of its own. -/
structure IsWorkflowName (name : String) : Prop where
  inked : hasInk name = true
  ne_dot : directoryOf name ≠ "."
  ne_dots : directoryOf name ≠ ".."
  no_separator : ∀ c ∈ (directoryOf name).toList, c ≠ '/' ∧ c ≠ '\\'

theorem isWorkflowName_iff {name : String} :
    IsWorkflowName name ↔ hasInk name = true ∧ isPlainDirectory (directoryOf name) = true := by
  rw [isPlainDirectory_iff]
  constructor
  · rintro ⟨hi, hd, hds, hs⟩
    exact ⟨hi, hd, hds, hs⟩
  · rintro ⟨hi, hd, hds, hs⟩
    exact ⟨hi, hd, hds, hs⟩

/-! ### Nodes and utilities -/

/-- Nodes that a specification may have, whose results go into fields of their own. -/
structure NodesValid (nodes : List NodeSpec) : Prop where
  ne_nil : nodes ≠ []
  names : ∀ n ∈ nodes, IsNodeName n.name
  resultKeys : ∀ n ∈ nodes, isFunctionName n.resultKey = true
  nodup : (nodes.map (·.name)).Nodup

instance (nodes : List NodeSpec) : Decidable (NodesValid nodes) :=
  decidable_of_iff (nodes ≠ [] ∧ (∀ n ∈ nodes, IsNodeName n.name) ∧
    (∀ n ∈ nodes, isFunctionName n.resultKey = true) ∧ (nodes.map (·.name)).Nodup)
    ⟨fun ⟨hne, hn, hk, hd⟩ => ⟨hne, hn, hk, hd⟩, fun ⟨hne, hn, hk, hd⟩ => ⟨hne, hn, hk, hd⟩⟩

structure UtilitiesValid (utilities : List UtilitySpec) : Prop where
  valid : ∀ u ∈ utilities, u.Valid
  nodup : (utilities.map (·.name)).Nodup

instance (utilities : List UtilitySpec) : Decidable (UtilitiesValid utilities) :=
  decidable_of_iff ((∀ u ∈ utilities, u.Valid) ∧ (utilities.map (·.name)).Nodup)
    ⟨fun ⟨hu, hd⟩ => ⟨hu, hd⟩, fun ⟨hu, hd⟩ => ⟨hu, hd⟩⟩

namespace Catalog

theorem nodesValid (p : Pattern) : NodesValid (nodes p) := by
  cases p <;> decide +kernel

theorem utilitiesValid (p : Pattern) : UtilitiesValid (utilities p) := by
  cases p <;> decide +kernel

theorem nodesValid_scaffold (s : Scaffold) : NodesValid (scaffoldNodes s) := by
  cases s <;> decide +kernel

theorem utilitiesValid_scaffold (s : Scaffold) : UtilitiesValid (scaffoldUtilities s) := by
  cases s <;> decide +kernel

/-! ### Compositions -/

section

variable {β : Type} {key : β → String} {seen : List String} {xs : List β}

theorem mem_of_mem_firstOfKey {x : β} (h : x ∈ firstOfKey key seen xs) : x ∈ xs := by
  induction xs generalizing seen with
  | nil => exact absurd h List.not_mem_nil
  | cons y rest ih =>
    rw [firstOfKey] at h
    split at h
    · exact List.mem_cons_of_mem y (ih h)
    · rcases List.mem_cons.mp h with rfl | h
      · exact List.mem_cons_self
      · exact List.mem_cons_of_mem y (ih h)

/-- The first members of each key have keys of their own, none of which was seen before. -/
theorem fresh_firstOfKey : Fresh seen ((firstOfKey key seen xs).map key) := by
  induction xs generalizing seen with
  | nil => exact fresh_nil
  | cons y rest ih =>
    rw [firstOfKey]
    split
    · exact ih
    · next hy =>
      rw [List.map_cons, fresh_cons]
      exact ⟨fun hmem => hy (List.contains_iff_mem.mpr hmem), ih⟩

end

/-- A node that is marked with its pattern keeps its name. -/
theorem exists_of_mem_composeNodes {ps : List Pattern} {n : NodeSpec} (h : n ∈ composeNodes ps) :
    ∃ p, ∃ m ∈ nodes p, n.name = m.name := by
  obtain ⟨p, -, hn⟩ := List.mem_flatMap.mp (mem_of_mem_firstOfKey h)
  obtain ⟨m, hm, rfl⟩ := List.mem_map.mp hn
  exact ⟨p, m, hm, rfl⟩

theorem composeNodes_ne_nil {ps : List Pattern} (h : ps ≠ []) : composeNodes ps ≠ [] := by
  obtain ⟨p, rest, rfl⟩ := List.exists_cons_of_ne_nil h
  obtain ⟨m, more, hm⟩ := List.exists_cons_of_ne_nil (nodesValid p).ne_nil
  rw [composeNodes, List.flatMap_cons, originNodes, hm, List.map_cons, List.cons_append, firstOfKey,
    if_neg (by simp)]
  exact List.cons_ne_nil _ _

/-- **The nodes of several patterns can stand in one specification.** -/
theorem nodesValid_composeNodes {ps : List Pattern} (h : ps ≠ []) :
    NodesValid (composeNodes ps) where
  ne_nil := composeNodes_ne_nil h
  names := by
    intro n hn
    obtain ⟨p, m, hm, hname⟩ := exists_of_mem_composeNodes hn
    exact hname ▸ (nodesValid p).names m hm
  resultKeys := by
    intro n hn
    obtain ⟨p, m, hm, hname⟩ := exists_of_mem_composeNodes hn
    rw [NodeSpec.resultKey, hname]
    exact (nodesValid p).resultKeys m hm
  nodup := fresh_of_nothing_seen.mp fresh_firstOfKey

/-- So can their utilities. -/
theorem utilitiesValid_composeUtilities (ps : List Pattern) :
    UtilitiesValid (composeUtilities ps) where
  valid := by
    intro u hu
    obtain ⟨p, -, hp⟩ := List.mem_flatMap.mp (mem_of_mem_firstOfKey hu)
    exact (utilitiesValid p).valid u hp
  nodup := fresh_of_nothing_seen.mp fresh_firstOfKey

end Catalog

/-! ### Contents -/

structure Contents.Valid (c : Contents) : Prop where
  nodes : NodesValid c.nodes
  utilities : UtilitiesValid c.utilities
  bases : c.pattern = .hybrid → 2 ≤ c.basePatterns.length

theorem length_primaryFirst (p : Pattern) (ps : List Pattern) :
    (primaryFirst p ps).length = ps.length := by
  rw [primaryFirst]
  split
  · next hp =>
    have hmem := List.contains_iff_mem.mp hp
    have hpos := List.length_pos_of_mem hmem
    rw [List.length_cons, List.length_erase_of_mem hmem]
    omega
  · rfl

variable {α : Type}

namespace Recommendation

theorem Sound.primary_ne_hybrid {r : Recommendation α} (h : r.Sound) : r.primary ≠ .hybrid := by
  intro hp
  have := h.primary
  rw [hp] at this
  exact absurd this (by decide)

end Recommendation

variable [Scale α]

/-- The strongest of combinations is one of them. -/
theorem mem_of_foldl_strongerOf {cs : List (Combination α)} {start : Option (Combination α)}
    {c : Combination α} (h : cs.foldl strongerOf start = some c) : c ∈ cs ∨ start = some c := by
  induction cs generalizing start with
  | nil => exact .inr h
  | cons d rest ih =>
    rcases ih h with h | h
    · exact .inl (List.mem_cons_of_mem d h)
    · unfold strongerOf at h
      split at h
      · exact .inl (Option.some.inj h ▸ List.mem_cons_self)
      · split at h
        · exact .inr h
        · exact .inl (Option.some.inj h ▸ List.mem_cons_self)

theorem Customizations.mem_of_strongestHybrid {c : Customizations α} {best : Combination α}
    (h : c.strongestHybrid? = some best) : best ∈ c.combinations.values := by
  rcases mem_of_foldl_strongerOf h with h | h
  · exact (List.mem_filter.mp h).1
  · exact absurd h nofun

namespace Recommendation

variable {r : Recommendation α}

/-- Two patterns are promoted. -/
theorem Sound.length_promoted (h : r.Sound) {promote : Bool} {ps : List Pattern}
    (hps : r.promoted? promote = some ps) : ps.length = 2 := by
  rw [promoted?] at hps
  split at hps
  · obtain ⟨c, hc, rfl⟩ := Option.map_eq_some_iff.mp hps
    obtain ⟨p, q, -, hpatterns⟩ := h.combinations c (Customizations.mem_of_strongestHybrid hc)
    rw [length_primaryFirst, hpatterns]
    rfl
  · exact absurd hps nofun

/-- **What a sound recommendation asks for can be generated,** be it a scaffold, a composition or
the contents of one pattern. -/
theorem Sound.valid_contents (h : r.Sound) (promote : Bool) : (r.contents promote).Valid := by
  rw [contents]
  cases hs : r.customizations.scaffold with
  | some scaffold =>
    exact ⟨Catalog.nodesValid_scaffold scaffold, Catalog.utilitiesValid_scaffold scaffold,
      fun hp => absurd hp h.primary_ne_hybrid⟩
  | none =>
    cases hps : r.promoted? promote with
    | some ps =>
      have hlength := h.length_promoted hps
      have hne : ps ≠ [] := by
        rintro rfl
        exact absurd hlength (by decide)
      exact ⟨Catalog.nodesValid_composeNodes hne, Catalog.utilitiesValid_composeUtilities ps,
        fun _ => Nat.le_of_eq hlength.symm⟩
    | none =>
      exact ⟨Catalog.nodesValid r.primary, Catalog.utilitiesValid r.primary,
        fun hp => absurd hp h.primary_ne_hybrid⟩

/-! ### The recommended workflow -/

/-- The shared values are the input, the output and the results of the nodes. -/
theorem isFunctionName_of_mem_storeOf {nodes : List NodeSpec} (h : NodesValid nodes) {k : String}
    (hk : k ∈ (storeOf nodes).keys) : isFunctionName k = true := by
  obtain ⟨e, he, rfl⟩ := List.mem_map.mp hk
  have hmem := SortedMap.mem_of_mem_ofList he
  rw [List.cons_append, List.mem_cons, List.mem_append, List.mem_singleton, List.mem_map] at hmem
  rcases hmem with rfl | ⟨n, hn, rfl⟩ | rfl
  · decide
  · exact h.resultKeys n hn
  · decide

theorem valid_run (workflow : String) : (EndpointSpec.run workflow).Valid where
  method := (by decide : Text.upper "POST" ∈ httpMethods)
  path := (by decide : "/run".toList.head? = some '/')

variable (s : GenerationSettings) (promote : Bool) (name requirement : String)

theorem directoryName_draft :
    (r.draft s promote name requirement).directoryName = directoryOf name := by
  rw [directoryOf, ← filter_trim]
  rfl

/-- **The workflow of a sound recommendation is valid exactly if its name is.** -/
theorem Sound.valid_draft_iff (h : r.Sound) :
    (r.draft s promote name requirement).Valid ↔ IsWorkflowName name := by
  have hc := h.valid_contents promote
  have hink : hasInk (r.draft s promote name requirement).name = hasInk name := hasInk_trim name
  rw [isWorkflowName_iff]
  constructor
  · intro hv
    have hnamed := hv.named
    have hplain := hv.plain
    rw [hink] at hnamed
    rw [directoryName_draft] at hplain
    exact ⟨hnamed, hplain⟩
  · rintro ⟨hnamed, hplain⟩
    have hendpoints : ∀ fastApi : Bool, ∀ e ∈ (if fastApi then [EndpointSpec.run (trim name)]
        else []), e.Valid := by
      intro fastApi e he
      cases fastApi with
      | false => exact absurd he List.not_mem_nil
      | true => exact List.mem_singleton.mp he ▸ valid_run _
    have hroutes : ∀ fastApi : Bool, ((if fastApi then [EndpointSpec.run (trim name)]
        else []).map (·.route)).Nodup := by
      intro fastApi
      cases fastApi with
      | false => exact List.nodup_nil
      | true => exact List.nodup_cons.mpr ⟨List.not_mem_nil, List.nodup_nil⟩
    exact {
      named := hink.trans hnamed
      plain := by rw [directoryName_draft]; exact hplain
      nodes_ne_nil := hc.nodes.ne_nil
      bases := hc.bases
      nodeNames := hc.nodes.names
      nodup_nodeNames := hc.nodes.nodup
      utilities := hc.utilities.valid
      nodup_utilities := hc.utilities.nodup
      keys := fun _ hk => isFunctionName_of_mem_storeOf hc.nodes hk
      endpoints := hendpoints _
      nodup_routes := hroutes _
      edges := fun e he => absurd he List.not_mem_nil
      nodup_triggers := List.nodup_nil }

/-- A recommended workflow is the draft, if this is valid. -/
theorem workflow_eq_ok_iff {w : WorkflowSpec} :
    r.workflow s promote name requirement = .ok w ↔
      (r.draft s promote name requirement).Valid ∧ r.draft s promote name requirement = w := by
  rw [workflow, check_bind_eq_ok_iff, WorkflowSpec.validate_eq_ok_iff, Except.ok.injEq]

end Recommendation

/-- A workflow that was recommended has files. -/
theorem WorkflowSpec.Valid.generate {w : WorkflowSpec} (h : w.Valid) :
    w.generate = .ok w.files := by
  rw [WorkflowSpec.generate, check_bind_eq_ok_iff]
  exact ⟨WorkflowSpec.validate_eq_ok_iff.mpr h, rfl⟩

/-- **From any text, through any corrections that are accepted, the way to a workflow succeeds
exactly for the names of workflows, and then its files can be generated.** -/
theorem Recommender.generates (r : Recommender α) {text : String} (h : hasInk text = true) :
    ∃ first, r.recommend text = .ok first ∧
      ∀ (corrections : List Overrides) (last : Recommendation α),
        corrections.foldlM Recommendation.override first = .ok last →
      ∀ (s : GenerationSettings) (promote : Bool) (name requirement : String),
        ((∃ w, last.workflow s promote name requirement = .ok w) ↔ IsWorkflowName name) ∧
          ∀ w, last.workflow s promote name requirement = .ok w →
            ∃ files, w.generate = .ok files := by
  refine ⟨r.ofAnalysis (.ofText text r.stage), by rw [recommend, if_pos h], ?_⟩
  intro corrections last hlast s promote name requirement
  have hsound := (r.sound_ofAnalysis (.ofText text r.stage)).foldlM_override hlast
  have hdraft := hsound.valid_draft_iff s promote name requirement
  refine ⟨⟨?_, fun hname => ?_⟩, fun w hw => ?_⟩
  · rintro ⟨w, hw⟩
    exact hdraft.mp ((Recommendation.workflow_eq_ok_iff s promote name requirement).mp hw).1
  · exact ⟨_, (Recommendation.workflow_eq_ok_iff s promote name requirement).mpr
      ⟨hdraft.mpr hname, rfl⟩⟩
  · obtain ⟨hv, rfl⟩ := (Recommendation.workflow_eq_ok_iff s promote name requirement).mp hw
    exact ⟨_, hv.generate⟩

/-- A recommender with the thresholds that hold when none are stated. -/
def standardRecommender : Recommender Float32 where
  scorer := .standard 0.45
  stage := .createSpec
  secondaryThreshold := 0.3
  ambiguityRatio := 0.85
  fastApi := true

/-- A pattern is forced, then the size is changed and the interface is taken out.  There is a
workflow under one name, with its files, and none under the name of another place. -/
theorem generates_standard :
    hasInk "Answer questions" = true ∧
      ∃ first last w files, standardRecommender.recommend "Answer questions" = .ok first ∧
        [({ forcePattern := some "Tool" } : Overrides),
          { size := some .simple, disableFeatures := ["FastAPI"] }].foldlM
            Recommendation.override first = .ok last ∧
        last.workflow ⟨"flows", false⟩ true "Question Desk" "Answer questions" = .ok w ∧
        w.generate = .ok files ∧
        ¬ ∃ w, last.workflow ⟨"flows", false⟩ true "../Desk" "Answer questions" = .ok w := by
  have hink : hasInk "Answer questions" = true := by decide
  obtain ⟨first, hfirst, hall⟩ := standardRecommender.generates hink
  have hrun : [({ forcePattern := some "Tool" } : Overrides),
      { size := some .simple, disableFeatures := ["FastAPI"] }].foldlM
        Recommendation.override first = .ok ((first.correct (some .tool) none []).correct none
          (some .simple) ["fastapi"]) := rfl
  obtain ⟨hiff, hfiles⟩ := hall _ _ hrun ⟨"flows", false⟩ true "Question Desk" "Answer questions"
  obtain ⟨hrefused, -⟩ := hall _ _ hrun ⟨"flows", false⟩ true "../Desk" "Answer questions"
  obtain ⟨w, hw⟩ := hiff.mpr (isWorkflowName_iff.mpr ⟨by decide, by decide⟩)
  obtain ⟨files, hgenerate⟩ := hfiles w hw
  have hname : ¬ IsWorkflowName "../Desk" := fun h => absurd (isWorkflowName_iff.mp h).2 (by decide)
  exact ⟨hink, first, _, w, files, hfirst, hrun, hw, hgenerate, fun h => hname (hrefused.mp h)⟩

end AgentFlow

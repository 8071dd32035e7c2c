import AgentFlow.Proofs.Data.SortedMaps
import AgentFlow.Proofs.Json.RoundTrip
import AgentFlow.Workflow.SpecFile

/-!
# Specifications written and read back

A specification is written as a record that leaves out the fields that say nothing, and read with a
default for every field that is not there.

* `fields?_written`: a record read back has each field as it was written, or not at all.
* `orElse_written`: **a field that is left out only where it is the default is read back.**
* `node?_ofNode`, `param?_ofParam`, `utility?_ofUtility`, `endpoint?_ofEndpoint`, `edge?_ofEdge` and
  `spec?_ofSpec`: so every part of a specification is read back, and the specification is.
* `numberless_ofSpec`: no number stands in it, so that its text says all of it.
* `WorkflowSpec.written_readBack`: **a specification is read back from its value and its JSON text,
  and what is read as a specification says the same once it is written again.**
-/

namespace AgentFlow

open Data Json

namespace Wire

/-- A list read one by one, when each item is read. -/
theorem mapM_eq_some {α β : Type} {f : α → Option β} {g : α → β} {as : List α}
    (h : ∀ a ∈ as, f a = some (g a)) : as.mapM f = some (as.map g) := by
  induction as with
  | nil => rfl
  | cons a as ih =>
    rw [List.forall_mem_cons] at h
    rw [List.mapM_cons, h.1, ih h.2]
    rfl

/-! ### Records -/

/-- A field of a record that is written: its name, whether it is left out, and its value. -/
structure Field where
  name : String
  silent : Bool
  value : Value

theorem allAt_append (k : String) (ms ms' : List (String × Value)) :
    Value.allAt k (ms ++ ms') = Value.allAt k ms ++ Value.allAt k ms' := by
  rw [Value.allAt, List.filter_append, List.map_append]
  rfl

namespace Field

def written (f : Field) : List (String × Value) := memberUnless f.silent f.name f.value

/-- What a reader of the record finds in the place of the field. -/
def found (f : Field) : Option Value := if f.silent then none else some f.value

theorem allAt_written (f : Field) : Value.allAt f.name f.written = f.found.toList := by
  by_cases h : f.silent <;> simp [written, found, memberUnless, Value.allAt, h]

theorem allAt_written_of_ne {f : Field} {k : String} (h : f.name ≠ k) :
    Value.allAt k f.written = [] := by
  by_cases hs : f.silent <;> simp [written, memberUnless, Value.allAt, hs, h]

theorem allAt_flatMap_written_of_notMem {fs : List Field} {k : String}
    (h : k ∉ fs.map (·.name)) : Value.allAt k (fs.flatMap written) = [] := by
  induction fs with
  | nil => rfl
  | cons f fs ih =>
    rw [List.map_cons, List.mem_cons, not_or] at h
    rw [List.flatMap_cons, allAt_append, allAt_written_of_ne (Ne.symm h.1), ih h.2, List.nil_append]

/-- Where no two fields share a name, each field is found under its own. -/
theorem allAt_flatMap_written {fs : List Field} (h : (fs.map (·.name)).Nodup) {f : Field}
    (hf : f ∈ fs) : Value.allAt f.name (fs.flatMap written) = f.found.toList := by
  induction fs with
  | nil => exact absurd hf List.not_mem_nil
  | cons g fs ih =>
    rw [List.map_cons, List.nodup_cons] at h
    rw [List.flatMap_cons, allAt_append]
    rcases List.mem_cons.mp hf with rfl | hf
    · rw [allAt_written, allAt_flatMap_written_of_notMem h.1, List.append_nil]
    · have hne : g.name ≠ f.name := fun he => h.1 (he ▸ List.mem_map_of_mem hf)
      rw [allAt_written_of_ne hne, ih h.2 hf, List.nil_append]

end Field

/-- **A record is read back field by field.** -/
theorem fields?_written {fs : List Field} (h : (fs.map (·.name)).Nodup) :
    (Value.table (fs.flatMap Field.written)).fields? (fs.map (·.name)) =
      some (fs.map Field.found) := by
  rw [Value.fields?, List.mapM_map]
  refine mapM_eq_some fun f hf => ?_
  simp only [Function.comp_apply, Field.allAt_flatMap_written h hf]
  cases f.found <;> rfl

/-- **A field that is left out only where it is the default is read back.** -/
theorem orElse_written {α : Type} {read : Value → Option α} {default a : α} {f : Field}
    (hsilent : f.silent = true → a = default) (hread : f.silent = false → read f.value = some a) :
    Value.orElse read default f.found = some a := by
  cases hs : f.silent with
  | true =>
    rw [Field.found, if_pos hs, hsilent hs]
    rfl
  | false =>
    rw [Field.found, if_neg (by simp [hs])]
    exact hread hs

section Present

variable {α : Type} (read : Value → Option α) (default : α) (k : String) (v : Value)

@[simp]
theorem required_present : Value.required read (Field.found ⟨k, false, v⟩) = read v := rfl

@[simp]
theorem orElse_present : Value.orElse read default (Field.found ⟨k, false, v⟩) = read v := rfl

end Present

/-! ### Lists and maps -/

section Compound

variable {α : Type} {read : Value → Option α} {write : α → Value}

theorem list?_map (h : ∀ a, read (write a) = some a) (as : List α) :
    Value.list? read (.list (as.map write)) = some as := by
  rw [Value.list?, List.mapM_map]
  exact (mapM_eq_some (g := id) fun a _ => h a).trans (congrArg some (List.map_id as))

theorem textMap?_ofTextMap (h : ∀ a, read (write a) = some a) (m : SortedMap String α) :
    textMap? read (ofTextMap write m) = some m := by
  have hmembers : (ofTextMap write m).members? read = some m.entries := by
    rw [ofTextMap, Value.members?, List.mapM_map]
    refine (mapM_eq_some (g := id) ?_).trans (congrArg some (List.map_id _))
    rintro ⟨k, a⟩ _
    exact congrArg (Option.map fun a => (k, a)) (h a)
  rw [textMap?, hmembers, Option.map_some, SortedMap.ofList_entries]

end Compound

theorem pattern?_name (p : Pattern) : pattern? (.text p.name) = some p := Pattern.ofName?_name p

theorem nodeKind?_name (k : NodeKind) : nodeKind? (.text k.name) = some k := by
  cases k <;> decide

theorem list?_ofPatterns (ps : List Pattern) : Value.list? pattern? (ofPatterns ps) = some ps := by
  rw [ofPatterns, Value.texts, List.map_map]
  exact list?_map pattern?_name ps

/-! ### Parts of a specification -/

theorem param?_ofParam (p : ParamSpec) : param? (ofParam p) = some p := by
  simp [param?, ofParam, Value.fields?, Value.allAt, Value.required, Value.orElse, Value.text?]

theorem utility?_ofUtility (u : UtilitySpec) : utility? (ofUtility u) = some u := by
  simp [utility?, ofUtility, Value.fields?, Value.allAt, Value.required, Value.orElse,
    Value.text?, list?_map param?_ofParam]

theorem endpoint?_ofEndpoint (e : EndpointSpec) : endpoint? (ofEndpoint e) = some e := by
  simp [endpoint?, ofEndpoint, Value.fields?, Value.allAt, Value.required, Value.orElse,
    Value.text?]

theorem edge?_ofEdge (e : EdgeSpec) : edge? (ofEdge e) = some e := by
  simp [edge?, ofEdge, Value.fields?, Value.allAt, Value.required, Value.orElse, Value.text?]

/-- The fields of a node; its origin is left out where there is none. -/
def nodeFields (n : NodeSpec) : List Field :=
  [⟨"name", false, .text n.name⟩, ⟨"type", false, .text n.kind.name⟩,
    ⟨"description", false, .text n.description⟩,
    ⟨"origin", n.origin.isNone, .text ((n.origin.map (·.name)).getD "")⟩]

theorem optional?_origin {n : NodeSpec} (h : n.origin.isNone = false) :
    Value.optional? pattern? (.text ((n.origin.map (·.name)).getD "")) = some n.origin := by
  obtain ⟨p, hp⟩ := Option.isSome_iff_exists.mp (Option.isNone_eq_false_iff.mp h)
  simp [hp, Value.optional?, Value.isNull, pattern?_name]

theorem node?_ofNode (n : NodeSpec) : node? (ofNode n) = some n := by
  have hwritten : ofNode n = .table ((nodeFields n).flatMap Field.written) := by
    simp [ofNode, nodeFields, Field.written, memberUnless]
  have hfields : (ofNode n).fields? ["name", "type", "description", "origin"] =
      some ((nodeFields n).map Field.found) := by
    rw [hwritten]
    exact fields?_written (by simp [nodeFields])
  have horigin : Value.orElse (Value.optional? pattern?) none
      (Field.found ⟨"origin", n.origin.isNone, .text ((n.origin.map (·.name)).getD "")⟩) =
        some n.origin :=
    orElse_written Option.isNone_iff_eq_none.mp optional?_origin
  simp [node?, hfields, nodeFields, horigin, Value.text?, nodeKind?_name]

/-- The fields of a specification; base patterns and transitions are left out where there are
none. -/
def specRecord (w : WorkflowSpec) : List Field :=
  [⟨"name", false, .text w.name⟩, ⟨"pattern", false, .text w.pattern.name⟩,
    ⟨"description", false, .text w.description⟩,
    ⟨"base_patterns", w.basePatterns.isEmpty, ofPatterns w.basePatterns⟩,
    ⟨"nodes", false, .list (w.nodes.map ofNode)⟩,
    ⟨"utilities", false, .list (w.utilities.map ofUtility)⟩,
    ⟨"shared_store_schema", false, ofTextMap .text w.sharedStore⟩,
    ⟨"api_endpoints", false, .list (w.endpoints.map ofEndpoint)⟩,
    ⟨"edges", w.edges.isEmpty, .list (w.edges.map ofEdge)⟩,
    ⟨"fast_api_integration", false, .bool w.fastApi⟩]

/-- **A specification is read back from the value that it is written as.** -/
theorem spec?_ofSpec (w : WorkflowSpec) : spec? (ofSpec w) = some w := by
  have hwritten : ofSpec w = .table ((specRecord w).flatMap Field.written) := by
    simp [ofSpec, specRecord, Field.written, memberUnless]
  have hfields : (ofSpec w).fields? specFields = some ((specRecord w).map Field.found) := by
    rw [hwritten]
    exact fields?_written (by simp [specRecord])
  have hbases : Value.orElse (Value.list? pattern?) []
      (Field.found ⟨"base_patterns", w.basePatterns.isEmpty, ofPatterns w.basePatterns⟩) =
        some w.basePatterns :=
    orElse_written List.isEmpty_iff.mp fun _ => list?_ofPatterns _
  have hedges : Value.orElse (Value.list? edge?) []
      (Field.found ⟨"edges", w.edges.isEmpty, .list (w.edges.map ofEdge)⟩) = some w.edges :=
    orElse_written List.isEmpty_iff.mp fun _ => list?_map edge?_ofEdge _
  have hstore : textMap? Value.text? (ofTextMap .text w.sharedStore) = some w.sharedStore :=
    @textMap?_ofTextMap String Value.text? .text (fun _ => rfl) _
  simp [spec?, hfields, specRecord, hbases, hedges, hstore, Value.text?, Value.bool?,
    pattern?_name, list?_map node?_ofNode, list?_map utility?_ofUtility,
    list?_map endpoint?_ofEndpoint]

/-! ### The text of a specification -/

theorem numberless_list {α : Type} {write : α → Value} (h : ∀ a, Numberless (write a))
    (as : List α) : Numberless (.list (as.map write)) :=
  .list (List.forall_mem_map.mpr fun a _ => h a)

theorem numberless_textMap {α : Type} {write : α → Value} (h : ∀ a, Numberless (write a))
    (m : SortedMap String α) : Numberless (ofTextMap write m) :=
  .table (List.forall_mem_map.mpr fun e _ => h e.2)

theorem forall_memberUnless {silent : Bool} {key : String} {v : Value} (h : Numberless v) :
    ∀ m ∈ memberUnless silent key v, Numberless m.2 := by
  unfold memberUnless
  split
  · exact List.forall_mem_nil _
  · exact List.forall_mem_singleton.mpr h

theorem numberless_ofPatterns (ps : List Pattern) : Numberless (ofPatterns ps) :=
  numberless_list .text _

theorem numberless_ofParam (p : ParamSpec) : Numberless (ofParam p) := by
  refine .table ?_
  simp [Numberless.text]

theorem numberless_ofNode (n : NodeSpec) : Numberless (ofNode n) :=
  .table (List.forall_mem_append.mpr ⟨by simp [Numberless.text], forall_memberUnless (.text _)⟩)

theorem numberless_ofUtility (u : UtilitySpec) : Numberless (ofUtility u) := by
  refine .table ?_
  simp [Numberless.text, numberless_list numberless_ofParam]

theorem numberless_ofEndpoint (e : EndpointSpec) : Numberless (ofEndpoint e) := by
  refine .table ?_
  simp [Numberless.text]

theorem numberless_ofEdge (e : EdgeSpec) : Numberless (ofEdge e) := by
  refine .table ?_
  simp [Numberless.text]

/-- No number stands in a specification. -/
theorem numberless_ofSpec (w : WorkflowSpec) : Numberless (ofSpec w) := by
  refine .table ?_
  simp only [List.forall_mem_append]
  refine ⟨⟨⟨⟨?_, forall_memberUnless (numberless_ofPatterns _)⟩, ?_⟩,
    forall_memberUnless (numberless_list numberless_ofEdge _)⟩, ?_⟩
  · simp [Numberless.text]
  · simp [numberless_list numberless_ofNode, numberless_list numberless_ofUtility,
      numberless_list numberless_ofEndpoint, numberless_textMap Numberless.text]
  · simp [Numberless.bool]

end Wire

theorem specOfText_of_read? {text : String} {w : WorkflowSpec}
    (h : Json.read? text = some (Wire.ofSpec w)) : specOfText .json text = .ok w := by
  simp [specOfText, h, Wire.spec?_ofSpec]

theorem specOfText_compact (w : WorkflowSpec) :
    specOfText .json (Json.compact (Wire.ofSpec w)) = .ok w :=
  specOfText_of_read? (read?_compact (Wire.numberless_ofSpec w))

theorem specOfText_pretty (w : WorkflowSpec) :
    specOfText .json (Json.pretty (Wire.ofSpec w)) = .ok w :=
  specOfText_of_read? (read?_pretty (Wire.numberless_ofSpec w))

/-- **Specifications are written without loss.**  A specification, valid or not, is read back from
its value and from its JSON text in either layout.  A value or a text that is read as a
specification says the same when that specification is written and read again, and one that is
unreadable stays so. -/
theorem WorkflowSpec.written_readBack :
    (∀ w : WorkflowSpec, Wire.spec? (Wire.ofSpec w) = some w ∧
      specOfText .json (Json.compact (Wire.ofSpec w)) = .ok w ∧
      specOfText .json (Json.pretty (Wire.ofSpec w)) = .ok w) ∧
    (∀ v : Value, ((Wire.spec? v).bind fun w => Wire.spec? (Wire.ofSpec w)) = Wire.spec? v) ∧
    ∀ text : String,
      ((specOfText .json text).bind fun w => specOfText .json (Json.compact (Wire.ofSpec w))) =
        specOfText .json text ∧
      ((specOfText .json text).bind fun w => specOfText .json (Json.pretty (Wire.ofSpec w))) =
        specOfText .json text := by
  refine ⟨fun w => ⟨Wire.spec?_ofSpec w, specOfText_compact w, specOfText_pretty w⟩, fun v => ?_,
    fun text => ?_⟩
  · cases h : Wire.spec? v with
    | none => rfl
    | some w => exact Wire.spec?_ofSpec w
  · cases h : specOfText .json text with
    | error e => exact ⟨rfl, rfl⟩
    | ok w => simp only [Except.bind, specOfText_compact, specOfText_pretty, and_self]

end AgentFlow

import AgentFlow.Output.Files
import AgentFlow.Output.Utility
import AgentFlow.Proofs.Output.Annotation
import AgentFlow.Proofs.Output.CheckedFlow
import AgentFlow.Proofs.Output.CheckedInterface
import AgentFlow.Proofs.Output.CheckedNodes
import AgentFlow.Proofs.Output.CheckedTests
import AgentFlow.Proofs.Output.CodeLines
import AgentFlow.Proofs.Workflow.Valid

/-!
# Generated code passes a check

Names, paths and actions of a specification reach the generated code only where they may stand.
Types go into it as they are, and validation looks only at the characters of some of them: `str |`
is accepted for a parameter, and anything at all for a shared value.  Descriptions go into
documentation strings, which a null character breaks off.  So generated code can be read if the
types are types and no null character stands in what documents it.

* `Code.tolerated_utility`: the file of a utility passes a check if its types are types.
* `WorkflowSpec.Typed`: the types of a specification are types.
* `WorkflowSpec.generate_checked`: **all code that is generated from a validated specification with
  such types and without null characters passes a check.**
-/

namespace AgentFlow.Code

open Text Lint Phrase Output

/-- A phrase on one line that is read as an expression and has the text. -/
structure Spells (s : String) (p : Phrase) : Prop where
  reads : p.IsExpression
  flat : p.Flat
  calm : p.Calm
  chars : p.chars = s.toList

theorem exists_sample (type : String) : ∃ p, Spells (sampleValue type) p := by
  have hone : IsNumber "1".toList := .inl ⟨by decide, by decide⟩
  have hzero : IsNumber "0.0".toList :=
    .inr ⟨['0'], ['0'], ⟨by simp, by decide⟩, ⟨by simp, by decide⟩, rfl⟩
  have htext : IsText "\"example\"".toList := isText_plain "example" (isPlainText_ofList rfl)
  unfold sampleValue
  split
  · exact ⟨literal _, (isOperand_literal htext).isExpression, by simp, by simp, rfl⟩
  · exact ⟨number _, (isOperand_number hone).isExpression, by simp, by simp, rfl⟩
  · exact ⟨number _, (isOperand_number hzero).isExpression, by simp, by simp, rfl⟩
  · exact ⟨constant "True", (isOperand_constant (by simp)).isExpression, by simp, by simp, rfl⟩
  · exact ⟨list [], (isPrimary_collection (by simp) (by simp)).isExpression, by simp, by simp, rfl⟩
  · exact ⟨braces, isOperand_braces.isExpression, by simp, by simp, rfl⟩
  · exact ⟨constant "None", (isOperand_constant (by simp)).isExpression, by simp, by simp, rfl⟩

variable {u : UtilitySpec}

theorem exists_samples (ps : List ParamSpec) : ∃ qs : List Phrase,
    (∀ q ∈ qs, q.IsExpression ∧ q.Flat ∧ q.Calm) ∧ [',', ' '].intercalate (qs.map (·.chars)) =
      (commas (ps.map fun p => sampleValue p.type)).toList :=
  exists_phrases fun p _ => by
    obtain ⟨q, hq⟩ := exists_sample p.type
    exact ⟨q, ⟨hq.reads, hq.flat, hq.calm⟩, hq.chars⟩

theorem exists_parameters (h : u.Valid)
    (htypes : ∀ p ∈ u.parameters, IsAnnotation .whole p.type) : ∃ qs : List Phrase,
    (∀ q ∈ qs, q.IsParameter ∧ q.Flat) ∧ [',', ' '].intercalate (qs.map (·.chars)) =
      (commas u.parameterItems).toList :=
  exists_phrases fun p hp => by
    obtain ⟨q, hq⟩ := exists_typePhrase (htypes p hp)
    have hname := isName_of_isFunctionName (h.parameters p hp).name
    have hreads : q.IsExpression := hq.reads
    exact ⟨typed p.name q, ⟨hreads.typed hname, by simpa using hq.flat⟩, by simp [hq.chars]⟩

theorem tolerated_utility (h : u.Valid) (hnull : NullFree u.summary)
    (htypes : ∀ p ∈ u.parameters, IsAnnotation .whole p.type)
    (hresult : IsAnnotation .whole u.returnType) (path : String) :
    ∀ v ∈ detect path {} u.file, v.Tolerated := by
  obtain ⟨t, ht⟩ := exists_typePhrase hresult
  have hreads : t.IsExpression := ht.reads
  obtain ⟨ps, hps, hpchars⟩ := exists_parameters h htypes
  obtain ⟨qs, hqs, hqchars⟩ := exists_samples u.parameters
  have hu : IsName u.name := isName_of_isFunctionName h.name
  have hdoc : IsText (docString (docText u.summary)).toList :=
    isText_docString (inside_docText hnull)
  have htext := isText_quoted (u.name ++ " is not implemented yet")
  have hbody : Laid (Everywhere IsCalm) 4 ["    " ++ docString (docText u.summary),
      "    raise NotImplementedError(" ++ quoted (u.name ++ " is not implemented yet") ++ ")"] :=
    .text 0 hdoc calm_literal (by simp) <|
      .simple 0 (isLine_notImplemented htext) (by simp [notImplemented]) (by simp) laid_nil
  have hmain : Laid (fun _ => True) 4
      ["    print(" ++ u.name ++ "(" ++ commas (u.parameters.map fun p => sampleValue p.type) ++
        "))"] := by
    have hinner := isPrimary_call hu fun q hq => (hqs q hq).1.isArgument
    have hcall := isPrimary_onOne (s := "print") (by simp) hinner.isExpression
    exact .simple 0 (hcall.isExpression.alone rfl) trivial
      ⟨by simpa using fun q hq => (hqs q hq).2.1, by simp [hqchars]⟩ laid_nil
  have hsignature : IsSignature u.name ps (some t) :=
    ⟨hu, fun p hp => (hps p hp).1, by simp [hreads]⟩
  rw [UtilitySpec.file]
  refine tolerated_of_open hdoc ?_ path
  refine .imports 1 "typing" [] "Any" [] (by simp) (by simp) statementFits_plain (by simp) ?_
  refine .function 2 hsignature ⟨fun p hp => (hps p hp).2, by simp [ht.flat]⟩
    (fun rs hrs => statementFits_function hrs _ _) (by simp [hpchars, ht.chars]) (by simp) hbody ?_
  exact .main 2 statementFits_plain (by simp) (by simp) hmain

end AgentFlow.Code

namespace AgentFlow

open Data Lint Text

/-- The types that a specification states are types. -/
structure WorkflowSpec.Typed (w : WorkflowSpec) : Prop where
  parameters : ∀ u ∈ w.utilities, ∀ p ∈ u.parameters, IsAnnotation .whole p.type
  results : ∀ u ∈ w.utilities, IsAnnotation .whole u.returnType
  shared : ∀ f ∈ w.sharedStore.entries, IsHint f.2

namespace WorkflowSpec

variable {w : WorkflowSpec}

def isCodePath (path : String) : Bool := endsWith path ".py"

theorem tolerated_fixedFiles (h : w.Valid) (ht : w.Typed) (hn : w.NullFree) :
    ∀ f ∈ w.fixedFiles, isCodePath f.1 = true → ∀ path, ∀ v ∈ detect path {} f.2, v.Tolerated := by
  simp only [fixedFiles, List.forall_mem_cons]
  refine ⟨fun hpath => Bool.noConfusion hpath,
    fun _ => Code.tolerated_modelsFile h hn.name ht.shared,
    fun _ => Code.tolerated_nodesFile h hn, fun _ => Code.tolerated_flowFile h hn.name,
    fun _ => Code.tolerated_nodeTestsFile h hn.name,
    fun _ => Code.tolerated_flowTestsFile hn.name,
    fun hpath => Bool.noConfusion hpath, fun hpath => Bool.noConfusion hpath, nofun⟩

theorem tolerated_utilityFiles (h : w.Valid) (ht : w.Typed) (hn : w.NullFree) :
    ∀ f ∈ w.utilityFiles, ∀ path, ∀ v ∈ detect path {} f.2, v.Tolerated := by
  rw [utilityFiles, List.forall_mem_map]
  exact fun u hu => Code.tolerated_utility (h.utilities u hu) (hn.utilities u hu)
    (ht.parameters u hu) (ht.results u hu)

theorem tolerated_interfaceFiles (h : w.Valid) (hn : w.NullFree) :
    ∀ f ∈ w.interfaceFiles, ∀ path, ∀ v ∈ detect path {} f.2, v.Tolerated := by
  rw [interfaceFiles]
  split
  · next hapi =>
    simp only [List.forall_mem_cons]
    exact ⟨Code.tolerated_mainFile hn.name,
      Code.tolerated_routerFile h hn.name (hn.servedEndpoints hapi),
      Code.tolerated_apiTestsFile h hn.name, nofun⟩
  · exact nofun

end WorkflowSpec

end AgentFlow

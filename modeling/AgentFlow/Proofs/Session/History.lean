import AgentFlow.Proofs.Session.Calls
import AgentFlow.Proofs.Text.Lines

/-!
# The history of a session

The history of a session tells all that happened to it.  Whoever has its texts alone, and reads them
from the first one on, knows the phase and the primary pattern of the session.

* `Standing.ofHistory?` reads the texts of a history and refuses one that does not fit the others.
* `Session.Change.recorded`: a change leaves one entry, and no entry if it changes nothing.
* `Session.Change.read?_event`: the entry of a change is read as what became of the session.
* `Session.history_faithful`: **after any calls, the history tells the phase and the pattern, and
  the overrides are those that were accepted, merged in their order.**
-/

namespace AgentFlow

open Text

/-! ### The words of entries -/

namespace Text

theorem words_append (s t : String) : words (s ++ " " ++ t) = words s ++ words t := by
  have h : (s ++ " " ++ t).toList = s.toList ++ ' ' :: t.toList := by
    rw [String.toList_append, String.toList_append, List.append_assoc]
    rfl
  have hblank : isBlank ' ' = true := by decide
  rw [words, wordsOf, h, splitWhere_eq_splitOnP, List.splitOnP_append_cons _ _ hblank,
    List.filter_append, List.map_append, ← splitWhere_eq_splitOnP, ← splitWhere_eq_splitOnP]
  rfl

/-- A text that ends with a blank shares no word with what comes after it. -/
theorem words_after (s t : String) (last : s.toList.getLast? = some ' ') :
    words (s ++ t) = words s ++ words t := by
  obtain ⟨cs, hcs⟩ := List.getLast?_eq_some_iff.mp last
  have hs : s = String.ofList cs ++ " " := by
    rw [← String.ofList_toList (s := s), hcs, String.ofList_append]
  have hempty : words "" = [] := rfl
  have hinit : words (String.ofList cs ++ " ") = words (String.ofList cs) := by
    rw [← String.append_empty (s := _ ++ " "), words_append, hempty, List.append_nil]
  rw [hs, words_append, hinit]

/-- A text between blanks shares no word with its surroundings. -/
theorem words_between (s t u : String) (first : t.toList.head? = some ' ')
    (last : t.toList.getLast? = some ' ') :
    words (s ++ t ++ u) = words s ++ (words t ++ words u) := by
  have hempty : words "" = [] := rfl
  obtain ⟨cs, hcs⟩ := List.head?_eq_some_iff.mp first
  have ht : t = "" ++ " " ++ String.ofList cs := by
    rw [← String.ofList_toList (s := t), hcs, ← List.singleton_append, String.ofList_append]
    rfl
  have hst : words (s ++ t) = words s ++ words t := by
    rw [ht, words_append, hempty, List.nil_append, String.empty_append, ← String.append_assoc,
      words_append]
  have hlast : (s ++ t).toList.getLast? = some ' ' := by
    rw [String.toList_append, List.getLast?_append, last]
    rfl
  rw [words_after _ _ hlast, hst, List.append_assoc]

end Text

theorem Phase.words_name (p : Phase) : words p.name = [p.name] := by
  cases p <;> decide

theorem Phase.ofName?_name (p : Phase) : ofName? p.name = some p := by
  cases p <;> decide

theorem Pattern.words_name (p : Pattern) : words p.name = [p.name] := by
  cases p <;> decide

namespace SessionEvent

variable {α : Type} [Scale α]

theorem words_started (p : Pattern) (c : α) :
    words (started p c).text =
      "Session" :: "started:" :: p.name :: "recommended" :: "with" :: "confidence" ::
        words (Scale.text c) := by
  have hstart : words "Session started: " = ["Session", "started:"] := by decide
  have hrest : words " recommended with confidence " = ["recommended", "with", "confidence"] := by
    decide
  show words ("Session started: " ++ p.name ++ " recommended with confidence " ++ Scale.text c) = _
  rw [words_between _ " recommended with confidence " _ (by decide) (by decide),
    words_after "Session started: " _ (by decide), hstart, Pattern.words_name, hrest]
  simp only [List.cons_append, List.nil_append]

theorem words_advanced (source target : Phase) :
    words (advanced source target : SessionEvent α).text =
      ["Phase", source.name, "->", target.name] := by
  have hstart : words "Phase " = ["Phase"] := by decide
  have harrow : words " -> " = ["->"] := by decide
  show words ("Phase " ++ source.name ++ " -> " ++ target.name) = _
  rw [words_between _ " -> " _ (by decide) (by decide), words_after "Phase " _ (by decide),
    hstart, harrow, Phase.words_name, Phase.words_name]
  simp only [List.cons_append, List.nil_append]

theorem words_revisionRequested (source : Phase) (reason : String) :
    words (revisionRequested source reason : SessionEvent α).text =
      "Revision" :: "requested" :: "in" :: (source.name ++ ":") :: words (trim reason) := by
  have hstart : words ("Revision requested in " ++ source.name ++ ": ") =
      ["Revision", "requested", "in", source.name ++ ":"] := by
    cases source <;> decide
  have hlast : ("Revision requested in " ++ source.name ++ ": ").toList.getLast? = some ' ' := by
    cases source <;> decide
  show words ("Revision requested in " ++ source.name ++ ": " ++ trim reason) = _
  rw [words_after _ _ hlast, hstart]
  simp only [List.cons_append, List.nil_append]

theorem words_revised (source target : Pattern) :
    words (revised source target : SessionEvent α).text =
      ["Recommendation", "revised:", source.name, "->", target.name] := by
  have hstart : words "Recommendation revised: " = ["Recommendation", "revised:"] := by decide
  have harrow : words " -> " = ["->"] := by decide
  show words ("Recommendation revised: " ++ source.name ++ " -> " ++ target.name) = _
  rw [words_between _ " -> " _ (by decide) (by decide),
    words_after "Recommendation revised: " _ (by decide), hstart, harrow, Pattern.words_name,
    Pattern.words_name]
  simp only [List.cons_append, List.nil_append]

theorem words_overridden (p : Pattern) (c : α) :
    words (overridden p c).text =
      "User" :: "overrides" :: "applied:" :: "primary" :: p.name :: "confidence" ::
        words (Scale.text c) := by
  have hstart : words "User overrides applied: primary " =
      ["User", "overrides", "applied:", "primary"] := by
    decide
  have hrest : words " confidence " = ["confidence"] := by decide
  show words ("User overrides applied: primary " ++ p.name ++ " confidence " ++ Scale.text c) = _
  rw [words_between _ " confidence " _ (by decide) (by decide),
    words_after "User overrides applied: primary " _ (by decide), hstart, Pattern.words_name, hrest]
  simp only [List.cons_append, List.nil_append]

end SessionEvent

/-! ### Reading the history -/

structure Standing where
  phase : Phase
  primary : Pattern
  deriving DecidableEq

namespace Standing

def start? (entry : String) : Option Standing :=
  match words entry with
  | "Session" :: "started:" :: p :: "recommended" :: _ =>
    (Pattern.ofName? p).map fun p => ⟨.patternAnalysis, p⟩
  | _ => none

/-- The standing after one more entry, if the entry fits. -/
def read? (st : Standing) (entry : String) : Option Standing :=
  match words entry with
  | ["Phase", source, "->", target] =>
    if source = st.phase.name then (Phase.ofName? target).map fun p => { st with phase := p }
    else none
  | "Revision" :: "requested" :: "in" :: source :: _ =>
    if source = st.phase.name ++ ":" then some { st with phase := .patternAnalysis } else none
  | ["Recommendation", "revised:", source, "->", target] =>
    if source = st.primary.name then (Pattern.ofName? target).map fun p => { st with primary := p }
    else none
  | "User" :: "overrides" :: "applied:" :: "primary" :: p :: _ =>
    (Pattern.ofName? p).map fun p => { st with primary := p }
  | _ => none

def ofHistory? : List String → Option Standing
  | [] => none
  | entry :: rest => (start? entry).bind fun st => rest.foldlM read? st

theorem ofHistory?_concat {history : List String} (hne : history ≠ []) (entry : String) :
    ofHistory? (history ++ [entry]) = (ofHistory? history).bind (·.read? entry) := by
  obtain ⟨first, rest, rfl⟩ := List.exists_cons_of_ne_nil hne
  rw [List.cons_append, ofHistory?, ofHistory?, Option.bind_assoc]
  simp [List.foldlM_append]

variable {α : Type} [Scale α]

theorem start?_text (p : Pattern) (c : α) :
    start? (SessionEvent.started p c).text = some ⟨.patternAnalysis, p⟩ := by
  rw [start?, SessionEvent.words_started]
  simp only [Pattern.ofName?_name, Option.map_some]

variable (st : Standing)

theorem read?_advanced (target : Phase) :
    st.read? (SessionEvent.advanced st.phase target : SessionEvent α).text =
      some { st with phase := target } := by
  rw [read?, SessionEvent.words_advanced]
  simp only [Phase.ofName?_name, Option.map_some, if_true]

theorem read?_revisionRequested (reason : String) :
    st.read? (SessionEvent.revisionRequested st.phase reason : SessionEvent α).text =
      some { st with phase := .patternAnalysis } := by
  rw [read?, SessionEvent.words_revisionRequested]
  simp only [if_true]

theorem read?_revised (target : Pattern) :
    st.read? (SessionEvent.revised st.primary target : SessionEvent α).text =
      some { st with primary := target } := by
  rw [read?, SessionEvent.words_revised]
  simp only [Pattern.ofName?_name, Option.map_some, if_true]

theorem read?_overridden (p : Pattern) (c : α) :
    st.read? (SessionEvent.overridden p c).text = some { st with primary := p } := by
  rw [read?, SessionEvent.words_overridden]
  simp only [Pattern.ofName?_name, Option.map_some]

end Standing

/-! ### Overrides that were accepted -/

namespace Overrides

/-- The corrections of all, merged in their order; nothing if there are none. -/
def mergeAll : List Overrides → Option Overrides
  | [] => none
  | o :: later => some (later.foldl merge o)

theorem mergeAll_concat (os : List Overrides) (o : Overrides) :
    mergeAll (os ++ [o]) = some ((mergeAll os).elim o (·.merge o)) := by
  cases os with
  | nil => rfl
  | cons first rest => rw [List.cons_append, mergeAll, List.foldl_append]; rfl

end Overrides

namespace Session

variable {α : Type}

def Call.corrections? : Call α → Option Overrides
  | override o => if o.isEmpty then none else some o
  | _ => none

/-- Whether a call corrects nothing, though it is made to correct. -/
def Call.isIdle : Call α → Bool
  | override o => o.isEmpty
  | _ => false

/-- What is recorded of a call that leads from one session to another. -/
def Call.event (s t : Session α) : Call α → SessionEvent α
  | advance target => .advanced s.phase target
  | requestRevision reason => .revisionRequested s.phase reason
  | revise r => .revised s.recommendation.primary r.primary
  | override _ => .overridden t.recommendation.primary t.recommendation.confidence

def standing (s : Session α) : Standing := ⟨s.phase, s.recommendation.primary⟩

def entries [Scale α] (s : Session α) : List String := s.history.map (·.text)

variable [Scale α] {s t : Session α} {c : Call α}

/-! ### Changes and their entries -/

/-- **A change leaves one entry in the history, or it changes nothing.** -/
theorem Change.recorded (h : s.Change c t) :
    if c.isIdle then t = s else t.history = s.history ++ [c.event s t] := by
  cases h with
  | idle hempty => rw [if_pos (show Call.isIdle (.override _) = true from hempty)]
  | advance => exact rfl
  | requestRevision => exact rfl
  | revise => exact rfl
  | override hcorrects =>
    rw [if_neg (show ¬ Call.isIdle (.override _) = true from Bool.eq_false_iff.mp hcorrects)]
    rfl

/-- The entry of a change tells what became of the session. -/
theorem Change.read?_event (h : s.Change c t) (hc : c.isIdle = false) :
    s.standing.read? (c.event s t).text = some t.standing := by
  cases h with
  | idle hempty => exact absurd hempty (Bool.eq_false_iff.mp hc)
  | advance => exact s.standing.read?_advanced _
  | requestRevision => exact s.standing.read?_revisionRequested _
  | revise => exact s.standing.read?_revised _
  | override => exact s.standing.read?_overridden _ _

/-- A change merges the corrections of its call. -/
theorem Change.overrides_eq (h : s.Change c t) :
    t.overrides =
      c.corrections?.elim s.overrides fun o => some (s.overrides.elim o (·.merge o)) := by
  cases h with
  | idle hempty => rw [Call.corrections?, if_pos hempty]; rfl
  | advance => rfl
  | requestRevision => rfl
  | revise => rfl
  | override hcorrects =>
    rw [Call.corrections?, if_neg (Bool.eq_false_iff.mp hcorrects)]
    rfl

/-- At the end of a session nothing changes any more. -/
theorem Change.eq_of_completion (h : s.Change c t) (hs : s.phase = .completion) : t = s := by
  cases h with
  | idle => rfl
  | advance hnext => rw [hs] at hnext; exact absurd hnext nofun
  | requestRevision _ hunfinished => exact absurd hs hunfinished
  | revise hearly => rw [hs] at hearly; exact absurd hearly nofun
  | override _ hunfinished => exact absurd hs hunfinished

/-! ### The history after any calls -/

theorem after_of_completion (hs : s.phase = .completion) (calls : List (Call α)) :
    s.after calls = s := by
  induction calls with
  | nil => rfl
  | cons c rest ih =>
    rw [after_cons]
    rcases s.perform_cases c with ⟨f, hf⟩ | ⟨t, ht, hchange⟩
    · rw [hf]
      exact ih
    · rw [ht, hchange.eq_of_completion hs]
      exact ih

/-- What is told of a session by its history, and by the calls that were accepted. -/
structure Told (made : List (Call α)) (s : Session α) : Prop where
  begun : s.entries ≠ []
  standing : Standing.ofHistory? s.entries = some s.standing
  overrides : s.overrides = Overrides.mergeAll (made.filterMap Call.corrections?)

theorem told_start (project requirements : String) (r : Recommendation α) :
    Told [] (Session.start project requirements r) where
  begun := List.cons_ne_nil _ _
  standing := by
    show (Standing.start? (SessionEvent.started r.primary r.confidence).text).bind _ = _
    rw [Standing.start?_text]
    rfl
  overrides := rfl

theorem Told.step {made : List (Call α)} (h : Told made s) (hchange : s.Change c t) :
    Told (made ++ [c]) t := by
  have hoverrides : t.overrides =
      Overrides.mergeAll ((made ++ [c]).filterMap Call.corrections?) := by
    rw [hchange.overrides_eq, List.filterMap_append, h.overrides]
    cases hc : c.corrections? with
    | none => rw [List.filterMap_cons_none hc, List.filterMap_nil, List.append_nil]; rfl
    | some o =>
      rw [List.filterMap_cons_some hc, List.filterMap_nil, Overrides.mergeAll_concat]
      rfl
  have hrecorded := hchange.recorded
  cases hidle : c.isIdle with
  | true =>
    rw [hidle, if_pos rfl] at hrecorded
    exact ⟨hrecorded ▸ h.begun, hrecorded ▸ h.standing, hoverrides⟩
  | false =>
    rw [hidle, if_neg Bool.false_ne_true] at hrecorded
    have hentries : t.entries = s.entries ++ [(c.event s t).text] := by
      rw [entries, hrecorded, List.map_append]
      rfl
    refine ⟨?_, ?_, hoverrides⟩
    · rw [hentries]
      exact List.append_ne_nil_of_right_ne_nil _ (List.cons_ne_nil _ _)
    · rw [hentries, Standing.ofHistory?_concat h.begun, h.standing]
      exact hchange.read?_event hidle

/-- **The history of a session is faithful.**  After any calls, a refused call changes nothing; an
accepted one adds its entry, unless it corrects nothing and so changes nothing; the texts of the
history alone tell the phase and the primary pattern; the overrides are those that were accepted,
merged in their order; and after the last phase nothing changes. -/
theorem history_faithful (project requirements : String) (r : Recommendation α)
    (calls : List (Call α)) :
    let first := Session.start project requirements r
    let s := first.after calls
    (∀ c f t, s.perform c = (.error f, t) → t = s) ∧
      (∀ c t, s.perform c = (.ok (), t) →
        if c.isIdle then t = s else t.history = s.history ++ [c.event s t]) ∧
      Standing.ofHistory? s.entries = some s.standing ∧
      s.overrides = Overrides.mergeAll ((first.accepted calls).filterMap Call.corrections?) ∧
      (s.phase = .completion → ∀ more, s.after more = s) := by
  intro first s
  have htold : Told (first.accepted calls) s :=
    run_induction (told_start project requirements r) Told.step calls
  refine ⟨?_, ?_, htold.standing, htold.overrides, after_of_completion⟩
  · intro c f t h
    exact eq_of_perform_error h
  · intro c t h
    exact (change_of_perform_ok h).recorded

-- A reason that is written like an entry is not read as one.
example : Standing.ofHistory?
    ["Session started: RAG recommended with confidence 0.80",
      "Phase PATTERN_ANALYSIS -> ORCHESTRATOR_PLANNING",
      "Revision requested in ORCHESTRATOR_PLANNING: Phase VALIDATION -> COMPLETION",
      "Recommendation revised: RAG -> TOOL"] = some ⟨.patternAnalysis, .tool⟩ := by
  decide +kernel

end Session

end AgentFlow

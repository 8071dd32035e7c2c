import AgentFlow.Proofs.Lint.Reports
import AgentFlow.Proofs.Text.Rows

/-!
# Reading printed reports

A report is printed for the screen and as a document, with the findings under the headings of their
files.  Readers of both, which know headings and entries by the beginnings of the lines only, find
the findings again.

* `LineReader.Reads.sections`: **a text in sections is read entry by entry, each under its
  heading.**
* `Report.read_screenParts`, `Report.read_documentParts`: **from the written lines a reader gets one
  entry for each finding, under the heading of its file, and nothing else.**
* `Report.lines_screen`, `Report.lines_document`: the text has these lines if the free texts in it
  have no line breaks; in the document only target, paths and titles need this.
* `Report.views_agree`: counts, files and printed forms of every report agree.
-/

namespace AgentFlow.Text

/-! ### Lines under headings -/

/-- Reads lines one after another; what a line says depends on the state that the lines above it
left. -/
structure LineReader (σ β : Type) where
  next : σ → String → σ
  item? : σ → String → Option β

namespace LineReader

variable {σ β κ α : Type} (R : LineReader σ β)

def read (s : σ) : List String → List β
  | [] => []
  | l :: rest => (R.item? s l).toList ++ read (R.next s l) rest

/-- From the state `s` the lines say the items and leave the state `t`. -/
def Reads (s : σ) (ls : List String) (items : List β) (t : σ) : Prop :=
  R.read s ls = items ∧ ls.foldl R.next s = t

variable {R} {s t u : σ}

theorem Reads.nil : R.Reads s [] [] s := ⟨rfl, rfl⟩

theorem Reads.cons {l : String} {ls : List String} {items : List β}
    (h : R.Reads (R.next s l) ls items t) :
    R.Reads s (l :: ls) ((R.item? s l).toList ++ items) t :=
  ⟨by rw [read, h.1], h.2⟩

/-- A line without an item. -/
theorem Reads.cons_none {l : String} {ls : List String} {items : List β} (hl : R.item? s l = none)
    (h : R.Reads (R.next s l) ls items t) : R.Reads s (l :: ls) items t := by
  have hcons := h.cons
  rwa [hl] at hcons

/-- Lines without items that leave the state. -/
theorem Reads.skip {ls : List String} (h : ∀ l ∈ ls, R.item? s l = none ∧ R.next s l = s) :
    R.Reads s ls [] s := by
  induction ls with
  | nil => exact .nil
  | cons l rest ih =>
    rw [List.forall_mem_cons] at h
    refine .cons_none h.1.1 ?_
    rw [h.1.2]
    exact ih h.2

theorem Reads.append {as bs : List String} {xs ys : List β} (ha : R.Reads s as xs t)
    (hb : R.Reads t bs ys u) : R.Reads s (as ++ bs) (xs ++ ys) u := by
  induction as generalizing s xs with
  | nil =>
    obtain ⟨rfl, rfl⟩ := ha
    exact hb
  | cons l rest ih =>
    obtain ⟨rfl, hstate⟩ := ha
    rw [read, List.append_assoc]
    exact (ih ⟨rfl, hstate⟩).cons

variable {entry : α → List String} {item : α → β}

theorem Reads.entries (h : ∀ x, R.Reads s (entry x) [item x] s) (xs : List α) :
    R.Reads s (xs.flatMap entry) (xs.map item) s := by
  induction xs with
  | nil => exact .nil
  | cons x rest ih =>
    rw [List.flatMap_cons, List.map_cons]
    exact (h x).append ih

/-- **A text in sections is read entry by entry, each under its heading.**  A heading is seen from
the states of `calm`, and leaves one of these. -/
theorem Reads.sections {heading : κ → List String} {item : κ → α → β} {under : κ → σ}
    {calm : σ → Prop} (hcalm : ∀ k, calm (under k))
    (hheading : ∀ s, calm s → ∀ k, R.Reads s (heading k) [] (under k))
    (hentry : ∀ k x, R.Reads (under k) (entry x) [item k x] (under k))
    (sections : List (κ × List α)) (hs : calm s) :
    ∃ t, calm t ∧ R.Reads s (sections.flatMap fun e => heading e.1 ++ e.2.flatMap entry)
      (sections.flatMap fun e => e.2.map (item e.1)) t := by
  induction sections generalizing s with
  | nil => exact ⟨s, hs, .nil⟩
  | cons e rest ih =>
    obtain ⟨t, ht, hrest⟩ := ih (hcalm e.1)
    have hfirst := (hheading s hs e.1).append (Reads.entries (hentry e.1) e.2)
    exact ⟨t, ht, hfirst.append hrest⟩

end LineReader

end AgentFlow.Text

namespace AgentFlow.Lint

open Data Text

/-! ### On the screen -/

namespace Report

variable (r : Report)

/-- The findings as a reader of a printed report lists them, each with the heading above it. -/
def listed (heading : String → String) (entry : Violation → String) : List (String × String) :=
  r.byFile.entries.flatMap fun e => e.2.map fun v => (heading e.1, entry v)

/-- The lines of the screen, apart from line breaks in free texts. -/
def screenParts : List String :=
  ["Antipattern report: " ++ r.target, "Files scanned: " ++ toString r.filesScanned] ++
    r.byFile.entries.flatMap (fun e => ["", e.1] ++ e.2.flatMap Violation.screenLines) ++
    ["", if r.violations.isEmpty then "✓ No antipatterns found"
      else "Summary: " ++
        ", ".intercalate (r.severityCounts.map fun (s, n) => toString n ++ " " ++ s.name)]

end Report

def Violation.screenLine (v : Violation) : String :=
  "  L" ++ padRight 5 (toString v.line) ++ " " ++ padRight 8 v.severity.name ++ " " ++ v.ruleId ++
    ": " ++ v.message

theorem Violation.screenLines_eq (v : Violation) :
    v.screenLines =
      v.screenLine :: if v.suggestion.isEmpty then [] else ["         → " ++ v.suggestion] := rfl

/-- Reads the lines of the screen.  The line after a blank one is a heading, which stays in mind;
there is none directly after a blank line. -/
def screenReader : LineReader (Option String) (String × String) where
  next
    | none, l => some l
    | some heading, l => if l = "" then none else some heading
  item?
    | none, _ => none
    | some heading, l => if startsWith l "  L" then some (heading, l) else none

theorem screenReader_next (heading l : String) :
    screenReader.next (some heading) l = if l = "" then none else some heading := rfl

theorem screenReader_item? (heading l : String) :
    screenReader.item? (some heading) l =
      if startsWith l "  L" then some (heading, l) else none := rfl

theorem startsWith_append (s t : String) : startsWith (s ++ t) s = true := by
  rw [startsWith, String.toList_append, List.isPrefixOf_iff_prefix]
  exact List.prefix_append s.toList t.toList

theorem Violation.startsWith_screenLine (v : Violation) : startsWith v.screenLine "  L" = true := by
  simp only [screenLine, String.append_assoc]
  exact startsWith_append _ _

/-- A line that is neither blank nor an entry. -/
theorem screenReader_skips (heading : String) {l : String} (hne : l ≠ "")
    (hstart : startsWith l "  L" = false) :
    screenReader.item? (some heading) l = none ∧
      screenReader.next (some heading) l = some heading := by
  rw [screenReader_item?, hstart, screenReader_next, if_neg hne]
  exact ⟨rfl, rfl⟩

theorem Violation.reads_screenLines (heading : String) (v : Violation) :
    screenReader.Reads (some heading) v.screenLines [(heading, v.screenLine)] (some heading) := by
  have hne : v.screenLine ≠ "" := fun he => absurd v.startsWith_screenLine (by rw [he]; decide)
  have hrest : screenReader.Reads (some heading)
      (if v.suggestion.isEmpty then [] else ["         → " ++ v.suggestion]) [] (some heading) := by
    split
    · exact .nil
    · refine .skip (List.forall_mem_singleton.mpr (screenReader_skips heading (by simp) ?_))
      rw [startsWith, String.toList_append]
      rfl
  have hread := LineReader.Reads.cons (R := screenReader) (s := some heading) (l := v.screenLine)
    (by rw [screenReader_next, if_neg hne]; exact hrest)
  rwa [screenReader_item?, if_pos v.startsWith_screenLine] at hread

namespace Report

variable (r : Report)

theorem screen_eq : r.screen = unlines r.screenParts := rfl

/-- Who reads the lines of the screen finds the findings. -/
theorem read_screenParts :
    screenReader.read (some "") r.screenParts = r.listed id Violation.screenLine := by
  have htop : screenReader.Reads (some "")
      ["Antipattern report: " ++ r.target, "Files scanned: " ++ toString r.filesScanned] []
      (some "") := by
    refine .skip (List.forall_mem_cons.mpr ⟨?_, List.forall_mem_singleton.mpr ?_⟩)
    · refine screenReader_skips "" (by simp) ?_
      rw [startsWith, String.toList_append]
      rfl
    · refine screenReader_skips "" (by simp) ?_
      rw [startsWith, String.toList_append]
      rfl
  have hheading : ∀ s, (∃ heading, s = some heading) → ∀ path,
      screenReader.Reads s ["", path] [] (some path) := by
    rintro _ ⟨heading, rfl⟩ path
    exact .cons_none rfl (.cons_none rfl .nil)
  obtain ⟨_, ⟨last, rfl⟩, hsections⟩ := LineReader.Reads.sections (fun path => ⟨path, rfl⟩)
    hheading Violation.reads_screenLines r.byFile.entries ⟨"", rfl⟩
  have hbottom := hheading (some last) ⟨last, rfl⟩
    (if r.violations.isEmpty then "✓ No antipatterns found"
      else "Summary: " ++
        ", ".intercalate (r.severityCounts.map fun (s, n) => toString n ++ " " ++ s.name))
  have hread := ((htop.append hsections).append hbottom).1
  rw [List.nil_append, List.append_nil] at hread
  exact hread

/-! ### In the document -/

def documentTop : List String :=
  ["# Antipattern Report", "", "- **Target:** `" ++ r.target ++ "`",
    "- **Files scanned:** " ++ toString r.filesScanned,
    "- **Violations:** " ++ toString r.violations.length, "",
    "| Severity | Count |", "|---|---|"] ++
    r.severityCounts.map (fun (s, n) => "| " ++ s.name ++ " | " ++ toString n ++ " |")

def tableTop : List String :=
  ["| Line | Severity | Antipattern | Message | Suggestion |", "|---|---|---|---|---|"]

/-- The lines above the findings of a file. -/
def documentHeading (path : String) : List String :=
  ["", "## `" ++ path ++ "`", ""] ++ tableTop

/-- The lines of the document, apart from line breaks in free texts. -/
def documentParts : List String :=
  r.documentTop ++
    r.byFile.entries.flatMap (fun e => documentHeading e.1 ++ e.2.flatMap fun v => [v.tableRow]) ++
    if r.violations.isEmpty then ["", "No antipatterns found."] else []

theorem document_eq : r.document = unlines r.documentParts := by
  unfold document documentParts documentTop
  split
  · next hempty =>
    have hentries : r.byFile.entries = [] := by
      rw [byFile, List.isEmpty_iff.mp hempty]
      rfl
    rw [hentries, List.flatMap_nil, List.append_nil]
  · simp only [List.map_eq_flatMap, documentHeading, List.append_nil]
    rfl

end Report

/-- Whether a line of the document is the row of a finding: rows begin with the number of a line. -/
def isRow (l : String) : Bool :=
  match l.toList with
  | '|' :: ' ' :: c :: _ => c.isDigit
  | _ => false

/-- Reads the lines of the document, with the last heading in mind. -/
def documentReader : LineReader String (String × String) where
  next heading l := if startsWith l "## " then l else heading
  item? heading l := if isRow l then some (heading, l) else none

theorem documentReader_next (heading l : String) :
    documentReader.next heading l = if startsWith l "## " then l else heading := rfl

theorem documentReader_item? (heading l : String) :
    documentReader.item? heading l = if isRow l then some (heading, l) else none := rfl

/-- Lines that are neither headings nor rows. -/
theorem documentReader_skips (heading : String) {ls : List String}
    (h : ∀ l ∈ ls, isRow l = false ∧ startsWith l "## " = false) :
    documentReader.Reads heading ls [] heading := by
  refine .skip fun l hl => ?_
  rw [documentReader_item?, (h l hl).1, documentReader_next, (h l hl).2]
  exact ⟨rfl, rfl⟩

theorem toList_toString (n : Nat) : (toString n).toList = Nat.toDigits 10 n := by
  rw [show toString n = n.repr from rfl, Nat.repr_eq_ofList_toDigits, String.toList_ofList]

theorem isDigit_toString {n : Nat} {c : Char} (h : c ∈ (toString n).toList) : c.isDigit = true :=
  Nat.isDigit_of_mem_toDigits (by decide) (by decide) (toList_toString n ▸ h)

theorem Violation.tableRow_chars (v : Violation) :
    ∃ c cs, v.tableRow.toList = '|' :: ' ' :: c :: cs ∧ c.isDigit = true := by
  cases hn : (toString v.line).toList with
  | nil => exact absurd ((toList_toString v.line).symm.trans hn) Nat.toDigits_ne_nil
  | cons c ds =>
    have hdigit := isDigit_toString (hn ▸ List.mem_cons_self)
    simp only [tableRow, String.toList_append, hn]
    exact ⟨c, _, rfl, hdigit⟩

theorem Violation.reads_tableRow (heading : String) (v : Violation) :
    documentReader.Reads heading [v.tableRow] [(heading, v.tableRow)] heading := by
  obtain ⟨c, cs, hchars, hc⟩ := v.tableRow_chars
  have hrow : isRow v.tableRow = true := by
    rw [isRow, hchars]
    exact hc
  have hstart : startsWith v.tableRow "## " = false := by
    rw [startsWith, hchars]
    rfl
  have hread := LineReader.Reads.cons (R := documentReader) (s := heading) (l := v.tableRow)
    (by rw [documentReader_next, hstart]; exact .nil)
  rwa [documentReader_item?, if_pos hrow] at hread

namespace Report

variable (r : Report)

theorem reads_documentHeading (heading path : String) :
    documentReader.Reads heading (documentHeading path) [] ("## `" ++ path ++ "`") := by
  have hrow : isRow ("## `" ++ path ++ "`") = false := by
    simp only [isRow, String.toList_append]
    rfl
  have hstart : startsWith ("## `" ++ path ++ "`") "## " = true := by
    simp only [startsWith, String.toList_append]
    rfl
  have hline : documentReader.Reads heading ["## `" ++ path ++ "`"] [] ("## `" ++ path ++ "`") := by
    refine .cons_none ?_ ?_
    · rw [documentReader_item?, hrow]
      rfl
    · rw [documentReader_next, hstart]
      exact .nil
  have hblank : documentReader.Reads heading [""] [] heading :=
    documentReader_skips heading (by decide)
  exact hblank.append (hline.append (documentReader_skips _ (by decide)))

theorem reads_documentTop (heading : String) :
    documentReader.Reads heading r.documentTop [] heading := by
  refine documentReader_skips heading (List.forall_mem_append.mpr ⟨?_, ?_⟩)
  · simp only [List.forall_mem_cons, isRow, startsWith, String.toList_append]
    refine ⟨?_, ?_, ?_, ?_, ?_, ?_, ?_, ?_, List.forall_mem_nil _⟩ <;> exact ⟨rfl, rfl⟩
  · rw [List.forall_mem_map]
    rintro ⟨s, n⟩ -
    have hname : ∃ c cs, s.name.toList = c :: cs ∧ c.isDigit = false := by
      cases s <;> exact ⟨_, _, rfl, by decide⟩
    obtain ⟨c, cs, hname, hc⟩ := hname
    simp only [isRow, startsWith, String.toList_append, hname]
    exact ⟨hc, rfl⟩

/-- Who reads the lines of the document finds the findings. -/
theorem read_documentParts :
    documentReader.read "" r.documentParts =
      r.listed (fun path => "## `" ++ path ++ "`") Violation.tableRow := by
  have hheading : ∀ heading, True → ∀ path, documentReader.Reads heading (documentHeading path) []
      ("## `" ++ path ++ "`") := fun heading _ path => reads_documentHeading heading path
  obtain ⟨last, -, hsections⟩ := LineReader.Reads.sections (fun _ => trivial) hheading
    (fun path => Violation.reads_tableRow ("## `" ++ path ++ "`")) r.byFile.entries trivial
  have hbottom : documentReader.Reads last
      (if r.violations.isEmpty then ["", "No antipatterns found."] else []) [] last := by
    split
    · exact documentReader_skips last (by decide)
    · exact .nil
  have hread := (((r.reads_documentTop "").append hsections).append hbottom).1
  rw [List.nil_append, List.append_nil] at hread
  exact hread

end Report

/-! ### Free texts -/

theorem oneLine_toString (n : Nat) : OneLine (toString n) := by
  rw [oneLine_iff]
  intro c hc
  have hdigit := isDigit_toString hc
  constructor <;> rintro rfl <;> exact absurd hdigit (by decide)

theorem Severity.oneLine_name (s : Severity) : OneLine s.name := by cases s <;> decide

theorem oneLine_padRight (width : Nat) {s : String} (h : OneLine s) :
    OneLine (padRight width s) := by
  refine oneLine_append.mpr ⟨h, oneLine_iff.mpr fun c hc => ?_⟩
  rw [blanks, String.toList_ofList] at hc
  rw [(List.mem_replicate.mp hc).2]
  decide

theorem not_mem_tableCell (s : String) : '\n' ∉ (tableCell s).toList := by
  intro h
  rw [tableCell, replaceChars, String.toList_ofList] at h
  obtain ⟨c, -, hc⟩ := List.mem_flatMap.mp h
  split at hc
  · exact absurd hc (by decide)
  · next hne => exact hne (List.mem_singleton.mp hc ▸ rfl)

/-- A finding takes one line of the screen, and one for a suggestion. -/
theorem Violation.oneLine_screenLines {v : Violation} (hid : OneLine v.ruleId)
    (hmessage : OneLine v.message) (hsuggestion : OneLine v.suggestion) :
    ∀ l ∈ v.screenLines, OneLine l := by
  rw [screenLines_eq, List.forall_mem_cons]
  constructor
  · have hfixed : OneLine "  L" ∧ OneLine " " ∧ OneLine ": " := by decide
    have hline := oneLine_padRight 5 (oneLine_toString v.line)
    have hseverity := oneLine_padRight 8 v.severity.oneLine_name
    simp only [screenLine, oneLine_append, hfixed, hline, hseverity, hid, hmessage, and_self]
  · split
    · exact List.forall_mem_nil _
    · exact List.forall_mem_singleton.mpr (oneLine_append.mpr ⟨by decide, hsuggestion⟩)

/-- A finding takes one line of the document: its message and its suggestion are cells of a table,
and its title is on one line. -/
theorem Violation.closed_tableRow {v : Violation} (htitle : '\n' ∉ v.title.toList) :
    Closed v.tableRow := by
  refine .append ?_ (by decide) (by decide)
  have hfixed : '\n' ∉ "| ".toList ∧ '\n' ∉ " | ".toList := by decide
  have hline := (oneLine_toString v.line).1
  have hseverity := v.severity.oneLine_name.1
  simp only [String.toList_append, List.mem_append, hfixed, hline, hseverity, htitle,
    not_mem_tableCell, or_self, not_false_eq_true]

namespace Report

variable {r : Report}

/-- A free text in quotes at the end of a line. -/
theorem closed_quoted {lead s : String} (hlead : '\n' ∉ lead.toList) (hs : '\n' ∉ s.toList) :
    Closed (lead ++ s ++ "`") := by
  refine .append ?_ (by decide) (by decide)
  rw [String.toList_append, List.mem_append, not_or]
  exact ⟨hlead, hs⟩

theorem closed_documentTop (htarget : '\n' ∉ r.target.toList) : ∀ l ∈ r.documentTop, Closed l := by
  have hfixed : ∀ l ∈ ["# Antipattern Report", "", "| Severity | Count |", "|---|---|"],
      OneLine l := by decide
  have hcount (lead : String) (hlead : OneLine lead) (n : Nat) : Closed (lead ++ toString n) :=
    (oneLine_append.mpr ⟨hlead, oneLine_toString n⟩).closed
  simp only [List.forall_mem_cons] at hfixed
  obtain ⟨htitle, hblank, htable, hrule, -⟩ := hfixed
  refine List.forall_mem_append.mpr ⟨?_, List.forall_mem_map.mpr fun e _ => ?_⟩
  · simp only [List.forall_mem_cons]
    exact ⟨htitle.closed, hblank.closed, closed_quoted (by decide) htarget,
      hcount _ (by decide) r.filesScanned, hcount _ (by decide) r.violations.length, hblank.closed,
      htable.closed, hrule.closed, List.forall_mem_nil _⟩
  · have hbars : OneLine "| " ∧ OneLine " | " ∧ OneLine " |" := by decide
    refine OneLine.closed ?_
    simp only [oneLine_append, hbars, e.1.oneLine_name, oneLine_toString, and_self]

theorem closed_documentHeading {path : String} (h : '\n' ∉ path.toList) :
    ∀ l ∈ documentHeading path, Closed l := by
  have hfixed : ∀ l ∈ "" :: tableTop, OneLine l := by decide
  have hblank : Closed "" := (hfixed "" List.mem_cons_self).closed
  refine List.forall_mem_cons.mpr ⟨hblank, List.forall_mem_cons.mpr ⟨?_, ?_⟩⟩
  · exact closed_quoted (by decide) h
  · exact fun l hl => (hfixed l hl).closed

/-- The screen has the lines that were written if the free texts are on one line each. -/
theorem lines_screen (htarget : OneLine r.target)
    (h : ∀ v ∈ r.violations,
      OneLine v.path ∧ OneLine v.ruleId ∧ OneLine v.message ∧ OneLine v.suggestion) :
    lines r.screen = r.screenParts := by
  rw [screen_eq]
  refine lines_unlines (List.forall_mem_append.mpr ⟨List.forall_mem_append.mpr ⟨?_, ?_⟩, ?_⟩)
  · simp only [List.forall_mem_cons, oneLine_append]
    exact ⟨⟨by decide, htarget⟩, ⟨by decide, oneLine_toString r.filesScanned⟩,
      List.forall_mem_nil _⟩
  · intro l hl
    obtain ⟨e, he, hl⟩ := List.mem_flatMap.mp hl
    obtain ⟨⟨v, hv, hpath⟩, hfound⟩ := r.mem_of_mem_byFile he
    rcases List.mem_append.mp hl with hl | hl
    · rcases List.mem_pair.mp hl with rfl | rfl
      · decide
      · exact hpath ▸ (h v hv).1
    · obtain ⟨v, hv, hl⟩ := List.mem_flatMap.mp hl
      obtain ⟨-, hid, hmessage, hsuggestion⟩ := h v (hfound v hv)
      exact Violation.oneLine_screenLines hid hmessage hsuggestion l hl
  · refine List.forall_mem_cons.mpr ⟨by decide, List.forall_mem_singleton.mpr ?_⟩
    split
    · decide
    · refine oneLine_append.mpr ⟨by decide, oneLine_intercalate (by decide) ?_⟩
      rw [List.forall_mem_map]
      rintro ⟨s, n⟩ -
      simp only [oneLine_append]
      exact ⟨⟨oneLine_toString n, by decide⟩, s.oneLine_name⟩

/-- The document has the lines that were written if target, paths and titles are on one line each;
messages and suggestions may hold any text. -/
theorem lines_document (htarget : '\n' ∉ r.target.toList)
    (h : ∀ v ∈ r.violations, '\n' ∉ v.path.toList ∧ '\n' ∉ v.title.toList) :
    lines r.document = r.documentParts := by
  rw [document_eq]
  refine lines_unlines_of_closed
    (List.forall_mem_append.mpr ⟨List.forall_mem_append.mpr ⟨?_, ?_⟩, ?_⟩)
  · exact closed_documentTop htarget
  · intro l hl
    obtain ⟨e, he, hl⟩ := List.mem_flatMap.mp hl
    obtain ⟨⟨v, hv, hpath⟩, hfound⟩ := r.mem_of_mem_byFile he
    rcases List.mem_append.mp hl with hl | hl
    · exact closed_documentHeading (hpath ▸ (h v hv).1) l hl
    · obtain ⟨v, hv, hl⟩ := List.mem_flatMap.mp hl
      rw [List.mem_singleton.mp hl]
      exact Violation.closed_tableRow (h v (hfound v hv)).2
  · split
    · have hlast : ∀ l ∈ ["", "No antipatterns found."], OneLine l := by decide
      exact fun l hl => (hlast l hl).closed
    · exact List.forall_mem_nil _

/-! ### Agreement -/

/-- The screen is read as the findings, file by file. -/
structure OnScreen (r : Report) : Prop where
  written : r.screen = unlines r.screenParts
  read : screenReader.read (some "") r.screenParts = r.listed id Violation.screenLine
  lines : OneLine r.target →
    (∀ v ∈ r.violations,
      OneLine v.path ∧ OneLine v.ruleId ∧ OneLine v.message ∧ OneLine v.suggestion) →
    lines r.screen = r.screenParts

/-- The document is read as the findings, file by file. -/
structure InDocument (r : Report) : Prop where
  written : r.document = unlines r.documentParts
  read : documentReader.read "" r.documentParts =
    r.listed (fun path => "## `" ++ path ++ "`") Violation.tableRow
  lines : '\n' ∉ r.target.toList →
    (∀ v ∈ r.violations, '\n' ∉ v.path.toList ∧ '\n' ∉ v.title.toList) →
    lines r.document = r.documentParts

/-- **The views of a report agree** with the list of its findings and with each other. -/
theorem views_agree (r : Report) : r.Counted ∧ r.Grouped ∧ r.OnScreen ∧ r.InDocument :=
  ⟨r.counted, r.grouped, ⟨r.screen_eq, r.read_screenParts, lines_screen⟩,
    ⟨r.document_eq, r.read_documentParts, lines_document⟩⟩

/-- Findings in two files, found in turns. -/
def inTurns : Report where
  target := "flows"
  filesScanned := 2
  violations := [
    .of .monolithicNode "b.py" 12 "112 lines" "Split the node",
    .of .sharedStateInExec "a.py" 3 "shared[\"x\"]" "",
    .of .multiResponsibilityName "b.py" 0 "load|save" ""]

theorem views_agree_inTurns :
    screenReader.read (some "") (lines inTurns.screen) =
        [("a.py", "  L3     CRITICAL shared_state_in_exec: shared[\"x\"]"),
          ("b.py", "  L12    HIGH     monolithic_node: 112 lines"),
          ("b.py", "  L0     LOW      multi_responsibility_name: load|save")] ∧
      documentReader.read "" (lines inTurns.document) =
        [("## `a.py`", "| 3 | CRITICAL | Shared State Access in exec | shared[\"x\"] |  |"),
          ("## `b.py`", "| 12 | HIGH | Monolithic Node | 112 lines | Split the node |"),
          ("## `b.py`", "| 0 | LOW | Multi-Responsibility Name | load\\|save |  |")] := by
  obtain ⟨-, -, hscreen, hdocument⟩ := views_agree inTurns
  constructor
  · rw [hscreen.lines (by decide) (by decide), hscreen.read]
    decide +kernel
  · rw [hdocument.lines (by decide) (by decide), hdocument.read]
    decide +kernel

end Report

end AgentFlow.Lint

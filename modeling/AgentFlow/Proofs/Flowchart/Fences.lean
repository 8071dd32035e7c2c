import AgentFlow.Flowchart.Fence
import AgentFlow.Proofs.Text.Lines

/-!
# Documents with fenced diagrams

A document is written with one fence.  Whether its text has one diagram depends on the other lines:
a line that opens a fence of its own either starts another diagram or swallows the fence.

* `scan_plain`: lines that open no fence are passed over.
* `found_ne_of_inside`: a fence that is opened too early hides the diagram.
* `scan_fenced_iff`: **the diagram is found as the only one exactly if no other line opens a
  fence.**

In general a document is made of lines of prose and of fenced diagrams, in any order, and the fence
of the last diagram may be open up to the end.  A `Document` is such a text in parts, and extracting
the diagrams of its lines gives them back.

* `exists_document`: every text is laid out as a document.
* `Document.standsIn`: the number of a diagram is that of the first line of its text.
* `Document.extracts`: **what is extracted are the diagrams of the document in order, and the line
  of the fence that is never closed.**
-/

namespace AgentFlow.Flowchart

open Text

/-! ### Lines outside of a fence -/

/-- Lines that open no fence are passed over. -/
theorem scan_plain {pre : List String} (h : ∀ l ∈ pre, opensFence l = false) (n : Nat)
    (rest : List String) : scan n none (pre ++ rest) = scan (n + pre.length) none rest := by
  induction pre generalizing n with
  | nil => rfl
  | cons l pre ih =>
    rw [List.forall_mem_cons] at h
    have hn : n + 1 + pre.length = n + (pre.length + 1) := by omega
    rw [List.cons_append, scan, h.1, if_neg Bool.false_ne_true, ih h.2, hn, List.length_cons]

theorem scan_eq_empty {ls : List String} (h : ∀ l ∈ ls, opensFence l = false) (n : Nat) :
    scan n none ls = {} := by
  have := scan_plain h n []
  rwa [List.append_nil] at this

/-! ### Lines inside of a fence -/

/-- A diagram that is open is found, closed or not. -/
theorem found_ne_nil_of_inside (ls : List String) (n : Nat) (open' : Nat × List String) :
    (scan n (some open') ls).found ≠ [] := by
  induction ls generalizing n open' with
  | nil => exact List.cons_ne_nil _ _
  | cons l rest ih =>
    rw [scan]
    split
    · exact List.cons_ne_nil _ _
    · exact ih (n + 1) _

/-- A line that opens a fence gives a diagram, whatever stands around it. -/
theorem found_ne_nil_of_opens {ls : List String} {l : String} (hl : l ∈ ls)
    (h : opensFence l = true) (n : Nat) : (scan n none ls).found ≠ [] := by
  induction ls generalizing n with
  | nil => exact absurd hl List.not_mem_nil
  | cons x rest ih =>
    rw [scan]
    split
    · exact found_ne_nil_of_inside rest (n + 1) (n + 1, [])
    · next hx =>
      rcases List.mem_cons.mp hl with rfl | hl
      · exact absurd h hx
      · exact ih hl (n + 1)

/-- A diagram goes up to the line that closes its fence. -/
theorem scan_body {body : List String} (hbody : ∀ l ∈ body, closesFence l = false) {close : String}
    (hclose : closesFence close = true) (n start : Nat) (before rest : List String) :
    scan n (some (start, before)) (body ++ close :: rest) =
      { scan (n + body.length + 1) none rest with
        found := ⟨start, bodyOf (before.reverse ++ body)⟩ ::
          (scan (n + body.length + 1) none rest).found } := by
  induction body generalizing n before with
  | nil => rw [List.nil_append, scan, if_pos hclose, List.append_nil]; rfl
  | cons l body ih =>
    rw [List.forall_mem_cons] at hbody
    have hn : n + 1 + body.length = n + (body.length + 1) := by omega
    rw [List.cons_append, scan, hbody.1, if_neg Bool.false_ne_true, ih hbody.2, hn,
      List.reverse_cons, List.append_assoc, List.singleton_append, List.length_cons]

/-! ### A fence that is opened too early -/

/-- A diagram that holds a backquote so far is found with one. -/
theorem found_backquote {before : List String} {l : String} (hl : l ∈ before)
    (hc : '\x60' ∈ l.toList) (ls : List String) (n start : Nat) :
    ∃ d more, (scan n (some (start, before)) ls).found = d :: more ∧ '\x60' ∈ d.body.toList := by
  induction ls generalizing n before with
  | nil => exact ⟨_, [], rfl, mem_intercalate_of_mem (List.mem_reverse.mpr hl) hc⟩
  | cons x rest ih =>
    rw [scan]
    split
    · exact ⟨_, _, rfl, mem_intercalate_of_mem (List.mem_reverse.mpr hl) hc⟩
    · exact ih (List.mem_cons_of_mem x hl) (n + 1)

def fenceStart : String := "```mermaid"

def fenceEnd : String := "```"

/-- **A fence that is open before the fence of a diagram hides the diagram.**  It is closed before,
and then there is another diagram, or it takes the fence for a line of its own diagram. -/
theorem found_ne_of_inside {body : String} (hbody : '\x60' ∉ body.toList) (pre tail : List String)
    (n line : Nat) (open' : Nat × List String) :
    (scan n (some open') (pre ++ fenceStart :: tail)).found ≠ [⟨line, body⟩] := by
  induction pre generalizing n open' with
  | nil =>
    intro h
    rw [List.nil_append, scan, if_neg (by decide)] at h
    have hmem : fenceStart ∈ fenceStart :: open'.2 := List.mem_cons_self
    obtain ⟨d, more, hfound, hd⟩ := found_backquote hmem (by decide) tail (n + 1) open'.1
    rw [hfound] at h
    obtain ⟨rfl, -⟩ := List.cons.inj h
    exact hbody hd
  | cons l pre ih =>
    intro h
    rw [List.cons_append, scan] at h
    split at h
    · have hmem : fenceStart ∈ pre ++ fenceStart :: tail :=
        List.mem_append_right _ List.mem_cons_self
      exact found_ne_nil_of_opens hmem (by decide) (n + 1) (List.cons.inj h).2
    · exact ih (n + 1) _ h

/-- So does a line before the fence that opens one. -/
theorem found_ne_of_opens {body : String} (hbody : '\x60' ∉ body.toList) {pre : List String}
    {l : String} (hl : l ∈ pre) (h : opensFence l = true) (tail : List String) (n line : Nat) :
    (scan n none (pre ++ fenceStart :: tail)).found ≠ [⟨line, body⟩] := by
  induction pre generalizing n with
  | nil => exact absurd hl List.not_mem_nil
  | cons x pre ih =>
    rw [List.cons_append, scan]
    split
    · exact found_ne_of_inside hbody pre tail (n + 1) line _
    · next hx =>
      rcases List.mem_cons.mp hl with rfl | hl
      · exact absurd h hx
      · exact ih hl (n + 1)

/-- A line without a backquote closes no fence. -/
theorem closesFence_of_not_mem {l : String} (h : '\x60' ∉ l.toList) : closesFence l = false := by
  refine beq_false_of_ne fun he => h ?_
  have hmem : '\x60' ∈ (trim l).toList := by rw [he]; decide
  rw [trim, String.toList_ofList, dropBlankEnd, List.mem_reverse, dropBlank] at hmem
  have := List.mem_reverse.mp ((List.dropWhile_sublist _).subset hmem)
  exact (List.dropWhile_sublist _).subset this

/-- **A fenced diagram is found as the only one exactly if no line around it opens a fence.** -/
theorem scan_fenced_iff {pre body post : List String}
    (hbody : ∀ l ∈ body, '\x60' ∉ l.toList) :
    (∃ line, scan 1 none (pre ++ fenceStart :: (body ++ fenceEnd :: post)) =
        ⟨[⟨line, bodyOf body⟩], none⟩) ↔
      (∀ l ∈ pre, opensFence l = false) ∧ ∀ l ∈ post, opensFence l = false := by
  have hopen : opensFence fenceStart = true := by decide
  have hclose : closesFence fenceEnd = true := by decide
  have hin : ∀ l ∈ body, closesFence l = false := fun l hl => closesFence_of_not_mem (hbody l hl)
  have hchars : '\x60' ∉ (bodyOf body).toList := by
    intro hc
    rcases mem_of_mem_intercalate hc with hs | ⟨l, hl, hcl⟩
    · exact absurd hs (by decide)
    · exact hbody l hl hcl
  constructor
  · rintro ⟨line, hscan⟩
    have hpre : ∀ l ∈ pre, opensFence l = false := by
      intro l hl
      cases ho : opensFence l with
      | false => rfl
      | true => exact absurd (congrArg (·.found) hscan) (found_ne_of_opens hchars hl ho _ 1 line)
    refine ⟨hpre, fun l hl => ?_⟩
    rw [scan_plain hpre, scan, hopen, if_pos rfl, scan_body hin hclose] at hscan
    have hfound := (List.cons.inj (congrArg (·.found) hscan)).2
    cases ho : opensFence l with
    | false => rfl
    | true => exact absurd hfound (found_ne_nil_of_opens hl ho _)
  · rintro ⟨hpre, hpost⟩
    refine ⟨1 + pre.length + 1, ?_⟩
    rw [scan_plain hpre, scan, hopen, if_pos rfl, scan_body hin hclose, scan_eq_empty hpost]
    rfl

/-! ## Documents in parts -/

/-- A diagram as it stands in a document: a line that opens a fence, and lines of which none closes
it. -/
structure Fenced where
  opening : String
  body : List String
  opens : opensFence opening = true
  stays : ∀ l ∈ body, closesFence l = false

namespace Fenced

variable (f : Fenced)

def lines : List String := f.opening :: f.body

def diagram (n : Nat) : Diagram := ⟨n + 1, bodyOf f.body⟩

end Fenced

/-- A part of a document.  Prose may hold a line that closes a fence, since none is open there. -/
inductive Part where
  | prose (line : String) (plain : opensFence line = false)
  | diagram (fenced : Fenced) (closing : String) (closes : closesFence closing = true)

namespace Part

def lines : Part → List String
  | prose line _ => [line]
  | diagram f closing _ => f.lines ++ [closing]

def diagrams (n : Nat) : Part → List Diagram
  | prose _ _ => []
  | diagram f _ _ => [f.diagram n]

end Part

def partLines (ps : List Part) : List String := ps.flatMap Part.lines

def partDiagrams (n : Nat) : List Part → List Diagram
  | [] => []
  | p :: rest => p.diagrams n ++ partDiagrams (n + p.lines.length) rest

/-- A document in parts, after which there may be a diagram whose fence is never closed. -/
structure Document where
  parts : List Part
  unclosed? : Option Fenced := none

namespace Document

variable (d : Document)

def lines : List String := partLines d.parts ++ d.unclosed?.elim [] Fenced.lines

def lastLine : Nat := 1 + (partLines d.parts).length

def diagrams : List Diagram :=
  partDiagrams 1 d.parts ++ (d.unclosed?.map (Fenced.diagram · d.lastLine)).toList

def unclosedLine? : Option Nat := d.unclosed?.map fun _ => d.lastLine

end Document

/-! ### Extraction -/

/-- A part is scanned as it was written. -/
theorem scan_part (p : Part) (n : Nat) (rest : List String) :
    scan n none (p.lines ++ rest) =
      { scan (n + p.lines.length) none rest with
        found := p.diagrams n ++ (scan (n + p.lines.length) none rest).found } := by
  cases p with
  | prose line plain =>
    have hplain : ∀ l ∈ [line], opensFence l = false := fun l hl => by
      rw [List.mem_singleton.mp hl, plain]
    exact scan_plain hplain n rest
  | diagram f closing closes =>
    have hn : n + (Part.diagram f closing closes).lines.length = n + 1 + f.body.length + 1 := by
      simp only [Part.lines, Fenced.lines, List.length_append, List.length_cons, List.length_nil]
      omega
    rw [hn, Part.lines, Fenced.lines, List.append_assoc, List.cons_append, scan, f.opens,
      if_pos rfl, List.singleton_append, scan_body f.stays closes]
    rfl

theorem scan_parts (ps : List Part) (n : Nat) (rest : List String) :
    scan n none (partLines ps ++ rest) =
      { scan (n + (partLines ps).length) none rest with
        found := partDiagrams n ps ++ (scan (n + (partLines ps).length) none rest).found } := by
  induction ps generalizing n with
  | nil => rfl
  | cons p ps ih =>
    rw [partLines, List.flatMap_cons, List.append_assoc, scan_part, ← partLines, ih,
      List.length_append, ← Nat.add_assoc, partDiagrams, List.append_assoc]

/-- A diagram whose fence is never closed goes up to the end. -/
theorem scan_unclosed {body : List String} (h : ∀ l ∈ body, closesFence l = false)
    (n start : Nat) (before : List String) :
    scan n (some (start, before)) body =
      ⟨[⟨start, bodyOf (before.reverse ++ body)⟩], some (start - 1)⟩ := by
  induction body generalizing n before with
  | nil => rw [scan, List.append_nil]
  | cons l body ih =>
    rw [List.forall_mem_cons] at h
    rw [scan, h.1, if_neg Bool.false_ne_true, ih h.2, List.reverse_cons, List.append_assoc,
      List.singleton_append]

theorem Fenced.scan_eq (f : Fenced) (n : Nat) :
    scan n none f.lines = ⟨[f.diagram n], some n⟩ := by
  rw [Fenced.lines, scan, f.opens, if_pos rfl, scan_unclosed f.stays]
  rfl

theorem Document.scan_eq (d : Document) : scan 1 none d.lines = ⟨d.diagrams, d.unclosedLine?⟩ := by
  rw [Document.lines, scan_parts, Document.diagrams, Document.unclosedLine?, Document.lastLine]
  cases d.unclosed? with
  | none => rfl
  | some f => rw [Option.elim_some, f.scan_eq]; rfl

/-! ### Line numbers -/

/-- The text of a diagram stands in the lines from its number on. -/
def StandsIn (ls : List String) (n : Nat) (x : Diagram) : Prop :=
  ∃ body, x.body = bodyOf body ∧ n < x.line ∧ body <+: ls.drop (x.line - n)

theorem Fenced.standsIn (f : Fenced) (n : Nat) (rest : List String) :
    StandsIn (f.lines ++ rest) n (f.diagram n) := by
  refine ⟨f.body, rfl, Nat.lt_succ_self n, ?_⟩
  have hdrop : (f.diagram n).line - n = 1 := Nat.add_sub_cancel_left n 1
  rw [hdrop, Fenced.lines]
  exact List.prefix_append f.body rest

/-- Lines before the diagram only move it. -/
theorem StandsIn.append {ls : List String} {n : Nat} {x : Diagram} (pre : List String)
    (h : StandsIn ls (n + pre.length) x) : StandsIn (pre ++ ls) n x := by
  obtain ⟨body, hbody, hn, hprefix⟩ := h
  refine ⟨body, hbody, by omega, ?_⟩
  have hdrop : x.line - n = pre.length + (x.line - (n + pre.length)) := by omega
  rwa [hdrop, List.drop_length_add_append]

theorem standsIn_partLines {ps : List Part} {n : Nat} {x : Diagram} (h : x ∈ partDiagrams n ps)
    (rest : List String) : StandsIn (partLines ps ++ rest) n x := by
  induction ps generalizing n with
  | nil => exact absurd h List.not_mem_nil
  | cons p ps ih =>
    rw [partLines, List.flatMap_cons, List.append_assoc, ← partLines]
    rcases List.mem_append.mp h with hp | hps
    · cases p with
      | prose line plain => exact absurd hp List.not_mem_nil
      | diagram f closing closes =>
        rw [List.mem_singleton.mp hp, Part.lines, List.append_assoc]
        exact f.standsIn n _
    · exact (ih hps).append p.lines

/-- **The number of a diagram is that of the first line of its text.** -/
theorem Document.standsIn {d : Document} {x : Diagram} (h : x ∈ d.diagrams) :
    StandsIn d.lines 1 x := by
  rw [Document.lines]
  rcases List.mem_append.mp h with hp | hlast
  · exact standsIn_partLines hp _
  · obtain ⟨f, hf, rfl⟩ := Option.map_eq_some_iff.mp (Option.mem_toList.mp hlast)
    have hstands := f.standsIn d.lastLine []
    rw [List.append_nil] at hstands
    rw [hf]
    exact StandsIn.append (partLines d.parts) hstands

/-! ### Every text is a document -/

theorem exists_document (ls : List String) : ∃ d : Document, ls = d.lines := by
  induction hlen : ls.length using Nat.strongRecOn generalizing ls with
  | ind m ih =>
    cases ls with
    | nil => exact ⟨⟨[], none⟩, rfl⟩
    | cons l rest =>
      rw [List.length_cons] at hlen
      cases hopens : opensFence l with
      | false =>
        obtain ⟨d, hd⟩ := ih rest.length (by omega) rest rfl
        exact ⟨⟨.prose l hopens :: d.parts, d.unclosed?⟩, by rw [hd]; rfl⟩
      | true =>
        -- The diagram goes up to the first line that closes its fence, if there is one.
        have hsplit := List.takeWhile_append_dropWhile (p := fun l => !closesFence l) (l := rest)
        have hstays : ∀ l ∈ rest.takeWhile (fun l => !closesFence l), closesFence l = false :=
          fun l hl => Bool.not_eq_true' _ ▸ List.all_eq_true.mp List.all_takeWhile l hl
        let f : Fenced := ⟨l, rest.takeWhile fun l => !closesFence l, hopens, hstays⟩
        cases htail : rest.dropWhile fun l => !closesFence l with
        | nil =>
          rw [htail, List.append_nil] at hsplit
          exact ⟨⟨[], some f⟩, congrArg (l :: ·) hsplit.symm⟩
        | cons closing more =>
          have hcloses : closesFence closing = true := by
            have := List.head?_dropWhile_not (fun l => !closesFence l) rest
            rw [htail] at this
            simpa using this
          rw [htail] at hsplit
          have hless : more.length < m := by
            have := congrArg List.length hsplit
            rw [List.length_append, List.length_cons] at this
            omega
          obtain ⟨d, hd⟩ := ih more.length hless more rfl
          refine ⟨⟨.diagram f closing hcloses :: d.parts, d.unclosed?⟩, ?_⟩
          rw [← hsplit, hd]
          simp [Document.lines, partLines, Part.lines, Fenced.lines, f]

/-- **Extracting the diagrams of a text inverts laying it out**: they come in order, each with the
number of its first line and its lines joined, and the line of a fence that is never closed comes
with them. -/
theorem Document.extracts (content : String) :
    (∃ d : Document, Text.lines content = d.lines) ∧
      ∀ d : Document, Text.lines content = d.lines →
        Diagrams.ofDocument content = ⟨d.diagrams, d.unclosedLine?⟩ ∧
          ∀ x ∈ d.diagrams, StandsIn (Text.lines content) 1 x := by
  refine ⟨exists_document _, fun d hd => ?_⟩
  rw [Diagrams.ofDocument, hd]
  exact ⟨d.scan_eq, fun x hx => d.standsIn hx⟩

/-- A page with a closing fence in its prose, an indented fence, a diagram without lines, and a
fence that is never closed. -/
def Document.mixedPage : Document where
  parts := [
    .prose "Notes" (by decide),
    .prose "```" (by decide),
    .diagram ⟨" ```mermaid", ["	pie"], by decide, by decide⟩ "  ``` " (by decide),
    .diagram ⟨"```mermaid", [], by decide, by decide⟩ "```" (by decide)]
  unclosed? := some ⟨"```mermaid", ["graph", "", "```mermaid"], by decide, by decide⟩

theorem Document.extracts_mixedPage :
    Text.lines (Text.unlines mixedPage.lines) = mixedPage.lines ∧
      Diagrams.ofDocument (Text.unlines mixedPage.lines) =
        ⟨[⟨4, "\tpie"⟩, ⟨7, ""⟩, ⟨9, "graph\n\n```mermaid"⟩], some 8⟩ := by
  have hlines : Text.lines (Text.unlines mixedPage.lines) = mixedPage.lines :=
    lines_unlines (by decide)
  refine ⟨hlines, ?_⟩
  rw [((Document.extracts _).2 mixedPage hlines).1]
  decide

end AgentFlow.Flowchart

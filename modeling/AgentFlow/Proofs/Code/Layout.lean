import AgentFlow.Proofs.Code.Exceptions
import AgentFlow.Proofs.Lint.Outline
import AgentFlow.Text.Split

/-!
# Laying out a text

The lines of a printed text are statements of a block with no margin, up to the end of the text.
A text is laid out as rows, each a statement on a line of its own.  The characters of rows are those
of the lines of the text, and the statements of rows make blocks.

* `parse_sourceOf`: **the lines of a printed text are read back as the children of its tree**,
  without a fault.
* `sourceOf_eq`: rows whose characters are those of some lines are the text with these lines.
* `isBody_rows`, `isBlock_rows`: rows make a body, and a text.
* `tolerated_of_rows`: **a text laid out as rows passes a check if each of its statements does.**
-/

namespace AgentFlow.Code

open Text Lint

/-! ### Printed texts -/

def sourceOf (rs : List Line) : String := String.ofList (charsOf (lines rs) ++ ['\n'])

def Input.atEnd (xs : List Lexeme) : Input :=
  Input.past { rest := [] } (place 0 1 ['\n'] xs) [endToken (charsOf xs).length (1 + heightOf xs)]

theorem turns_atEnd (xs : List Lexeme) : (Input.atEnd xs).Turns 0 where
  opened := rfl
  lineEnded := rfl
  indent := le_rfl
  comments := fun _ h => absurd h List.not_mem_nil
  assigners := fun _ _ => Input.sees_of_finish rfl _
  clauses := .inr fun _ _ => Input.sees_of_finish rfl _

/-- **A printed text is read back as its lines.** -/
theorem parse_sourceOf {rs : List Line} (hrs : IsBlock 0 rs) :
    ∃ t, parse (sourceOf rs) = .ok t ∧
      t.outline = .node .module .plain 0 0 "" (rs.map (·.phrase.tree)) := by
  have hprinted := hrs.printed
  have hlength : (sourceOf rs).length = (charsOf (lines rs)).length + 1 := by
    rw [sourceOf, String.length_ofList, List.length_append, List.length_singleton]
  have hle := length_le_charsOf hprinted.valid
  have htokens : tokens (sourceOf rs) = place 0 1 ['\n'] (lines rs) ++
      [endToken (charsOf (lines rs)).length (1 + heightOf (lines rs))] := tokens_print hprinted
  have hcross : Crosses (Input.settle { rest := tokens (sourceOf rs) }) (lines rs)
      (.atEnd (lines rs)) := by
    refine ⟨⟨place 0 1 ['\n'] (lines rs), ⟨0, 1, ['\n'], rfl⟩, ?_, ?_⟩, hrs.fits⟩
    · exact htokens
    · rfl
  obtain ⟨ts, j, hread, hj, hts⟩ := statements_lines hrs
    (show 12 * (lines rs).length ≤ 16 * (sourceOf rs).length + 64 by omega)
    (show 12 * (lines rs).length < 16 * (sourceOf rs).length + 64 by omega) hcross rfl
    (turns_atEnd _) rfl (fun _ _ _ => .inr rfl) []
  have hjoined : j.joined = false := by
    rw [show j.joined = j.settle.joined from rfl, hj]
    rfl
  refine ⟨j.node .module ((tokens (sourceOf rs)).headD default) ts, ?_, ?_⟩
  · rw [parse]
    simp only [hread, hjoined, Bool.false_eq_true, if_false, List.reverse_nil, List.nil_append]
  · rw [Input.outline_node _ (by decide), hts]

variable {m n k : Nat} {p q e : Phrase} {s : String} {rs : List Line}

/-! ### Characters of rows -/

def lineChars (ss : List String) : List Char := ss.flatMap fun s => '\n' :: s.toList

@[simp] theorem lineChars_nil : lineChars [] = [] := rfl

@[simp] theorem lineChars_cons (s : String) (ss : List String) :
    lineChars (s :: ss) = '\n' :: (s.toList ++ lineChars ss) := List.flatMap_cons

@[simp] theorem lineChars_append (ss ts : List String) :
    lineChars (ss ++ ts) = lineChars ss ++ lineChars ts := List.flatMap_append

@[simp] theorem charsOf_lines_nil : charsOf (lines []) = [] := rfl

@[simp] theorem charsOf_lines_cons (r : Line) (rs : List Line) :
    charsOf (lines (r :: rs)) = r.lead.chars ++ r.phrase.chars ++ charsOf (lines rs) := by
  rw [lines_cons, charsOf_append, Phrase.charsOf_lexemes]

@[simp] theorem charsOf_lines_append (rs qs : List Line) :
    charsOf (lines (rs ++ qs)) = charsOf (lines rs) ++ charsOf (lines qs) := by
  rw [lines, List.flatMap_append, charsOf_append]
  rfl

/-- Rows whose characters are those of some lines are the text with these lines. -/
theorem sourceOf_eq {ss : List String} {c : Bool} (hp : p.chars = s.toList)
    (hrs : charsOf (lines rs) = lineChars ss) :
    sourceOf (⟨.blanks 0, p, c⟩ :: rs) = unlines (s :: ss) := by
  have hshift : ∀ ss : List String,
      lineChars ss ++ ['\n'] = '\n' :: ss.flatMap fun s => (s ++ "\n").toList := by
    intro ss
    induction ss with
    | nil => rfl
    | cons s ss ih =>
      rw [lineChars_cons, List.cons_append, List.append_assoc, ih, List.flatMap_cons]
      simp
  apply String.toList_injective
  rw [sourceOf, String.toList_ofList, charsOf_lines_cons, hrs, List.append_assoc,
    hshift, hp, unlines, String.toList_join, List.flatMap_map, List.flatMap_cons]
  simp [Lead.chars]

namespace Phrase

variable {ps : List Phrase} {r : Option Phrase}

theorem charsOf_signature : charsOf (signature s ps r) =
    ' ' :: s.toList ++ '(' :: [',', ' '].intercalate (ps.map (·.chars)) ++ ')' ::
      (r.map fun t => " -> ".toList ++ t.chars).getD [] := by
  cases r <;>
    simp [signature, resultLexemes, charsOf_append, charsOf_cons, charsOf_enclosed, Lexeme.chars,
      Lead.chars]

@[simp] theorem chars_function : (function s ps r rs).chars = "def ".toList ++ s.toList ++
    '(' :: [',', ' '].intercalate (ps.map (·.chars)) ++ ')' ::
      (r.map fun t => " -> ".toList ++ t.chars).getD [] ++ ':' :: charsOf (lines rs) := by
  rw [function, chars_headed, charsOf_signature]
  simp

@[simp] theorem chars_asyncFunction : (asyncFunction s ps r rs).chars = "async def ".toList ++
    s.toList ++ '(' :: [',', ' '].intercalate (ps.map (·.chars)) ++ ')' ::
      (r.map fun t => " -> ".toList ++ t.chars).getD [] ++ ':' :: charsOf (lines rs) := by
  rw [asyncFunction, chars_headed, charsOf_cons, charsOf_signature]
  simp [Lexeme.chars, Lead.chars]

@[simp] theorem chars_classOf (b : Option String) : (classOf s b rs).chars = "class ".toList ++
    s.toList ++ (b.map fun b => '(' :: (b.toList ++ [')'])).getD [] ++ ':' ::
      charsOf (lines rs) := by
  rw [classOf, chars_headed]
  cases b <;>
    simp [baseLexemes, charsOf_cons, charsOf_enclosed, Lexeme.chars, Lead.chars]

@[simp] theorem chars_decorated (m : Nat) : (decorated m e p).chars =
    '@' :: e.chars ++ '\n' :: (List.replicate m ' ' ++ p.chars) := by
  simp [decorated, chars, charsOf_append, Lead.chars]

@[simp] theorem chars_ifStatement :
    (ifStatement p rs).chars = "if ".toList ++ p.chars ++ ':' :: charsOf (lines rs) := by
  simp [ifStatement, chars_headed, Lead.chars]

@[simp] theorem chars_withStatement :
    (withStatement p rs).chars = "with ".toList ++ p.chars ++ ':' :: charsOf (lines rs) := by
  simp [withStatement, chars_headed, Lead.chars]

@[simp] theorem chars_forStatement (ss : List String) : (forStatement s ss p rs).chars =
    "for ".toList ++ (", ".intercalate (s :: ss)).toList ++ " in ".toList ++ p.chars ++
      ':' :: charsOf (lines rs) := by
  have htargets : charsOf (afterCommas (furtherTargets ss)) =
      ss.flatMap fun t => ", ".toList ++ t.toList := by
    induction ss with
    | nil => rfl
    | cons t ts ih =>
      rw [furtherTargets, List.map_cons, afterCommas, List.flatMap_cons, ← afterCommas,
        ← furtherTargets, charsOf_append, ih]
      simp [charsOf_cons, Lexeme.chars, Lead.chars]
  rw [← intercalate_names, forStatement, chars_headed, charsOf_append, charsOf_cons, htargets]
  simp [charsOf_cons, Lexeme.chars, Lead.chars]

@[simp] theorem chars_tryStatement (m : Nat) (cs : List Clause) : (tryStatement m rs cs).chars =
    "try:".toList ++ charsOf (lines rs) ++ cs.flatMap fun c =>
      '\n' :: (List.replicate m ' ' ++ "except ".toList ++ c.header.chars ++ ':' ::
        charsOf (lines c.body)) := by
  have hclauses : charsOf (clauseLexemes m cs) = cs.flatMap fun c =>
      '\n' :: (List.replicate m ' ' ++ "except ".toList ++ c.header.chars ++ ':' ::
        charsOf (lines c.body)) := by
    induction cs with
    | nil => rfl
    | cons c cs ih =>
      rw [clauseLexemes_cons, charsOf_append, ih, charsOf_lexemes, Clause.phrase, chars_headed]
      simp [Lead.chars]
  rw [tryStatement, chars, charsOf_append, hclauses, bodyLexemes, charsOf_cons]
  simp [Lexeme.chars, Lead.chars]

end Phrase

/-! ### Statements of rows -/

/-- A row is a statement at the margin. -/
structure IsRow (m : Nat) (r : Line) : Prop where
  statement : r.phrase.IsStatement m r.closing
  indent : r.lead.indent = m
  newline : r.lead.newline = true
  comment : ∀ n s, r.lead = .comment n s → IsRemark s.toList

/-- A row that any other may follow. -/
structure IsOpenRow (m : Nat) (r : Line) : Prop extends IsRow m r where
  stays : r.closing = false

theorem isRow {c : Bool} (h : p.IsStatement m c) : IsRow m ⟨.breaks k m, p, c⟩ :=
  ⟨h, rfl, rfl, by simp⟩

theorem isOpenRow (h : p.IsStatement m false) : IsOpenRow m ⟨.breaks k m, p, false⟩ :=
  ⟨isRow h, rfl⟩

/-- Only before a definition a row that nothing else may follow stands. -/
def EndsWell (rs : List Line) : Prop :=
  rs.IsChain fun r q => r.closing = true → q.phrase.kind = .name ∧ q.phrase.body = "def"

theorem endsWell_of_open (h : ∀ r ∈ rs, IsOpenRow m r) : EndsWell rs := by
  induction rs with
  | nil => exact .nil
  | cons r rs ih =>
    rw [List.forall_mem_cons] at h
    refine List.isChain_cons.mpr ⟨fun q _ hclosing => ?_, ih h.2⟩
    exact Bool.noConfusion (h.1.stays.symm.trans hclosing)

/-- Rows make a body. -/
theorem isBody_rows (hne : rs ≠ []) (h : ∀ r ∈ rs, IsRow (m + 4) r) (hends : EndsWell rs) :
    IsBody m rs where
  block :=
    { statements := fun r hr => (h r hr).statement
      indent := fun r hr => (h r hr).indent
      comment := fun r hr => (h r hr).comment
      apart := fun r hr => (h r (List.mem_of_mem_tail hr)).newline
      ends := hends }
  ne_nil := hne
  newline := fun r hr => (h r hr).newline

/-- Rows make a text. -/
theorem isBlock_rows (hp : p.IsStatement 0 false) (h : ∀ r ∈ rs, IsRow 0 r) (hends : EndsWell rs) :
    IsBlock 0 (⟨.blanks 0, p, false⟩ :: rs) where
  statements := List.forall_mem_cons.mpr ⟨hp, fun r hr => (h r hr).statement⟩
  indent := List.forall_mem_cons.mpr ⟨rfl, fun r hr => (h r hr).indent⟩
  comment := List.forall_mem_cons.mpr ⟨by simp, fun r hr => (h r hr).comment⟩
  apart := fun r hr => (h r hr).newline
  ends := List.isChain_cons.mpr ⟨fun _ _ hclosing => Bool.noConfusion hclosing, hends⟩

theorem isBody_open (hne : rs ≠ []) (h : ∀ r ∈ rs, IsOpenRow (m + 4) r) : IsBody m rs :=
  isBody_rows hne (fun r hr => (h r hr).toIsRow) (endsWell_of_open h)

theorem closesLines_open (h : ∀ r ∈ rs, IsOpenRow m r) : closesLines rs = false := by
  rw [closesLines]
  cases hlast : rs.getLast? with
  | none => rfl
  | some r => exact (h r (List.mem_of_mem_getLast? hlast)).stays

/-- **A text laid out as rows passes a check if each of its statements does.** -/
theorem tolerated_of_rows {settings : DetectionSettings} (hrs : IsBlock 0 rs)
    (hfits : ∀ r ∈ rs, StatementFits settings r.phrase.tree) (path : String) :
    ∀ v ∈ detect path settings (sourceOf rs), v.Tolerated := by
  obtain ⟨t, hread, ht⟩ := parse_sourceOf hrs
  refine detect_tolerated hread (sourceFacts_fits ?_)
  rw [ht]
  exact List.forall_mem_map.mpr hfits

end AgentFlow.Code

import AgentFlow.Proofs.Code.Passing

/-!
# Lines that are statements

Lines of a text that are read as statements at a margin, whatever the rows are that they are read
as.

* `Laid P m ss`: the lines `ss` are statements at the margin `m`, the tree of each satisfies `P`.
* `Laid.cons`, `Laid.block`, `Laid.tried`: a statement, one with a body, and one with handlers go
  before other lines.
* `tolerated_of_laid`: **a text passes a check if its lines are statements that do.**
-/

namespace AgentFlow.Code

open Text Lint Phrase

variable {P Q : Tree → Prop} {m n k : Nat} {p : Phrase} {s : String} {ss ts : List String}
  {rs : List Line}

/-- Lines that are statements at the margin with trees that satisfy the condition. -/
def Laid (P : Tree → Prop) (m : Nat) (ss : List String) : Prop :=
  ∃ rs, (∀ r ∈ rs, IsOpenRow m r ∧ P r.phrase.tree) ∧ charsOf (lines rs) = lineChars ss

theorem laid_nil : Laid P m [] := ⟨[], by simp, rfl⟩

theorem Laid.append (hs : Laid P m ss) (ht : Laid P m ts) : Laid P m (ss ++ ts) := by
  obtain ⟨rs, hrs, hchars⟩ := hs
  obtain ⟨qs, hqs, hchars'⟩ := ht
  exact ⟨rs ++ qs, List.forall_mem_append.mpr ⟨hrs, hqs⟩, by simp [hchars, hchars']⟩

theorem Laid.flatMap {α : Type} {f : α → List String} {as : List α}
    (h : ∀ a ∈ as, Laid P m (f a)) : Laid P m (as.flatMap f) := by
  induction as with
  | nil => exact laid_nil
  | cons a as ih =>
    rw [List.forall_mem_cons] at h
    exact h.1.append (ih h.2)

theorem Laid.map {α : Type} {f : α → String} {as : List α} (h : ∀ a ∈ as, Laid P m [f a]) :
    Laid P m (as.map f) := by
  rw [← List.flatMap_singleton' (as.map f), List.flatMap_map]
  exact .flatMap h

/-- Nothing follows the last statement. -/
theorem Laid.last (k : Nat) {body : List String}
    (h : Laid P m (List.replicate k "" ++ s :: (body ++ []))) :
    Laid P m (List.replicate k "" ++ s :: body) := by
  rwa [List.append_nil] at h

/-! ### Statements before other lines -/

/-- The characters of a statement after `k` empty lines. -/
theorem chars_breaks (k : Nat)
    (hchars : List.replicate m ' ' ++ p.chars = s.toList ++ lineChars ss) :
    (Lead.breaks k m).chars ++ p.chars = lineChars (List.replicate k "" ++ s :: ss) := by
  have hempty : lineChars (List.replicate k "") = List.replicate k '\n' := by
    induction k with
    | zero => rfl
    | succ k ih => rw [List.replicate_succ, List.replicate_succ, lineChars_cons, ih]; rfl
  have hshift : '\n' :: List.replicate k '\n' = List.replicate k '\n' ++ ['\n'] :=
    (List.replicate_succ ..).symm.trans List.replicate_succ'
  rw [lineChars_append, hempty, lineChars_cons, ← hchars, Lead.chars, ← List.cons_append, hshift,
    List.append_assoc, List.append_assoc, List.singleton_append]

/-- A row before other lines. -/
theorem Laid.row (ss : List String) {r : Line} (hr : IsOpenRow m r) (hp : P r.phrase.tree)
    (hchars : r.lead.chars ++ r.phrase.chars = lineChars ss) (ht : Laid P m ts) :
    Laid P m (ss ++ ts) := by
  obtain ⟨rs, hrs, hrest⟩ := ht
  refine ⟨r :: rs, List.forall_mem_cons.mpr ⟨⟨hr, hp⟩, hrs⟩, ?_⟩
  rw [charsOf_lines_cons, hchars, hrest, lineChars_append]

/-- A statement on some lines, after `k` empty ones, before other lines. -/
theorem Laid.cons (k : Nat) (ss : List String) (h : p.IsStatement m false) (hp : P p.tree)
    (hchars : List.replicate m ' ' ++ p.chars = s.toList ++ lineChars ss) (ht : Laid P m ts) :
    Laid P m (List.replicate k "" ++ s :: (ss ++ ts)) := by
  have hlines := Laid.row _ (isOpenRow h) hp (chars_breaks k hchars) ht
  rwa [List.append_assoc] at hlines

/-- A statement without blocks whose first word starts no choice between patterns. -/
structure IsLine (p : Phrase) : Prop extends p.IsSimple where
  word : ((p.head (.blanks 0)).word == "match") = false

theorem IsLine.isStatement (h : IsLine p) (hflat : p.Flat) : p.IsStatement m false :=
  h.toIsSimple.isStatement (by simpa using h.word) (hflat.fits m)

/-- A statement on one line. -/
theorem Laid.simple (k : Nat) (h : IsLine p) (hp : P p.tree)
    (hchars : p.Flat ∧ List.replicate m ' ' ++ p.chars = s.toList) (ht : Laid P m ts) :
    Laid P m (List.replicate k "" ++ s :: ts) := by
  have hlines : List.replicate m ' ' ++ p.chars = s.toList ++ lineChars [] := by
    simpa using hchars.2
  exact .cons k [] (h.isStatement hchars.1) hp hlines ht

/-- A statement on one line, after a comment. -/
theorem Laid.commented {t u : String} (h : IsLine p) (hp : P p.tree) (hu : IsRemark u.toList)
    (hcomment : List.replicate m ' ' ++ '#' :: u.toList = t.toList)
    (hchars : p.Flat ∧ List.replicate m ' ' ++ p.chars = s.toList) (ht : Laid P m ts) :
    Laid P m (t :: s :: ts) := by
  have hstatement := h.isStatement (m := m) hchars.1
  have hcomments : ∀ n v, Lead.comment m u = .comment n v → IsRemark v.toList := by
    rintro n v ⟨⟩
    exact hu
  have hrow : IsOpenRow m ⟨.comment m u, p, false⟩ := ⟨⟨hstatement, rfl, rfl, hcomments⟩, rfl⟩
  refine .row [t, s] hrow hp ?_ ht
  rw [Lead.chars, lineChars_cons, lineChars_cons, ← hcomment, ← hchars.2]
  simp

theorem isLine_literal (hs : IsText s.toList) : IsLine (literal s) where
  toIsSimple := (isOperand_literal hs).isExpression.isSimple
    (by simp [head, literal, Lexeme.word, blockWords]) (by simp [head, literal, Lexeme.word])
  word := rfl

/-- A text on a line. -/
theorem Laid.text (k : Nat) {t : String} (h : IsText t.toList) (hp : P (literal t).tree)
    (hchars : List.replicate m ' ' ++ t.toList = s.toList) (ht : Laid P m ts) :
    Laid P m (List.replicate k "" ++ s :: ts) :=
  .simple k (isLine_literal h) hp (by simpa using hchars) ht

/-- Lines that make a body are rows that do. -/
theorem Laid.body (h : Laid P (m + 4) ss) (hne : ss ≠ []) :
    ∃ rs, IsBody m rs ∧ closesLines rs = false ∧ (∀ r ∈ rs, P r.phrase.tree) ∧
      charsOf (lines rs) = lineChars ss := by
  obtain ⟨rs, hrs, hchars⟩ := h
  have hopen : ∀ r ∈ rs, IsOpenRow (m + 4) r := fun r hr => (hrs r hr).1
  refine ⟨rs, isBody_open ?_ hopen, closesLines_open hopen, fun r hr => (hrs r hr).2, hchars⟩
  rintro rfl
  cases ss with
  | nil => exact hne rfl
  | cons s ss => simp at hchars

/-- A statement with a body, which starts with the line `s`. -/
theorem Laid.block (k : Nat) {body : List String} (build : List Line → Phrase)
    (hbuild : ∀ rs, IsBody m rs → (build rs).IsStatement m (closesLines rs))
    (hchars : ∀ rs, (build rs).chars = (build []).chars ++ charsOf (lines rs))
    (hP : ∀ rs, (∀ r ∈ rs, Q r.phrase.tree) → P (build rs).tree)
    (hheader : List.replicate m ' ' ++ (build []).chars = s.toList) (hne : body ≠ [])
    (hbody : Laid Q (m + 4) body) (ht : Laid P m ts) :
    Laid P m (List.replicate k "" ++ s :: (body ++ ts)) := by
  obtain ⟨rs, hrs, hstays, hQ, hlines⟩ := hbody.body hne
  refine .cons k body (hstays ▸ hbuild rs hrs) (hP rs hQ) ?_ ht
  rw [hchars, hlines, ← List.append_assoc, hheader]

section Definition

variable {name : String} {ps : List Phrase} {r : Option Phrase} {body : List String}

/-- A function. -/
theorem Laid.function (k : Nat) (h : IsSignature name ps r)
    (hflat : (∀ p ∈ ps, p.Flat) ∧ ∀ t ∈ r, t.Flat)
    (hP : ∀ rs, (∀ r ∈ rs, Q r.phrase.tree) → P (functionTree name ps r rs))
    (hheader : List.replicate m ' ' ++ (function name ps r []).chars = s.toList) (hne : body ≠ [])
    (hbody : Laid Q (m + 4) body) (ht : Laid P m ts) :
    Laid P m (List.replicate k "" ++ s :: (body ++ ts)) :=
  .block k (Phrase.function name ps r)
    (fun _ hrs => (h.function hrs hflat.1 hflat.2).isStatement) (by simp) hP hheader hne hbody ht

/-- A function that waits. -/
theorem Laid.asyncFunction (k : Nat) (h : IsSignature name ps r)
    (hflat : (∀ p ∈ ps, p.Flat) ∧ ∀ t ∈ r, t.Flat)
    (hP : ∀ rs, (∀ r ∈ rs, Q r.phrase.tree) → P (functionTree name ps r rs))
    (hheader : List.replicate m ' ' ++ (Phrase.asyncFunction name ps r []).chars = s.toList)
    (hne : body ≠ []) (hbody : Laid Q (m + 4) body) (ht : Laid P m ts) :
    Laid P m (List.replicate k "" ++ s :: (body ++ ts)) :=
  .block k (Phrase.asyncFunction name ps r)
    (fun _ hrs => (h.asyncFunction hrs hflat.1 hflat.2).isStatement) (by simp) hP hheader hne hbody
    ht

/-- A function that waits, after a decorator. -/
theorem Laid.decorated (k : Nat) {e : Phrase} {t : String} (he : e.IsExpression)
    (hdots : e.body ≠ "...") (h : IsSignature name ps r)
    (hflat : e.Flat ∧ (∀ p ∈ ps, p.Flat) ∧ ∀ t ∈ r, t.Flat)
    (hP : ∀ rs, (∀ r ∈ rs, Q r.phrase.tree) →
      P (Phrase.decorated m e (Phrase.asyncFunction name ps r rs)).tree)
    (hdecorator : List.replicate m ' ' ++ '@' :: e.chars = s.toList)
    (hheader : List.replicate m ' ' ++ (Phrase.asyncFunction name ps r []).chars = t.toList)
    (hne : body ≠ []) (hbody : Laid Q (m + 4) body) (ht : Laid P m ts) :
    Laid P m (List.replicate k "" ++ s :: t :: (body ++ ts)) := by
  obtain ⟨rs, hrs, hstays, hQ, hlines⟩ := hbody.body hne
  have hstatement := he.decorated hdots hflat.1 (h.asyncFunction hrs hflat.2.1 hflat.2.2)
  refine .cons k (t :: body) (hstays ▸ hstatement) (hP rs hQ) ?_ ht
  rw [lineChars_cons, ← hheader, ← hdecorator, ← hlines]
  simp

/-- A class. -/
theorem Laid.classOf (k : Nat) {b : Option String} (hname : IsName name) (hb : ∀ t ∈ b, IsName t)
    (hP : ∀ rs, (∀ r ∈ rs, Q r.phrase.tree) → P (Phrase.classOf name b rs).tree)
    (hheader : List.replicate m ' ' ++ (Phrase.classOf name b []).chars = s.toList)
    (hne : body ≠ []) (hbody : Laid Q (m + 4) body) (ht : Laid P m ts) :
    Laid P m (List.replicate k "" ++ s :: (body ++ ts)) :=
  .block k (Phrase.classOf name b) (fun _ hrs => (IsBody.classOf hname hb hrs).isStatement)
    (by simp) hP hheader hne hbody ht

end Definition

/-! ### Handlers -/

def LaidClauses (P : Tree → Prop) (m : Nat) (ss : List String) : Prop :=
  ∃ cs : List Clause, (∀ c ∈ cs, c.Valid m ∧ P c.phrase.tree) ∧
    charsOf (clauseLexemes m cs) = lineChars ss

theorem laidClauses_nil : LaidClauses P m [] := ⟨[], by simp, rfl⟩

/-- A clause before others. -/
theorem LaidClauses.cons {body : List String} (h : p.IsExpression) (hflat : p.Flat)
    (hP : ∀ rs, (∀ r ∈ rs, Q r.phrase.tree) → P (Clause.phrase ⟨p, rs⟩).tree)
    (hheader : List.replicate m ' ' ++ ("except ".toList ++ (p.chars ++ [':'])) = s.toList)
    (hne : body ≠ []) (hbody : Laid Q (m + 4) body) (ht : LaidClauses P m ts) :
    LaidClauses P m (s :: (body ++ ts)) := by
  obtain ⟨rs, hrs, hstays, hQ, hlines⟩ := hbody.body hne
  obtain ⟨cs, hcs, hrest⟩ := ht
  refine ⟨⟨p, rs⟩ :: cs, List.forall_mem_cons.mpr ⟨⟨⟨h, hflat, hrs, hstays⟩, hP rs hQ⟩, hcs⟩, ?_⟩
  rw [clauseLexemes_cons, charsOf_append, hrest, charsOf_lexemes, Clause.phrase, chars_headed,
    lineChars_cons, lineChars_append, ← hheader]
  simp [Lead.chars, hlines]

/-- A statement with clauses for exceptions. -/
theorem Laid.tried (k : Nat) {body clauses : List String}
    (hP : ∀ rs cs, (∀ r ∈ rs, P r.phrase.tree) → (∀ c ∈ cs, P (Clause.phrase c).tree) →
      P (tryStatement m rs cs).tree)
    (hheader : List.replicate m ' ' ++ "try:".toList = s.toList) (hne : body ≠ [])
    (hbody : Laid P (m + 4) body) (hclauses : LaidClauses P m clauses) (ht : Laid P m ts) :
    Laid P m (List.replicate k "" ++ s :: (body ++ clauses ++ ts)) := by
  obtain ⟨rs, hrs, hstays, hbodyP, hlines⟩ := hbody.body hne
  obtain ⟨cs, hcs, hclauseLines⟩ := hclauses
  refine .cons k (body ++ clauses) (isStatement_try hrs hstays fun c hc => (hcs c hc).1)
    (hP rs cs hbodyP fun c hc => (hcs c hc).2) ?_ ht
  have htry : (tryStatement m rs cs).chars =
      "try:".toList ++ (charsOf (lines rs) ++ charsOf (clauseLexemes m cs)) := by
    simp [tryStatement, chars, charsOf_append, bodyLexemes, charsOf_cons, Lexeme.chars, Lead.chars]
  rw [htry, hlines, hclauseLines, lineChars_append, ← List.append_assoc, hheader]

/-! ### Texts -/

/-- Lines that are functions outside classes, after each of which only another one may follow. -/
def LaidFunctions (ss : List String) : Prop :=
  ∃ rs, (∀ r ∈ rs, IsRow 0 r ∧ (r.phrase.kind = .name ∧ r.phrase.body = "def") ∧
    StatementFits {} r.phrase.tree) ∧ charsOf (lines rs) = lineChars ss

theorem laidFunctions_nil : LaidFunctions [] := ⟨[], by simp, rfl⟩

theorem LaidFunctions.append (hs : LaidFunctions ss) (ht : LaidFunctions ts) :
    LaidFunctions (ss ++ ts) := by
  obtain ⟨rs, hrs, hchars⟩ := hs
  obtain ⟨qs, hqs, hchars'⟩ := ht
  exact ⟨rs ++ qs, List.forall_mem_append.mpr ⟨hrs, hqs⟩, by simp [hchars, hchars']⟩

theorem LaidFunctions.flatMap {α : Type} {f : α → List String} {as : List α}
    (h : ∀ a ∈ as, LaidFunctions (f a)) : LaidFunctions (as.flatMap f) := by
  induction as with
  | nil => exact laidFunctions_nil
  | cons a as ih =>
    rw [List.forall_mem_cons] at h
    exact h.1.append (ih h.2)

/-- A function without parameters, before other functions. -/
theorem LaidFunctions.cons (k : Nat) {name : String} {body : List String} (hname : IsName name)
    (hheader : "def ".toList ++ (name.toList ++ "():".toList) = s.toList)
    (hrs : IsBody 0 rs) (hcalm : ∀ r ∈ rs, Everywhere IsCalm r.phrase.tree)
    (hlines : charsOf (lines rs) = lineChars body) (ht : LaidFunctions ts) :
    LaidFunctions (List.replicate k "" ++ s :: (body ++ ts)) := by
  obtain ⟨qs, hqs, hrest⟩ := ht
  have hsignature : IsSignature name [] none := ⟨hname, by simp, by simp⟩
  have hstatement := (hsignature.function hrs (by simp) (by simp)).isStatement
  refine ⟨⟨.breaks k 0, Phrase.function name [] none rs, closesLines rs⟩ :: qs,
    List.forall_mem_cons.mpr
      ⟨⟨isRow hstatement, ⟨rfl, rfl⟩, statementFits_function hcalm name none⟩, hqs⟩, ?_⟩
  have hfunction : List.replicate 0 ' ' ++ (Phrase.function name [] none rs).chars =
      s.toList ++ lineChars body := by
    rw [← hheader, ← hlines]
    simp
  rw [charsOf_lines_cons, chars_breaks k hfunction, hrest, ← lineChars_append, List.append_assoc,
    List.cons_append]

/-- **A text passes a check if its lines are statements that do**: a documentation string,
statements after which any other may follow, and functions. -/
theorem tolerated_of_laid (hs : IsText s.toList) (h : Laid (StatementFits {}) 0 ss)
    (ht : LaidFunctions ts) (path : String) :
    ∀ v ∈ detect path {} (unlines (s :: (ss ++ ts))), v.Tolerated := by
  obtain ⟨rs, hrs, hchars⟩ := h
  obtain ⟨qs, hqs, hchars'⟩ := ht
  have hends : EndsWell (rs ++ qs) := by
    have hopen := endsWell_of_open fun r hr => (hrs r hr).1
    refine List.isChain_append.mpr ⟨hopen, ?_, fun r hr q _ hclosing => ?_⟩
    · exact List.Pairwise.isChain (List.pairwise_of_forall_mem_list fun _ _ q hq (_ : _ = true) =>
        (hqs q hq).2.1)
    · have hstays := (hrs r (List.mem_of_mem_getLast? hr)).1.stays
      exact Bool.noConfusion (hstays.symm.trans hclosing)
  have hstatement : (literal s).IsStatement 0 false :=
    (isLine_literal hs).isStatement (by simp)
  have hblock := isBlock_rows hstatement
    (List.forall_mem_append.mpr ⟨fun r hr => (hrs r hr).1.toIsRow, fun r hr => (hqs r hr).1⟩) hends
  have hsource : sourceOf (⟨.blanks 0, literal s, false⟩ :: (rs ++ qs)) =
      unlines (s :: (ss ++ ts)) :=
    sourceOf_eq (by simp) (by simp [hchars, hchars'])
  rw [← hsource]
  refine tolerated_of_rows hblock (List.forall_mem_cons.mpr ⟨?_, List.forall_mem_append.mpr
    ⟨fun r hr => (hrs r hr).2, fun r hr => (hqs r hr).2.2⟩⟩) path
  exact statementFits_plain (by simp [literal, group, Tree.type, definitionTypes])

/-- A text of statements after which any other may follow. -/
theorem tolerated_of_open (hs : IsText s.toList) (h : Laid (StatementFits {}) 0 ss)
    (path : String) :
    ∀ v ∈ detect path {} (unlines (s :: ss)), v.Tolerated := by
  have := tolerated_of_laid hs h laidFunctions_nil path
  rwa [List.append_nil] at this

end AgentFlow.Code

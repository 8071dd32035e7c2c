import AgentFlow.Code.Statement
import AgentFlow.Proofs.Code.Operators

/-!
# Reading blocks

A block is printed as lines, each a phrase that is a statement, with what stands before it.  The
reader of statements reads the lines one after the other, as long as each stands at the margin of
the block and what follows the last one stands no further than the margin.

* `Input.Turns m i`: at `i` a statement in a block with the margin `m` is over.
* `Phrase.IsStatement m c p`: the phrase `p` is read as a statement of such a block.
* `IsBlock m rs`: the lines `rs` make such a block.
* `statements_lines`, `suite_lines`: **the lines of a block are read back in order, as the children
  of one node.**
-/

namespace AgentFlow.Code

def clauseWords : List String := ["elif", "else", "except", "finally"]

namespace Input

variable {i : Input} {m n : Nat}

def settle (i : Input) : Input := { i with simple := false, fresh := true }

@[simp] theorem settle_settle (i : Input) : i.settle.settle = i.settle := rfl

/-- A statement in a block with the margin is over: a line starts that stands no further to the
right, and no clause of the statement. -/
structure Turns (m : Nat) (i : Input) : Prop where
  opened : i.opened = []
  lineEnded : i.lineEnded = true
  indent : i.first.gap.indent ≤ m
  comments : ∀ c ∈ i.first.gap.comments, c.indent ≤ m
  assigners : ∀ w ∈ assigners, i.sees w = false
  clauses : i.first.gap.indent < m ∨ ∀ w ∈ clauseWords, i.sees w = false

/-- A block with the margin is over: a line starts that stands further to the left. -/
structure Leaves (n : Nat) (i : Input) : Prop where
  opened : i.opened = []
  lineEnded : i.lineEnded = true
  indent : i.first.gap.indent < n
  comments : ∀ c ∈ i.first.gap.comments, c.indent < n
  assigners : ∀ w ∈ assigners, i.sees w = false

/-- A definition follows, or nothing. -/
def Ends (i : Input) : Prop := i.sees "def" = true ∨ i.first.kind = .finish

theorem Turns.leaves (h : i.Turns m) (hmn : m < n) : i.Leaves n where
  opened := h.opened
  lineEnded := h.lineEnded
  indent := h.indent.trans_lt hmn
  comments c hc := (h.comments c hc).trans_lt hmn
  assigners := h.assigners

theorem Leaves.turns (h : i.Leaves n) : i.Turns n where
  opened := h.opened
  lineEnded := h.lineEnded
  indent := h.indent.le
  comments c hc := (h.comments c hc).le
  assigners := h.assigners
  clauses := .inl h.indent

section Same

variable {j : Input}

/-- Only what is still to be read and the open brackets matter. -/
theorem Turns.congr (h : i.Turns m) (hrest : j.rest = i.rest) (hopened : j.opened = i.opened) :
    j.Turns m := by
  have hsees : ∀ w, j.sees w = i.sees w := fun w => by rw [sees, sees, hrest]
  have hfirst : j.first = i.first := by rw [first, first, hrest]
  have hended : j.lineEnded = i.lineEnded := by rw [Input.lineEnded, Input.lineEnded, hrest]
  exact
    { opened := hopened.trans h.opened
      lineEnded := hended.trans h.lineEnded
      indent := hfirst ▸ h.indent
      comments := hfirst ▸ h.comments
      assigners := fun w hw => (hsees w).trans (h.assigners w hw)
      clauses := by
        rw [hfirst]
        exact h.clauses.imp_right fun hno w hw => (hsees w).trans (hno w hw) }

theorem Leaves.congr (h : i.Leaves n) (hrest : j.rest = i.rest) (hopened : j.opened = i.opened) :
    j.Leaves n := by
  have hturns := h.turns.congr hrest hopened
  have hfirst : j.first = i.first := by rw [first, first, hrest]
  exact
    { opened := hturns.opened
      lineEnded := hturns.lineEnded
      indent := hfirst ▸ h.indent
      comments := hfirst ▸ h.comments
      assigners := hturns.assigners }

theorem rest_eq_of_settle (h : j.settle = i.settle) : j.rest = i.rest :=
  show j.settle.rest = i.settle.rest by rw [h]

theorem opened_eq_of_settle (h : j.settle = i.settle) : j.opened = i.opened :=
  show j.settle.opened = i.settle.opened by rw [h]

theorem margin_eq_of_settle (h : j.settle = i.settle) : j.margin = i.margin :=
  show j.settle.margin = i.settle.margin by rw [h]

theorem last_eq_of_settle (h : j.settle = i.settle) : j.last = i.last :=
  show j.settle.last = i.settle.last by rw [h]

theorem closesBlock_eq_of_settle (h : j.settle = i.settle) : j.closesBlock = i.closesBlock :=
  show j.settle.closesBlock = i.settle.closesBlock by rw [h]

theorem Turns.of_settle (hi : i.Turns m) (h : j.settle = i.settle) : j.Turns m :=
  hi.congr (rest_eq_of_settle h) (opened_eq_of_settle h)

theorem Leaves.of_settle (hi : i.Leaves n) (h : j.settle = i.settle) : j.Leaves n :=
  hi.congr (rest_eq_of_settle h) (opened_eq_of_settle h)

theorem Ends.congr (h : i.Ends) (hrest : j.rest = i.rest) : j.Ends := by
  rw [Ends, sees, first] at h ⊢
  rwa [hrest]

end Same

/-- What a statement is, no clause of it follows. -/
theorem Turns.seesClause (h : i.Turns m) (hm : i.margin = m) {w : String} (hw : w ∈ clauseWords) :
    i.seesClause w = false := by
  rw [Input.seesClause, hm]
  rcases h.clauses with hlt | hno
  · simp [hlt]
  · rw [hno w hw, Bool.false_and]

/-- The block that is left is closed. -/
theorem Leaves.closesBlock (h : i.Leaves i.margin) : i.closesBlock = true := by
  have hended := h.lineEnded
  have hindent := h.indent
  rw [Input.lineEnded] at hended
  rw [first] at hindent
  rw [Input.closesBlock]
  cases hrest : i.rest with
  | nil => rfl
  | cons t rest =>
    rw [hrest] at hended hindent
    rw [List.headD_cons] at hindent
    simp only [hended, Bool.true_and, Bool.or_eq_true, decide_eq_true_eq]
    exact .inr hindent

/-- No comment belongs to the block that is left. -/
theorem Leaves.closeBlock (h : i.Leaves i.margin) (line : Nat) : closeBlock i line = (line, i) := by
  have hcomments := h.comments
  rw [first] at hcomments
  rw [Code.closeBlock]
  cases hrest : i.rest with
  | nil => rfl
  | cons t rest =>
    rw [hrest, List.headD_cons] at hcomments
    have hnone : (t.gap.comments.takeWhile fun c => decide (i.margin ≤ c.indent)) = [] := by
      cases hcs : t.gap.comments with
      | nil => rfl
      | cons c cs =>
        have := hcomments c (hcs ▸ List.mem_cons_self)
        exact List.takeWhile_cons_of_neg (by rw [decide_eq_true_eq]; omega)
    have hdrop : t.dropComments 0 = t := by
      cases t
      rfl
    simp only [trailingComments, hnone, List.length_nil, List.getLast?_nil, Option.map_none,
      Option.getD_none, hdrop]
    rw [← hrest]

end Input

namespace Crosses

variable {i k : Input} {x : Lexeme} {xs : List Lexeme}

theorem nil (i : Input) : Crosses i [] i where
  tokens := ⟨[], ⟨0, 0, [], rfl⟩, rfl, by simp [Input.past]⟩
  fits := by simp

/-- A statement may start wherever lexemes are crossed. -/
theorem settled (h : Crosses i (x :: xs) k) (hi : i.simple = false) :
    Crosses i.settle (x :: xs) k := by
  obtain ⟨⟨ts, hts, hrest, hk⟩, hfits⟩ := h
  obtain ⟨t, us, rfl, -⟩ := id hts.cons
  refine ⟨⟨t :: us, hts, hrest, ?_⟩, hfits⟩
  rw [hk]
  simp [Input.past, Input.settle, hi]

/-- A statement is over before a lexeme that starts another one on a line of its own. -/
theorem turns (h : Crosses i (x :: xs) k) {m : Nat} (hopened : i.opened = [])
    (hnewline : x.lead.newline = true) (hindent : x.lead.indent = m)
    (hx : x.word ∉ Input.assigners ++ clauseWords) : i.Turns m := by
  have hshows := h.first
  rw [List.mem_append, not_or] at hx
  have hsees : ∀ w, x.word ≠ w → i.sees w = false := fun w hw => by
    rw [h.sees, Lexeme.tells, beq_false_of_ne hw, Bool.false_and]
  exact
    { opened := hopened
      lineEnded := h.lineEnded.trans hnewline
      indent := (hshows.indent_eq.trans hindent).le
      comments := fun c hc => ((hshows.indent_of_mem hc).1.trans hindent).le
      assigners := fun w hw => hsees w fun he => hx.1 (he ▸ hw)
      clauses := .inr fun w hw => hsees w fun he => hx.2 (he ▸ hw) }

/-- Before a lexeme on a line further to the left a block is over. -/
theorem leaves (h : Crosses i (x :: xs) k) {n : Nat} (hopened : i.opened = [])
    (hnewline : x.lead.newline = true) (hindent : x.lead.indent < n)
    (hx : x.word ∉ Input.assigners) : i.Leaves n where
  opened := hopened
  lineEnded := h.lineEnded.trans hnewline
  indent := h.first.indent_eq ▸ hindent
  comments c hc := ((h.first.indent_of_mem hc).1 ▸ hindent : c.indent < n)
  assigners w hw := by
    have hne : x.word ≠ w := fun he => hx (he ▸ hw)
    rw [h.sees, Lexeme.tells, beq_false_of_ne hne, Bool.false_and]

/-- A block goes on with a lexeme that stands at its margin. -/
theorem stays (h : Crosses i (x :: xs) k) (hx : x.Valid) (hindent : i.margin ≤ x.lead.indent) :
    i.closesBlock = false := by
  obtain ⟨t, rest, hrest, ht⟩ := h.head
  have hkind : (t.kind == .finish) = false := by
    have hbody := hx.body
    rw [ht.kind]
    cases hk : x.kind <;> first | rfl | (rw [hk] at hbody; exact hbody.elim)
  rw [Input.closesBlock, hrest]
  simp only [hkind, ht.indent_eq, Bool.false_or, Bool.and_eq_false_imp, decide_eq_false_iff_not]
  omega

end Crosses

/-! ### Statements -/

namespace Phrase

/-- The phrase is read as a statement of a block with the margin.  If `closing` holds, only before a
definition or the end of the text. -/
structure IsStatement (m : Nat) (closing : Bool) (p : Phrase) : Prop where
  printed : Printed (p.lexemes (.blanks 0))
  fits : ∀ x ∈ p.tail, x.lead.Fits m
  starts : (p.head (.blanks 0)).word ∉ Input.assigners ++ clauseWords
  reads : ∀ ⦃size fuel⦄, 12 * p.size ≤ size → 12 * p.size ≤ fuel → ∀ ⦃l i k⦄,
    Crosses (Input.settle i) (p.lexemes l) k → i.margin = m → k.Turns m →
    (closing = true → k.Ends) → ∃ ts j, statement size fuel i.settle = .ok (ts, j) ∧
      j.settle = k.settle ∧ ts.map Tree.outline = [p.tree]

/-- What any line may follow may stand before a definition. -/
theorem IsStatement.closes {m : Nat} {p : Phrase} (h : p.IsStatement m false) :
    p.IsStatement m true where
  printed := h.printed
  fits := h.fits
  starts := h.starts
  reads _ _ hsize hfuel _ _ _ hc hm hk _ := h.reads hsize hfuel hc hm hk fun h => Bool.noConfusion h

end Phrase

/-! ### Lines -/

/-- A statement with what stands before it. -/
structure Line where
  lead : Lead
  phrase : Phrase
  /-- Whether only a definition may follow. -/
  closing : Bool := false

def lines (rs : List Line) : List Lexeme := rs.flatMap fun r => r.phrase.lexemes r.lead

structure IsBlock (m : Nat) (rs : List Line) : Prop where
  statements : ∀ r ∈ rs, r.phrase.IsStatement m r.closing
  indent : ∀ r ∈ rs, r.lead.indent = m
  comment : ∀ r ∈ rs, ∀ n s, r.lead = .comment n s → IsRemark s.toList
  apart : ∀ r ∈ rs.tail, r.lead.newline = true
  ends : rs.IsChain fun r q => r.closing = true → q.phrase.kind = .name ∧ q.phrase.body = "def"

def blockOfLines (rs : List Line) : Tree :=
  .node .block .body 0 (heightOf (lines rs).tail) "" (rs.map (·.phrase.tree))

theorem lines_cons (r : Line) (rs : List Line) :
    lines (r :: rs) = r.phrase.lexemes r.lead ++ lines rs := List.flatMap_cons

theorem IsBlock.tail {m : Nat} {r : Line} {rs : List Line} (h : IsBlock m (r :: rs)) :
    IsBlock m rs where
  statements q hq := h.statements q (List.mem_cons_of_mem r hq)
  indent q hq := h.indent q (List.mem_cons_of_mem r hq)
  comment q hq := h.comment q (List.mem_cons_of_mem r hq)
  apart q hq := h.apart q (List.mem_of_mem_tail hq)
  ends := h.ends.tail

/-- Lines are printed apart from each other. -/
theorem IsBlock.printed {m : Nat} {rs : List Line} (h : IsBlock m rs) : Printed (lines rs) := by
  induction rs with
  | nil => exact joins_nil.printed
  | cons r rs ih =>
    rw [lines_cons]
    refine (Phrase.printed_after (h.statements r List.mem_cons_self).printed
      (h.comment r List.mem_cons_self)).append (ih h.tail) ?_
    intro x _ y hy
    cases rs with
    | nil => exact absurd hy (by simp [lines])
    | cons q qs =>
      rw [lines_cons, Phrase.lexemes] at hy
      obtain rfl : q.phrase.head q.lead = y := by simpa using hy
      refine Lexeme.fits_of_lead fun hlead => ?_
      have hnewline := h.apart q List.mem_cons_self
      rw [show q.lead = .blanks 0 from hlead] at hnewline
      exact Bool.noConfusion hnewline

/-- All lexemes of a block fit its margin. -/
theorem IsBlock.fits {m : Nat} {rs : List Line} (h : IsBlock m rs) :
    ∀ x ∈ lines rs, x.lead.Fits m := by
  intro x hx
  obtain ⟨r, hr, hx⟩ := List.mem_flatMap.mp hx
  rcases List.mem_cons.mp hx with rfl | hx
  · exact fun _ => (h.indent r hr).ge
  · exact (h.statements r hr).fits x hx

/-- Behind the first line of a block the next line starts, or the block is over. -/
theorem IsBlock.behind_first {m : Nat} {r : Line} {rs : List Line} (hrs : IsBlock m (r :: rs))
    {i k : Input} (hrest : Crosses i (lines rs) k) (hsimple : i.simple = false) (hk : k.Turns m)
    (hends : ∀ q ∈ (r :: rs).getLast?, q.closing = true → k.Ends) :
    (∃ k', Crosses i.settle (lines rs) k' ∧ k'.settle = k.settle) ∧ i.Turns m ∧
      (r.closing = true → i.Ends) := by
  cases rs with
  | nil =>
    obtain rfl := hrest.eq_of_nil
    exact ⟨⟨_, .nil _, rfl⟩, hk, hends r rfl⟩
  | cons q qs =>
    have hq := hrs.statements q (List.mem_cons_of_mem r List.mem_cons_self)
    have hopened : i.opened = [] := hrest.same.2.2.2.symm.trans hk.opened
    rw [lines_cons] at hrest
    refine ⟨⟨k, hrest.settled hsimple, rfl⟩, ?_, fun hclosing => ?_⟩
    · exact hrest.turns hopened (hrs.apart q List.mem_cons_self)
        (hrs.indent q (List.mem_cons_of_mem r List.mem_cons_self)) hq.starts
    · obtain ⟨hkind, hbody⟩ := (List.isChain_cons_cons.mp hrs.ends).1 hclosing
      refine .inl ((hrest.sees "def").trans ?_)
      simp [Phrase.head, Lexeme.tells, Lexeme.word, hkind, hbody]

/-- **The lines of a block are read one after the other.** -/
theorem statements_lines {m size : Nat} {rs : List Line} (hrs : IsBlock m rs)
    (hsize : 12 * (lines rs).length ≤ size) {fuel : Nat} (hfuel : 12 * (lines rs).length < fuel)
    {i k : Input} (hc : Crosses i.settle (lines rs) k) (hm : i.margin = m) (hk : k.Turns m)
    (hclose : k.closesBlock = true) (hends : ∀ r ∈ rs.getLast?, r.closing = true → k.Ends)
    (seen : List Tree) :
    ∃ ts j, statements size fuel seen i = .ok (seen.reverse ++ ts, j) ∧ j.settle = k.settle ∧
      ts.map Tree.outline = rs.map (·.phrase.tree) := by
  induction rs generalizing fuel i k seen with
  | nil =>
    obtain rfl := hc.eq_of_nil
    obtain ⟨fuel, rfl⟩ : ∃ n, fuel = n + 1 := ⟨fuel - 1, by omega⟩
    have hclosei : i.closesBlock = true := hclose
    exact ⟨[], i, by rw [statements, if_pos hclosei, List.append_nil], rfl, rfl⟩
  | cons r rs ih =>
    rw [lines_cons, List.length_append, Phrase.length_lexemes] at hsize hfuel
    rw [lines_cons] at hc
    have hpos := r.phrase.one_le_size
    obtain ⟨fuel, rfl⟩ : ∃ n, fuel = n + 1 := ⟨fuel - 1, by omega⟩
    have hr := hrs.statements r List.mem_cons_self
    obtain ⟨k₁, hk₁, hrest⟩ := hc.append
    have hvalid : (r.phrase.head r.lead).Valid :=
      (Phrase.printed_after hr.printed (hrs.comment r List.mem_cons_self)).valid _
        List.mem_cons_self
    have hopen : i.closesBlock = false :=
      (show Crosses i.settle (r.phrase.head r.lead :: r.phrase.tail) k₁ from hk₁).stays hvalid
        (hm.trans (hrs.indent r List.mem_cons_self).symm).le
    obtain ⟨⟨k', hrest', hk'⟩, hturns, hends'⟩ := hrs.behind_first hrest hk₁.same.2.1 hk hends
    obtain ⟨ts, j, hread, hj, hts⟩ := hr.reads (show 12 * r.phrase.size ≤ size by omega)
      (show 12 * r.phrase.size ≤ fuel by omega) hk₁ hm hturns hends'
    have hmargin : j.margin = m := (Input.margin_eq_of_settle hj).trans (hk₁.same.1.trans hm)
    rw [← hj] at hrest'
    obtain ⟨us, j', hread', hj', hus⟩ := ih hrs.tail (by omega)
      (show 12 * (lines rs).length < fuel by omega) hrest' hmargin (hk.of_settle hk')
      ((Input.closesBlock_eq_of_settle hk').trans hclose)
      (fun q hq hclosing =>
        (hends q (List.mem_getLast?_cons hq) hclosing).congr (Input.rest_eq_of_settle hk'))
      (ts.reverse ++ seen)
    refine ⟨ts ++ us, j', ?_, hj'.trans hk', ?_⟩
    · rw [statements, if_neg (by rw [hopen]; exact Bool.false_ne_true)]
      rw [Input.settle] at hread
      simp only [hread, hread', List.reverse_append, List.reverse_reverse, List.append_assoc]
    · rw [List.map_append, hts, hus]
      rfl

/-- A reading that gives something goes on with it. -/
@[simp] theorem Outcome.ok_bind {α β : Type} (a : α) (f : α → Outcome β) :
    (show Outcome α from .ok a) >>= f = f a := rfl

/-- What stands in a block on the lines after a colon. -/
theorem suite_lines {m n size : Nat} {r : Line} {rs : List Line} (hrs : IsBlock n (r :: rs))
    (hmn : m < n) (hnewline : r.lead.newline = true) (hsize : 12 * (lines (r :: rs)).length ≤ size)
    {fuel : Nat} (hfuel : 12 * (lines (r :: rs)).length + 1 < fuel) {i k : Input}
    (hc : Crosses i.settle (lines (r :: rs)) k) (hm : i.margin = m) (hk : k.Leaves n)
    (hends : ∀ q ∈ (r :: rs).getLast?, q.closing = true → k.Ends) :
    ∃ t j, suite size fuel i = .ok (t, j) ∧ j.settle = k.settle ∧
      t.outline = blockOfLines (r :: rs) := by
  obtain ⟨fuel, rfl⟩ : ∃ n, fuel = n + 1 := ⟨fuel - 1, by omega⟩
  have hhead : Crosses i.settle (r.phrase.head r.lead :: (r.phrase.tail ++ lines rs)) k := by
    rw [lines_cons] at hc
    exact hc
  have hended : i.lineEnded = true := hhead.lineEnded.trans hnewline
  have hindent : i.first.gap.indent = n :=
    hhead.first.indent_eq.trans (hrs.indent r List.mem_cons_self)
  have hkn : Input.Leaves n { k with margin := n } := hk.congr rfl rfl
  obtain ⟨ts, j, hread, hj, hts⟩ := statements_lines (i := { i with margin := n }) hrs hsize
    (show 12 * (lines (r :: rs)).length < fuel by omega) (hc.withMargin hrs.fits) rfl hkn.turns
    hkn.closesBlock (fun q hq hclosing => (hends q hq hclosing).congr rfl) []
  have hlast : j.last = k.last := (Input.last_eq_of_settle hj).trans rfl
  have hmargin : j.margin = n := Input.margin_eq_of_settle hj
  have hjleaves : j.Leaves j.margin := by
    rw [hmargin]
    exact hkn.of_settle hj
  refine ⟨blockOf ts i.first.line j.last.endLine, { j with margin := m }, ?_, ?_, ?_⟩
  · rw [suite, hended, hindent, hm]
    simp only [Bool.not_true, Bool.false_eq_true, if_false, if_pos hmn]
    rw [hread]
    simp only [List.reverse_nil, List.nil_append, Outcome.ok_bind, hjleaves.closeBlock]
  · have hkm : k.margin = m := hc.same.1.trans hm
    have hsame := congrArg (fun x : Input => { x with margin := m }) hj
    rw [← hkm] at hsame ⊢
    exact hsame
  · have hline : k.last.endLine = i.first.line + heightOf (r.phrase.tail ++ lines rs) :=
      hhead.endLine
    rw [blockOf, Tree.outline, if_pos rfl, Tree.outlines_eq_map, hts, hlast, hline,
      Nat.add_sub_cancel_left, blockOfLines, lines_cons]
    rfl

/-! ### Bodies -/

structure IsBody (m : Nat) (rs : List Line) : Prop where
  block : IsBlock (m + 4) rs
  ne_nil : rs ≠ []
  newline : ∀ r ∈ rs, r.lead.newline = true

/-- Whether only a definition may follow lines. -/
def closesLines (rs : List Line) : Bool := (rs.getLast?.map (·.closing)).getD false

def bodyLexemes (rs : List Line) : List Lexeme := mark ":" :: lines rs

/-- The body of a statement is read after its header. -/
theorem IsBody.suite {m size : Nat} {rs : List Line} (h : IsBody m rs)
    (hsize : 12 * (lines rs).length ≤ size) {fuel : Nat} (hfuel : 12 * (lines rs).length + 1 < fuel)
    {i j k : Input} (hc : Crosses j (lines rs) k) (hi : i.settle = j.settle)
    (hsimple : k.simple = false) (hm : k.margin = m) (hk : k.Leaves (m + 4))
    (hends : closesLines rs = true → k.Ends) :
    ∃ t i', Code.suite size fuel i = .ok (t, i') ∧ i'.settle = k.settle ∧
      t.outline = blockOfLines rs := by
  obtain ⟨r, rs, rfl⟩ := List.exists_cons_of_ne_nil h.ne_nil
  have hsettled : Crosses i.settle (lines (r :: rs)) k := by
    rw [hi]
    rw [lines_cons] at hc ⊢
    exact Crosses.settled hc (hc.same.2.1.symm.trans hsimple)
  have hmargin : i.margin = m :=
    (Input.margin_eq_of_settle hi).trans (hc.same.1.symm.trans hm)
  refine suite_lines h.block (by omega) (h.newline r List.mem_cons_self) hsize hfuel
    hsettled hmargin hk ?_
  intro q hq hclosing
  refine hends ?_
  rw [closesLines, hq]
  exact hclosing

theorem IsBody.one_le_length {m : Nat} {rs : List Line} (h : IsBody m rs) :
    1 ≤ (lines rs).length := by
  obtain ⟨r, rs, rfl⟩ := List.exists_cons_of_ne_nil h.ne_nil
  rw [lines_cons, List.length_append, Phrase.length_lexemes]
  have := r.phrase.one_le_size
  omega

theorem IsBody.printed {m : Nat} {rs : List Line} (h : IsBody m rs) : Printed (bodyLexemes rs) := by
  refine (printed_singleton (Lexeme.valid_mark rfl (by decide))).append h.block.printed ?_
  obtain ⟨r, rs, rfl⟩ := List.exists_cons_of_ne_nil h.ne_nil
  rintro _ - _ ⟨⟩
  refine Lexeme.fits_of_lead fun hlead => ?_
  have hnewline := h.newline r List.mem_cons_self
  rw [show r.lead = .blanks 0 from hlead] at hnewline
  exact Bool.noConfusion hnewline

theorem IsBody.fits {m : Nat} {rs : List Line} (h : IsBody m rs) :
    ∀ x ∈ bodyLexemes rs, x.lead.Fits m := by
  refine List.forall_mem_cons.mpr ⟨fun hno => Bool.noConfusion hno, fun x hx hnewline => ?_⟩
  have := h.block.fits x hx hnewline
  omega

end AgentFlow.Code

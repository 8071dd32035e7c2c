import AgentFlow.Proofs.Code.Compound

/-!
# Statements with clauses for exceptions

A `try` is read as its own body, and then clause by clause, each of which starts a line at the
margin of the statement.

* `clauses_except`, `clauses_excepts`: one clause of a statement is read, and then all of them in
  order.
* `isStatement_try`: **a statement with clauses for exceptions is read back as one node.**
-/

namespace AgentFlow.Code

variable {m : Nat} {rs : List Line} {i j k : Input} {l : Lead}

/-! ### Clauses -/

structure Clause where
  header : Phrase
  body : List Line

namespace Clause

variable (c : Clause)

def headerLexemes (l : Lead) : List Lexeme :=
  ⟨l, .name, "except"⟩ :: c.header.lexemes (.blanks 1) ++ [mark ":"]

def phrase : Phrase :=
  .headed "except" (c.header.lexemes (.blanks 1)) c.body
    (.node .exceptClause .plain 0 0 (spelling (c.headerLexemes (.blanks 0)))
      [c.header.tree, blockOfLines c.body])

theorem lexemes_phrase (l : Lead) : c.phrase.lexemes l = c.headerLexemes l ++ lines c.body := by
  simp [phrase, Phrase.headed, Phrase.lexemes, Phrase.head, headerLexemes, bodyLexemes]

structure Valid (m : Nat) : Prop where
  header : c.header.IsExpression
  flat : c.header.Flat
  body : IsBody m c.body
  stays : closesLines c.body = false

variable {c}

theorem Valid.printed (h : c.Valid m) : Printed (c.phrase.lexemes (.blanks 0)) :=
  Phrase.printed_headed (isIdentifier_word (by decide)) (h.header.joins_blank 0)
    (by rintro _ ⟨⟩; simp [Phrase.head]) h.body _

theorem Valid.fits (h : c.Valid m) : ∀ x ∈ c.phrase.tail, x.lead.Fits m :=
  Phrase.fits_headed ((Phrase.isFlat_lexemes ..).mpr ⟨rfl, h.flat⟩) h.body _

/-- The header of a clause is read up to its colon. -/
theorem Valid.header_eq (h : c.Valid m) (hc : Crosses i (c.headerLexemes l) j) {size : Nat}
    (hsize : 12 * c.header.size ≤ size) :
    ∃ t, exceptHeader size i = some ((false, [t]), j) ∧ t.outline = c.header.tree := by
  obtain ⟨i₁, hskip, -, hc₁⟩ := Crosses.skip hc (Phrase.tells_word l "except") rfl
  obtain ⟨i₂, hp, hcolon⟩ := Crosses.append hc₁
  obtain ⟨i₃, hskip₃, -, hend⟩ := Crosses.skip hcolon (w := ":") rfl rfl
  obtain rfl := hend.eq_of_nil
  have hsees : i₂.sees ":" = true := (Crosses.sees hcolon ":").trans rfl
  have hstray : ∀ w ∈ strayWords, i₁.sees w = false := fun w hw => h.header.toFormed.sees hp hw
  obtain ⟨t, ht, htout⟩ := h.header.reads (show 12 * c.header.size ≤ size + 3 by omega) true hp
    (Input.before_of_sees hsees (by decide))
  refine ⟨t, ?_, htout⟩
  rw [exceptHeader, hskip]
  simp [hstray "*" (by decide), hstray ":" (by decide), ht,
    Input.sees_eq_false hsees (show ":" ≠ "," by decide), hskip₃]

end Clause

def clauseLexemes (m : Nat) (cs : List Clause) : List Lexeme :=
  cs.flatMap fun c => c.phrase.lexemes (.breaks 0 m)

theorem clauseLexemes_cons (m : Nat) (c : Clause) (cs : List Clause) :
    clauseLexemes m (c :: cs) = c.phrase.lexemes (.breaks 0 m) ++ clauseLexemes m cs :=
  List.flatMap_cons

/-- Every clause starts a line. -/
theorem newline_clauses {cs : List Clause} :
    ∀ y ∈ (clauseLexemes m cs).head?, y.lead ≠ .blanks 0 := by
  cases cs with
  | nil => simp [clauseLexemes]
  | cons c cs =>
    rintro _ ⟨⟩
    exact Lead.noConfusion

theorem fits_clauses {cs : List Clause} (hcs : ∀ c ∈ cs, c.Valid m) :
    ∀ x ∈ clauseLexemes m cs, x.lead.Fits m := by
  intro x hx
  obtain ⟨c, hc, hx⟩ := List.mem_flatMap.mp hx
  rcases List.mem_cons.mp hx with rfl | hx
  · exact fun _ => le_rfl
  · exact (hcs c hc).fits x hx

theorem printed_clauses {cs : List Clause} (hcs : ∀ c ∈ cs, c.Valid m) :
    Printed (clauseLexemes m cs) := by
  induction cs with
  | nil => exact joins_nil.printed
  | cons c cs ih =>
    rw [List.forall_mem_cons] at hcs
    rw [clauseLexemes_cons]
    exact (Phrase.printed_after hcs.1.printed (by simp)).append (ih hcs.2) fun x _ y hy =>
      Lexeme.fits_of_lead (newline_clauses y hy)

/-- Before the clauses of a statement, a block inside it is over. -/
theorem leaves_clauses {cs : List Clause} (hc : Crosses i (clauseLexemes m cs) k) (hk : k.Turns m) :
    i.Leaves (m + 4) := by
  cases cs with
  | nil =>
    obtain rfl := hc.eq_of_nil
    exact hk.leaves (by omega)
  | cons c cs =>
    have hopened : i.opened = [] := hc.same.2.2.2.symm.trans hk.opened
    rw [clauseLexemes_cons] at hc
    have hcross : Crosses i
        (⟨.breaks 0 m, .name, "except"⟩ :: (c.phrase.tail ++ clauseLexemes m cs)) k := hc
    exact hcross.leaves hopened rfl (show m < m + 4 by omega)
      (by decide : "except" ∉ Input.assigners)

/-- What follows a block is crossed from the start of a statement. -/
theorem Crosses.fromStart {xs : List Lexeme} (h : Crosses i xs k) (hi : i.simple = false) :
    ∃ k', Crosses i.settle xs k' ∧ k'.settle = k.settle := by
  cases xs with
  | nil =>
    obtain rfl := h.eq_of_nil
    exact ⟨k.settle, .nil _, rfl⟩
  | cons x xs => exact ⟨k, h.settled hi, rfl⟩

/-- A clause at the margin is read, and the reading of clauses goes on behind it. -/
theorem clauses_except {c : Clause} (hc : c.Valid m) {size fuel : Nat}
    (hsize : 12 * (c.phrase.lexemes (.breaks 0 m)).length ≤ size)
    (hfuel : 12 * (c.phrase.lexemes (.breaks 0 m)).length ≤ fuel)
    (hcross : Crosses i.settle (c.phrase.lexemes (.breaks 0 m)) k) (hm : i.margin = m)
    (hleaves : k.Leaves (m + 4)) (seen : List Tree) :
    ∃ t j, clauses size (fuel + 1) ["except"] seen i =
        clauses size fuel ["except"] (t :: seen) j ∧
      j.settle = k.settle ∧ t.outline = c.phrase.tree := by
  have hlength : (c.headerLexemes (.breaks 0 m)).length = c.header.size + 2 := by
    simp [Clause.headerLexemes]
  rw [c.lexemes_phrase, List.length_append, hlength] at hsize hfuel
  rw [c.lexemes_phrase] at hcross
  obtain ⟨i₁, hhead, hbody⟩ := hcross.append
  have hseen : i.seesClause "except" = true := by
    have hsees : i.sees "except" = true := (Crosses.sees hhead "except").trans rfl
    have hindent : i.first.gap.indent = m := (Crosses.first hhead).indent_eq
    rw [Input.seesClause, hsees, hindent, hm]
    simp
  obtain ⟨t, ht, htout⟩ := hc.header_eq hhead (show 12 * c.header.size ≤ size by omega)
  obtain ⟨b, j, hsuite, hj, hb⟩ := hc.body.suite (show 12 * (lines c.body).length ≤ size by omega)
    (show 12 * (lines c.body).length + 1 < fuel by omega) hbody rfl hcross.same.2.1
    (hcross.same.1.trans hm) hleaves (fun h => Bool.noConfusion (hc.stays.symm.trans h))
  have htext : textUpTo i.settle.first i₁.last.stop = spelling (c.headerLexemes (.blanks 0)) :=
    (show Crosses i.settle (⟨.breaks 0 m, .name, "except"⟩ ::
      (c.header.lexemes (.blanks 1) ++ [mark ":"])) i₁ from hhead).text
  refine ⟨.node .exceptClause .plain i.settle.first.line j.last.endLine
    (spelling (c.headerLexemes (.blanks 0))) [t, b], j, ?_, hj, ?_⟩
  · rw [clauses, show ["except"].find? i.seesClause = some "except" from
      List.find?_cons_of_pos hseen]
    simp only [show (({ i with simple := false, fresh := true } : Input)) = i.settle from rfl,
      String.reduceBEq, Bool.false_eq_true, if_false, if_true, ht, orFault, faultOn,
      Outcome.ok_bind, hsuite, htext]
    rfl
  · rw [Tree.outline_node (by decide), List.map_cons, List.map_singleton, htout, hb]
    rfl

/-- The clauses of a statement are read in order. -/
theorem clauses_excepts {cs : List Clause} (hcs : ∀ c ∈ cs, c.Valid m) {size fuel : Nat}
    (hsize : 12 * (clauseLexemes m cs).length ≤ size)
    (hfuel : 12 * (clauseLexemes m cs).length < fuel)
    (hc : Crosses i.settle (clauseLexemes m cs) k) (hm : i.margin = m) (hk : k.Turns m)
    (seen : List Tree) :
    ∃ ts j, clauses size fuel ["except"] seen i = .ok (seen.reverse ++ ts, j) ∧
      j.settle = k.settle ∧ ts.map Tree.outline = cs.map (·.phrase.tree) := by
  induction cs generalizing fuel i k seen with
  | nil =>
    obtain rfl := hc.eq_of_nil
    obtain ⟨fuel, rfl⟩ : ∃ n, fuel = n + 1 := ⟨fuel - 1, by omega⟩
    refine ⟨[], i, ?_, rfl, rfl⟩
    rw [Phrase.clauses_eq_nil rfl hm (hk.congr rfl rfl) (by decide), List.append_nil]
  | cons c cs ih =>
    rw [List.forall_mem_cons] at hcs
    rw [clauseLexemes_cons, List.length_append] at hsize hfuel
    have hpos : 1 ≤ (c.phrase.lexemes (.breaks 0 m)).length := by
      rw [Phrase.length_lexemes]
      exact c.phrase.one_le_size
    obtain ⟨fuel, rfl⟩ : ∃ n, fuel = n + 1 := ⟨fuel - 1, by omega⟩
    rw [clauseLexemes_cons] at hc
    obtain ⟨k₁, hclause, hrest⟩ := hc.append
    obtain ⟨t, j, hread, hj, ht⟩ := clauses_except hcs.1
      (show 12 * (c.phrase.lexemes (.breaks 0 m)).length ≤ size by omega)
      (show 12 * (c.phrase.lexemes (.breaks 0 m)).length ≤ fuel by omega) hclause hm
      (leaves_clauses hrest hk) seen
    obtain ⟨k', hrest', hk'⟩ := hrest.fromStart hclause.same.2.1
    rw [← hj] at hrest'
    have hmargin : j.margin = m := (Input.margin_eq_of_settle hj).trans (hclause.same.1.trans hm)
    obtain ⟨ts, j', hmore, hj', hts⟩ := ih hcs.2 (by omega)
      (show 12 * (clauseLexemes m cs).length < fuel by omega) hrest' hmargin (hk.of_settle hk')
      (t :: seen)
    refine ⟨t :: ts, j', ?_, hj'.trans hk', by rw [List.map_cons, List.map_cons, ht, hts]⟩
    rw [hread, hmore, List.reverse_cons, List.append_assoc]
    rfl

/-! ### Statements -/

namespace Phrase

/-- Statements with clauses for the exceptions that they raise, in a block with the margin. -/
def tryStatement (m : Nat) (rs : List Line) (cs : List Clause) : Phrase :=
  ⟨.name, "try", bodyLexemes rs ++ clauseLexemes m cs,
    .node .tryStatement .plain 0 0 "" (blockOfLines rs :: cs.map (·.phrase.tree))⟩

theorem isStatement_try {cs : List Clause} (hrs : IsBody m rs) (hstays : closesLines rs = false)
    (hcs : ∀ c ∈ cs, c.Valid m) : (tryStatement m rs cs).IsStatement m false where
  printed := by
    have hbody : Printed (bodyLexemes rs ++ clauseLexemes m cs) :=
      hrs.printed.append (printed_clauses hcs) fun x _ y hy =>
        Lexeme.fits_of_lead (newline_clauses y hy)
    exact (printed_singleton (Lexeme.valid_name rfl
      (isIdentifier_word (show "try" ∈ "async" :: "await" :: reservedWords by decide)))).append
        hbody
      (by rintro _ ⟨⟩ _ ⟨⟩; rfl)
  fits := List.forall_mem_append.mpr ⟨hrs.fits, fits_clauses hcs⟩
  starts := starts_blocks "try" (by decide)
  reads size fuel hsize hfuel l i k hc hm hk _ := by
    have hlength : (tryStatement m rs cs).size =
        (lines rs).length + (clauseLexemes m cs).length + 2 := by
      simp only [tryStatement, Phrase.size, bodyLexemes, List.length_append, List.length_cons]
      omega
    rw [hlength] at hsize hfuel
    obtain ⟨fuel, rfl⟩ : ∃ n, fuel = n + 1 + 1 := ⟨fuel - 2, by omega⟩
    have hsees : ∀ w, i.settle.sees w = ("try" == w) := sees_word hc
    obtain ⟨i₁, hskip, -, hc₁⟩ := Crosses.skip hc (tells_word l "try") rfl
    obtain ⟨k₁, hcolon, hrest⟩ := Crosses.append hc₁
    obtain ⟨i₂, hskip₂, hbody⟩ := colon_body hcolon
    have hsimple : k₁.simple = false := hcolon.same.2.1.trans (hc₁.same.2.1.symm.trans hc.same.2.1)
    have hm₁ : k₁.margin = m := hcolon.same.1.trans (hc₁.same.1.symm.trans (hc.same.1.trans hm))
    obtain ⟨b, j, hsuite, hj, hb⟩ := hrs.suite (show 12 * (lines rs).length ≤ size by omega)
      (show 12 * (lines rs).length + 1 < fuel + 1 by omega) hbody rfl hsimple hm₁
      (leaves_clauses hrest hk) (fun h => Bool.noConfusion (hstays.symm.trans h))
    obtain ⟨k', hrest', hk'⟩ := hrest.fromStart hsimple
    rw [← hj] at hrest'
    have hmargin : j.margin = m := (Input.margin_eq_of_settle hj).trans hm₁
    have hturns : k'.Turns m := hk.of_settle hk'
    obtain ⟨ts, j', hread, hj', hts⟩ := clauses_excepts hcs
      (show 12 * (clauseLexemes m cs).length ≤ size by omega)
      (show 12 * (clauseLexemes m cs).length < fuel + 1 by omega) hrest' hmargin hturns []
    have hclauses : ∀ ws, (∀ w ∈ ws, w ∈ clauseWords) →
        clauses size (fuel + 1) ws [] j' = .ok ([], j') := fun ws hws =>
      clauses_eq_nil hj' (hrest'.same.1.trans hmargin) hturns hws size fuel []
    refine ⟨[j'.node .tryStatement i.settle.first (b :: ts)], j', ?_, hj'.trans hk', ?_⟩
    · rw [statement]
      simp only [hsees, String.reduceBEq, Bool.false_and, Bool.or_self,
        Bool.false_eq_true, if_false,
        if_true, hskip, hskip₂, Option.bind_some, Option.map_some, orFault, faultOn,
          Outcome.ok_bind,
        hsuite, hread, hclauses ["else"] (by decide), hclauses ["finally"] (by decide),
        List.append_nil, List.reverse_nil, List.nil_append]
    · rw [List.map_singleton, Input.outline_node _ (by decide), List.map_cons, hb, hts]
      rfl

end Phrase

end AgentFlow.Code

import AgentFlow.Proofs.Code.Blocks

/-!
# Statements without blocks

Phrases that are statements on their own: expressions, assignments, imports and those that start
with a word of the language.

* `Phrase.IsSimple p`: the phrase `p` is read as a statement without blocks.
* `Phrase.IsSimple.isStatement`: **such a phrase is read as a line of a block.**
-/

namespace AgentFlow.Code

def blockWords : List String := ["def", "class", "async", "@", "if", "while", "for", "with", "try"]

/-- A statement without blocks is over. -/
structure Input.Over (i : Input) : Prop where
  ended : i.ended = true
  assigners : ∀ w ∈ assigners, i.sees w = false

namespace Input.Over

variable {i : Input} (h : i.Over)

include h

theorem before (ws : List String) : i.Before ws := .inl ⟨h.ended, h.assigners⟩

theorem goesOn (w : String) : i.goesOn w = false := by
  rw [Input.goesOn, h.ended]
  rfl

theorem closesStatement : i.closesStatement = true := by
  have hended := h.ended
  rw [Input.ended, Bool.and_eq_true] at hended
  rw [Input.closesStatement, hended.2, Bool.true_or]

theorem startsExpression : i.startsExpression = false := by
  rw [Input.startsExpression]
  split
  · rw [h.ended]
    rfl
  · rfl

end Input.Over

/-- One statement on a line. -/
theorem simpleLine_eq {fuel : Nat} {i j : Input} {t : Tree}
    (h : simpleStatement fuel { i with simple := true, fresh := true } = some (t, j))
    (hj : j.lineEnded = true) (count : Nat) : simpleLine fuel (count + 1) [] i = .ok ([t], j) := by
  rw [simpleLine, h]
  simp only [hj, if_true, List.reverse_singleton]

namespace Phrase

variable {p q : Phrase} {s : String} {m : Nat} {l : Lead} {i j k : Input}

structure IsSimple (p : Phrase) : Prop where
  printed : Printed (p.lexemes (.blanks 0))
  starts : (p.head (.blanks 0)).word ∉ Input.assigners ++ clauseWords ++ blockWords
  reads : ∀ ⦃fuel⦄, 12 * p.size ≤ fuel → ∀ ⦃l i j⦄, Crosses i (p.lexemes l) j → j.Over →
    ∃ t, simpleStatement fuel i = some (t, j) ∧ t.outline = p.tree

/-- A statement without blocks takes up its line. -/
theorem IsSimple.line (h : p.IsSimple) {size : Nat} (hsize : 12 * p.size ≤ size)
    (hc : Crosses (Input.settle i) (p.lexemes l) k) (hk : k.Turns m) :
    ∃ t j, simpleLine size size [] i.settle = .ok ([t], j) ∧ j.settle = k.settle ∧
      t.outline = p.tree := by
  have hpos := p.one_le_size
  obtain ⟨n, hn⟩ : ∃ n, size = n + 1 := ⟨size - 1, by omega⟩
  have hover : Input.Over { k with simple := true, fresh := false } :=
    { ended := by
        rw [Input.ended]
        simp only [hk.opened, List.isEmpty_nil, Bool.and_self, Bool.true_and]
        exact hk.lineEnded
      assigners := hk.assigners }
  obtain ⟨t, hread, ht⟩ := h.reads hsize (Crosses.simply hc) hover
  refine ⟨t, { k with simple := true, fresh := false }, ?_, rfl, ht⟩
  have hline := simpleLine_eq hread hk.lineEnded n
  rwa [← hn] at hline

/-- A statement that starts with no word of the language is a line of statements without blocks. -/
theorem statement_eq (hstarts : (p.head (.blanks 0)).word ∉ blockWords)
    (hc : Crosses (Input.settle i) (p.lexemes l) k) (size fuel : Nat)
    (hmatch : i.sees "match" = true → wordHeader size "match" true i.settle = none) :
    statement size (fuel + 1) i.settle = simpleLine size size [] i.settle := by
  have hsees : ∀ w ∈ blockWords, i.settle.sees w = false := fun w hw => by
    rw [lexemes] at hc
    rw [hc.sees, Lexeme.tells, Bool.and_eq_false_imp]
    intro he
    exact absurd ((beq_iff_eq.mp he : (p.head l).word = w) ▸ hw) hstarts
  have hmatched : (if i.settle.sees "match" then wordHeader size "match" true i.settle else none) =
      none := by
    split
    · next h => exact hmatch h
    · rfl
  rw [statement]
  simp only [hsees "def" (by decide), hsees "class" (by decide), hsees "async" (by decide),
    hsees "@" (by decide), hsees "if" (by decide), hsees "while" (by decide),
    hsees "for" (by decide), hsees "with" (by decide), hsees "try" (by decide), Bool.false_and,
    Bool.or_self, Bool.false_eq_true, if_false, hmatched]

/-- **A statement without blocks is a line of a block.** -/
theorem IsSimple.isStatement (h : p.IsSimple) (hmatch : (p.head (.blanks 0)).word ≠ "match")
    (hfits : ∀ x ∈ p.tail, x.lead.Fits m) : p.IsStatement m false where
  printed := h.printed
  fits := hfits
  starts hmem := h.starts (List.mem_append_left _ hmem)
  reads size fuel hsize hfuel l i k hc _ hk _ := by
    obtain ⟨fuel, rfl⟩ : ∃ n, fuel = n + 1 := ⟨fuel - 1, by have := p.one_le_size; omega⟩
    obtain ⟨t, j, hread, hj, ht⟩ := h.line hsize hc hk
    have hsees : i.settle.sees "match" = false := by
      rw [lexemes] at hc
      have hword : ((p.head l).word == "match") = false := beq_false_of_ne hmatch
      rw [hc.sees, Lexeme.tells, hword, Bool.false_and]
    refine ⟨[t], j, ?_, hj, by rw [List.map_singleton, ht]⟩
    rw [statement_eq (fun hmem => h.starts (List.mem_append_right _ hmem)) hc size fuel
      fun hm => Bool.noConfusion (hsees.symm.trans hm), hread]

/-! ### Expressions and assignments -/

/-- A word that is no bracket is plain. -/
theorem isPlain_of_tells {x : Lexeme} {w : String} (h : x.tells w = true)
    (hw : w ∉ ["(", "[", "\x7b", ")", "]", "\x7d"]) : x.isPlain = true := by
  rw [Lexeme.tells, Lexeme.word] at h
  rw [Lexeme.isPlain]
  cases hk : x.kind <;> simp_all

/-- What `type` starts is a statement of its own only before a name. -/
theorem typeAlias_eq_none (hc : Crosses i (p.lexemes l) j) (hj : j.Over)
    (htype : i.sees "type" = true)
    (hmark : ∀ x ∈ p.tail.head?, x.kind = .mark) (fuel : Nat) : typeAlias fuel i = none := by
  rw [lexemes] at hc
  have htells : (p.head l).tells "type" = true := (hc.sees "type").symm.trans htype
  obtain ⟨k, hskip, -, hrest⟩ := hc.skip htells (isPlain_of_tells htells (by decide))
  have hnone : (k.ended || !k.seesName) = true := by
    cases htail : p.tail with
    | nil =>
      rw [htail] at hrest
      rw [← hrest.eq_of_nil, hj.ended, Bool.true_or]
    | cons x xs =>
      rw [htail] at hrest
      obtain ⟨t, rest, hk, ht⟩ := hrest.head
      have hkind : t.kind = .mark := ht.kind.trans (hmark x (by rw [htail]; rfl))
      simp [Input.seesName, hk, Token.isName, hkind]
  rw [typeAlias, hskip]
  simp only [Option.bind_eq_bind, Option.bind_some, hnone, if_true]

/-- A statement that is an expression or an assignment. -/
theorem simpleStatement_eq (h : p.Formed) (hc : Crosses i (p.lexemes l) j) (hj : j.Over)
    (htype : (p.head (.blanks 0)).word = "type" → ∀ x ∈ p.tail.head?, x.kind = .mark) {fuel : Nat}
    {t : Tree} (hread : assignable fuel i = some (t, j)) :
    simpleStatement fuel i = some (t, j) := by
  have hsees : ∀ w ∈ strayWords, i.sees w = false := fun w hw => h.sees hc hw
  have halias : (if i.sees "type" then
      (Option.filter (fun x => x.2.closesStatement) (typeAlias fuel i)).or (some (t, j))
      else some (t, j)) = some (t, j) := by
    split
    · next hword =>
      have hhead : (p.head (.blanks 0)).word = "type" := by
        rw [lexemes] at hc
        rw [hc.sees, Lexeme.tells, Bool.and_eq_true, beq_iff_eq] at hword
        exact hword.1
      rw [typeAlias_eq_none hc hj hword (htype hhead)]
      rfl
    · rfl
  rw [simpleStatement]
  simp only [hsees "import" (by decide), hsees "from" (by decide), hsees "assert" (by decide),
    hsees "return" (by decide), hsees "del" (by decide), hsees "raise" (by decide),
    hsees "pass" (by decide), hsees "break" (by decide), hsees "continue" (by decide),
    hsees "global" (by decide), hsees "nonlocal" (by decide), Bool.or_self, Bool.false_eq_true,
    if_false, hread, Option.filter_some, hj.closesStatement, if_true, Option.some_or, ite_self,
    halias]

/-- An expression is a statement. -/
theorem IsExpression.assignable (h : p.IsExpression) (hc : Crosses i (p.lexemes l) j) (hj : j.Over)
    {fuel : Nat} (hfuel : 12 * p.size ≤ fuel + 1) :
    ∃ t, assignable fuel i = some (t, j) ∧ t.outline = p.tree := by
  have hpos := p.one_le_size
  obtain ⟨fuel, rfl⟩ : ∃ n, fuel = n + 1 := ⟨fuel - 1, by omega⟩
  obtain ⟨t, hread, ht⟩ := h.expressions (show 12 * p.size ≤ fuel + 2 by omega) hc (hj.before _)
  refine ⟨t, ?_, ht⟩
  rw [Code.assignable]
  simp only [h.sees hc (show "yield" ∈ strayWords by decide), hread, hj.goesOn, hj.ended,
    Bool.false_eq_true, Bool.not_true, Bool.false_and, Bool.or_self, if_false, Option.bind_eq_bind,
    Option.bind_some]

theorem IsExpression.isSimple (h : p.IsExpression)
    (hstarts : (p.head (.blanks 0)).word ∉ blockWords)
    (htype : (p.head (.blanks 0)).word = "type" → ∀ x ∈ p.tail.head?, x.kind = .mark) :
    p.IsSimple where
  printed := h.printed
  starts := by
    have hall : ∀ w ∈ Input.assigners ++ clauseWords, w ∈ strayWords := by decide
    rw [List.mem_append, not_or]
    exact ⟨fun hmem => h.opens (hall _ hmem), hstarts⟩
  reads fuel hfuel l i j hc hj := by
    obtain ⟨t, hread, ht⟩ := h.assignable hc hj (show 12 * p.size ≤ fuel + 1 by omega)
    exact ⟨t, simpleStatement_eq h.toFormed hc hj htype hread, ht⟩

/-- A call of a method of a new object is a statement, also if the class has the name `match`.  That
word starts a choice between patterns if a colon follows, and so it matters what does. -/
theorem isStatement_called {f : String} (hs : IsName s) (hf : IsName f) {ps : List Phrase}
    (hps : ∀ q ∈ ps, q.IsExpression) (hflat : ∀ q ∈ ps, q.Flat) :
    ((((name s).call []).attr f).call ps).IsStatement m true := by
  have hargs : ∀ q ∈ ps, q.IsArgument := fun q hq => (hps q hq).isArgument
  have hsimple : ((((name s).call []).attr f).call ps).IsSimple :=
    ((((isPrimary_name hs).call (by simp)).attr hf 0 0).call hargs).isExpression.isSimple
      (hs.not_mem (by decide +kernel)) (fun _ => by rintro _ ⟨⟩; rfl)
  have hfits : ∀ x ∈ ((((name s).call []).attr f).call ps).tail, x.lead.Fits m :=
    IsFlat.fits (show Flat _ by simpa using hflat) m
  by_cases hmatch : s = "match"
  · subst hmatch
    have hrest : (((tuple []).attr f).call ps).IsExpression :=
      (((isPrimary_collection (.inl rfl) (by simp)).attr hf 0 0).call hargs).isExpression
    refine ⟨hsimple.printed, hfits, fun hmem => hsimple.starts (List.mem_append_left _ hmem), ?_⟩
    intro size fuel hsize hfuel l i k hc hm hk hends
    obtain ⟨fuel, rfl⟩ : ∃ n, fuel = n + 1 := ⟨fuel - 1, by
      have := ((((name "match").call []).attr f).call ps).one_le_size; omega⟩
    obtain ⟨t, j, hread, hj, ht⟩ := hsimple.line hsize hc hk
    have hcross : Crosses i.settle
        (⟨l, .name, "match"⟩ :: (((tuple []).attr f).call ps).lexemes (.blanks 0)) k := hc
    have hlength : ((((name "match").call []).attr f).call ps).size =
        (((tuple []).attr f).call ps).size + 1 := rfl
    obtain ⟨i₁, hskip, -, hc₁⟩ := hcross.skip (w := "match") rfl rfl
    have hbefore : k.Before listClosers :=
      (hends rfl).elim (fun h => Input.before_of_sees h (by decide)) (fun h => .inr (.inr h))
    have hcolon : k.sees ":" = false :=
      (hends rfl).elim (Input.sees_eq_false · (by decide)) (Input.sees_of_finish · _)
    obtain ⟨u, hu, -⟩ := hrest.expressions
      (show 12 * (((tuple []).attr f).call ps).size ≤ size + 2 by omega) hc₁ hbefore
    have hnone : wordHeader size "match" true i.settle = none := by
      rw [wordHeader, hskip]
      simp [hu, Input.skip?, hcolon]
    refine ⟨[t], j, ?_, hj, by rw [List.map_singleton, ht]⟩
    rw [statement_eq (fun hmem => hsimple.starts (List.mem_append_right _ hmem)) hc size fuel
      fun _ => hnone, hread]
  · exact (hsimple.isStatement hmatch hfits).closes

def assign (p v : Phrase) : Phrase :=
  p.grow (⟨.blanks 1, .mark, "="⟩ :: v.lexemes (.blanks 1))
    (.node .assignment .plain 0 0 "" [p.tree.as .left, v.tree])

@[simp] theorem flat_assign {v : Phrase} : (p.assign v).Flat ↔ p.Flat ∧ v.Flat := by
  simp [assign, Lead.newline]

@[simp] theorem chars_assign (v : Phrase) :
    (p.assign v).chars = p.chars ++ " = ".toList ++ v.chars := by
  simp [assign, charsOf_cons, Lexeme.chars, Lead.chars]

theorem joins_equals {v : Phrase} (h : v.Formed) :
    Joins (⟨.blanks 1, .mark, "="⟩ :: v.lexemes (.blanks 1)) :=
  h.joins (Lexeme.valid_mark rfl (by decide)) (fun _ _ => rfl) rfl rfl

theorem IsExpression.assign (h : p.IsExpression) (htarget : isTarget p.tree = true)
    (hstarts : (p.head (.blanks 0)).word ∉ blockWords)
    (htype : (p.head (.blanks 0)).word ≠ "type") {v : Phrase} (hv : v.IsExpression) :
    (p.assign v).IsSimple where
  printed := (h.toFormed.grow (List.cons_ne_nil _ _) (joins_equals hv.toFormed) _).printed
  starts := by
    have hall : ∀ w ∈ Input.assigners ++ clauseWords, w ∈ strayWords := by decide
    rw [List.mem_append, not_or]
    exact ⟨fun hmem => h.opens (hall _ hmem), hstarts⟩
  reads fuel hfuel l i j hc hj := by
    have hsize : (p.assign v).size = p.size + (v.size + 1) := size_grow ..
    have hpos := p.one_le_size
    have hformed : (p.assign v).Formed :=
      h.toFormed.grow (List.cons_ne_nil _ _) (joins_equals hv.toFormed) _
    obtain ⟨fuel, rfl⟩ : ∃ n, fuel = n + 1 := ⟨fuel - 1, by omega⟩
    obtain ⟨k, hk, hrest⟩ := cross_grow hc
    have hgoes : k.goesOn "=" = true := hrest.goesOn rfl "="
    obtain ⟨t, hread, ht⟩ := h.expressions (show 12 * p.size ≤ fuel + 2 by omega) hk
      (Input.before_of_sees ((hrest.sees "=").trans rfl) (by decide))
    have htree : isTarget t = true := by rw [← isTarget_outline, ht, htarget]
    obtain ⟨u, k', htake, -, -, hk'⟩ := hrest.take rfl
    obtain ⟨v', hv', hvout⟩ := hv.assignable hk' hj (show 12 * v.size ≤ fuel + 1 by omega)
    refine ⟨j.node .assignment i.first [t.as .left, v'], ?_, ?_⟩
    · refine simpleStatement_eq hformed hc hj (fun he => absurd he htype) ?_
      rw [Code.assignable]
      simp only [h.sees hk (show "yield" ∈ strayWords by decide), hread, hgoes, htree, htake, hv',
        Bool.false_eq_true, if_false, Bool.true_or, if_true, Bool.not_true, Option.bind_eq_bind,
        Option.bind_some]
    · rw [Input.outline_node _ (by decide), List.map_cons, List.map_singleton, Tree.outline_as, ht,
        hvout]
      rfl

/-- An expression is a type. -/
theorem IsExpression.asType (h : p.IsExpression) (hc : Crosses i (p.lexemes l) j)
    (hj : j.Before closers) {fuel : Nat} (hfuel : 12 * p.size ≤ fuel + 2) :
    ∃ t, typeAnnotation fuel i = some (t, j) ∧ t.outline = group [p.tree] := by
  have hpos := p.one_le_size
  obtain ⟨fuel, rfl⟩ : ∃ n, fuel = n + 1 := ⟨fuel - 1, by omega⟩
  obtain ⟨t, hread, ht⟩ := @h.reads fuel (by omega) true l i j hc hj
  refine ⟨j.node .group i.first [t], ?_, ?_⟩
  · rw [ Code.typeAnnotation]
    simp only [h.sees hc (show "**" ∈ strayWords by decide), hread, Bool.false_eq_true, if_false,
      Option.bind_eq_bind, Option.bind_some]
  · rw [Input.outline_node _ (by decide), List.map_singleton, ht]
    rfl

/-- A variable with its type that gets a value. -/
def annotate (s : String) (p v : Phrase) : Phrase :=
  (name s).grow (mark ":" :: p.lexemes (.blanks 1) ++ ⟨.blanks 1, .mark, "="⟩ ::
    v.lexemes (.blanks 1))
    (.node .assignment .plain 0 0 "" [(identifier s).as .left, group [p.tree], v.tree])

@[simp] theorem flat_annotate {v : Phrase} : (annotate s p v).Flat ↔ p.Flat ∧ v.Flat := by
  simp [annotate, Lead.newline]

@[simp] theorem chars_annotate (v : Phrase) : (annotate s p v).chars =
    s.toList ++ ": ".toList ++ p.chars ++ " = ".toList ++ v.chars := by
  simp [annotate, charsOf_append, charsOf_cons, Lexeme.chars, Lead.chars]

theorem formed_annotate (hs : IsName s) (h : p.Formed) {v : Phrase} (hv : v.Formed) :
    (annotate s p v).Formed :=
  (isPrimary_name hs).toFormed.grow (List.cons_ne_nil _ _)
    ((h.joins (Lexeme.valid_mark rfl (by decide))
      (fun _ hx => Lexeme.fits_mark hx (by decide) _) rfl
      rfl).append (joins_equals hv)) _

theorem IsExpression.annotate (hs : IsName s) (h : p.IsExpression) {v : Phrase}
    (hv : v.IsExpression) : (annotate s p v).IsSimple where
  printed := (formed_annotate hs h.toFormed hv.toFormed).printed
  starts := hs.not_mem (by decide +kernel)
  reads fuel hfuel l i j hc hj := by
    have hsize : (Phrase.annotate s p v).size = p.size + v.size + 3 := by
      rw [Phrase.annotate, size_grow, List.cons_append, List.length_cons, List.length_append,
        List.length_cons, length_lexemes, length_lexemes]
      simp only [name, size, List.length_nil]
      omega
    have hname := isPrimary_name hs
    have hone : (name s).size = 1 := rfl
    obtain ⟨fuel, rfl⟩ : ∃ n, fuel = n + 1 := ⟨fuel - 1, by omega⟩
    obtain ⟨k, hk, hrest⟩ := cross_grow hc
    have hcolon : k.sees ":" = true := (Crosses.sees hrest ":").trans rfl
    have hno : ∀ w, ":" ≠ w → k.sees w = false := fun w hw => Input.sees_eq_false hcolon hw
    have hgoes : k.goesOn ":" = true := Crosses.goesOn hrest rfl ":"
    have haugmented : augmentedMarks.any k.sees = false := by
      have hall : ∀ w ∈ augmentedMarks, ":" ≠ w := by decide
      rw [List.any_eq_false]
      intro w hw
      rw [hno w (hall w hw)]
      exact Bool.false_ne_true
    have hequals : k.goesOn "=" = false := by
      rw [Input.goesOn, hno "=" (by decide), Bool.and_false]
    obtain ⟨t, hread, ht⟩ := hname.isExpression.expressions
      (show 12 * (name s).size ≤ fuel + 2 by omega) hk (Input.before_of_sees hcolon (by decide))
    have htree : isTarget t = true := by
      rw [← isTarget_outline, ht]
      rfl
    obtain ⟨k₁, hskip, -, hk₁⟩ := Crosses.skip hrest (w := ":") rfl rfl
    obtain ⟨k₂, hk₂, hrest₂⟩ := Crosses.append hk₁
    have hgoes₂ : k₂.goesOn "=" = true := Crosses.goesOn hrest₂ rfl "="
    obtain ⟨u, hu, huout⟩ := h.asType hk₂
      (Input.before_of_sees ((Crosses.sees hrest₂ "=").trans rfl) (by decide))
      (show 12 * p.size ≤ fuel + 2 by omega)
    obtain ⟨k₃, hskip₃, -, hk₃⟩ := Crosses.skip hrest₂ (w := "=") rfl rfl
    obtain ⟨v', hv', hvout⟩ := hv.assignable hk₃ hj (show 12 * v.size ≤ fuel + 1 by omega)
    refine ⟨j.node .assignment i.first [t.as .left, u, v'], ?_, ?_⟩
    · refine simpleStatement_eq (formed_annotate hs h.toFormed hv.toFormed) hc hj
        (fun _ => by rintro _ ⟨⟩; rfl) ?_
      rw [Code.assignable]
      simp only [hname.sees hk (show "yield" ∈ strayWords by decide), hread, hgoes, hequals,
        haugmented, htree, hskip, hu, hgoes₂, hskip₃, hv', Bool.and_false, Bool.or_self,
        Bool.false_eq_true, Bool.not_true, if_false, if_true, Option.bind_eq_bind, Option.bind_some]
    · rw [Input.outline_node _ (by decide), List.map_cons, List.map_cons, List.map_singleton,
        Tree.outline_as, ht, huout, hvout]
      rfl

/-- No expression starts at a colon. -/
theorem expressions_colon {xs : List Lexeme} (hc : Crosses i (mark ":" :: xs) j) (fuel : Nat) :
    expressions fuel i = none := by
  obtain ⟨t, rest, hrest, ht⟩ := hc.head
  have hkind : t.kind = .mark := ht.kind
  have hword : t.word = ":" := ht.word
  have hsees : ∀ w, ":" ≠ w → i.sees w = false := fun w hw =>
    (hc.sees w).trans (by simpa [Lexeme.tells, Lexeme.word] using hw)
  have hname : i.seesName = false := by simp [Input.seesName, hrest, Token.isName, hkind]
  have hawait : i.seesAwait = false := by simp [Input.seesAwait, hsees "await" (by decide)]
  have hatom : ∀ n, atom n i = none := by
    intro n
    cases n with
    | zero => rw [atom]
    | succ n =>
      rw [atom, hrest]; simp [hkind, hword]
  have hprimary : ∀ n, primary n i = none := by
    intro n
    cases n with
    | zero => rw [primary]
    | succ n =>
      rw [primary, hatom]; rfl
  have hoperand : ∀ n, operand n i = none := by
    intro n
    cases n with
    | zero => rw [operand]
    | succ n =>
      rw [operand]
      simp [hsees "+" (by decide), hsees "-" (by decide), hsees "~" (by decide),
        hsees "*" (by decide), hawait, hprimary]
  have hitem : ∀ n, item n true i = none := by
    intro n
    cases n with
    | zero => rw [item]
    | succ n =>
      rw [item]
      simp [hsees "not" (by decide), hsees "lambda" (by decide), hname, hoperand]
  have hexpression : ∀ n, expression n true i = none := by
    intro n
    cases n with
    | zero => rw [expression]
    | succ n =>
      rw [expression, hitem]; rfl
  cases fuel with
  | zero => rw [expressions]
  | succ n => rw [expressions, commaList, hexpression]; rfl

/-- A variable with its type is a line of a block, also if its name is `match`: that word starts a
choice between patterns only before an expression. -/
theorem isStatement_annotate (hs : IsName s) (h : p.IsExpression) {v : Phrase} (hv : v.IsExpression)
    (hflat : (annotate s p v).Flat) : (annotate s p v).IsStatement m false where
  printed := (h.annotate hs hv).printed
  fits := hflat.fits m
  starts hmem := (h.annotate hs hv).starts (List.mem_append_left _ hmem)
  reads size fuel hsize hfuel l i k hc _ hk _ := by
    have hsimple := h.annotate hs hv
    obtain ⟨fuel, rfl⟩ : ∃ n, fuel = n + 1 :=
      ⟨fuel - 1, by have := (annotate s p v).one_le_size; omega⟩
    obtain ⟨t, j, hread, hj, ht⟩ := hsimple.line hsize hc hk
    have hcross : Crosses i.settle
        (⟨l, .name, s⟩ :: mark ":" :: (p.lexemes (.blanks 1) ++
          ⟨.blanks 1, .mark, "="⟩ :: v.lexemes (.blanks 1))) k := hc
    have hnone : i.settle.sees "match" = true → wordHeader size "match" true i.settle = none := by
      intro hm
      obtain ⟨k', hskip, -, hrest⟩ := hcross.skip ((hcross.sees "match").symm.trans hm) rfl
      rw [wordHeader, hskip]
      simp [expressions_colon hrest]
    refine ⟨[t], j, ?_, hj, by rw [List.map_singleton, ht]⟩
    rw [statement_eq (fun hmem => hsimple.starts (List.mem_append_right _ hmem)) hc size fuel hnone,
      hread]

/-! ### Statements that start with a word -/

def bare (w : String) : Phrase := ⟨.name, w, [], group []⟩

def worded (w : String) (p : Phrase) : Phrase := ⟨.name, w, p.lexemes (.blanks 1), group [p.tree]⟩

def raiseFrom (p q : Phrase) : Phrase :=
  ⟨.name, "raise", p.lexemes (.blanks 1) ++ spaced "from" :: q.lexemes (.blanks 1),
    group [p.tree, q.tree]⟩

@[simp] theorem flat_bare (w : String) : (bare w).Flat := isFlat_nil

@[simp] theorem chars_bare (w : String) : (bare w).chars = w.toList := List.append_nil _

@[simp] theorem flat_worded {w : String} : (worded w p).Flat ↔ p.Flat := by
  simp [worded, Phrase.Flat, lexemes, head, Lead.newline]

@[simp] theorem chars_worded (w : String) : (worded w p).chars = w.toList ++ ' ' :: p.chars := by
  simp [worded, chars, charsOf_cons, lexemes, head, Lexeme.chars, Lead.chars]

@[simp] theorem flat_raiseFrom : (raiseFrom p q).Flat ↔ p.Flat ∧ q.Flat := by
  simp [raiseFrom, Phrase.Flat, lexemes, head, Lead.newline]

@[simp] theorem chars_raiseFrom :
    (raiseFrom p q).chars = "raise ".toList ++ p.chars ++ " from ".toList ++ q.chars := by
  simp [raiseFrom, chars, charsOf_append, charsOf_cons, lexemes, head, Lexeme.chars, Lead.chars]

/-- Lexemes after a word and a blank. -/
theorem printed_word {w : String} (hw : IsIdentifier w.toList) {xs : List Lexeme} (hx : Printed xs)
    (hlead : ∀ x ∈ xs.head?, x.lead ≠ .blanks 0) : Printed (⟨.blanks 0, .name, w⟩ :: xs) :=
  (printed_singleton (Lexeme.valid_name rfl hw)).append hx fun _ _ y hy =>
    Lexeme.fits_of_lead (hlead y hy)

/-- What the first word says is all that is seen. -/
theorem sees_word {w : String} {xs : List Lexeme} (hc : Crosses i (⟨l, .name, w⟩ :: xs) j)
    (v : String) :
    i.sees v = (w == v) := by
  rw [hc.sees, Lexeme.tells]
  simp [Lexeme.word]

/-- A name is neither a word of the language nor a mark. -/
theorem sees_name (hs : IsName s) {xs : List Lexeme}
    (hc : Crosses i (⟨l, .name, s⟩ :: xs) j) {w : String}
    (hw : w ∈ codeKeywords ∨ ∀ c ∈ w.toList.head?, Text.isIdentifierStart c = false) :
    i.sees w = false := by
  rw [sees_word hc, beq_eq_false_iff_ne]
  rintro rfl
  exact hs.not_mem (List.forall_mem_singleton.mpr hw) List.mem_cons_self

theorem tells_word (l : Lead) (w : String) : (⟨l, .name, w⟩ : Lexeme).tells w = true := by
  simp [Lexeme.tells, Lexeme.word]

theorem word_cases : ∀ w ∈ ["pass", "continue", "raise", "return", "assert", "import", "from"],
    w ∈ "async" :: "await" :: reservedWords ∧
      w ∉ Input.assigners ++ clauseWords ++ blockWords := by
  decide

theorem isSimple_bare {w : String} (hw : w ∈ ["pass", "continue", "raise"]) :
    (bare w).IsSimple where
  printed := printed_singleton
    (Lexeme.valid_name rfl (isIdentifier_word (word_cases w (by simp at hw ⊢; tauto)).1))
  starts := (word_cases w (by simp at hw ⊢; tauto)).2
  reads fuel hfuel l i j hc hj := by
    have hsees : ∀ v, i.sees v = (w == v) := sees_word hc
    obtain ⟨t, k, htake, -, -, hk⟩ := Crosses.take hc rfl
    obtain rfl := hk.eq_of_nil
    refine ⟨j.node .group i.first [], ?_, Input.outline_node j (t := .group) (by decide) ..⟩
    rw [simpleStatement]
    simp only [List.mem_cons, List.not_mem_nil, or_false] at hw
    rcases hw with rfl | rfl | rfl
    · simp [hsees, htake]
    · simp [hsees, htake]
    · simp [hsees, htake, Input.skip?, hj.startsExpression, hj.goesOn]

theorem IsExpression.worded (h : p.IsExpression) {w : String}
    (hw : w ∈ ["raise", "return", "assert"]) : (worded w p).IsSimple where
  printed := printed_word (isIdentifier_word (word_cases w (by simp at hw ⊢; tauto)).1)
    (printed_after h.printed (by simp)) (by rintro _ ⟨⟩; simp [head])
  starts := (word_cases w (by simp at hw ⊢; tauto)).2
  reads fuel hfuel l i j hc hj := by
    have hsize : (Phrase.worded w p).size = p.size + 1 := rfl
    have hsees : ∀ v, i.sees v = (w == v) := sees_word hc
    obtain ⟨k, hskip, -, hk⟩ := Crosses.skip hc (tells_word l w) rfl
    have hstarts : k.startsExpression = true := h.startsExpression hk (Crosses.ended hk rfl)
    obtain ⟨t, hread, ht⟩ := h.expressions (show 12 * p.size ≤ fuel + 2 by omega) hk (hj.before _)
    obtain ⟨u, hu, huout⟩ := h.reads (show 12 * p.size ≤ fuel + 3 by omega) true hk (hj.before _)
    have hout : ∀ v : Tree, v.outline = p.tree →
        (j.node .group i.first [v]).outline = group [p.tree] := by
      intro v hv
      rw [Input.outline_node _ (by decide), List.map_singleton, hv]
      rfl
    have hitems : strictItems fuel (expression fuel true) k = some ([u], j) := by
      obtain ⟨fuel, rfl⟩ : ∃ n, fuel = n + 1 := ⟨fuel - 1, by omega⟩
      rw [strictItems, commaItems, hu]
      simp only [Option.bind_eq_bind, Option.bind_some,
        commaTail_of_before List.not_mem_nil (hj.before []), List.reverse_singleton]
    rw [simpleStatement]
    simp only [List.mem_cons, List.not_mem_nil, or_false] at hw
    rcases hw with rfl | rfl | rfl
    · exact ⟨_, by simp [hsees, hskip, hstarts, hread, hj.goesOn], hout t ht⟩
    · exact ⟨_, by simp [hsees, hskip, hstarts, hread], hout t ht⟩
    · exact ⟨_, by simp [hsees, hskip, hitems], hout u huout⟩

theorem IsExpression.raiseFrom (hp : p.IsExpression) (hq : q.IsExpression) :
    (raiseFrom p q).IsSimple where
  printed := printed_word (isIdentifier_word (word_cases "raise" (by decide)).1)
    (((hp.joins_blank 0).append (hq.joins_spaced (isIdentifier_word (by decide)))).printed)
    (by rintro _ ⟨⟩; simp [head])
  starts := (word_cases "raise" (by decide)).2
  reads fuel hfuel l i j hc hj := by
    have hsize : (Phrase.raiseFrom p q).size = p.size + q.size + 2 := by
      simp only [Phrase.raiseFrom, size, List.length_append, List.length_cons, lexemes]
      omega
    have hsees : ∀ v, i.sees v = ("raise" == v) := sees_word hc
    obtain ⟨k, hskip, -, hk⟩ := Crosses.skip hc (tells_word l "raise") rfl
    obtain ⟨k₁, hk₁, hrest⟩ := Crosses.append hk
    have hfrom : k₁.sees "from" = true := (hrest.sees "from").trans rfl
    have hgoes : k₁.goesOn "from" = true := hrest.goesOn rfl "from"
    have hstarts : k.startsExpression = true := hp.startsExpression hk₁ (Crosses.ended hk₁ rfl)
    obtain ⟨t, hread, ht⟩ := hp.expressions (show 12 * p.size ≤ fuel + 2 by omega) hk₁
      (Input.before_of_sees hfrom (by decide))
    obtain ⟨k₂, hskip₂, -, hk₂⟩ := hrest.skip (tells_word (.blanks 1) "from") rfl
    obtain ⟨u, hu, huout⟩ := hq.reads (show 12 * q.size ≤ fuel + 3 by omega) true hk₂ (hj.before _)
    refine ⟨j.node .group i.first [t, u], ?_, ?_⟩
    · rw [simpleStatement]
      simp [hsees, hskip, hstarts, hread, hgoes, hskip₂, hu]
    · rw [Input.outline_node _ (by decide), List.map_cons, List.map_singleton, ht, huout]
      rfl

/-! ### Imports -/

def dotted (s : String) (ss : List String) : Phrase :=
  ⟨.name, s, ss.flatMap fun t => [mark ".", ⟨.blanks 0, .name, t⟩],
    group ((s :: ss).map identifier)⟩

def importOf (s : String) : Phrase := ⟨.name, "import", [spaced s], group [(dotted s []).tree]⟩

def furtherNames (ss : List String) : List Row := ss.map fun s => ⟨0, .blanks 1, dotted s []⟩

def fromImport (s : String) (ss : List String) (t : String) (ts : List String) : Phrase :=
  ⟨.name, "from",
    (dotted s ss).lexemes (.blanks 1) ++
      spaced "import" :: spaced t :: afterCommas (furtherNames ts),
    group ((dotted s ss).tree :: (t :: ts).map fun t => (dotted t []).tree)⟩

@[simp] theorem flat_importOf (s : String) : (importOf s).Flat := by
  simp [importOf, Flat, Lead.newline]

@[simp] theorem chars_importOf (s : String) :
    (importOf s).chars = "import ".toList ++ s.toList := by
  simp [importOf, chars, charsOf_cons, Lexeme.chars, Lead.chars]

@[simp] theorem flat_fromImport (s : String) (ss : List String) (t : String) (ts : List String) :
    (fromImport s ss t ts).Flat := by
  simp [fromImport, Flat, dotted, lexemes, head, furtherNames, afterCommas, Lead.newline]

theorem charsOf_furtherNames (ts : List String) :
    charsOf (afterCommas (furtherNames ts)) = ts.flatMap fun t => ", ".toList ++ t.toList := by
  induction ts with
  | nil => rfl
  | cons t ts ih =>
    rw [furtherNames, List.map_cons, afterCommas, List.flatMap_cons, ← afterCommas, ← furtherNames,
      charsOf_append, ih]
    simp [dotted, lexemes, head, charsOf_cons, Lexeme.chars, Lead.chars]

theorem intercalate_names (t : String) (ts : List String) :
    t.toList ++ ts.flatMap (fun t => ", ".toList ++ t.toList) =
      (", ".intercalate (t :: ts)).toList := by
  rw [String.toList_intercalate]
  induction ts generalizing t with
  | nil => simp
  | cons u us ih =>
    rw [List.flatMap_cons, List.map_cons, List.map_cons, List.intercalate_cons_cons,
      ← List.map_cons, ← ih u]
    simp

@[simp] theorem chars_fromImport (s : String) (ss : List String) (t : String) (ts : List String) :
    (fromImport s ss t ts).chars = "from ".toList ++ s.toList ++
      ss.flatMap (fun t => '.' :: t.toList) ++ " import ".toList ++
        (", ".intercalate (t :: ts)).toList := by
  have hpoints : charsOf (ss.flatMap fun t => [mark ".", ⟨.blanks 0, .name, t⟩]) =
      ss.flatMap fun t => '.' :: t.toList := by
    induction ss with
    | nil => rfl
    | cons u us ih =>
      rw [List.flatMap_cons, charsOf_append, ih]
      simp [charsOf_cons, Lexeme.chars, Lead.chars]
  rw [← intercalate_names, ← charsOf_furtherNames]
  simp [fromImport, chars, dotted, lexemes, head, charsOf_append, charsOf_cons, hpoints,
    Lexeme.chars, Lead.chars]

theorem printed_dotted {ss : List String} (hs : IsName s) (hss : ∀ t ∈ ss, IsName t) :
    Printed ((dotted s ss).lexemes (.blanks 0)) := by
  induction ss generalizing s with
  | nil => exact printed_singleton (Lexeme.valid_name rfl hs.chars)
  | cons t ss ih =>
    rw [List.forall_mem_cons] at hss
    have hpoint : Printed [⟨.blanks 0, .name, s⟩, mark "."] :=
      (printed_singleton (Lexeme.valid_name rfl hs.chars)).append
        (printed_singleton (Lexeme.valid_mark rfl (by decide))) (by rintro _ ⟨⟩ _ ⟨⟩; rfl)
    exact hpoint.append (ih hss.1 hss.2) (by rintro _ ⟨⟩ _ ⟨⟩; rfl)

/-- The further names of a dotted name are read. -/
theorem dottedTail_eq {ss : List String} (hss : ∀ t ∈ ss, IsName t)
    (hc : Crosses i (ss.flatMap fun t => [mark ".", ⟨.blanks 0, .name, t⟩]) j)
    (hj : j.goesOn "." = false) {fuel : Nat} (hfuel : ss.length < fuel) (seen : List Tree) :
    ∃ ts, dottedTail fuel seen i = some (seen.reverse ++ ts, j) ∧
      ts.map Tree.outline = ss.map identifier := by
  induction ss generalizing i fuel seen with
  | nil =>
    obtain rfl := hc.eq_of_nil
    obtain ⟨fuel, rfl⟩ : ∃ n, fuel = n + 1 := ⟨fuel - 1, by omega⟩
    exact ⟨[], by rw [dottedTail, hj, List.append_nil]; rfl, rfl⟩
  | cons t ss ih =>
    rw [List.forall_mem_cons] at hss
    rw [List.length_cons] at hfuel
    obtain ⟨fuel, rfl⟩ : ∃ n, fuel = n + 1 := ⟨fuel - 1, by omega⟩
    rw [List.flatMap_cons, List.cons_append, List.singleton_append] at hc
    have hgoes : i.goesOn "." = true := hc.goesOn rfl "."
    obtain ⟨k, hskip, -, hk⟩ := hc.skip (w := ".") rfl rfl
    obtain ⟨line, endLine, k', hname, -, hk'⟩ := hk.name hss.1.not_reserved
    obtain ⟨ts, hread, hts⟩ := ih hss.2 hk' (show ss.length < fuel by omega)
      (.node .identifier .plain line endLine t [] :: seen)
    refine ⟨.node .identifier .plain line endLine t [] :: ts, ?_, ?_⟩
    · rw [dottedTail, hgoes]
      simp only [if_true, hskip, hname, Option.bind_eq_bind, Option.bind_some, hread,
        List.reverse_cons, List.append_assoc, List.singleton_append]
    · rw [List.map_cons, List.map_cons, hts]
      rfl

theorem dottedName_eq {ss : List String} (hs : IsName s) (hss : ∀ t ∈ ss, IsName t)
    (hc : Crosses i ((dotted s ss).lexemes l) j) (hj : j.goesOn "." = false) {fuel : Nat}
    (hfuel : ss.length < fuel) :
    ∃ t, dottedName fuel i = some (t, j) ∧ t.outline = (dotted s ss).tree := by
  have hc' : Crosses i
    (⟨l, .name, s⟩ :: ss.flatMap fun t => [mark ".", ⟨.blanks 0, .name, t⟩]) j := hc
  obtain ⟨line, endLine, k, hname, -, hk⟩ := hc'.name hs.not_reserved
  obtain ⟨ts, hread, hts⟩ :=
    dottedTail_eq hss hk hj hfuel [.node .identifier .plain line endLine s []]
  refine ⟨j.node .group i.first (.node .identifier .plain line endLine s [] :: ts), ?_, ?_⟩
  · rw [dottedName]
    simp only [hname, Option.bind_eq_bind, Option.bind_some, hread]
    rfl
  · rw [Input.outline_node _ (by decide), List.map_cons, hts]
    rfl

/-- A name is imported. -/
theorem reads_imported (hs : IsName s) {fuel : Nat} (hfuel : 0 < fuel) :
    Reads (imported fuel) [","] (dotted s []) := by
  intro l i j hc hj
  obtain ⟨t, hread, ht⟩ := dottedName_eq hs (List.forall_mem_nil _) hc (hj.goesOn (by decide))
    (show ([] : List String).length < fuel from hfuel)
  refine ⟨t, ?_, ht⟩
  rw [imported, hread]
  simp only [Option.bind_eq_bind, Option.bind_some, hj.goesOn (show "as" ∉ [","] by decide),
    Bool.false_eq_true, if_false]

/-- Names with commas between them are imported. -/
theorem imported_names {ss : List String} (hs : IsName s) (hss : ∀ t ∈ ss, IsName t)
    (hc : Crosses i (spaced s :: afterCommas (furtherNames ss)) j) (hj : j.Over) {fuel : Nat}
    (hfuel : ss.length < fuel) :
    ∃ ts, commaItems fuel (imported fuel) (fun i => i.ended || !i.seesName) i = some (ts, j) ∧
      ts.map Tree.outline = (s :: ss).map fun t => (dotted t []).tree := by
  have hpos : 0 < fuel := Nat.zero_lt_of_lt hfuel
  have hc' : Crosses i ((dotted s []).lexemes (.blanks 1) ++ afterCommas (furtherNames ss)) j := hc
  obtain ⟨k, hk, hrest⟩ := hc'.append
  have hread : ∀ r ∈ furtherNames ss, ReadsAfter r.lead (imported fuel) [","] r.phrase := by
    rw [furtherNames, List.forall_mem_map]
    exact fun t ht => (reads_imported (hss t ht) hpos).after _
  have hstop : ∀ r ∈ furtherNames ss, ∀ ⦃i j : Input⦄, Crosses i (r.phrase.lexemes r.lead) j →
      (i.ended || !i.seesName) = false := by
    rw [furtherNames, List.forall_mem_map]
    intro t ht i j hc
    have hname : i.seesName = true := Crosses.seesName hc (hss t ht).not_reserved
    rw [Crosses.ended hc rfl, hname]
    rfl
  obtain ⟨t, ht, htout⟩ := (reads_imported hs hpos) hk
    (before_afterCommas hrest (show "," ∈ [","] by decide) (hj.before _))
  obtain ⟨ts, hts, htail⟩ := commaTail_eq (show "," ∈ [","] by decide) hread hstop hrest
    (show [] ⊆ [","] by simp) (by simp) (hj.before [])
    (by simpa [furtherNames] using hfuel) false [t]
  refine ⟨t :: ts, ?_, ?_⟩
  · rw [commaItems, ht]
    simp only [Option.bind_eq_bind, Option.bind_some, htail]
    rfl
  · rw [List.map_cons, hts, htout]
    simp [treesOf, furtherNames]

theorem isSimple_importOf (hs : IsName s) : (importOf s).IsSimple where
  printed := printed_word (isIdentifier_word (word_cases "import" (by decide)).1)
    (printed_singleton (Lexeme.valid_name rfl hs.chars)) (by rintro _ ⟨⟩; simp)
  starts := (word_cases "import" (by decide)).2
  reads fuel hfuel l i j hc hj := by
    have hsize : (importOf s).size = 2 := rfl
    have hsees : ∀ v, i.sees v = ("import" == v) := sees_word hc
    obtain ⟨k, hskip, -, hk⟩ := Crosses.skip hc (tells_word l "import") rfl
    obtain ⟨ts, hread, hts⟩ := imported_names hs (List.forall_mem_nil _) hk hj
      (show ([] : List String).length < fuel by rw [List.length_nil]; omega)
    refine ⟨j.node .group i.first ts, ?_, ?_⟩
    · rw [simpleStatement]
      simp [hsees, hskip, hread]
    · rw [Input.outline_node _ (by decide), hts]
      rfl

theorem joins_afterNames {ts : List String} (hts : ∀ t ∈ ts, IsName t) :
    Joins (afterCommas (furtherNames ts)) := by
  refine Joins.flatMap ?_
  rw [furtherNames, List.forall_mem_map]
  exact fun t ht => (isPrimary_name (hts t ht)).toFormed.joins_mark (by decide)
    (.inl (by decide)) rfl rfl

theorem isSimple_fromImport {ss ts : List String} {t : String} (hs : ∀ n ∈ s :: ss, IsName n)
    (ht : ∀ n ∈ t :: ts, IsName n) : (fromImport s ss t ts).IsSimple where
  printed := by
    rw [List.forall_mem_cons] at hs ht
    have hnames : Joins (spaced "import" :: spaced t :: afterCommas (furtherNames ts)) :=
      ((isPrimary_name ht.1).toFormed.joins_spaced (isIdentifier_word (by decide))).append
        (joins_afterNames ht.2)
    refine printed_word (isIdentifier_word (word_cases "from" (by decide)).1)
      ((printed_after (printed_dotted hs.1 hs.2) (by simp)).append hnames.printed ?_)
      (by rintro _ ⟨⟩; simp [head])
    rintro _ - _ ⟨⟩
    exact Lexeme.fits_of_lead (by simp)
  starts := (word_cases "from" (by decide)).2
  reads fuel hfuel l i j hc hj := by
    rw [List.forall_mem_cons] at hs ht
    have hsize : (fromImport s ss t ts).size =
        2 * ss.length + (afterCommas (furtherNames ts)).length + 4 := by
      simp [fromImport, size, dotted, lexemes, List.length_flatMap]
      omega
    have hlength := (@length_afterCommas (furtherNames ts)).1
    rw [furtherNames, List.length_map, ← furtherNames] at hlength
    have hsees : ∀ v, i.sees v = ("from" == v) := sees_word hc
    obtain ⟨k, hskip, -, hk⟩ := Crosses.skip hc (tells_word l "from") rfl
    obtain ⟨k₁, hk₁, hrest⟩ := Crosses.append hk
    have hpoints : ∀ w ∈ [".", "..."], k.sees w = false := fun w hw =>
      sees_name hs.1 hk₁ (.inr (by revert hw; revert w; decide +kernel))
    obtain ⟨u, hu, huout⟩ := dottedName_eq hs.1 hs.2 hk₁ (by rw [hrest.goesOn rfl]; rfl)
      (show ss.length < fuel by omega)
    obtain ⟨k₂, hskip₂, -, hk₂⟩ := hrest.skip (tells_word (.blanks 1) "import") rfl
    obtain ⟨us, hread, hus⟩ := imported_names ht.1 ht.2 hk₂ hj (show ts.length < fuel by omega)
    have hname : ∀ w ∈ ["*", "("], k₂.sees w = false := fun w hw =>
      sees_name ht.1 hk₂ (.inr (by revert hw; revert w; decide +kernel))
    obtain ⟨fuel, rfl⟩ : ∃ n, fuel = n + 1 := ⟨fuel - 1, by omega⟩
    have hdots : skipDots (fuel + 1) k = some k := by
      rw [skipDots, hpoints "." (by decide), hpoints "..." (by decide)]
      rfl
    refine ⟨j.node .group i.first (u :: us), ?_, ?_⟩
    · have hfrom : importFrom (fuel + 1) i = some (j.node .group i.first (u :: us), j) := by
        rw [importFrom, hskip]
        simp only [Option.bind_eq_bind, Option.bind_some, hdots, hpoints "." (by decide),
          hpoints "..." (by decide), Bool.or_self, Bool.and_false, Bool.false_eq_true, if_false, hu,
          Option.map_some, hskip₂, hname "*" (by decide), hname "(" (by decide), hread,
          List.singleton_append]
      rw [simpleStatement]
      simp [hsees, hfrom]
    · rw [Input.outline_node _ (by decide), List.map_cons, huout, hus]
      rfl

end Phrase

end AgentFlow.Code

import AgentFlow.Proofs.Code.Expressions

/-!
# Phrases with operators

* `IsOperand.awaited`: what is waited for is an operand.
* `IsOperand.chain`, `IsItem.orElse`, `IsItem.aliased`: **operands with operators between them are
  read back as one expression.**
* `IsPrimary.callEach`: so is a call whose argument is made for each item of a collection.
-/

namespace AgentFlow.Code.Phrase

variable {p q : Phrase} {s : String} {i j : Input} {l : Lead}

/-! ### Waiting -/

/-- An operand that is waited for. -/
def awaited (p : Phrase) : Phrase :=
  (constant "await").grow (p.lexemes (.blanks 1)) (group [p.tree])

@[simp] theorem flat_awaited : p.awaited.Flat ↔ p.Flat := by
  simp [awaited, Lead.newline]

@[simp] theorem chars_awaited : p.awaited.chars = "await ".toList ++ p.chars := by
  simp [awaited, Lead.chars]

theorem valued_await : (constant "await").Valued := by
  have hchars : IsIdentifier "await".toList := ⟨⟨_, rfl, by decide⟩, by decide⟩
  have hopens : "await" ∉ strayWords := by decide
  exact valued_single (Lexeme.valid_name rfl hchars) rfl hopens _

theorem Formed.not_assigner (h : p.Formed) (l : Lead) :
    ∀ x ∈ (p.lexemes l).head?, x.word ∉ ["=", ":="] := by
  have hall : ∀ w ∈ ["=", ":="], w ∈ strayWords := by decide
  rintro _ ⟨⟩ hmem
  exact h.opens (hall _ hmem)

theorem IsOperand.awaited (h : p.IsOperand) : p.awaited.IsOperand where
  toValued := valued_await.grow (List.cons_ne_nil _ _) (h.joins_blank 0) (h.not_assigner _) _
  reads fuel hfuel l i j hc hj := by
    have hsize : p.awaited.size = p.size + 1 := by
      rw [Phrase.awaited, size_grow, length_lexemes]
      exact Nat.add_comm ..
    obtain ⟨fuel, rfl⟩ : ∃ n, fuel = n + 1 := ⟨fuel - 1, by omega⟩
    obtain ⟨t, k, htake, -, hk, hrest⟩ := Crosses.take hc rfl
    obtain ⟨u, hu, hout⟩ := @h.reads fuel (by omega) _ _ _ hrest hj
    have hsees : ∀ w, i.sees w = (⟨l, .name, "await"⟩ : Lexeme).tells w := Crosses.sees hc
    have hawait : i.seesAwait = true := by
      obtain ⟨v, hv⟩ := hk.rest_eq
      obtain ⟨w, rest, hw, hshows⟩ := hrest.head
      have hall : ∀ s ∈ ["not", "lambda", "+", "-", "~", "*"], s ∈ strayWords := by decide
      have hcalm : w.word ∉ ["not", "lambda", "+", "-", "~", "*"] := fun hmem =>
        h.opens (hall _ (hshows.word ▸ hmem))
      rw [Input.seesAwait, hsees, hv, hw]
      simpa [h.starts hshows, Lexeme.tells, Lexeme.word] using hcalm
    refine ⟨j.node .group i.first [u], ?_, ?_⟩
    · rw [operand]
      simp only [hsees, hawait, htake, hu, if_true, Option.bind_eq_bind, Option.bind_some]
      rfl
    · rw [Input.outline_node _ (by decide), List.map_singleton, hout]
      rfl

/-! ### Chains of operators -/

/-- An operator, with blanks before and after it, and an operand. -/
structure Step where
  blanks : Nat
  operator : String
  lead : Lead
  phrase : Phrase

def Step.lexeme (x : Step) : Lexeme :=
  ⟨.blanks x.blanks, if x.operator = "in" then .name else .mark, x.operator⟩

def stepped (xs : List Step) : List Lexeme :=
  xs.flatMap fun x => x.lexeme :: x.phrase.lexemes x.lead

/-- An operand with others after it. -/
def chain (p : Phrase) (xs : List Step) : Phrase :=
  p.grow (stepped xs) (group (p.tree :: xs.map (·.phrase.tree)))

@[simp] theorem flat_chain {xs : List Step} :
    (p.chain xs).Flat ↔ p.Flat ∧ ∀ x ∈ xs, x.lead.newline = false ∧ x.phrase.Flat := by
  simp [chain, stepped, Step.lexeme, Lead.newline]

@[simp] theorem chars_chain (xs : List Step) : (p.chain xs).chars = p.chars ++ xs.flatMap fun x =>
    List.replicate x.blanks ' ' ++ x.operator.toList ++ x.lead.chars ++ x.phrase.chars := by
  have hsteps : charsOf (stepped xs) = xs.flatMap fun x =>
      List.replicate x.blanks ' ' ++ x.operator.toList ++ x.lead.chars ++ x.phrase.chars := by
    induction xs with
    | nil => rfl
    | cons x xs ih =>
      rw [stepped, List.flatMap_cons, ← stepped, charsOf_append, ih, charsOf_cons, charsOf_lexemes]
      simp [Step.lexeme, Lexeme.chars, Lead.chars]
  rw [chain, chars_grow, hsteps]

/-- The step is one of a chain of operands. -/
structure Step.Valid (x : Step) : Prop where
  operator : x.operator ∈ operators
  phrase : x.phrase.IsOperand
  lead : x.lead.isPlain = true
  apart : x.operator = "in" → x.blanks ≠ 0 ∧ x.lead ≠ .blanks 0
  dots : x.phrase.body ≠ "..."

theorem Step.Valid.joins {x : Step} (h : x.Valid) :
    Joins (x.lexeme :: x.phrase.lexemes x.lead) := by
  by_cases hin : x.operator = "in"
  · obtain ⟨hblanks, hlead⟩ := h.apart hin
    have hlexeme : x.lexeme = ⟨.blanks x.blanks, .name, "in"⟩ := by
      rw [Step.lexeme, if_pos hin, hin]
    have hchars : IsIdentifier "in".toList := ⟨⟨_, rfl, by decide⟩, by decide⟩
    rw [hlexeme]
    exact h.phrase.joins (Lexeme.valid_name rfl hchars)
      (fun _ _ => Lexeme.fits_of_lead (by simpa using hblanks)) h.lead (Lexeme.fits_of_lead hlead)
  · have hmarks : ∀ w ∈ operators, w ≠ "in" → w ∈ plainMarks ∧ w ∉ [".", "..."] := by decide
    rw [Step.lexeme, if_neg hin]
    exact h.phrase.joins_mark (hmarks _ h.operator hin) (.inr h.dots) rfl h.lead

theorem Step.tells (x : Step) : x.lexeme.tells x.operator = true := by
  by_cases hin : x.operator = "in" <;> simp [Step.lexeme, Lexeme.tells, Lexeme.word, hin]

theorem operator?_eq {x : Step} (hx : x.operator ∈ operators) {xs : List Lexeme}
    (hc : Crosses i (x.lexeme :: xs) j) : ∃ k, i.operator? = some k ∧ Crosses k xs j := by
  have hended : i.ended = false := hc.ended rfl
  by_cases hin : x.operator = "in"
  · have hlexeme : x.lexeme = ⟨.blanks x.blanks, .name, "in"⟩ := by
      rw [Step.lexeme, if_pos hin, hin]
    rw [hlexeme] at hc
    obtain ⟨k, hskip, -, hk⟩ := hc.skip (w := "in") rfl rfl
    refine ⟨k, ?_, hk⟩
    rw [Input.operator?]
    simp only [hended, hc.sees]
    exact hskip
  · have hall : ∀ w ∈ operators, w ≠ "in" → w ∈ binaryMarks ∧ w ≠ "not" ∧ w ≠ "is" ∧
        (⟨.blanks 0, .mark, w⟩ : Lexeme).isPlain = true := by decide
    obtain ⟨hbinary, hnot, his, hplain⟩ := hall _ hx hin
    rw [Step.lexeme, if_neg hin] at hc
    obtain ⟨t, k, htake, -, -, hk⟩ := hc.take hplain
    have hsees : i.sees x.operator = true := by
      rw [hc.sees]
      simp [Lexeme.tells, Lexeme.word]
    have hany : binaryMarks.any i.sees = true := List.any_eq_true.mpr ⟨_, hbinary, hsees⟩
    refine ⟨k, ?_, hk⟩
    rw [Input.operator?]
    simp [hended, Input.sees_eq_false hsees hnot, Input.sees_eq_false hsees hin,
      Input.sees_eq_false hsees his, hany, htake]

theorem before_stepped {xs : List Step} (hxs : ∀ x ∈ xs, x.Valid) (hc : Crosses i (stepped xs) j)
    (hj : j.Before itemClosers) : i.Before operandClosers := by
  cases xs with
  | nil =>
    obtain rfl := hc.eq_of_nil
    exact hj.mono (by decide)
  | cons y ys =>
    refine Input.before_of_sees (w := y.operator) ?_
      (List.mem_append_right _ (hxs y List.mem_cons_self).operator)
    rw [Crosses.sees hc, y.tells]

/-- The operands after operators are read one by one. -/
theorem chainTail_stepped {xs : List Step} (hxs : ∀ x ∈ xs, x.Valid)
    (hc : Crosses i (stepped xs) j) (hj : j.Before itemClosers) {fuel : Nat}
    (hfuel : 12 * (stepped xs).length < fuel) (first : Token) (parts : List Tree) :
    ∃ ts : List Tree, ts.map Tree.outline = xs.map (·.phrase.tree) ∧
      chainTail fuel first parts i = some (j.grouped first (parts.reverse ++ ts), j) := by
  induction xs generalizing i fuel parts with
  | nil =>
    obtain rfl := hc.eq_of_nil
    obtain ⟨fuel, rfl⟩ : ∃ n, fuel = n + 1 := ⟨fuel - 1, by omega⟩
    exact ⟨[], rfl, by rw [chainTail_of_before hj, List.append_nil]⟩
  | cons x xs ih =>
    rw [List.forall_mem_cons] at hxs
    rw [stepped, List.flatMap_cons, List.cons_append] at hc hfuel
    rw [List.length_cons, List.length_append, length_lexemes] at hfuel
    obtain ⟨fuel, rfl⟩ : ∃ n, fuel = n + 1 := ⟨fuel - 1, by omega⟩
    obtain ⟨k, hoperator, hk⟩ := operator?_eq hxs.1.operator hc
    obtain ⟨m, hm, hrest⟩ := hk.append
    obtain ⟨t, ht, hout⟩ :=
      @hxs.1.phrase.reads fuel (by omega) _ _ _ hm (before_stepped hxs.2 hrest hj)
    obtain ⟨ts, hts, hread⟩ := ih hxs.2 hrest (show _ < fuel by rw [stepped]; omega) (t :: parts)
    refine ⟨t :: ts, by rw [List.map_cons, hts, hout]; rfl, ?_⟩
    rw [chainTail, hoperator]
    simp only [ht, Option.bind_eq_bind, Option.bind_some]
    rw [hread, List.reverse_cons, List.append_assoc]
    rfl

theorem IsOperand.chain (h : p.IsOperand) {x : Step} {xs : List Step}
    (hxs : ∀ y ∈ x :: xs, y.Valid) :
    (p.chain (x :: xs)).IsItem := by
  have hjoins : Joins (stepped (x :: xs)) := Joins.flatMap fun y hy => (hxs y hy).joins
  have hhead : ∀ y ∈ (stepped (x :: xs)).head?, y.word ∉ ["=", ":="] := by
    have hall : ∀ w ∈ operators, w ∉ ["=", ":="] := by decide
    have hword : x.lexeme.word = x.operator := by
      by_cases hin : x.operator = "in" <;> simp [Step.lexeme, Lexeme.word, hin]
    rintro _ ⟨⟩
    rw [hword]
    exact hall _ (hxs x List.mem_cons_self).operator
  have hvalued := h.toValued.grow (List.cons_ne_nil _ _) hjoins hhead
    (group (p.tree :: (x :: xs).map (·.phrase.tree)))
  refine ⟨hvalued, ?_⟩
  intro fuel hfuel c l i j hc hj
  have hsize : (p.chain (x :: xs)).size = p.size + (stepped (x :: xs)).length := size_grow ..
  have hpos := p.one_le_size
  obtain ⟨fuel, rfl⟩ : ∃ n, fuel = n + 1 := ⟨fuel - 1, by omega⟩
  obtain ⟨k, hk, hrest⟩ := cross_grow hc
  obtain ⟨t, ht, hout⟩ := @h.reads fuel (by omega) _ _ _ hk (before_stepped hxs hrest hj)
  obtain ⟨ts, hts, hread⟩ :=
    chainTail_stepped hxs hrest hj
      (show 12 * (stepped (x :: xs)).length < fuel by omega) i.first [t]
  have hassign := hvalued.seesSecond hc (show ":=" ∈ ["=", ":="] by decide)
    (hj.assigns (by decide) (by decide))
  obtain ⟨u, us, rfl⟩ : ∃ u us, ts = u :: us := by
    cases ts with
    | nil => exact absurd hts (by simp)
    | cons u us => exact ⟨u, us, rfl⟩
  refine ⟨j.node .group i.first (t :: u :: us), ?_, ?_⟩
  · rw [item]
    simp only [h.sees hk (show "not" ∈ strayWords by decide),
      h.sees hk (show "lambda" ∈ strayWords by decide), hassign, Bool.and_false, Bool.false_eq_true,
      if_false, ht, Option.bind_eq_bind, Option.bind_some, hread]
    rfl
  · rw [Input.outline_node _ (by decide), List.map_cons, hts, hout]
    rfl

/-! ### Alternatives and aliases -/

/-- One part of an expression or another. -/
def orElse (p q : Phrase) : Phrase :=
  p.grow (spaced "or" :: q.lexemes (.blanks 1)) (group [p.tree, q.tree])

/-- An expression with a name for its value. -/
def aliased (p : Phrase) (s : String) : Phrase :=
  p.grow [spaced "as", spaced s] (group [p.tree, identifier s])

@[simp] theorem flat_orElse : (p.orElse q).Flat ↔ p.Flat ∧ q.Flat := by
  simp [orElse, Lead.newline]

@[simp] theorem chars_orElse : (p.orElse q).chars = p.chars ++ " or ".toList ++ q.chars := by
  simp [orElse, charsOf_cons, Lexeme.chars, Lead.chars]

@[simp] theorem flat_aliased : (p.aliased s).Flat ↔ p.Flat := by
  simp [aliased, Lead.newline]

@[simp] theorem chars_aliased : (p.aliased s).chars = p.chars ++ " as ".toList ++ s.toList := by
  simp [aliased, charsOf_cons, Lexeme.chars, Lead.chars]

theorem IsItem.orElse (hp : p.IsItem) (hq : q.IsItem) : (p.orElse q).IsExpression where
  toValued := hp.toValued.grow (List.cons_ne_nil _ _)
    (hq.joins_spaced (isIdentifier_word (by decide))) (by rintro _ ⟨⟩; decide) _
  reads fuel hfuel c l i j hc hj := by
    have hsize : (p.orElse q).size = p.size + (q.size + 1) := size_grow ..
    have hpos := p.one_le_size
    obtain ⟨fuel, rfl⟩ : ∃ n, fuel = n + 1 + 1 + 1 := ⟨fuel - 3, by omega⟩
    obtain ⟨k, hk, hrest⟩ := cross_grow hc
    have hgoes : ∀ w, k.goesOn w = (spaced "or").tells w := hrest.goesOn rfl
    obtain ⟨t, ht, hout⟩ := @hp.reads (fuel + 1 + 1) (by omega) c _ _ _ hk
      (Input.before_of_sees (w := "or") (by rw [hrest.sees]; rfl) (by decide))
    obtain ⟨u, m, htake, -, -, hm⟩ := hrest.take rfl
    obtain ⟨v, hv, hvout⟩ := @hq.reads (fuel + 1) (by omega) c _ _ _ hm (hj.mono (by decide))
    refine ⟨j.node .group i.first [t, v], ?_, ?_⟩
    · rw [expression, ht]
      simp only [Option.bind_eq_bind, Option.bind_some]
      rw [expressionTail]
      simp only [hgoes, htake, hv, Option.bind_eq_bind, Option.bind_some]
      exact expressionTail_of_before hj fuel c i.first [v, t]
    · rw [Input.outline_node _ (by decide), List.map_cons, List.map_singleton, hout, hvout]
      rfl

theorem IsItem.aliased (hp : p.IsItem) (hs : IsName s) : (p.aliased s).IsExpression where
  toValued := hp.toValued.grow (List.cons_ne_nil _ _)
    ((isPrimary_name hs).joins_spaced (isIdentifier_word (by decide))) (by rintro _ ⟨⟩; decide) _
  reads fuel hfuel c l i j hc hj := by
    have hsize : (p.aliased s).size = p.size + 2 := size_grow ..
    have hpos := p.one_le_size
    obtain ⟨fuel, rfl⟩ : ∃ n, fuel = n + 1 + 1 + 1 := ⟨fuel - 3, by omega⟩
    obtain ⟨k, hk, hrest⟩ := cross_grow hc
    have hgoes : ∀ w, k.goesOn w = (spaced "as").tells w := hrest.goesOn rfl
    obtain ⟨t, ht, hout⟩ := @hp.reads (fuel + 1 + 1) (by omega) c _ _ _ hk
      (Input.before_of_sees (w := "as") (by rw [hrest.sees]; rfl) (by decide))
    obtain ⟨u, m, htake, -, -, hm⟩ := hrest.take rfl
    have hname : (name s).size = 1 := rfl
    obtain ⟨v, hv, hvout⟩ := @(isPrimary_name hs).isExpression.reads (fuel + 1) (by omega) c
      (.blanks 1) _ _ hm hj
    refine ⟨j.node .group i.first [t, v], ?_, ?_⟩
    · rw [expression, ht]
      simp only [Option.bind_eq_bind, Option.bind_some]
      rw [expressionTail]
      simp only [hgoes, htake, hv, Option.bind_eq_bind, Option.bind_some]
      rw [if_neg (by decide), if_neg (by cases c <;> decide), if_pos (by decide)]
      exact expressionTail_of_before hj fuel c i.first [v, t]
    · rw [Input.outline_node _ (by decide), List.map_cons, List.map_singleton, hout, hvout]
      rfl

/-! ### Loops in calls -/

/-- A variable is read as the target of a loop. -/
theorem targets_names {r : Row} {rs : List Row}
    (hrs : ∀ q ∈ r :: rs, ∃ s, IsName s ∧ q.phrase = name s)
    (hc : Crosses i (listed (r :: rs)) j) (hj : j.sees "in" = true) {fuel : Nat}
    (hfuel : 12 * (listed (r :: rs)).length ≤ fuel) :
    ∃ t, targets (fuel + 1) i = some (t, j) ∧ t.outline = treeOfList r rs := by
  obtain ⟨hlength, hsizes⟩ := @length_listed (r :: rs)
  rw [List.length_cons] at hlength
  rw [targets]
  refine commaList_eq (show "," ∈ [",", "in"] by decide) ?_ ?_ hc
    (show ["in"] ⊆ [",", "in"] by decide)
    (by decide) (Input.before_of_sees hj (by decide)) (show rs.length < fuel by omega)
  · intro q hq i j hc hj
    obtain ⟨s, hs, hphrase⟩ := hrs q hq
    rw [hphrase] at hc ⊢
    have hname := isPrimary_name hs
    obtain ⟨t, n, hread, hn, hout⟩ :=
      hname.reads (show 12 * (name s).size ≤ fuel + 6 by have : (name s).size = 1 := rfl; omega) hc
    obtain ⟨n, rfl⟩ : ∃ m, n = m + 1 := ⟨n - 1, by have : (name s).size = 1 := rfl; omega⟩
    have htarget : isTarget t = true := by
      rw [← isTarget_outline, hout]
      rfl
    refine ⟨t, ?_, hout⟩
    simp only [hname.sees hc (show "*" ∈ strayWords by decide), Bool.false_eq_true, if_false, hread,
      primaryTail_of_before (hj.mono (by decide)), Option.bind_eq_bind, Option.bind_some, htarget,
      if_true]
  · intro q hq i j hc
    obtain ⟨s, hs, hphrase⟩ := hrs q (List.mem_cons_of_mem r hq)
    rw [hphrase] at hc
    exact (isPrimary_name hs).sees hc (by decide)

/-- An expression for each value of a variable. -/
def each (e : Phrase) (s : String) (q : Phrase) : List Lexeme :=
  e.lexemes (.blanks 0) ++
    (spaced "for" :: (name s).lexemes (.blanks 1) ++ (spaced "in" :: q.lexemes (.blanks 1)))

/-- A call whose argument is made for each item of a collection. -/
def callEach (p e : Phrase) (s : String) (q : Phrase) : Phrase :=
  p.grow (mark "(" :: each e s q ++ [mark ")"]) (.node .call .plain 0 0 ""
    [calleeOf p.text p.tree, group [e.tree, group [identifier s, q.tree]]])

@[simp] theorem flat_callEach {e : Phrase} :
    (p.callEach e s q).Flat ↔ p.Flat ∧ e.Flat ∧ q.Flat := by
  simp [callEach, each, Lead.newline]

@[simp] theorem chars_callEach (e : Phrase) : (p.callEach e s q).chars =
    p.chars ++ '(' :: e.chars ++ " for ".toList ++ s.toList ++ " in ".toList ++
      q.chars ++ [')'] := by
  simp [callEach, each, charsOf_append, charsOf_cons, Lexeme.chars, Lead.chars]

/-- The loop of a comprehension is read. -/
theorem loops_each {q : Phrase} (hs : IsName s) (hq : q.IsExpression)
    (hc : Crosses i (spaced "for" :: (name s).lexemes (.blanks 1) ++
      (spaced "in" :: q.lexemes (.blanks 1))) j) (hj : j.sees ")" = true) {fuel : Nat}
    (hfuel : 12 * q.size + 24 ≤ fuel) :
    ∃ t, loops fuel [] i = some ([t], j) ∧ t.outline = group [identifier s, q.tree] := by
  obtain ⟨fuel, rfl⟩ : ∃ n, fuel = n + 1 + 1 := ⟨fuel - 2, by omega⟩
  have hsees : ∀ w, i.sees w = (spaced "for").tells w := Crosses.sees hc
  obtain ⟨k, hfor, -, hk⟩ := Crosses.skip hc (w := "for") rfl rfl
  obtain ⟨m, hm, hrest⟩ := Crosses.append hk
  have hin : m.sees "in" = true := (Crosses.sees hrest "in").trans rfl
  obtain ⟨m', hskip, -, hlast⟩ := Crosses.skip hrest (w := "in") rfl rfl
  have hrow : ∀ r ∈ [(⟨0, .blanks 1, name s⟩ : Row)], ∃ s, IsName s ∧ r.phrase = name s := by
    rw [List.forall_mem_singleton]
    exact ⟨s, hs, rfl⟩
  obtain ⟨t, ht, hout⟩ := targets_names hrow hm hin (show 12 * 1 ≤ fuel by omega)
  obtain ⟨u, hu, huout⟩ : ∃ u, commaList (fuel + 1) (expression (fuel + 1) false)
    Input.seesClose m' =
      some (u, j) ∧ u.outline = q.tree :=
    commaList_single ((hq.reads (by omega) false).after _) hlast (show [")"] ⊆ closers by decide)
      (by decide) (Input.before_of_sees hj (by decide)) (Nat.succ_pos fuel)
  have hloop : j.seesLoop = false := Input.seesLoop_eq_false hj (by decide)
  have hif : j.sees "if" = false := Input.sees_eq_false hj (by decide)
  refine ⟨j.node .group i.first [t, u], ?_, ?_⟩
  · have hagain : i.seesLoop = true := by
      rw [Input.seesLoop, hsees]
      rfl
    rw [loops, if_pos hagain, Input.skipIf, hsees, if_neg (by decide)]
    simp only [hfor, ht, hskip, hu, Option.bind_eq_bind, Option.bind_some]
    rw [loops]
    simp only [hloop, hif, Bool.false_eq_true, if_false, List.reverse_singleton]
  · rw [Input.outline_node _ (by decide), List.map_cons, List.map_singleton, hout, huout]
    rfl

theorem IsPrimary.callEach {e : Phrase} (hp : p.IsPrimary) (he : e.IsExpression) (hs : IsName s)
    (hq : q.IsExpression) : (p.callEach e s q).IsPrimary := by
  have hjoins : Joins (mark "(" :: each e s q ++ [mark ")"]) :=
    ((he.joins_mark (by decide) (.inl (by decide)) rfl rfl).append
      (((isPrimary_name hs).joins_spaced (isIdentifier_word (by decide))).append
        (hq.joins_spaced (isIdentifier_word (by decide))))).append
      (AgentFlow.Code.joins_mark rfl (by decide))
  have hne : mark "(" :: each e s q ++ [mark ")"] ≠ [] := List.cons_ne_nil _ _
  refine hp.grow hne (hp.toFormed.grow hne hjoins _) (by rintro _ ⟨⟩; decide) ?_ ?_
  · rw [List.getLast?_concat]
    rintro _ ⟨⟩
    exact TokenKind.noConfusion
  · intro n first t k j hc hn ht hcallee _
    rw [List.length_append, List.length_cons, each, List.length_append, List.length_append,
      List.length_cons, length_lexemes, length_lexemes, List.length_cons, length_lexemes] at hn
    obtain ⟨n, rfl⟩ : ∃ m, n = m + 1 := ⟨n - 1, by omega⟩
    have hgoes : ∀ w, k.goesOn w = (mark "(").tells w := Crosses.goesOn hc rfl
    obtain ⟨-, k', m, m', -, hopen, hinner, hsees, hskip, hend⟩ := Crosses.bracket (by decide) hc
    obtain rfl := hend.eq_of_nil
    obtain ⟨k₁, hk₁, hrest⟩ := Crosses.append hinner
    have hfor : k₁.sees "for" = true := (Crosses.sees hrest "for").trans rfl
    obtain ⟨u, hu, huout⟩ := @he.isArgument.reads n (by omega) _ _ _ hk₁
      (Input.before_of_sees hfor (by decide))
    obtain ⟨v, hv, hvout⟩ := loops_each hs hq hrest hsees (show 12 * q.size + 24 ≤ n by omega)
    have hloop : k₁.seesLoop = true := by
      rw [Input.seesLoop, hfor]
      rfl
    have hargs : arguments (n + 1) k = some (j.node .group k.first [u, v], j) := by
      rw [arguments, hopen]
      simp only [Option.bind_eq_bind, Option.bind_some,
        he.sees hk₁ (show ")" ∈ strayWords by decide),
        he.sees hk₁ (show "," ∈ strayWords by decide), hu, hloop, hv, hskip, Bool.false_eq_true,
        if_false, if_true]
    obtain ⟨ty, r, a, b, x, cs⟩ := t
    refine ⟨j.node .call first
      [calleeOf p.text (.node ty r a b x cs), j.node .group k.first [u, v]], ?_, ?_⟩
    · rw [primaryTail, hgoes, if_neg (by decide), hgoes, if_pos (by decide), hcallee]
      simp only [hargs, Option.bind_eq_bind, Option.bind_some]
      rfl
    · rw [Input.outline_node _ (by decide), List.map_cons, List.map_singleton, outline_calleeOf, ht,
        Input.outline_node _ (by decide), List.map_cons, List.map_singleton, huout, hvout]
      rfl

end AgentFlow.Code.Phrase

import AgentFlow.Proofs.Code.Phrase

/-!
# Reading operands

What it means that a reader of expressions reads a phrase back, and how the readers of single
expressions make one of lists.

* `Input.Before ws i`: none of the words with which an expression could go on stands at `i`, or the
  statement is over.
* `Reads r ws p`: the reader `r` goes over the phrase `p`, whose outline is that of the tree it
  makes.
* `Phrase.IsPrimary`, `Phrase.IsOperand`, `Phrase.IsItem`, `Phrase.IsExpression`: how tightly the
  parts of a phrase hold together; **each is one of the next kind.**
-/

namespace AgentFlow.Code

/-! ### What follows a phrase -/

namespace Input

variable {i : Input} {v w : String} {ws : List String}

theorem eq_of_sees (hv : i.sees v = true) (hw : i.sees w = true) : v = w := by
  rw [sees] at hv hw
  split at hv
  · next heq =>
    rw [heq] at hw
    simp only [Bool.and_eq_true, beq_iff_eq] at hv hw
    exact hv.1.symm.trans hw.1
  · exact Bool.noConfusion hv

theorem sees_eq_false (hv : i.sees v = true) (h : v ≠ w) : i.sees w = false := by
  rw [← Bool.not_eq_true]
  exact fun hw => h (eq_of_sees hv hw)

/-- The marks between a target and what it gets. -/
def assigners : List String := ["=", ":=", ":"]

/-- The line ends and no mark of an assignment follows, or one of the words follows, or nothing. -/
def Before (ws : List String) (i : Input) : Prop :=
  (i.ended = true ∧ ∀ w ∈ assigners, i.sees w = false) ∨ (∃ w ∈ ws, i.sees w = true) ∨
    i.first.kind = .finish

theorem before_of_sees (h : i.sees w = true) (hw : w ∈ ws) : i.Before ws := .inr (.inl ⟨w, hw, h⟩)

theorem Before.mono {vs : List String} (h : i.Before vs) (hs : vs ⊆ ws) : i.Before ws :=
  h.imp_right (Or.imp_left fun ⟨w, hw, hsees⟩ => ⟨w, hs hw, hsees⟩)

/-- No word follows at the end of a text. -/
theorem sees_of_finish (h : i.first.kind = .finish) (w : String) : i.sees w = false := by
  rw [sees]
  rw [first] at h
  cases hrest : i.rest with
  | nil => rfl
  | cons t rest =>
    rw [hrest, List.headD_cons] at h
    simp [h]

theorem Before.goesOn (h : i.Before ws) (hw : w ∉ ws) : i.goesOn w = false := by
  rcases h with ⟨hended, -⟩ | ⟨v, hv, hsees⟩ | hfinish
  · rw [Input.goesOn, hended]
    rfl
  · have hne : v ≠ w := by
      rintro rfl
      exact hw hv
    rw [Input.goesOn, sees_eq_false hsees hne, Bool.and_false]
  · rw [Input.goesOn, sees_of_finish hfinish, Bool.and_false]

theorem Before.assigns (h : i.Before ws) (hw : w ∈ assigners) (hws : w ∉ ws) :
    i.sees w = false := by
  rcases h with ⟨-, hassign⟩ | ⟨v, hv, hsees⟩ | hfinish
  · exact hassign w hw
  · refine sees_eq_false hsees ?_
    rintro rfl
    exact hws hv
  · exact sees_of_finish hfinish w

def operatorWords : List String := "not" :: "in" :: "is" :: binaryMarks

theorem Before.operator (h : i.Before ws) (hws : ∀ w ∈ operatorWords, w ∉ ws) :
    i.operator? = none := by
  have hall : i.ended = true ∨ ∀ w ∈ operatorWords, i.sees w = false := by
    rcases h with ⟨hended, -⟩ | ⟨v, hv, hsees⟩ | hfinish
    · exact .inl hended
    · exact .inr fun w hw => sees_eq_false hsees fun he => hws w hw (he ▸ hv)
    · exact .inr fun w _ => sees_of_finish hfinish w
  rw [operator?]
  rcases hall with hended | hno
  · rw [if_pos hended]
  · have hmarks : binaryMarks.any i.sees = false := by
      rw [List.any_eq_false]
      intro w hw
      rw [hno w (by simp [operatorWords, hw])]
      exact Bool.false_ne_true
    simp only [hno "not" (by simp [operatorWords]), hno "in" (by simp [operatorWords]),
      hno "is" (by simp [operatorWords]), hmarks, Bool.false_and, Bool.false_eq_true, if_false,
      ite_self]

/-- No quoted text goes on the one that was just read. -/
theorem Before.no_text (h : i.Before ws) :
    (!i.ended && (i.rest.head?.map (·.kind == .text)).getD false) = false := by
  rcases h with ⟨hended, -⟩ | ⟨v, hv, hsees⟩ | hfinish
  · rw [hended]
    rfl
  · rw [sees] at hsees
    split at hsees
    · next t rest heq =>
      rw [heq]
      cases hk : t.kind <;> simp_all
    · exact Bool.noConfusion hsees
  · rw [first] at hfinish
    cases hrest : i.rest with
    | nil => simp
    | cons t rest =>
      rw [hrest, List.headD_cons] at hfinish
      simp [hfinish]

end Input

/-- The words before which expressions with commas between them end. -/
def listClosers : List String := [")", "]", "\x7d", ":", "=", "for", "from", "def"]

/-- The words before which an expression ends. -/
def closers : List String := "," :: listClosers

/-- The words before which a part of an expression ends. -/
def itemClosers : List String := closers ++ ["or", "as"]

def operators : List String := ["==", "in", "-", ">>", "|"]

def operandClosers : List String := itemClosers ++ operators

/-! ### Readers of phrases -/

/-- The reader reads the phrase after the lead and before any of the words. -/
def ReadsAfter (l : Lead) (r : Reader Tree) (ws : List String) (p : Phrase) : Prop :=
  ∀ ⦃i j : Input⦄, Crosses i (p.lexemes l) j → j.Before ws →
    ∃ t, r i = some (t, j) ∧ t.outline = p.tree

/-- The reader reads the phrase before any of the words. -/
def Reads (r : Reader Tree) (ws : List String) (p : Phrase) : Prop :=
  ∀ ⦃l : Lead⦄, ReadsAfter l r ws p

theorem Reads.after {r : Reader Tree} {ws : List String} {p : Phrase}
    (h : Reads r ws p) (l : Lead) :
    ReadsAfter l r ws p := @h l

/-! ### Lists with commas -/

/-- A phrase of a list, after a comma and blanks before that unless it is the first one. -/
structure Row where
  blanks : Nat
  lead : Lead
  phrase : Phrase

def inLine : List Phrase → List Row
  | [] => []
  | p :: ps => ⟨0, .blanks 0, p⟩ :: ps.map (⟨0, .blanks 1, ·⟩)

def afterCommas (rs : List Row) : List Lexeme :=
  rs.flatMap fun r => ⟨.blanks r.blanks, .mark, ","⟩ :: r.phrase.lexemes r.lead

def listed : List Row → List Lexeme
  | [] => []
  | r :: rs => r.phrase.lexemes r.lead ++ afterCommas rs

theorem flat_afterCommas {rs : List Row} (h : ∀ r ∈ rs, r.lead.newline = false ∧ r.phrase.Flat) :
    IsFlat (afterCommas rs) :=
  isFlat_flatMap.mpr fun r hr => isFlat_cons.mpr ⟨rfl, (Phrase.isFlat_lexemes ..).mpr (h r hr)⟩

theorem flat_listed {rs : List Row} (h : ∀ r ∈ rs, r.lead.newline = false ∧ r.phrase.Flat) :
    IsFlat (listed rs) := by
  cases rs with
  | nil => exact isFlat_nil
  | cons r rs =>
    rw [List.forall_mem_cons] at h
    exact isFlat_append.mpr ⟨(Phrase.isFlat_lexemes ..).mpr h.1, flat_afterCommas h.2⟩

@[simp] theorem flat_listed_inLine {ps : List Phrase} :
    IsFlat (listed (inLine ps)) ↔ ∀ p ∈ ps, p.Flat := by
  cases ps with
  | nil => simp [inLine, listed]
  | cons p ps => simp [inLine, listed, afterCommas, Lead.newline]

/-- Phrases on one line have a comma and a blank between them. -/
@[simp] theorem charsOf_listed_inLine (ps : List Phrase) :
    charsOf (listed (inLine ps)) = [',', ' '].intercalate (ps.map (·.chars)) := by
  cases ps with
  | nil => rfl
  | cons p ps =>
    rw [inLine, listed, charsOf_append, Phrase.charsOf_lexemes]
    induction ps generalizing p with
    | nil => simp [afterCommas, Lead.chars]
    | cons q qs ih =>
      rw [List.map_cons, afterCommas, List.flatMap_cons, ← afterCommas, charsOf_append,
        charsOf_cons,
        Phrase.charsOf_lexemes, List.map_cons, List.map_cons, List.intercalate_cons_cons,
        ← List.map_cons, ← ih q]
      simp [Lexeme.chars, Lead.chars]

def treesOf (rs : List Row) : List Tree := rs.map (·.phrase.tree)

@[simp] theorem treesOf_inLine (ps : List Phrase) : treesOf (inLine ps) = ps.map (·.tree) := by
  cases ps with
  | nil => rfl
  | cons p ps => simp [treesOf, inLine]

theorem phrase_of_mem_inLine {ps : List Phrase} {r : Row} (h : r ∈ inLine ps) : r.phrase ∈ ps := by
  cases ps with
  | nil => exact absurd h List.not_mem_nil
  | cons p ps =>
    rcases List.mem_cons.mp h with rfl | h
    · exact List.mem_cons_self
    · obtain ⟨q, hq, rfl⟩ := List.mem_map.mp h
      exact List.mem_cons_of_mem p hq

theorem length_afterCommas {rs : List Row} : rs.length ≤ (afterCommas rs).length ∧
    ∀ r ∈ rs, r.phrase.size < (afterCommas rs).length := by
  induction rs with
  | nil => exact ⟨Nat.zero_le _, fun r h => absurd h List.not_mem_nil⟩
  | cons r rs ih =>
    have hsize : 1 ≤ r.phrase.size := Nat.succ_pos _
    have hlength : (afterCommas (r :: rs)).length =
        r.phrase.size + 1 + (afterCommas rs).length := by
      rw [afterCommas, List.flatMap_cons, List.length_append, List.length_cons,
        Phrase.length_lexemes, afterCommas]
    rw [hlength, List.length_cons, List.forall_mem_cons]
    exact ⟨by omega, by omega, fun q hq => by have := ih.2 q hq; omega⟩

theorem length_listed {rs : List Row} : rs.length ≤ (listed rs).length ∧
    ∀ r ∈ rs, r.phrase.size ≤ (listed rs).length := by
  cases rs with
  | nil => exact ⟨Nat.zero_le _, fun r h => absurd h List.not_mem_nil⟩
  | cons r rs =>
    have hsize : 1 ≤ r.phrase.size := Nat.succ_pos _
    obtain ⟨hlength, hmem⟩ := @length_afterCommas rs
    rw [listed, List.length_append, Phrase.length_lexemes, List.length_cons, List.forall_mem_cons]
    exact ⟨by omega, by omega, fun q hq => by have := hmem q hq; omega⟩

/-- Where a list goes on, a comma follows. -/
theorem sees_afterCommas {i j : Input} {rs : List Row} (hc : Crosses i (afterCommas rs) j) :
    i.sees "," = true ∨ j = i := by
  cases rs with
  | nil => exact .inr hc.eq_of_nil
  | cons r rs => exact .inl (Crosses.sees hc ",")

theorem before_afterCommas {i j : Input} {rs : List Row} (hc : Crosses i (afterCommas rs) j)
    {ws : List String} (hcomma : "," ∈ ws) (hj : j.Before ws) : i.Before ws := by
  rcases sees_afterCommas hc with h | rfl
  · exact Input.before_of_sees h hcomma
  · exact hj

section CommaTail

variable {read : Reader Tree} {stop : Input → Bool} {i j : Input}

/-- The phrases after commas are read one by one. -/
theorem commaTail_afterCommas {ws : List String} (hcomma : "," ∈ ws) {rs : List Row}
    (hread : ∀ r ∈ rs, ReadsAfter r.lead read ws r.phrase)
    (hstop : ∀ r ∈ rs, ∀ ⦃i j : Input⦄, Crosses i (r.phrase.lexemes r.lead) j → stop i = false)
    (hc : Crosses i (afterCommas rs) j) (hj : j.Before ws) (fuel : Nat) (comma : Bool)
    (seen : List Tree) : ∃ ts : List Tree, ts.map Tree.outline = treesOf rs ∧
      commaTail read stop (fuel + rs.length) comma seen i =
        commaTail read stop fuel (comma || !rs.isEmpty) (ts.reverse ++ seen) j := by
  induction rs generalizing i comma seen with
  | nil => exact ⟨[], rfl, by rw [← hc.eq_of_nil]; simp⟩
  | cons r rs ih =>
    rw [List.forall_mem_cons] at hread hstop
    rw [afterCommas, List.flatMap_cons, List.cons_append] at hc
    have hgoes : i.goesOn "," = true := hc.goesOn rfl ","
    obtain ⟨t, k, htake, -, -, hk⟩ := hc.take rfl
    obtain ⟨m, hm, hrest⟩ := hk.append
    obtain ⟨u, hu, hout⟩ := hread.1 hm (before_afterCommas hrest hcomma hj)
    obtain ⟨us, hus, hall⟩ := ih hread.2 hstop.2 hrest true (u :: seen)
    refine ⟨u :: us, by rw [List.map_cons, hus, hout]; rfl, ?_⟩
    rw [List.length_cons, ← Nat.add_assoc, commaTail, if_pos hgoes, htake]
    simp only [Option.bind_eq_bind, Option.bind_some, hstop.1 hm, Bool.false_eq_true, if_false, hu,
      hall]
    simp

theorem commaTail_of_before {ws : List String} (hcomma : "," ∉ ws) (hj : j.Before ws) (fuel : Nat)
    (comma : Bool) (seen : List Tree) :
    commaTail read stop (fuel + 1) comma seen j = some ((seen.reverse, comma), j) := by
  rw [commaTail, hj.goesOn hcomma, if_neg Bool.false_ne_true]

/-- The rest of a list without a comma at its end. -/
theorem commaTail_eq {ws vs : List String} (hcomma : "," ∈ ws) {rs : List Row}
    (hread : ∀ r ∈ rs, ReadsAfter r.lead read ws r.phrase)
    (hstop : ∀ r ∈ rs, ∀ ⦃i j : Input⦄, Crosses i (r.phrase.lexemes r.lead) j → stop i = false)
    (hc : Crosses i (afterCommas rs) j) (hvs : vs ⊆ ws) (hend : "," ∉ vs) (hj : j.Before vs)
    {fuel : Nat} (hfuel : rs.length < fuel) (comma : Bool) (seen : List Tree) :
    ∃ ts : List Tree, ts.map Tree.outline = treesOf rs ∧ commaTail read stop fuel comma seen i =
      some ((seen.reverse ++ ts, comma || !rs.isEmpty), j) := by
  obtain ⟨n, rfl⟩ : ∃ n, fuel = n + 1 + rs.length := ⟨fuel - rs.length - 1, by omega⟩
  obtain ⟨ts, hts, hread⟩ :=
    commaTail_afterCommas hcomma hread hstop hc (hj.mono hvs) (n + 1) comma seen
  refine ⟨ts, hts, ?_⟩
  rw [hread, commaTail_of_before hend hj, List.reverse_append, List.reverse_reverse]

/-- The outline of a list with commas: its phrase if there is only one. -/
def treeOfList (r : Row) (rs : List Row) : Tree :=
  if rs.isEmpty then r.phrase.tree else .node .sequence .plain 0 0 "" (treesOf (r :: rs))

/-- A list with commas. -/
theorem commaList_eq {ws vs : List String} (hcomma : "," ∈ ws) {r : Row} {rs : List Row}
    (hread : ∀ q ∈ r :: rs, ReadsAfter q.lead read ws q.phrase)
    (hstop : ∀ q ∈ rs, ∀ ⦃i j : Input⦄, Crosses i (q.phrase.lexemes q.lead) j → stop i = false)
    (hc : Crosses i (listed (r :: rs)) j) (hvs : vs ⊆ ws) (hend : "," ∉ vs) (hj : j.Before vs)
    {fuel : Nat} (hfuel : rs.length < fuel) :
    ∃ t, commaList fuel read stop i = some (t, j) ∧ t.outline = treeOfList r rs := by
  rw [List.forall_mem_cons] at hread
  obtain ⟨k, hk, hrest⟩ := hc.append
  obtain ⟨t, ht, hout⟩ := hread.1 hk (before_afterCommas hrest hcomma (hj.mono hvs))
  obtain ⟨ts, hts, htail⟩ :=
    commaTail_eq hcomma hread.2 hstop hrest hvs hend hj hfuel false [t]
  rw [commaList, ht]
  simp only [Option.bind_eq_bind, Option.bind_some, htail, Bool.false_or]
  refine ⟨_, rfl, ?_⟩
  cases rs with
  | nil => exact hout
  | cons q qs =>
    rw [treeOfList]
    simp only [List.isEmpty_cons, Bool.not_false, if_true, Bool.false_eq_true, if_false]
    rw [Input.outline_node _ (by decide), List.reverse_singleton, List.singleton_append,
      List.map_cons, hts, hout]
    rfl

/-- A list of one phrase. -/
theorem commaList_single {ws vs : List String} {p : Phrase} {l : Lead}
    (hread : ReadsAfter l read ws p) (hc : Crosses i (p.lexemes l) j) (hvs : vs ⊆ ws)
    (hend : "," ∉ vs) (hj : j.Before vs) {fuel : Nat} (hfuel : 0 < fuel) :
    ∃ t, commaList fuel read stop i = some (t, j) ∧ t.outline = p.tree := by
  obtain ⟨fuel, rfl⟩ : ∃ n, fuel = n + 1 := ⟨fuel - 1, by omega⟩
  obtain ⟨t, ht, hout⟩ := hread hc (hj.mono hvs)
  refine ⟨t, ?_, hout⟩
  rw [commaList, ht]
  simp only [Option.bind_eq_bind, Option.bind_some, commaTail_of_before hend hj, Bool.false_eq_true,
    if_false]

end CommaTail

namespace Phrase

variable {p : Phrase} {i j : Input} {l : Lead}

theorem textUpTo_eq (hc : Crosses i (p.lexemes l) j) : textUpTo i.first j.last.stop = p.text := by
  rw [lexemes] at hc
  exact hc.text

theorem Formed.sees (h : p.Formed) (hc : Crosses i (p.lexemes l) j) {w : String}
    (hw : w ∈ strayWords) : i.sees w = false := by
  rw [lexemes] at hc
  rw [hc.sees, Lexeme.tells, Bool.and_eq_false_imp]
  intro he
  have : (p.head l).word = w := by simpa using he
  exact absurd (this ▸ hw) h.opens

theorem Valued.seesSecond (h : p.Valued) (hc : Crosses i (p.lexemes l) j) {w : String}
    (hw : w ∈ ["=", ":="]) (hj : j.sees w = false) : i.seesSecond w = false := by
  obtain ⟨k, hk, hj'⟩ := hc.cons
  rw [hk.seesSecond]
  cases htail : p.tail with
  | nil =>
    rw [htail] at hj'
    rw [← hj'.eq_of_nil, hj]
  | cons x xs =>
    rw [htail] at hj'
    rw [hj'.sees, Lexeme.tells, Bool.and_eq_false_imp]
    intro he
    have hx := h.second x (by rw [htail]; rfl)
    exact absurd ((by simpa using he : x.word = w) ▸ hw) hx

theorem one_le_size (p : Phrase) : 1 ≤ p.size := Nat.succ_pos _

/-! ### Levels of expressions -/

/-- The phrase is an atom with any attributes, calls and subscripts. -/
structure IsPrimary (p : Phrase) : Prop extends p.Valued where
  calm : (p.head (.blanks 0)).word ≠ "await"
  hooks : ∀ x ∈ (p.lexemes (.blanks 0)).getLast?, x.kind ≠ .number
  reads : ∀ ⦃fuel⦄, 12 * p.size ≤ fuel + 6 → ∀ ⦃l i j⦄, Crosses i (p.lexemes l) j →
    ∃ t n, primary fuel i = primaryTail n i.first t j ∧ fuel ≤ n + p.size ∧ t.outline = p.tree

structure IsOperand (p : Phrase) : Prop extends p.Valued where
  reads : ∀ ⦃fuel⦄, 12 * p.size ≤ fuel + 5 → Reads (operand fuel) operandClosers p

/-- The phrase is a part of an expression between `and` and `or`. -/
structure IsItem (p : Phrase) : Prop extends p.Valued where
  reads : ∀ ⦃fuel⦄, 12 * p.size ≤ fuel + 4 → ∀ c, Reads (item fuel c) itemClosers p

structure IsExpression (p : Phrase) : Prop extends p.Valued where
  reads : ∀ ⦃fuel⦄, 12 * p.size ≤ fuel + 3 → ∀ c, Reads (expression fuel c) closers p

structure IsArgument (p : Phrase) : Prop extends p.Formed where
  reads : ∀ ⦃fuel⦄, 12 * p.size ≤ fuel + 2 → Reads (argument fuel) [",", ")", "for"] p

end Phrase

theorem primaryTail_of_before {j : Input} (hj : j.Before operandClosers) (n : Nat) (first : Token)
    (t : Tree) : primaryTail (n + 1) first t j = some (t, j) := by
  rw [primaryTail.eq_def]
  simp only [hj.goesOn (show "." ∉ operandClosers by decide),
    hj.goesOn (show "(" ∉ operandClosers by decide),
    hj.goesOn (show "[" ∉ operandClosers by decide), Bool.false_eq_true, if_false]

theorem chainTail_of_before {j : Input} (hj : j.Before itemClosers) (n : Nat) (first : Token)
    (parts : List Tree) :
    chainTail (n + 1) first parts j = some (j.grouped first parts.reverse, j) := by
  rw [chainTail, hj.operator (by decide)]

theorem expressionTail_of_before {j : Input} (hj : j.Before closers) (n : Nat) (c : Bool)
    (first : Token) (parts : List Tree) :
    expressionTail (n + 1) c first parts j = some (j.grouped first parts.reverse, j) := by
  rw [expressionTail]
  simp only [hj.goesOn (show "and" ∉ closers by decide), hj.goesOn (show "or" ∉ closers by decide),
    hj.goesOn (show "if" ∉ closers by decide), hj.goesOn (show "as" ∉ closers by decide),
    Bool.or_self, Bool.and_false, Bool.false_eq_true, if_false]

namespace Phrase

variable {p : Phrase} {i j : Input} {l : Lead}

/-- A phrase without a sign before it is read as a primary. -/
theorem Formed.operand_eq (h : p.Formed) (hcalm : (p.head (.blanks 0)).word ≠ "await")
    (hc : Crosses i (p.lexemes l) j) (fuel : Nat) : operand (fuel + 1) i = primary fuel i := by
  have hawait : i.seesAwait = false := by
    rw [Input.seesAwait, show i.sees "await" = false from ?_, Bool.false_and]
    rw [lexemes] at hc
    rw [hc.sees, Lexeme.tells, show ((p.head l).word == "await") = false from beq_false_of_ne hcalm,
      Bool.false_and]
  rw [operand]
  simp only [h.sees hc (show "+" ∈ strayWords by decide),
    h.sees hc (show "-" ∈ strayWords by decide),
    h.sees hc (show "~" ∈ strayWords by decide),
    h.sees hc (show "*" ∈ strayWords by decide), hawait,
    Bool.or_self, Bool.false_eq_true, if_false]

theorem IsPrimary.isOperand (h : p.IsPrimary) : p.IsOperand where
  toValued := h.toValued
  reads fuel hfuel l i j hc hj := by
    have := p.one_le_size
    obtain ⟨fuel, rfl⟩ : ∃ n, fuel = n + 1 := ⟨fuel - 1, by omega⟩
    obtain ⟨t, n, hread, hn, ht⟩ := h.reads (by omega) hc
    obtain ⟨n, rfl⟩ : ∃ m, n = m + 1 := ⟨n - 1, by omega⟩
    exact ⟨t, by rw [h.operand_eq h.calm hc, hread, primaryTail_of_before hj], ht⟩

/-- What is read as an atom is an operand. -/
theorem Valued.isOperand (h : p.Valued) (hcalm : (p.head (.blanks 0)).word ≠ "await")
    (hatom : ∀ ⦃fuel⦄, 12 * p.size ≤ fuel + 7 → Reads (atom fuel) operandClosers p) :
    p.IsOperand where
  toValued := h
  reads fuel hfuel l i j hc hj := by
    have := p.one_le_size
    obtain ⟨fuel, rfl⟩ : ∃ n, fuel = n + 1 + 1 + 1 := ⟨fuel - 3, by omega⟩
    obtain ⟨t, hread, ht⟩ := @hatom (fuel + 1) (by omega) l i j hc hj
    exact ⟨t, by simp [h.operand_eq hcalm hc, primary, hread, primaryTail_of_before hj], ht⟩

/-- What is read as an atom, whatever follows, is a primary. -/
theorem Valued.isPrimary (h : p.Valued) (hcalm : (p.head (.blanks 0)).word ≠ "await")
    (hhooks : ∀ x ∈ (p.lexemes (.blanks 0)).getLast?, x.kind ≠ .number)
    (hatom : ∀ ⦃fuel⦄, 12 * p.size ≤ fuel + 7 → ∀ ⦃l i j⦄, Crosses i (p.lexemes l) j →
      ∃ t, atom fuel i = some (t, j) ∧ t.outline = p.tree) : p.IsPrimary where
  toValued := h
  calm := hcalm
  hooks := hhooks
  reads fuel hfuel l i j hc := by
    have := p.one_le_size
    obtain ⟨fuel, rfl⟩ : ∃ n, fuel = n + 1 := ⟨fuel - 1, by omega⟩
    obtain ⟨t, hread, ht⟩ := hatom (by omega) hc
    exact ⟨t, fuel, by simp [primary, hread], by omega, ht⟩

theorem IsOperand.isItem (h : p.IsOperand) : p.IsItem where
  toValued := h.toValued
  reads fuel hfuel c l i j hc hj := by
    have := p.one_le_size
    obtain ⟨fuel, rfl⟩ : ∃ n, fuel = n + 1 + 1 := ⟨fuel - 2, by omega⟩
    obtain ⟨t, hread, ht⟩ := @h.reads (fuel + 1) (by omega) l i j hc (hj.mono (by decide))
    have hassign := h.seesSecond hc (show ":=" ∈ ["=", ":="] by decide)
      (hj.assigns (by decide) (by decide))
    refine ⟨t, ?_, ht⟩
    rw [item]
    simp only [h.sees hc (show "not" ∈ strayWords by decide),
      h.sees hc (show "lambda" ∈ strayWords by decide), hassign, Bool.and_false, Bool.false_eq_true,
      if_false, hread, Option.bind_eq_bind, Option.bind_some]
    exact chainTail_of_before hj fuel i.first [t]

theorem IsItem.isExpression (h : p.IsItem) : p.IsExpression where
  toValued := h.toValued
  reads fuel hfuel c l i j hc hj := by
    have := p.one_le_size
    obtain ⟨fuel, rfl⟩ : ∃ n, fuel = n + 1 + 1 := ⟨fuel - 2, by omega⟩
    obtain ⟨t, hread, ht⟩ := @h.reads (fuel + 1) (by omega) c l i j hc (hj.mono (by decide))
    refine ⟨t, ?_, ht⟩
    rw [expression]
    simp only [hread, Option.bind_eq_bind, Option.bind_some]
    exact expressionTail_of_before hj fuel c i.first [t]

theorem IsOperand.isExpression (h : p.IsOperand) : p.IsExpression := h.isItem.isExpression

theorem IsPrimary.isExpression (h : p.IsPrimary) : p.IsExpression := h.isOperand.isExpression

theorem IsExpression.isArgument (h : p.IsExpression) : p.IsArgument where
  toFormed := h.toFormed
  reads fuel hfuel l i j hc hj := by
    have := p.one_le_size
    obtain ⟨fuel, rfl⟩ : ∃ n, fuel = n + 1 := ⟨fuel - 1, by omega⟩
    have hassign := h.seesSecond hc (show "=" ∈ ["=", ":="] by decide)
      (hj.assigns (by decide) (by decide))
    rw [argument]
    simp only [h.sees hc (show "*" ∈ strayWords by decide),
      h.sees hc (show "**" ∈ strayWords by decide), hassign, Bool.or_self, Bool.and_false,
      Bool.false_eq_true, if_false]
    exact h.reads (by omega) true hc (hj.mono (by decide))

theorem IsExpression.element (h : p.IsExpression) {fuel : Nat} (hfuel : 12 * p.size ≤ fuel + 2) :
    Reads (element fuel) closers p := by
  intro l i j hc hj
  have := p.one_le_size
  obtain ⟨fuel, rfl⟩ : ∃ n, fuel = n + 1 := ⟨fuel - 1, by omega⟩
  rw [AgentFlow.Code.element]
  simp only [h.sees hc (show "yield" ∈ strayWords by decide),
    h.sees hc (show "*" ∈ strayWords by decide), Bool.false_eq_true, if_false]
  exact h.reads (by omega) true hc hj

/-- An expression may start with the first token of a phrase. -/
theorem Formed.starts (h : p.Formed) {t : Token} (ht : t.Shows (p.head l)) :
    t.startsExpression = true := by
  have hopens := h.opens
  have hvalid := (h.printed.valid _ List.mem_cons_self).body
  rw [Token.startsExpression, ht.kind, ht.word]
  rw [head] at hopens hvalid ⊢
  cases hk : p.kind with
  | name =>
    have hall : ∀ w ∈ reservedWords, w ∉ strayWords →
      w ∈ ["True", "False", "None", "not", "lambda"] := by
      decide
    rw [hk] at hopens
    simp only [Lexeme.word, Bool.or_eq_true, Bool.not_eq_true', List.contains_eq_mem,
      decide_eq_false_iff_not, decide_eq_true_eq] at hopens ⊢
    by_cases hr : p.body ∈ reservedWords
    · exact .inr (hall _ hr hopens)
    · exact .inl hr
  | mark =>
    have hall : ∀ m ∈ plainMarks, m ∉ strayWords →
      m ∈ ["(", "[", "\x7b", "+", "-", "~", "*", "..."] := by
      decide
    rw [hk] at hopens hvalid
    exact List.contains_iff_mem.mpr (hall _ hvalid hopens)
  | number => rfl
  | text => rfl
  | conversion => rw [hk] at hvalid; exact hvalid.elim
  | broken => rw [hk] at hvalid; exact hvalid.elim
  | finish => rw [hk] at hvalid; exact hvalid.elim

theorem Formed.startsExpression (h : p.Formed) (hc : Crosses i (p.lexemes l) j)
    (hended : i.ended = false) : i.startsExpression = true := by
  obtain ⟨t, rest, hrest, ht⟩ := hc.head
  rw [Input.startsExpression, hrest]
  simp only [hended, Bool.not_false, Bool.true_and]
  exact h.starts ht

theorem IsExpression.slice (h : p.IsExpression) {fuel : Nat} (hfuel : 12 * p.size ≤ fuel + 2)
    (hl : l.newline = false) : ReadsAfter l (slice fuel) [",", "]"] p := by
  intro i j hc hj
  have := p.one_le_size
  obtain ⟨fuel, rfl⟩ : ∃ n, fuel = n + 1 := ⟨fuel - 1, by omega⟩
  obtain ⟨t, hread, ht⟩ := @h.reads fuel (by omega) true l i j hc (hj.mono (by decide))
  have hcolon : j.sees ":" = false := hj.assigns (by decide) (by decide)
  have hstarts := h.startsExpression hc (hc.ended hl)
  refine ⟨t, ?_, ht⟩
  rw [AgentFlow.Code.slice]
  simp [hstarts, hread, hcolon, Input.grouped]

theorem IsExpression.expressions (h : p.IsExpression) {fuel : Nat}
    (hfuel : 12 * p.size ≤ fuel + 2) :
    Reads (expressions fuel) listClosers p := by
  intro l i j hc hj
  have := p.one_le_size
  obtain ⟨fuel, rfl⟩ : ∃ n, fuel = n + 1 := ⟨fuel - 1, by omega⟩
  rw [AgentFlow.Code.expressions]
  exact commaList_single ((h.reads (by omega) true).after l) hc (by decide) (by decide) hj
    (show 0 < fuel by omega)

end Phrase

end AgentFlow.Code

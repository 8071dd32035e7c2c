import AgentFlow.Flowchart.Check

/-!
# Nested brackets

The check of brackets keeps a stack of those that are open.  The brackets of a text are nested if
they make up pairs, one inside or after the other, and the check passes exactly such texts.
Brackets between double quotes do not count, and an unpaired quote hides all that follows it.

* `visible_eq`: the check looks at every other piece of a text between its quotes.
* `completes_open_iff`, `completes_close_iff`: **how a bracket completes those that are open.**
* `unbalanced?_eq_none_iff`: **nothing is wrong with the brackets exactly if they are nested.**
-/

namespace AgentFlow.Flowchart

/-! ### Grammar -/

/-- The opening brackets with their closing ones. -/
def pairs : List (Char × Char) := [('(', ')'), ('[', ']'), ('\x7b', '\x7d')]

def isBracket (c : Char) : Bool := pairs.any fun p => c == p.1 || c == p.2

/-- The brackets make up pairs, one inside or after the other. -/
inductive Nested : List Char → Prop
  | nil : Nested []
  | pair {o c : Char} {inner rest : List Char} : (o, c) ∈ pairs → Nested inner → Nested rest →
      Nested (o :: (inner ++ c :: rest))

/-- The first item of a list, the third, and so on. -/
def everyOther {α : Type} : List α → List α
  | [] => []
  | [x] => [x]
  | x :: _ :: rest => x :: everyOther rest

/-- The text without what stands from an odd-numbered double quote to the next one, or to the
end. -/
def outsideQuotes (cs : List Char) : List Char := (everyOther (cs.splitOn '"')).flatten

def bracketsOf (s : String) : List Char := (outsideQuotes s.toList).filter isBracket

/-! ### Quotes -/

/-- What stands outside double quotes, where `quoted` tells whether the text starts between two. -/
def visible (quoted : Bool) : List Char → List Char
  | [] => []
  | c :: rest =>
    if c == '"' then visible (!quoted) rest
    else if quoted then visible quoted rest
    else c :: visible quoted rest

theorem everyOther_cons {α : Type} (x : α) (xs : List α) :
    everyOther (x :: xs) = x :: everyOther xs.tail := by
  cases xs <;> rfl

/-- **What is visible is every other piece of the text between its quotes.** -/
theorem visible_eq (cs : List Char) :
    visible false cs = outsideQuotes cs ∧
      visible true cs = (everyOther (cs.splitOn '"').tail).flatten := by
  induction cs with
  | nil => exact ⟨rfl, rfl⟩
  | cons c rest ih =>
    obtain ⟨p, ps, hps⟩ := List.exists_cons_of_ne_nil (List.splitOn_ne_nil '"' rest)
    rw [outsideQuotes, hps, everyOther_cons] at ih
    by_cases hc : c = '"'
    · have hsplit : (c :: rest).splitOn '"' = [] :: p :: ps := by
        rw [hc, List.splitOn_eq_splitOnP, List.splitOnP_cons_eq_if_modifyHead, if_pos (by decide),
          ← List.splitOn_eq_splitOnP, hps]
      rw [outsideQuotes, hsplit, visible, visible, if_pos (beq_iff_eq.mpr hc),
        if_pos (beq_iff_eq.mpr hc), List.tail_cons, everyOther_cons p ps]
      exact ⟨ih.2, ih.1⟩
    · have hsplit : (c :: rest).splitOn '"' = (c :: p) :: ps := by
        rw [List.splitOn_eq_splitOnP, List.splitOnP_cons_eq_if_modifyHead,
          if_neg (by simpa using hc), ← List.splitOn_eq_splitOnP, hps]
        rfl
      rw [outsideQuotes, hsplit, everyOther_cons, visible, visible, beq_false_of_ne hc,
        if_neg Bool.false_ne_true, if_neg Bool.false_ne_true, if_neg Bool.false_ne_true, if_pos rfl,
        ih.1, ih.2]
      exact ⟨rfl, rfl⟩

/-! ### Pairs -/

theorem opens_iff {o : Char} : opens o = true ↔ ∃ c, (o, c) ∈ pairs := by
  constructor
  · intro h
    rw [opens, Bool.or_eq_true, Bool.or_eq_true, beq_iff_eq, beq_iff_eq, beq_iff_eq] at h
    rcases h with (rfl | rfl) | rfl
    · exact ⟨']', by decide⟩
    · exact ⟨')', by decide⟩
    · exact ⟨'\x7d', by decide⟩
  · rintro ⟨c, h⟩
    have hall : ∀ p ∈ pairs, opens p.1 = true := by decide
    exact hall _ h

theorem opener?_eq_some_iff {c o : Char} : opener? c = some o ↔ (o, c) ∈ pairs := by
  constructor
  · intro h
    unfold opener? at h
    split at h
    · next hc => rw [beq_iff_eq.mp hc, ← Option.some.inj h]; decide
    · split at h
      · next hc => rw [beq_iff_eq.mp hc, ← Option.some.inj h]; decide
      · split at h
        · next hc => rw [beq_iff_eq.mp hc, ← Option.some.inj h]; decide
        · exact absurd h nofun
  · intro h
    have hall : ∀ p ∈ pairs, opener? p.2 = some p.1 := by decide
    exact hall _ h

/-- No bracket both opens and closes. -/
theorem ne_of_mem_pairs {o c o' c' : Char} (h : (o, c) ∈ pairs) (h' : (o', c') ∈ pairs) :
    o ≠ c' := by
  have hall : ∀ p ∈ pairs, ∀ q ∈ pairs, p.1 ≠ q.2 := by decide
  exact hall _ h _ h'

theorem isBracket_open {o c : Char} (h : (o, c) ∈ pairs) : isBracket o = true :=
  List.any_eq_true.mpr ⟨_, h, by simp⟩

theorem isBracket_close {o c : Char} (h : (o, c) ∈ pairs) : isBracket c = true :=
  List.any_eq_true.mpr ⟨_, h, by simp⟩

theorem isBracket_eq_false {c : Char} (ho : opens c = false) (hc : opener? c = none) :
    isBracket c = false := by
  refine List.any_eq_false.mpr ?_
  rintro ⟨o', c'⟩ h
  rw [Bool.or_eq_true, beq_iff_eq, beq_iff_eq, not_or]
  constructor
  · rintro rfl
    exact Bool.noConfusion (ho.symm.trans (opens_iff.mpr ⟨c', h⟩))
  · rintro rfl
    exact absurd (hc.symm.trans (opener?_eq_some_iff.mpr h)) nofun

/-! ### Completing open brackets -/

/-- The text closes the open brackets, the last one first; all else in it is nested. -/
inductive Completes : List Char → List Char → Prop
  | done {bs : List Char} : Nested bs → Completes [] bs
  | close {o c : Char} {inner stack rest : List Char} : (o, c) ∈ pairs → Nested inner →
      Completes stack rest → Completes (o :: stack) (inner ++ c :: rest)

/-- What completes open brackets is nested if there are none, and closes the last one otherwise. -/
theorem Completes.cases {stack bs : List Char} (h : Completes stack bs) :
    (stack = [] ∧ Nested bs) ∨ ∃ o c inner stack' rest, stack = o :: stack' ∧
      bs = inner ++ c :: rest ∧ (o, c) ∈ pairs ∧ Nested inner ∧ Completes stack' rest := by
  cases h with
  | done hn => exact .inl ⟨rfl, hn⟩
  | close h hinner hrest => exact .inr ⟨_, _, _, _, _, rfl, rfl, h, hinner, hrest⟩

/-- A nested text that is not empty starts with a pair. -/
theorem Nested.cases {o : Char} {bs : List Char} (h : Nested (o :: bs)) :
    ∃ c inner rest, bs = inner ++ c :: rest ∧ (o, c) ∈ pairs ∧ Nested inner ∧ Nested rest := by
  cases h with
  | pair h hinner hrest => exact ⟨_, _, _, rfl, h, hinner, hrest⟩

/-- A nested text does not start with a closing bracket. -/
theorem not_nested_close {o c : Char} (h : (o, c) ∈ pairs) (bs : List Char) :
    ¬ Nested (c :: bs) := by
  intro hn
  obtain ⟨c', -, -, -, h', -, -⟩ := hn.cases
  exact ne_of_mem_pairs h' h rfl

theorem completes_none_iff {bs : List Char} : Completes [] bs ↔ Nested bs := by
  refine ⟨fun h => ?_, .done⟩
  obtain ⟨-, hn⟩ | ⟨_, _, _, _, _, hs, -⟩ := h.cases
  · exact hn
  · exact absurd hs (List.cons_ne_nil _ _).symm

theorem completes_nil_iff {stack : List Char} : Completes stack [] ↔ stack = [] := by
  constructor
  · intro h
    obtain ⟨hs, -⟩ | ⟨_, c, inner, _, rest, -, hbs, -⟩ := h.cases
    · exact hs
    · exact absurd hbs.symm (List.append_ne_nil_of_right_ne_nil inner (List.cons_ne_nil c rest))
  · rintro rfl
    exact .done .nil

/-- **An opening bracket has to be completed before those that are open.** -/
theorem completes_open_iff {o c : Char} (h : (o, c) ∈ pairs) {stack bs : List Char} :
    Completes stack (o :: bs) ↔ Completes (o :: stack) bs := by
  constructor
  · intro hc
    obtain ⟨rfl, hn⟩ | ⟨o', c', inner, stack', rest, rfl, hbs, h', hinner, hrest⟩ := hc.cases
    · obtain ⟨c', inner, rest, rfl, h', hinner, hrest⟩ := hn.cases
      exact .close h' hinner (.done hrest)
    · cases inner with
      | nil => exact absurd (List.cons.inj hbs).1 (ne_of_mem_pairs h h')
      | cons o'' inner =>
        -- The bracket is closed inside of what stands before the next closing one.
        obtain ⟨rfl, rfl⟩ := List.cons.inj hbs
        obtain ⟨c'', inner', rest', rfl, h'', hinner', hrest'⟩ := hinner.cases
        have := Completes.close h'' hinner' (.close h' hrest' hrest)
        rwa [← List.cons_append, ← List.append_assoc] at this
  · intro hc
    obtain ⟨hs, -⟩ | ⟨o', c', inner, stack', rest, hs, rfl, h', hinner, hrest⟩ := hc.cases
    · exact absurd hs (List.cons_ne_nil o stack)
    · obtain ⟨rfl, rfl⟩ := List.cons.inj hs
      obtain ⟨rfl, hn⟩ | ⟨_, _, _, _, _, rfl, rfl, h'', hinner', hrest'⟩ := hrest.cases
      · exact .done (.pair h' hinner hn)
      · have := Completes.close h'' (.pair h' hinner hinner') hrest'
        rwa [List.cons_append, List.append_assoc, List.cons_append] at this

/-- **A closing bracket completes the last one that is open, which has to be of its kind.** -/
theorem completes_close_iff {o c : Char} (h : (o, c) ∈ pairs) {stack bs : List Char} :
    Completes stack (c :: bs) ↔ stack.head? = some o ∧ Completes (stack.drop 1) bs := by
  constructor
  · intro hc
    obtain ⟨-, hn⟩ | ⟨o', c', inner, stack', rest, rfl, hbs, h', hinner, hrest⟩ := hc.cases
    · exact absurd hn (not_nested_close h bs)
    · cases inner with
      | nil =>
        obtain ⟨rfl, rfl⟩ := List.cons.inj hbs
        have ho := (opener?_eq_some_iff.mpr h').symm.trans (opener?_eq_some_iff.mpr h)
        exact ⟨ho, hrest⟩
      | cons x inner =>
        obtain ⟨rfl, -⟩ := List.cons.inj hbs
        exact absurd hinner (not_nested_close h inner)
  · rintro ⟨hhead, hc⟩
    obtain ⟨stack', rfl⟩ := List.head?_eq_some_iff.mp hhead
    exact .close h .nil hc

/-! ### The check -/

/-- The check passes exactly the texts that complete the open brackets. -/
theorem unbalancedFrom_eq_none_iff (quoted : Bool) (stack cs : List Char) :
    unbalancedFrom quoted stack cs = none ↔
      Completes stack ((visible quoted cs).filter isBracket) := by
  induction cs generalizing quoted stack with
  | nil =>
    rw [unbalancedFrom, visible, List.filter_nil, completes_nil_iff, ← List.isEmpty_iff]
    split <;> simp_all
  | cons c rest ih =>
    rw [unbalancedFrom, visible]
    split
    · exact ih (!quoted) stack
    · split
      · exact ih quoted stack
      · split
        · next ho =>
          obtain ⟨c', h⟩ := opens_iff.mp ho
          rw [List.filter_cons_of_pos (isBracket_open h), completes_open_iff h]
          exact ih quoted (c :: stack)
        · next ho =>
          cases hc : opener? c with
          | none =>
            have hb := isBracket_eq_false (Bool.not_eq_true _ ▸ ho) hc
            rw [List.filter_cons_of_neg (by rw [hb]; exact Bool.false_ne_true)]
            exact ih quoted stack
          | some o =>
            have h := opener?_eq_some_iff.mp hc
            rw [List.filter_cons_of_pos (isBracket_close h), completes_close_iff h, ← ih]
            simp only [beq_iff_eq]
            split
            · next hhead => simp [hhead]
            · next hhead => simp [hhead]

/-- **Nothing is wrong with the brackets of a text exactly if those outside quotes are nested.** -/
theorem unbalanced?_eq_none_iff (s : String) : unbalanced? s = none ↔ Nested (bracketsOf s) := by
  rw [unbalanced?, unbalancedFrom_eq_none_iff, (visible_eq s.toList).1, completes_none_iff]
  rfl

end AgentFlow.Flowchart

import AgentFlow.Code.Input
import AgentFlow.Proofs.Code.Printed

/-!
# Going over printed lexemes

What a reader of statements and expressions does with the tokens of printed lexemes: which words it
sees, and where it stands after it has taken some of them.

* `Crosses i xs j`: the input `j` is what `i` is after the lexemes `xs`.
* `Crosses.append`: a crossing of two lists of lexemes goes over the first, then over the second.
* `Crosses.sees`, `Crosses.take`, `Crosses.skip`, `Crosses.bracket`: **the readers of single tokens
  go over the lexemes one by one.**
* `Crosses.text`: the text between two places is that of the lexemes.
-/

namespace AgentFlow.Code

/-! ### Words of tokens -/

def Token.tells (t : Token) (w : String) : Bool :=
  t.word == w && (t.kind == .name || t.kind == .mark)

def Lexeme.tells (x : Lexeme) (w : String) : Bool :=
  x.word == w && (x.kind == .name || x.kind == .mark)

namespace Lead

def newline : Lead → Bool
  | blanks _ => false
  | breaks .. | comment .. => true

/-- The number of blanks before the token on its line. -/
def indent : Lead → Nat
  | blanks n | breaks _ n | comment n _ => n

/-- A token with the lead may go on a statement of a block with the margin. -/
def Fits (margin : Nat) (l : Lead) : Prop := l.newline = true → margin ≤ l.indent

end Lead

namespace Token.Shows

variable {t : Token} {x : Lexeme} (h : t.Shows x)

include h

theorem tells_eq (w : String) : t.tells w = x.tells w := by
  rw [Token.tells, Lexeme.tells, h.kind, h.word]

theorem newline_eq : t.gap.newline = x.lead.newline := by
  obtain ⟨line, hgap⟩ := h.gap
  rw [hgap]
  cases x.lead <;> rfl

theorem indent_eq : t.gap.indent = x.lead.indent := by
  obtain ⟨line, hgap⟩ := h.gap
  rw [hgap]
  cases x.lead <;> rfl

/-- Comments before a token are indented as it is. -/
theorem indent_of_mem {c : Comment} (hc : c ∈ t.gap.comments) :
    c.indent = x.lead.indent ∧ x.lead.newline = true := by
  obtain ⟨line, hgap⟩ := h.gap
  rw [hgap] at hc
  cases hx : x.lead with
  | blanks n => rw [hx] at hc; exact absurd hc List.not_mem_nil
  | breaks k n => rw [hx] at hc; exact absurd hc List.not_mem_nil
  | comment n s =>
    rw [hx] at hc
    exact ⟨congrArg Comment.indent (List.mem_singleton.mp hc), rfl⟩

/-- A token whose lead fits goes on a block. -/
theorem breaksBlock_eq {i : Input} (hfits : x.lead.Fits i.margin) : i.breaksBlock t = false := by
  rw [Input.breaksBlock, h.newline_eq, h.indent_eq]
  cases hline : x.lead.newline with
  | false => simp
  | true =>
    have hindent := hfits hline
    have hcomments : (t.gap.comments.any fun c => decide (c.indent < i.margin)) = false := by
      rw [List.any_eq_false]
      intro c hc
      rw [(h.indent_of_mem hc).1]
      simpa using hindent
    simp only [hcomments, Bool.false_or, Bool.and_eq_false_imp, decide_eq_true_eq]
    intro _ hlt
    omega

end Token.Shows

/-! ### Crossing lexemes -/

def Input.past (i : Input) (ts rest : List Token) : Input :=
  { i with rest := rest, last := ts.getLast?.getD i.last, fresh := i.fresh && ts.isEmpty }

/-- The second input is what the first one is after the tokens of the lexemes. -/
structure Crosses (i : Input) (xs : List Lexeme) (j : Input) : Prop where
  tokens : ∃ ts, Spelled xs ts ∧ i.rest = ts ++ j.rest ∧ j = i.past ts j.rest
  fits : ∀ x ∈ xs, x.lead.Fits i.margin

namespace Crosses

variable {i j k : Input} {x : Lexeme} {xs ys : List Lexeme}

theorem eq_of_nil (h : Crosses i [] j) : j = i := by
  obtain ⟨⟨ts, ⟨o, l, after, rfl⟩, hrest, hj⟩, -⟩ := h
  rw [hj, ← (show i.rest = j.rest from hrest)]
  simp [Input.past, place]

/-- What stays as it is. -/
theorem same (h : Crosses i xs j) : j.margin = i.margin ∧ j.simple = i.simple ∧
    j.joined = i.joined ∧ j.opened = i.opened := by
  obtain ⟨⟨ts, -, -, hj⟩, -⟩ := h
  rw [hj]
  exact ⟨rfl, rfl, rfl, rfl⟩

theorem append (h : Crosses i (xs ++ ys) j) : ∃ k, Crosses i xs k ∧ Crosses k ys j := by
  obtain ⟨⟨ts, hts, hrest, hj⟩, hfits⟩ := h
  obtain ⟨us, vs, rfl, hus, hvs⟩ := hts.append
  refine ⟨i.past us (vs ++ j.rest), ⟨⟨us, hus, ?_, rfl⟩, ?_⟩, ⟨vs, hvs, rfl, ?_⟩, ?_⟩
  · rw [hrest, List.append_assoc]
    rfl
  · exact fun x hx => hfits x (List.mem_append_left _ hx)
  · rw [hj]
    cases vs with
    | nil => simp [Input.past]
    | cons v vs =>
      rw [Input.past, List.getLast?_append_of_ne_nil _ (List.cons_ne_nil v vs)]
      simp [Input.past, List.getLast?_cons]
  · exact fun x hx => hfits x (List.mem_append_right _ hx)

theorem head (h : Crosses i (x :: xs) j) : ∃ t rest, i.rest = t :: rest ∧ t.Shows x := by
  obtain ⟨⟨ts, hts, hrest, -⟩, -⟩ := h
  obtain ⟨t, us, rfl, ht, -⟩ := hts.cons
  exact ⟨t, us ++ j.rest, hrest, ht⟩

theorem first (h : Crosses i (x :: xs) j) : i.first.Shows x := by
  obtain ⟨t, rest, hrest, ht⟩ := h.head
  rw [Input.first, hrest]
  exact ht

theorem sees (h : Crosses i (x :: xs) j) (w : String) : i.sees w = x.tells w := by
  obtain ⟨t, rest, hrest, ht⟩ := h.head
  rw [Input.sees, hrest]
  exact ht.tells_eq w

theorem lineEnded (h : Crosses i (x :: xs) j) : i.lineEnded = x.lead.newline := by
  obtain ⟨t, rest, hrest, ht⟩ := h.head
  rw [Input.lineEnded, hrest]
  exact ht.newline_eq

theorem ended (h : Crosses i (x :: xs) j) (hx : x.lead.newline = false) : i.ended = false := by
  rw [Input.ended, h.lineEnded, hx, Bool.and_false]

theorem goesOn (h : Crosses i (x :: xs) j) (hx : x.lead.newline = false) (w : String) :
    i.goesOn w = x.tells w := by
  rw [Input.goesOn, h.ended hx, h.sees, Bool.not_false, Bool.true_and]

/-- Crossing a single lexeme after another one. -/
theorem cons (h : Crosses i (x :: xs) j) : ∃ k, Crosses i [x] k ∧ Crosses k xs j :=
  append (show Crosses i ([x] ++ xs) j from h)

theorem rest_eq (h : Crosses i [x] j) : ∃ t, i.rest = t :: j.rest := by
  obtain ⟨⟨ts, hts, hrest, hj⟩, -⟩ := h
  obtain ⟨t, us, rfl, -, ⟨_, _, _, rfl⟩⟩ := hts.cons
  exact ⟨t, hrest⟩

theorem seesSecond (h : Crosses i [x] j) (w : String) : i.seesSecond w = j.sees w := by
  obtain ⟨t, hrest⟩ := h.rest_eq
  rw [Input.seesSecond, Input.sees, hrest]
  cases j.rest <;> rfl

end Crosses

/-! ### Taking lexemes -/

/-- The marks that open a bracket with those that close it. -/
def brackets : List (String × String) := [("(", ")"), ("[", "]"), ("\x7b", "\x7d")]

theorem mem_brackets {o c : String} : (o, c) ∈ brackets ↔
    o = "(" ∧ c = ")" ∨ o = "[" ∧ c = "]" ∨ o = "\x7b" ∧ c = "\x7d" := by
  simp [brackets]

def Lexeme.isPlain (x : Lexeme) : Bool :=
  x.kind != .mark || !(["(", "[", "\x7b", ")", "]", "\x7d"].contains x.body)

def Token.openedAfter (t : Token) (opened : List String) : List String :=
  if t.kind != .mark then opened
  else if ["(", "[", "\x7b"].contains t.word then t.word :: opened
  else if [")", "]", "\x7d"].contains t.word then opened.drop 1
  else opened

theorem Token.Shows.openedAfter_eq {t : Token} {x : Lexeme} (h : t.Shows x)
    (hx : x.isPlain = true) (opened : List String) : t.openedAfter opened = opened := by
  rw [Token.openedAfter, h.kind, h.word]
  cases hk : x.kind with
  | mark => simp_all [Lexeme.isPlain, Lexeme.word]
  | _ => rfl

namespace Crosses

variable {i j k : Input} {x : Lexeme} {xs ys : List Lexeme}

/-- A single lexeme is taken, whatever brackets are open. -/
theorem take_within (h : Crosses i [x] j) : ∃ t : Token, t.Shows x ∧ ∀ os : List String,
    Input.take? { i with opened := os } = some (t, { j with opened := t.openedAfter os }) := by
  obtain ⟨⟨ts, hts, hrest, hj⟩, hfits⟩ := h
  obtain ⟨t, us, rfl, ht, ⟨_, _, _, rfl⟩⟩ := hts.cons
  refine ⟨t, ht, fun os => ?_⟩
  have hbreaks : Input.breaksBlock { i with opened := os } t = false :=
    ht.breaksBlock_eq (hfits x List.mem_cons_self)
  have hrest' : i.rest = t :: j.rest := hrest
  rw [hrest'] at hbreaks
  rw [Input.take?]
  simp only [hrest', hbreaks, Bool.false_eq_true, if_false]
  rw [hj]
  simp [Input.past, Token.openedAfter, place]

theorem take (h : Crosses i (x :: xs) j) (hx : x.isPlain = true) :
    ∃ t k, i.take? = some (t, k) ∧ t.Shows x ∧ Crosses i [x] k ∧ Crosses k xs j := by
  obtain ⟨k, hk, hj⟩ := h.cons
  obtain ⟨t, ht, htake⟩ := hk.take_within
  refine ⟨t, k, ?_, ht, hk, hj⟩
  rw [htake i.opened, ht.openedAfter_eq hx, ← hk.same.2.2.2]

theorem skip (h : Crosses i (x :: xs) j) {w : String} (hw : x.tells w = true)
    (hx : x.isPlain = true) : ∃ k, i.skip? w = some k ∧ Crosses i [x] k ∧ Crosses k xs j := by
  obtain ⟨t, k, htake, -, hk, hj⟩ := h.take hx
  refine ⟨k, ?_, hk, hj⟩
  rw [Input.skip?, h.sees, hw, htake]
  rfl

theorem seesName {l : Lead} {s : String} (h : Crosses i (⟨l, .name, s⟩ :: xs) j)
    (hs : s ∉ reservedWords) : i.seesName = true := by
  obtain ⟨u, rest, hrest, hu⟩ := h.head
  rw [Input.seesName, hrest]
  simpa [Token.isName, hu.kind, hu.word, Lexeme.word] using hs

/-- A variable is read. -/
theorem name {l : Lead} {s : String} (h : Crosses i (⟨l, .name, s⟩ :: xs) j)
    (hs : s ∉ reservedWords) : ∃ line endLine k,
      i.name? = some (.node .identifier .plain line endLine s [], k) ∧
        Crosses i [⟨l, .name, s⟩] k ∧ Crosses k xs j := by
  obtain ⟨t, k, htake, ht, hk, hj⟩ := h.take rfl
  refine ⟨t.line, t.endLine, k, ?_, hk, hj⟩
  rw [Input.name?, h.seesName hs, htake, if_pos rfl]
  simp only [Option.map_some, ht.word]
  rfl

theorem withOpened (h : Crosses i xs j) (os : List String) :
    Crosses { i with opened := os } xs { j with opened := os } := by
  obtain ⟨⟨ts, hts, hrest, hj⟩, hfits⟩ := h
  exact ⟨⟨ts, hts, hrest, by rw [hj]; rfl⟩, hfits⟩

/-- What stands in brackets is crossed with one more bracket open. -/
theorem bracket {l l' : Lead} {o c : String} (hoc : (o, c) ∈ brackets) {inner : List Lexeme}
    (h : Crosses i (⟨l, .mark, o⟩ :: inner ++ ⟨l', .mark, c⟩ :: ys) j) :
    ∃ t k m n, i.take? = some (t, k) ∧ i.skip? o = some k ∧ Crosses k inner m ∧ m.sees c = true ∧
      m.skip? c = some n ∧ Crosses n ys j := by
  obtain ⟨k, hk, hrest⟩ := h.cons
  obtain ⟨m, hm, hclose⟩ := hrest.append
  obtain ⟨n, hn, hj⟩ := hclose.cons
  obtain ⟨t, ht, htake⟩ := hk.take_within
  obtain ⟨u, hu, huntake⟩ := hn.take_within
  have hopened : n.opened = i.opened := by
    rw [hn.same.2.2.2, hm.same.2.2.2, hk.same.2.2.2]
  have hopens : t.openedAfter i.opened = o :: i.opened := by
    rw [Token.openedAfter, ht.kind, ht.word]
    rcases mem_brackets.mp hoc with ⟨rfl, rfl⟩ | ⟨rfl, rfl⟩ | ⟨rfl, rfl⟩ <;> rfl
  have hcloses : u.openedAfter (o :: i.opened) = i.opened := by
    rw [Token.openedAfter, hu.kind, hu.word]
    rcases mem_brackets.mp hoc with ⟨rfl, rfl⟩ | ⟨rfl, rfl⟩ | ⟨rfl, rfl⟩ <;> rfl
  have hsees : Input.sees { m with opened := o :: i.opened } c = true := by
    rw [(hn.withOpened (o :: i.opened)).sees]
    simp [Lexeme.tells, Lexeme.word]
  refine ⟨t, _, { m with opened := o :: i.opened }, n, htake i.opened, ?_, ?_, hsees, ?_, hj⟩
  · rw [Input.skip?, hk.sees, show Input.take? i = _ from htake i.opened]
    simp [Lexeme.tells, Lexeme.word]
  · rw [hopens]
    exact hm.withOpened _
  · rw [Input.skip?, hsees, huntake, if_pos rfl, hcloses, ← hopened]
    rfl

/-- The text from the first token of lexemes to the end of their last one. -/
theorem text (h : Crosses i (x :: xs) j) :
    textUpTo i.first j.last.stop = spelling (x :: xs) := by
  obtain ⟨⟨ts, hts, hrest, hj⟩, -⟩ := h
  obtain ⟨t, us, rfl, -⟩ := id hts.cons
  refine hts.text ?_ ?_
  · rw [Input.first, hrest]
    rfl
  · rw [hj, Input.past]
    rfl

/-- The lines from the first token of lexemes to their last one. -/
theorem endLine (h : Crosses i (x :: xs) j) : j.last.endLine = i.first.line + heightOf xs := by
  obtain ⟨⟨ts, hts, hrest, hj⟩, -⟩ := h
  obtain ⟨t, us, rfl, -⟩ := id hts.cons
  refine hts.endLine ?_ ?_
  · rw [Input.first, hrest]
    rfl
  · rw [hj, Input.past]
    rfl

/-- The same lexemes are crossed with another margin that they fit. -/
theorem withMargin (h : Crosses i xs j) {m : Nat} (hm : ∀ x ∈ xs, x.lead.Fits m) :
    Crosses { i with margin := m } xs { j with margin := m } := by
  obtain ⟨⟨ts, hts, hrest, hj⟩, -⟩ := h
  exact ⟨⟨ts, hts, hrest, by rw [hj]; rfl⟩, hm⟩

/-- The same lexemes are crossed whether or not a line end closes the statement. -/
theorem withSimple (h : Crosses i xs j) (b : Bool) :
    Crosses { i with simple := b } xs { j with simple := b } := by
  obtain ⟨⟨ts, hts, hrest, hj⟩, hfits⟩ := h
  exact ⟨⟨ts, hts, hrest, by rw [hj]; rfl⟩, hfits⟩

/-- The same lexemes are crossed in a statement without blocks. -/
theorem simply (h : Crosses i (x :: xs) j) :
    Crosses { i with simple := true, fresh := true } (x :: xs)
      { j with simple := true, fresh := false } := by
  obtain ⟨⟨ts, hts, hrest, hj⟩, hfits⟩ := h
  obtain ⟨t, us, rfl, -⟩ := id hts.cons
  exact ⟨⟨t :: us, hts, hrest, by rw [hj]; rfl⟩, hfits⟩

end Crosses

end AgentFlow.Code

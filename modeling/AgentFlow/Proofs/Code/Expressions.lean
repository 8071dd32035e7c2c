import AgentFlow.Proofs.Code.Reading

/-!
# Phrases that are expressions

Names, numbers, texts and constants, collections and dictionaries, and what may follow a name:
attributes, arguments and items.

* `isPrimary_name`, `isOperand_literal`, `isPrimary_collection`, `isOperand_dict`: **single words
  and what stands in brackets are read back as operands.**
* `IsPrimary.attr`, `IsPrimary.call`, `IsPrimary.index`: **so are attributes, calls and items of
  what may have them.**
* `IsExpression.named`: an argument may have a name.
-/

namespace AgentFlow.Code

/-! ### Lists in brackets -/

def enclosed (l : Lead) (o : String) (rs : List Row) (close : Lead) (c : String) : List Lexeme :=
  ⟨l, .mark, o⟩ :: listed rs ++ [⟨close, .mark, c⟩]

theorem charsOf_enclosed (a b : Nat) (o : String) (rs : List Row) (c : String) :
    charsOf (enclosed (.blanks a) o rs (.blanks b) c) =
      List.replicate a ' ' ++ o.toList ++ charsOf (listed rs) ++ List.replicate b ' ' ++
        c.toList := by
  simp [enclosed, charsOf_append, charsOf_cons, Lexeme.chars, Lead.chars]

@[simp] theorem isFlat_enclosed {a b : Nat} {o : String} {rs : List Row} {c : String} :
    IsFlat (enclosed (.blanks a) o rs (.blanks b) c) ↔ IsFlat (listed rs) := by
  simp [enclosed, Lead.newline]

/-- An opening bracket and phrases after it may follow any phrase. -/
theorem joins_listed {l : Lead} {o c : String} (hoc : (o, c) ∈ brackets) {rs : List Row}
    (hrs : ∀ r ∈ rs, r.phrase.Formed ∧ r.lead.isPlain = true) (hl : l.isPlain = true) :
    Joins (⟨l, .mark, o⟩ :: listed rs) := by
  have hmarks : ∀ x ∈ brackets, x.1 ∈ closedMarks ∧ x.1 ≠ "..." ∧ x.1 ∈ plainMarks ∧
      x.1 ∉ [".", "..."] := by decide
  obtain ⟨hopened, hdots, hplain, hpoints⟩ := hmarks _ hoc
  cases rs with
  | nil => exact joins_mark hl ⟨hopened, hdots⟩
  | cons r rs =>
    rw [List.forall_mem_cons] at hrs
    have hfirst := hrs.1.1.joins_mark ⟨hplain, hpoints⟩ (.inl hopened) hl hrs.1.2
    have hrest : ∀ q ∈ rs, Joins (⟨.blanks q.blanks, .mark, ","⟩ :: q.phrase.lexemes q.lead) :=
      fun q hq => (hrs.2 q hq).1.joins_mark (by decide) (.inl (by decide)) rfl (hrs.2 q hq).2
    exact hfirst.append (Joins.flatMap hrest)

theorem joins_enclosed {l close : Lead} {o c : String} (hoc : (o, c) ∈ brackets) {rs : List Row}
    (hrs : ∀ r ∈ rs, r.phrase.Formed ∧ r.lead.isPlain = true) (hl : l.isPlain = true)
    (hclose : close.isPlain = true) : Joins (enclosed l o rs close c) := by
  have hmarks : ∀ x ∈ brackets, x.2 ∈ closedMarks ∧ x.2 ≠ "..." := by decide
  exact (joins_listed hoc hrs hl).append (joins_mark hclose (hmarks _ hoc))

theorem isPlain_of_mem_inLine {ps : List Phrase} {r : Row} (h : r ∈ inLine ps) :
    r.lead.isPlain = true ∧ r.lead.newline = false := by
  cases ps with
  | nil => exact absurd h List.not_mem_nil
  | cons p ps =>
    rcases List.mem_cons.mp h with rfl | h
    · exact ⟨rfl, rfl⟩
    · obtain ⟨q, hq, rfl⟩ := List.mem_map.mp h
      exact ⟨rfl, rfl⟩

theorem Input.seesLoop_eq_false {i : Input} {w : String} (h : i.sees w = true)
    (hw : w ∉ ["for", "async"]) : i.seesLoop = false := by
  rw [List.mem_pair, not_or] at hw
  rw [Input.seesLoop, Input.sees_eq_false h hw.1, Input.sees_eq_false h hw.2]
  rfl

/-- The phrases of a list in brackets are read one by one. -/
theorem read_listed {read : Reader Tree} {ws : List String} {c : String} (hcomma : "," ∈ ws)
    (hc : c ∈ ws) (hclose : c ∈ [")", "]", "\x7d"]) {r : Row} {rs : List Row}
    (hformed : ∀ q ∈ r :: rs, q.phrase.Formed)
    (hread : ∀ q ∈ r :: rs, ReadsAfter q.lead read ws q.phrase) {i j : Input}
    (hcross : Crosses i (listed (r :: rs)) j) (hj : j.sees c = true) {fuel : Nat}
    (hfuel : rs.length < fuel) :
    (∀ w ∈ strayWords, i.sees w = false) ∧ ∃ (t : Tree) (k : Input) (ts : List Tree),
      read i = some (t, k) ∧ k.seesLoop = false ∧ (t :: ts).map Tree.outline = treesOf (r :: rs) ∧
      commaTail read (·.sees c) fuel false [t] k = some ((t :: ts, !rs.isEmpty), j) := by
  rw [List.forall_mem_cons] at hread hformed
  obtain ⟨k, hk, hrest⟩ := hcross.append
  have hnext : k.sees "," = true ∨ k.sees c = true :=
    (sees_afterCommas hrest).imp id fun he => by rwa [he] at hj
  have hloop : k.seesLoop = false := by
    rcases hnext with h | h
    · exact Input.seesLoop_eq_false h (by decide)
    · have hne : ∀ c ∈ [")", "]", "\x7d"], c ∉ ["for", "async"] := by decide
      exact Input.seesLoop_eq_false h (hne c hclose)
  have hbefore : k.Before ws :=
    hnext.elim (Input.before_of_sees · hcomma) (Input.before_of_sees · hc)
  obtain ⟨t, ht, hout⟩ := hread.1 hk hbefore
  have hstray : ∀ c ∈ [")", "]", "\x7d"], c ∈ strayWords ∧ c ≠ "," := by decide
  obtain ⟨hcs, hne⟩ := hstray c hclose
  have hstop : ∀ q ∈ rs, ∀ ⦃i j : Input⦄, Crosses i (q.phrase.lexemes q.lead) j →
      i.sees c = false :=
    fun q hq i j hc => (hformed.2 q hq).sees hc hcs
  have hvs : [c] ⊆ ws := by simpa using hc
  obtain ⟨ts, hts, htail⟩ := commaTail_eq hcomma hread.2 hstop hrest hvs (by simpa using hne.symm)
    (Input.before_of_sees hj List.mem_cons_self) hfuel false [t]
  exact ⟨fun w hw => hformed.1.sees hk hw, t, k, ts, ht, hloop,
    by rw [List.map_cons, hts, hout]; rfl, htail⟩

namespace Phrase

variable {p q : Phrase} {s : String}

/-! ### Atoms -/

def group (ts : List Tree) : Tree := .node .group .plain 0 0 "" ts

def identifier (s : String) : Tree := .node .identifier .plain 0 0 s []

def name (s : String) : Phrase := ⟨.name, s, [], identifier s⟩

def constant (s : String) : Phrase := ⟨.name, s, [], group []⟩

def number (s : String) : Phrase := ⟨.number, s, [], group []⟩

def literal (s : String) : Phrase := ⟨.text, s, [], group []⟩

def dots : Phrase := ⟨.mark, "...", [], group []⟩

section Single

variable (s : String)

@[simp] theorem flat_name : (name s).Flat := isFlat_nil

@[simp] theorem flat_constant : (constant s).Flat := isFlat_nil

@[simp] theorem flat_number : (number s).Flat := isFlat_nil

@[simp] theorem flat_literal : (literal s).Flat := isFlat_nil

@[simp] theorem flat_dots : dots.Flat := isFlat_nil

@[simp] theorem chars_name : (name s).chars = s.toList := List.append_nil _

@[simp] theorem chars_constant : (constant s).chars = s.toList := List.append_nil _

@[simp] theorem chars_number : (number s).chars = s.toList := List.append_nil _

@[simp] theorem chars_literal : (literal s).chars = s.toList := List.append_nil _

@[simp] theorem chars_dots : dots.chars = "...".toList := List.append_nil _

end Single

/-- A phrase of one lexeme that opens a value. -/
theorem valued_single {kind : TokenKind} {body : String}
    (hx : (⟨.blanks 0, kind, body⟩ : Lexeme).Valid)
    (hsettled : (⟨.blanks 0, kind, body⟩ : Lexeme).isSettled = true)
    (hopens : (⟨.blanks 0, kind, body⟩ : Lexeme).word ∉ strayWords) (tree : Tree) :
    (⟨kind, body, [], tree⟩ : Phrase).Valued where
  printed := printed_singleton hx
  settled := by
    rintro _ ⟨⟩
    exact hsettled
  opens := hopens
  second := by simp

theorem isPrimary_name (hs : IsName s) : (name s).IsPrimary := by
  refine Valued.isPrimary (valued_single (Lexeme.valid_name rfl hs.chars) rfl hs.not_stray _)
    ?_ ?_ ?_
  · rintro rfl
    exact absurd hs.free (by decide)
  · rintro _ ⟨⟩
    exact TokenKind.noConfusion
  · intro fuel hfuel l i j hc
    obtain ⟨fuel, rfl⟩ : ∃ n, fuel = n + 1 := ⟨fuel - 1, by have := (name s).one_le_size; omega⟩
    obtain ⟨t, rest, hrest, ht⟩ := hc.head
    obtain ⟨line, endLine, k, hname, -, hk⟩ := hc.name hs.not_reserved
    have hkind : t.kind = .name := ht.kind
    have hword : t.word = s := ht.word
    have hisName : t.isName = true := by
      simpa [Token.isName, hkind, hword] using hs.not_reserved
    refine ⟨.node .identifier .plain line endLine s [], ?_, rfl⟩
    rw [atom, hrest]
    simp only [hkind, hisName, if_true]
    rw [hk.eq_of_nil]
    exact hname

/-- A fixed value, a number or the mark for what is left out is a node of its own. -/
theorem atom_single {x : Lexeme} {i j : Input} (hc : Crosses i [x] j)
    (hx : x.kind = .number ∨ x.kind = .name ∧ x.body ∈ ["True", "False", "None"] ∨
      x.kind = .mark ∧ x.body = "...") {fuel : Nat} (hfuel : 0 < fuel) :
    ∃ t, atom fuel i = some (t, j) ∧ t.outline = group [] := by
  obtain ⟨fuel, rfl⟩ : ∃ n, fuel = n + 1 := ⟨fuel - 1, by omega⟩
  obtain ⟨t, rest, hrest, ht⟩ := hc.head
  have hplain : x.isPlain = true := by
    rcases hx with hx | ⟨hx, -⟩ | ⟨hx, hb⟩ <;> simp [Lexeme.isPlain, hx]
    simp [hb]
  obtain ⟨u, k, htake, -, -, hk⟩ := hc.take hplain
  refine ⟨_, ?_, Input.outline_node j (t := .group) (by decide) t []⟩
  rw [atom, hrest]
  obtain ⟨lead, kind, body⟩ := x
  rw [hk.eq_of_nil]
  rcases hx with rfl | ⟨rfl, hb⟩ | ⟨rfl, rfl⟩
  · simp [ht.kind, htake]
  · have hreserved : body ∈ reservedWords := by
      have hall : ∀ w ∈ ["True", "False", "None"], w ∈ reservedWords := by decide
      exact hall body hb
    have hname : t.isName = false := by
      simp [Token.isName, ht.kind, ht.word, Lexeme.word, hreserved]
    simp only [ht.kind, hname, ht.word, Lexeme.word, Bool.false_eq_true, if_false, htake]
    rw [if_pos (List.contains_iff_mem.mpr hb)]
    rfl
  · simp [ht.kind, ht.word, Lexeme.word, htake]

theorem isOperand_constant (hs : s ∈ ["True", "False", "None"]) : (constant s).IsOperand := by
  have hall : ∀ w ∈ ["True", "False", "None"],
      w ∉ strayWords ∧ w ≠ "await" ∧ w ∈ "async" :: "await" :: reservedWords := by decide
  obtain ⟨hopens, hcalm, hword⟩ := hall s hs
  have hchars : IsIdentifier s.toList := isIdentifier_word hword
  refine Valued.isOperand (valued_single (Lexeme.valid_name rfl hchars) rfl hopens _) hcalm ?_
  intro fuel hfuel l i j hc _
  exact atom_single hc (.inr (.inl ⟨rfl, hs⟩)) (by have := (constant s).one_le_size; omega)

theorem isOperand_number (hs : IsNumber s.toList) : (number s).IsOperand := by
  have hvalid : (⟨.blanks 0, .number, s⟩ : Lexeme).Valid := ⟨by simp, hs⟩
  have hopens : "" ∉ strayWords := by decide
  refine Valued.isOperand (valued_single hvalid rfl hopens _) (show "" ≠ "await" by decide) ?_
  intro fuel hfuel l i j hc _
  exact atom_single hc (.inl rfl) (by have := (number s).one_le_size; omega)

theorem isOperand_dots : dots.IsOperand := by
  refine Valued.isOperand
    (valued_single (Lexeme.valid_mark rfl (by decide)) rfl (by decide) _) (by decide) ?_
  intro fuel hfuel l i j hc _
  exact atom_single hc (.inr (.inr ⟨rfl, rfl⟩)) (by have := dots.one_le_size; omega)

theorem isOperand_literal (hs : IsText s.toList) : (literal s).IsOperand := by
  have hvalid : (⟨.blanks 0, .text, s⟩ : Lexeme).Valid := ⟨by simp, hs⟩
  have hopens : "" ∉ strayWords := by decide
  refine Valued.isOperand (valued_single hvalid rfl hopens _) (show "" ≠ "await" by decide) ?_
  intro fuel hfuel l i j hc hj
  obtain ⟨fuel, rfl⟩ : ∃ n, fuel = n + 1 + 1 :=
    ⟨fuel - 2, by have := (literal s).one_le_size; omega⟩
  obtain ⟨t, rest, hrest, ht⟩ := hc.head
  obtain ⟨u, k, htake, -, -, hk⟩ := hc.take rfl
  obtain rfl := hk.eq_of_nil
  refine ⟨_, ?_, Input.outline_node j (t := .group) (by decide) t []⟩
  have hkind : t.kind = .text := ht.kind
  rw [atom, hrest]
  simp only [hkind]
  rw [texts, hrest]
  simp only [htake, ht.fields, hj.no_text, Option.bind_eq_bind, Option.bind_some, List.mapM_nil,
    Option.pure_def, List.reverse_nil, List.nil_append, Bool.false_eq_true, if_false]

/-! ### Collections -/

def collection (o c : String) (ps : List Phrase) : Phrase :=
  ⟨.mark, o, listed (inLine ps) ++ [mark c], .node .sequence .plain 0 0 "" (ps.map (·.tree))⟩

abbrev list (ps : List Phrase) : Phrase := collection "[" "]" ps

abbrev tuple (ps : List Phrase) : Phrase := collection "(" ")" ps

@[simp] theorem flat_collection {o c : String} {ps : List Phrase} :
    (collection o c ps).Flat ↔ ∀ p ∈ ps, p.Flat := by
  simp [collection, Flat, Lead.newline]

@[simp] theorem chars_collection (o c : String) (ps : List Phrase) : (collection o c ps).chars =
    o.toList ++ [',', ' '].intercalate (ps.map (·.chars)) ++ c.toList := by
  simp [collection, chars, charsOf_append, charsOf_cons, Lexeme.chars, Lead.chars]

/-- What starts with a bracket and ends with one is a value. -/
theorem valued_enclosed {o c : String} (hoc : (o, c) ∈ brackets) {rs : List Row}
    (hrs : ∀ r ∈ rs, r.phrase.Formed ∧ r.lead.isPlain = true) {close : Lead}
    (hclose : close.isPlain = true) (tree : Tree) :
    (⟨.mark, o, listed rs ++ [⟨close, .mark, c⟩], tree⟩ : Phrase).Valued := by
  have hjoins := joins_enclosed (l := .blanks 0) hoc hrs rfl hclose
  have hmarks : ∀ x ∈ brackets, x.1 ∉ strayWords ∧ x.2 ∉ ["=", ":="] := by decide
  obtain ⟨hopens, hsecond⟩ := hmarks _ hoc
  refine ⟨⟨hjoins.printed, hjoins.settled, hopens⟩, ?_⟩
  cases rs with
  | nil =>
    rintro _ ⟨⟩
    exact hsecond
  | cons r rs =>
    rintro _ ⟨⟩ hmem
    have hall : ∀ w ∈ ["=", ":="], w ∈ strayWords := by decide
    exact (hrs _ List.mem_cons_self).1.opens (hall _ hmem)

theorem formed_inLine {ps : List Phrase} (h : ∀ p ∈ ps, p.Formed) :
    ∀ r ∈ inLine ps, r.phrase.Formed ∧ r.lead.isPlain = true := fun _ hr =>
  ⟨h _ (phrase_of_mem_inLine hr), (isPlain_of_mem_inLine hr).1⟩

theorem bracketed_enclosed {o c : String} (hoc : (o, c) ∈ brackets) (hc : c ∈ closers)
    {l close : Lead}
    {rs : List Row} (hrs : ∀ r ∈ rs, r.phrase.IsExpression) {i j : Input}
    (hcross : Crosses i (enclosed l o rs close c) j) {fuel : Nat}
    (hfuel : 12 * (listed rs).length ≤ fuel) :
    ∃ t, bracketed (fuel + 1) c i = some (t, j) ∧
      t.outline = .node .sequence .plain 0 0 "" (treesOf rs) := by
  obtain ⟨t, k, m, n, htake, -, hk, hsees, hskip, hn⟩ := hcross.bracket hoc
  obtain rfl := hn.eq_of_nil
  rw [bracketed, htake]
  cases rs with
  | nil =>
    obtain rfl := hk.eq_of_nil
    exact ⟨_, by simp only [Option.bind_eq_bind, Option.bind_some, hsees, if_true, hskip]; rfl,
      Input.outline_node (t := .sequence) j (by decide) ..⟩
  | cons r rs =>
    obtain ⟨hlength, hsizes⟩ := @length_listed (r :: rs)
    rw [List.length_cons] at hlength
    have hclose : c ∈ [")", "]", "\x7d"] ∧ c ∈ strayWords := by
      rcases mem_brackets.mp hoc with ⟨rfl, rfl⟩ | ⟨rfl, rfl⟩ | ⟨rfl, rfl⟩ <;> decide
    have hread : ∀ q ∈ r :: rs, ReadsAfter q.lead (element fuel) closers q.phrase := fun q hq =>
      ((hrs q hq).element (by have := hsizes q hq; omega)).after q.lead
    obtain ⟨hstray, t, k', ts, hread, hloop, hts, htail⟩ := read_listed (by decide) hc hclose.1
      (fun q hq => (hrs q hq).toFormed) hread hk hsees (show rs.length < fuel by omega)
    have hfirst := hstray c hclose.2
    refine ⟨_, ?_, (Input.outline_node (t := .sequence) j (by decide) i.first (t :: ts)).trans ?_⟩
    · simp only [Option.bind_eq_bind, Option.bind_some, hfirst, hread, hloop, htail, hskip,
        Bool.false_eq_true, if_false]
    · rw [hts]

/-- Phrases in round or square brackets, with any blanks between them. -/
def bracketRows (o c : String) (rs : List Row) (b : Nat) : Phrase :=
  ⟨.mark, o, listed rs ++ [⟨.blanks b, .mark, c⟩], .node .sequence .plain 0 0 "" (treesOf rs)⟩

theorem collection_eq (o c : String) (ps : List Phrase) :
    collection o c ps = bracketRows o c (inLine ps) 0 := by
  rw [bracketRows, treesOf_inLine]
  rfl

@[simp] theorem flat_bracketRows {o c : String} {rs : List Row} {b : Nat} :
    (bracketRows o c rs b).Flat ↔ IsFlat (listed rs) := by
  simp [bracketRows, Flat, Lead.newline]

@[simp] theorem chars_bracketRows (o c : String) (rs : List Row) (b : Nat) :
    (bracketRows o c rs b).chars =
      o.toList ++ charsOf (listed rs) ++ List.replicate b ' ' ++ c.toList := by
  simp [bracketRows, chars, charsOf_append, charsOf_cons, Lexeme.chars, Lead.chars]

theorem isPrimary_bracketRows {o c : String} (hoc : (o, c) = ("(", ")") ∨ (o, c) = ("[", "]"))
    {rs : List Row} (hrs : ∀ r ∈ rs, r.phrase.IsExpression ∧ r.lead.isPlain = true) (b : Nat) :
    (bracketRows o c rs b).IsPrimary := by
  have hfacts : (o, c) ∈ brackets ∧ c ∈ closers ∧ o ≠ "await" := by
    rcases hoc with h | h <;> obtain ⟨rfl, rfl⟩ := Prod.mk.inj h <;> decide
  obtain ⟨hbrackets, hclosers, hcalm⟩ := hfacts
  have hformed : ∀ r ∈ rs, r.phrase.Formed ∧ r.lead.isPlain = true := fun r hr =>
    ⟨(hrs r hr).1.toFormed, (hrs r hr).2⟩
  refine Valued.isPrimary (valued_enclosed hbrackets hformed rfl _) hcalm ?_ ?_
  · intro x hx
    rw [bracketRows, lexemes, ← List.cons_append, List.getLast?_concat] at hx
    obtain rfl := Option.some.inj hx
    exact TokenKind.noConfusion
  · intro fuel hfuel l i j hc
    have hsize : (bracketRows o c rs b).size = (listed rs).length + 2 := by
      simp [bracketRows, size]
    obtain ⟨fuel, rfl⟩ : ∃ n, fuel = n + 1 + 1 := ⟨fuel - 2, by omega⟩
    obtain ⟨t, hread, ht⟩ := bracketed_enclosed hbrackets hclosers (fun r hr => (hrs r hr).1) hc
      (show 12 * (listed rs).length ≤ fuel by omega)
    refine ⟨t, ?_, ht⟩
    obtain ⟨u, rest, hrest, hu⟩ := hc.head
    have hkind : u.kind = .mark := hu.kind
    have hword : u.word = o := hu.word
    rw [atom, hrest]
    simp only [hkind, hword]
    rcases hoc with h | h <;> obtain ⟨rfl, rfl⟩ := Prod.mk.inj h
    · exact hread
    · exact hread

theorem isPrimary_collection {o c : String} (hoc : (o, c) = ("(", ")") ∨ (o, c) = ("[", "]"))
    {ps : List Phrase} (hps : ∀ p ∈ ps, p.IsExpression) : (collection o c ps).IsPrimary := by
  rw [collection_eq]
  exact isPrimary_bracketRows hoc
    (fun r hr => ⟨hps _ (phrase_of_mem_inLine hr), (isPlain_of_mem_inLine hr).1⟩) 0

/-! ### Attributes, calls and subscripts -/

def calleeOf (s : String) : Tree → Tree
  | .node t _ l m _ cs => .node t .function l m s cs

theorem outline_calleeOf (s : String) (t : Tree) :
    (calleeOf s t).outline = calleeOf s t.outline := by
  cases t
  rfl

def attr (p : Phrase) (s : String) (a : Nat := 0) (b : Nat := 0) : Phrase :=
  let after : List Lexeme := [⟨.blanks a, .mark, "."⟩, ⟨.blanks b, .name, s⟩]
  p.grow after (.node .attribute .plain 0 0 (spelling (p.lexemes (.blanks 0) ++ after))
    [p.tree.as .object, (identifier s).as .attribute])

def call (p : Phrase) (ps : List Phrase) : Phrase :=
  p.grow (enclosed (.blanks 0) "(" (inLine ps) (.blanks 0) ")") (.node .call .plain 0 0 ""
    [calleeOf p.text p.tree, .node .arguments .plain 0 0 "" (ps.map (·.tree))])

def index (p : Phrase) (rs : List Row) (a : Nat := 0) (b : Nat := 0) : Phrase :=
  p.grow (enclosed (.blanks a) "[" rs (.blanks b) "]")
    (.node .subscript .plain 0 0 "" (p.tree.as .value :: treesOf rs))

@[simp] theorem flat_attr {a b : Nat} : (p.attr s a b).Flat ↔ p.Flat := by
  simp [attr, Lead.newline]

@[simp] theorem chars_attr (a b : Nat) : (p.attr s a b).chars =
    p.chars ++ List.replicate a ' ' ++ '.' :: List.replicate b ' ' ++ s.toList := by
  simp [attr, charsOf_cons, Lexeme.chars, Lead.chars]

@[simp] theorem flat_call {ps : List Phrase} : (p.call ps).Flat ↔ p.Flat ∧ ∀ q ∈ ps, q.Flat := by
  simp [call]

@[simp] theorem chars_call (ps : List Phrase) : (p.call ps).chars =
    p.chars ++ '(' :: [',', ' '].intercalate (ps.map (·.chars)) ++ [')'] := by
  simp [call, charsOf_enclosed]

@[simp] theorem flat_index {rs : List Row} {a b : Nat} :
    (p.index rs a b).Flat ↔ p.Flat ∧ IsFlat (listed rs) := by
  simp [index]

@[simp] theorem chars_index (rs : List Row) (a b : Nat) : (p.index rs a b).chars =
    p.chars ++ List.replicate a ' ' ++ '[' :: charsOf (listed rs) ++ List.replicate b ' ' ++
      [']'] := by
  simp [index, charsOf_enclosed]

theorem fits_point {x : Lexeme} (hx : x.isSettled = true) (hnumber : x.kind ≠ .number) (a : Nat) :
    x.fits ⟨.blanks a, .mark, "."⟩ = true := by
  cases a with
  | succ a => rfl
  | zero =>
    have htight : x.tight (mark ".") = true := by
      cases hk : x.kind <;> simp_all [Lexeme.tight, Lexeme.isSettled]
    exact htight

/-- A primary goes on with lexemes that a step of the reader of its tail reads. -/
theorem IsPrimary.grow (h : p.IsPrimary) {xs : List Lexeme} {tree : Tree} (hne : xs ≠ [])
    (hformed : (p.grow xs tree).Formed) (hhead : ∀ x ∈ xs.head?, x.word ∉ ["=", ":="])
    (hlast : ∀ x ∈ xs.getLast?, x.kind ≠ .number)
    (hstep : ∀ ⦃n first t k j⦄, Crosses k xs j → 12 * xs.length ≤ n → t.outline = p.tree →
      textUpTo first k.last.stop = p.text → textUpTo first j.last.stop = (p.grow xs tree).text →
      ∃ u, primaryTail (n + 1) first t k = primaryTail n first u j ∧ u.outline = tree) :
    (p.grow xs tree).IsPrimary where
  toFormed := hformed
  second := h.second_grow hhead
  calm := h.calm
  hooks := by rwa [getLast?_grow hne]
  reads fuel hfuel l i j hc := by
    have hpos := p.one_le_size
    have htext := textUpTo_eq hc
    rw [size_grow] at hfuel ⊢
    obtain ⟨k, hk, hrest⟩ := cross_grow hc
    obtain ⟨t, n, hread, hn, ht⟩ := h.reads (show 12 * p.size ≤ fuel + 6 by omega) hk
    obtain ⟨n, rfl⟩ : ∃ n', n = n' + 1 := ⟨n - 1, by omega⟩
    obtain ⟨u, hu, hout⟩ := @hstep n i.first t k j hrest (by omega) ht (textUpTo_eq hk) htext
    have hlength := List.length_pos_iff.mpr hne
    exact ⟨u, n, hread.trans hu, by omega, hout⟩

theorem IsPrimary.attr (h : p.IsPrimary) (hs : IsName s) (a b : Nat) :
    (p.attr s a b).IsPrimary := by
  refine h.grow (List.cons_ne_nil _ _) ?_ ?_ ?_ ?_
  · have hname := Lexeme.valid_name (l := .blanks b) rfl hs.chars
    have hpoint := Lexeme.valid_mark (l := .blanks a) rfl (show "." ∈ plainMarks by decide)
    refine h.grow_of_fits (List.cons_ne_nil _ _)
      ((printed_singleton hpoint).append (printed_singleton hname) ?_) ?_ ?_ _
    · rintro _ ⟨⟩ _ ⟨⟩
      cases b <;> rfl
    · rintro x hx _ ⟨⟩
      exact fits_point (h.settled x hx) (h.hooks x hx) a
    · rintro _ ⟨⟩
      rfl
  · rintro _ ⟨⟩
    exact show "." ∉ ["=", ":="] by decide
  · rintro _ ⟨⟩
    exact TokenKind.noConfusion
  · intro n first t k j hc _ ht _ htext
    have hgoes : k.goesOn "." = true := hc.goesOn rfl "."
    obtain ⟨u, m, htake, -, -, hm⟩ := hc.take rfl
    obtain ⟨line, endLine, m', hname, -, hm'⟩ := hm.name hs.not_reserved
    obtain rfl := hm'.eq_of_nil
    refine ⟨.node .attribute .plain first.line j.last.endLine (p.attr s a b).text
      [t.as .object, .node .identifier .attribute line endLine s []], ?_, ?_⟩
    · rw [primaryTail.eq_def]
      simp only [hgoes, if_true, htake, hname, Option.bind_eq_bind, Option.bind_some, htext]
      rfl
    · rw [Tree.outline_node (by decide), List.map_cons, List.map_singleton, Tree.outline_as, ht]
      rfl

theorem arguments_enclosed {l close : Lead} {rs : List Row} (hrs : ∀ r ∈ rs, r.phrase.IsArgument)
    {i j : Input} (hcross : Crosses i (enclosed l "(" rs close ")") j) {fuel : Nat}
    (hfuel : 12 * (listed rs).length ≤ fuel) :
    ∃ t, arguments (fuel + 1) i = some (t, j) ∧
      t.outline = .node .arguments .plain 0 0 "" (treesOf rs) := by
  obtain ⟨t, k, m, n, -, hopen, hk, hsees, hskip, hn⟩ := hcross.bracket (by decide)
  obtain rfl := hn.eq_of_nil
  rw [arguments, hopen]
  cases rs with
  | nil =>
    obtain rfl := hk.eq_of_nil
    exact ⟨_, by simp only [Option.bind_eq_bind, Option.bind_some, hsees, if_true, hskip]; rfl,
      Input.outline_node (t := .arguments) j (by decide) ..⟩
  | cons r rs =>
    obtain ⟨hlength, hsizes⟩ := @length_listed (r :: rs)
    rw [List.length_cons] at hlength
    have hread : ∀ q ∈ r :: rs, ReadsAfter q.lead (argument fuel) [",", ")", "for"] q.phrase :=
      fun q hq => ((hrs q hq).reads (by have := hsizes q hq; omega)).after q.lead
    obtain ⟨hstray, t, k', ts, hread, hloop, hts, htail⟩ := read_listed (by decide)
      (show ")" ∈ [",", ")", "for"] by decide) (by decide)
      (fun q hq => (hrs q hq).toFormed) hread hk
      hsees (show rs.length < fuel by omega)
    refine ⟨_, ?_, (Input.outline_node (t := .arguments) j (by decide) i.first (t :: ts)).trans ?_⟩
    · simp only [Option.bind_eq_bind, Option.bind_some, hstray ")" (by decide),
        hstray "," (by decide), hread, hloop, htail, hskip, Bool.false_eq_true, if_false]
    · rw [hts]

theorem length_enclosed (l : Lead) (o : String) (rs : List Row) (close : Lead) (c : String) :
    (enclosed l o rs close c).length = (listed rs).length + 2 := by
  simp [enclosed]

theorem getLast?_enclosed (l : Lead) (o : String) (rs : List Row) (close : Lead) (c : String) :
    (enclosed l o rs close c).getLast? = some ⟨close, .mark, c⟩ := by
  rw [enclosed, List.getLast?_concat]

/-- A primary goes on with phrases in brackets that a step of the reader of its tail reads. -/
theorem IsPrimary.grow_enclosed (h : p.IsPrimary) {o c : String} (hoc : (o, c) ∈ brackets)
    {rs : List Row} (hrs : ∀ r ∈ rs, r.phrase.Formed ∧ r.lead.isPlain = true) {a b : Nat}
    {tree : Tree}
    (hstep : ∀ ⦃n first t k j⦄, Crosses k (enclosed (.blanks a) o rs (.blanks b) c) j →
      12 * (listed rs).length + 12 ≤ n → t.outline = p.tree →
      textUpTo first k.last.stop = p.text →
      ∃ u, primaryTail (n + 1) first t k = primaryTail n first u j ∧ u.outline = tree) :
    (p.grow (enclosed (.blanks a) o rs (.blanks b) c) tree).IsPrimary := by
  have hne : enclosed (.blanks a) o rs (.blanks b) c ≠ [] := List.cons_ne_nil _ _
  refine h.grow hne (h.toFormed.grow hne (joins_enclosed hoc hrs rfl rfl) tree) ?_ ?_ ?_
  · have hall : ∀ x ∈ brackets, x.1 ∉ ["=", ":="] := by decide
    rintro _ ⟨⟩
    exact hall _ hoc
  · rw [getLast?_enclosed]
    rintro _ ⟨⟩
    exact TokenKind.noConfusion
  · intro n first t k j hc hn ht hcallee _
    rw [length_enclosed] at hn
    exact hstep hc (by omega) ht hcallee

theorem IsPrimary.call (h : p.IsPrimary) {ps : List Phrase} (hps : ∀ q ∈ ps, q.IsArgument) :
    (p.call ps).IsPrimary := by
  have hargs : ∀ r ∈ inLine ps, r.phrase.IsArgument := fun r hr => hps _ (phrase_of_mem_inLine hr)
  refine h.grow_enclosed (by decide) (formed_inLine fun q hq => (hps q hq).toFormed) ?_
  intro n first t k j hc hn ht hcallee
  obtain ⟨n, rfl⟩ : ∃ m, n = m + 1 := ⟨n - 1, by omega⟩
  obtain ⟨u, hread, hu⟩ := arguments_enclosed hargs hc
    (show 12 * (listed (inLine ps)).length ≤ n by omega)
  rw [treesOf_inLine] at hu
  have hgoes : ∀ w, k.goesOn w = (mark "(").tells w := hc.goesOn rfl
  obtain ⟨ty, r, l, m, s, cs⟩ := t
  refine ⟨j.node .call first [calleeOf p.text (.node ty r l m s cs), u], ?_, ?_⟩
  · rw [primaryTail, hgoes, if_neg (by decide), hgoes, if_pos (by decide), hcallee]
    simp only [hread, Option.bind_eq_bind, Option.bind_some]
    rfl
  · rw [Input.outline_node _ (by decide), List.map_cons, List.map_singleton,
      outline_calleeOf, ht, hu]

theorem IsPrimary.index (h : p.IsPrimary) {r : Row} {rs : List Row}
    (hrs : ∀ q ∈ r :: rs, q.phrase.IsExpression ∧ q.lead.newline = false) (a b : Nat) :
    (p.index (r :: rs) a b).IsPrimary := by
  refine h.grow_enclosed (by decide)
    (fun q hq => ⟨(hrs q hq).1.toFormed, isPlain_of_newline (hrs q hq).2⟩) ?_
  intro n first t k j hc hn ht _
  have hgoes : ∀ w, k.goesOn w = (⟨.blanks a, .mark, "["⟩ : Lexeme).tells w := hc.goesOn rfl
  obtain ⟨u, k', m, m', htake, -, hk, hsees, hskip, hend⟩ := hc.bracket (by decide)
  obtain rfl := hend.eq_of_nil
  obtain ⟨hlength, hsizes⟩ := @length_listed (r :: rs)
  rw [List.length_cons] at hlength
  have hread : ∀ q ∈ r :: rs, ReadsAfter q.lead (slice n) [",", "]"] q.phrase := fun q hq =>
    (hrs q hq).1.slice (by have := hsizes q hq; omega) (hrs q hq).2
  obtain ⟨-, v, k'', ts, hread, -, hts, htail⟩ := read_listed (by decide)
    (show "]" ∈ [",", "]"] by decide) (by decide) (fun q hq => (hrs q hq).1.toFormed) hread hk hsees
    (show rs.length < n by omega)
  refine ⟨j.node .subscript first (t.as .value :: v :: ts), ?_, ?_⟩
  · rw [primaryTail.eq_def]
    simp only [hgoes, htake, hread, htail, hskip, Option.bind_eq_bind, Option.bind_some]
    rfl
  · rw [Input.outline_node _ (by decide), List.map_cons, hts, Tree.outline_as, ht]

/-! ### Named arguments -/

def named (s : String) (v : Phrase) : Phrase :=
  (name s).grow (mark "=" :: v.lexemes (.blanks 0))
    (.node .keywordArgument .plain 0 0 "" [(identifier s).as .keyword, v.tree.as .value])

@[simp] theorem flat_named {v : Phrase} : (named s v).Flat ↔ v.Flat := by
  simp [named, Lead.newline]

@[simp] theorem chars_named (v : Phrase) : (named s v).chars = s.toList ++ '=' :: v.chars := by
  simp [named, charsOf_cons, Lexeme.chars, Lead.chars]

theorem IsExpression.named {v : Phrase} (h : v.IsExpression) (hs : IsName s)
    (hdots : v.body ≠ "...") :
    (named s v).IsArgument where
  toFormed := (isPrimary_name hs).toFormed.grow (List.cons_ne_nil _ _)
    (h.joins_mark (by decide) (.inr hdots) rfl rfl) _
  reads fuel hfuel l i j hc hj := by
    have hsize : (Phrase.named s v).size = v.size + 2 := by
      rw [Phrase.named, size_grow, List.length_cons, length_lexemes]
      simp only [Phrase.name, size, List.length_nil]
      omega
    obtain ⟨fuel, rfl⟩ : ∃ n, fuel = n + 1 := ⟨fuel - 1, by omega⟩
    obtain ⟨k', hk', -⟩ := cross_grow hc
    have hform : ∀ w ∈ strayWords, i.sees w = false := fun w hw => (isPrimary_name hs).sees hk' hw
    have hname := hc.seesName hs.not_reserved
    obtain ⟨line, endLine, k, hread, hk, hrest⟩ := hc.name hs.not_reserved
    have hsecond : i.seesSecond "=" = true := by
      rw [hk.seesSecond, hrest.sees]
      rfl
    obtain ⟨m, hskip, -, hm⟩ := hrest.skip (w := "=") rfl rfl
    obtain ⟨t, ht, hout⟩ := @h.reads fuel (by omega) true _ _ _ hm (hj.mono (by decide))
    refine ⟨j.node .keywordArgument i.first
      [.node .identifier .keyword line endLine s [], t.as .value], ?_, ?_⟩
    · rw [argument]
      simp only [hform "*" (by decide), hform "**" (by decide),
        hname, hsecond, hread, hskip, ht, Bool.or_self, Bool.and_self, Bool.false_eq_true, if_false,
        if_true, Option.bind_eq_bind, Option.bind_some]
      rfl
    · rw [Input.outline_node _ (by decide), List.map_cons, List.map_singleton,
        Tree.outline_as, hout]
      rfl

/-! ### Dictionaries -/

def pair (k v : Phrase) : Phrase :=
  k.grow (mark ":" :: v.lexemes (.blanks 1)) (group [k.tree, v.tree])

@[simp] theorem flat_pair {k v : Phrase} : (pair k v).Flat ↔ k.Flat ∧ v.Flat := by
  simp [pair, Lead.newline]

@[simp] theorem chars_pair (k v : Phrase) :
    (pair k v).chars = k.chars ++ ':' :: ' ' :: v.chars := by
  simp [pair, charsOf_cons, Lexeme.chars, Lead.chars]

/-- How the entries of a dictionary are laid out: what stands before the first one, before the
others and before the closing bracket, and whether a comma follows the last one. -/
structure Layout where
  first : Lead
  next : Lead
  close : Lead
  comma : Bool

def Layout.line : Layout := ⟨.blanks 0, .blanks 1, .blanks 0, false⟩

/-- On lines of their own, indented further than the closing bracket. -/
def Layout.rows (indent : Nat) : Layout :=
  ⟨.breaks 0 (indent + 4), .breaks 0 (indent + 4), .breaks 0 indent, true⟩

def dictRows (y : Layout) (e : Phrase × Phrase) (es : List (Phrase × Phrase)) : List Row :=
  ⟨0, y.first, pair e.1 e.2⟩ :: es.map fun e => ⟨0, y.next, pair e.1 e.2⟩

def commaIf (comma : Bool) : List Lexeme := if comma then [mark ","] else []

def dict (y : Layout) (e : Phrase × Phrase) (es : List (Phrase × Phrase)) : Phrase :=
  ⟨.mark, "\x7b", listed (dictRows y e es) ++ commaIf y.comma ++ [⟨y.close, .mark, "\x7d"⟩],
    group (e.1.tree :: e.2.tree :: es.map fun e => group [e.1.tree, e.2.tree])⟩

def braces : Phrase := ⟨.mark, "\x7b", [mark "\x7d"], group []⟩

theorem dictRows_line (e : Phrase × Phrase) (es : List (Phrase × Phrase)) :
    dictRows .line e es = inLine ((e :: es).map fun x => pair x.1 x.2) := by
  simp [dictRows, inLine, Layout.line]

@[simp] theorem flat_dict_line {e : Phrase × Phrase} {es : List (Phrase × Phrase)} :
    (dict .line e es).Flat ↔ ∀ x ∈ e :: es, x.1.Flat ∧ x.2.Flat := by
  have hpairs : (∀ q ∈ (e :: es).map fun x => pair x.1 x.2, q.Flat) ↔
      ∀ x ∈ e :: es, x.1.Flat ∧ x.2.Flat := by
    rw [List.forall_mem_map]
    exact forall₂_congr fun x _ => flat_pair
  rw [dict, Flat, dictRows_line, ← hpairs, ← flat_listed_inLine]
  simp [Layout.line, commaIf, Lead.newline]

@[simp] theorem chars_dict_line (e : Phrase × Phrase) (es : List (Phrase × Phrase)) :
    (dict .line e es).chars =
      '\x7b' :: [',', ' '].intercalate ((e :: es).map fun x => (pair x.1 x.2).chars) ++
        ['\x7d'] := by
  rw [dict, chars, dictRows_line]
  simp [Layout.line, commaIf, charsOf_append, charsOf_cons, Lexeme.chars, Lead.chars,
    Function.comp_def]

/-- Entries with a comma after each. -/
theorem charsOf_dictRows (y : Layout) (e : Phrase × Phrase) (es : List (Phrase × Phrase)) :
    charsOf (listed (dictRows y e es) ++ commaIf true) =
      y.first.chars ++ (pair e.1 e.2).chars ++
        es.flatMap (fun x => ',' :: (y.next.chars ++ (pair x.1 x.2).chars)) ++ [','] := by
  rw [dictRows, listed, charsOf_append, charsOf_append, charsOf_lexemes]
  have hrest : charsOf (afterCommas (es.map fun e => ⟨0, y.next, pair e.1 e.2⟩)) =
      es.flatMap fun x => ',' :: (y.next.chars ++ (pair x.1 x.2).chars) := by
    induction es with
    | nil => rfl
    | cons x xs ih =>
      rw [List.map_cons, afterCommas, List.flatMap_cons, ← afterCommas, charsOf_append, ih,
        List.flatMap_cons, charsOf_cons, charsOf_lexemes]
      simp [Lexeme.chars, Lead.chars]
  rw [hrest]
  simp [commaIf, charsOf_cons, Lexeme.chars, Lead.chars]

theorem chars_dict_rows (n : Nat) (e : Phrase × Phrase) (es : List (Phrase × Phrase)) :
    (dict (.rows n) e es).chars =
      '\x7b' :: ((e :: es).flatMap fun x =>
        '\n' :: (List.replicate (n + 4) ' ' ++ (pair x.1 x.2).chars ++ [','])) ++
          '\n' :: List.replicate n ' ' ++ ['\x7d'] := by
  have hcommas : ∀ (cs : List Char) (es : List (Phrase × Phrase)),
      es.flatMap (fun x => ',' :: (cs ++ (pair x.1 x.2).chars)) ++ [','] =
        ',' :: es.flatMap fun x => cs ++ (pair x.1 x.2).chars ++ [','] := by
    intro cs es
    induction es with
    | nil => rfl
    | cons x xs ih => simp_all
  have hrows := charsOf_dictRows (.rows n) e es
  rw [List.append_assoc _ _ [','], hcommas] at hrows
  rw [dict, chars, charsOf_append, show (Layout.rows n).comma = true from rfl, hrows]
  simp [Layout.rows, charsOf_cons, Lexeme.chars, Lead.chars]

@[simp] theorem flat_braces : braces.Flat := by simp [braces, Flat, Lead.newline]

@[simp] theorem chars_braces : braces.chars = ['\x7b', '\x7d'] := rfl

theorem size_pair (k v : Phrase) : (pair k v).size = k.size + v.size + 1 := by
  rw [pair, size_grow, List.length_cons, length_lexemes, Nat.add_assoc]

theorem formed_pair {k v : Phrase} (hk : k.Formed) (hv : v.Formed) : (pair k v).Formed :=
  hk.grow (List.cons_ne_nil _ _) (hv.joins (Lexeme.valid_mark rfl (by decide))
    (fun _ hx => Lexeme.fits_mark hx (by decide) _) rfl rfl) _

/-- A key and its value are read around the colon. -/
theorem read_pair {k v : Phrase} (hk : k.IsExpression) (hv : v.IsExpression) {fuel : Nat}
    (hfuel : 12 * (pair k v).size ≤ fuel + 2) {l : Lead} {i j : Input}
    (hc : Crosses i ((pair k v).lexemes l) j) (hj : j.Before [",", "\x7d"]) :
    ∃ t k' m u, Crosses i (k.lexemes l) k' ∧ k'.Before closers ∧ k'.sees ":" = true ∧
      expression fuel true i = some (t, k') ∧ t.outline = k.tree ∧ k'.skip? ":" = some m ∧
        expression fuel true m = some (u, j) ∧ u.outline = v.tree := by
  rw [size_pair] at hfuel
  obtain ⟨k', hk', hrest⟩ := cross_grow hc
  have hcolon : k'.sees ":" = true := by
    rw [hrest.sees]
    rfl
  have hbefore : k'.Before closers := Input.before_of_sees hcolon (by decide)
  obtain ⟨m, hskip, -, hm⟩ := hrest.skip (w := ":") rfl rfl
  obtain ⟨t, ht, hout⟩ := @hk.reads fuel (by omega) true _ _ _ hk' hbefore
  obtain ⟨u, hu, hvout⟩ := @hv.reads fuel (by omega) true _ _ _ hm (hj.mono (by decide))
  exact ⟨t, k', m, u, hk', hbefore, hcolon, ht, hout, hskip, hu, hvout⟩

theorem reads_pair {k v : Phrase} (hk : k.IsExpression) (hv : v.IsExpression) {fuel : Nat}
    (hfuel : 12 * (pair k v).size ≤ fuel + 1) :
    Reads (AgentFlow.Code.pair fuel) [",", "\x7d"] (pair k v) := by
  intro l i j hc hj
  have hpos := (pair k v).one_le_size
  obtain ⟨fuel, rfl⟩ : ∃ n, fuel = n + 1 := ⟨fuel - 1, by omega⟩
  obtain ⟨t, k', m, u, -, -, -, ht, hout, hskip, hu, hvout⟩ :=
    read_pair hk hv (show 12 * (pair k v).size ≤ fuel + 2 by omega) hc hj
  refine ⟨j.node .group i.first [t, u], ?_, ?_⟩
  · rw [AgentFlow.Code.pair]
    simp only [(formed_pair hk.toFormed hv.toFormed).sees hc (show "**" ∈ strayWords by decide), ht,
      hskip, hu, Bool.false_eq_true, if_false, Option.bind_eq_bind, Option.bind_some]
  · rw [Input.outline_node _ (by decide), List.map_cons, List.map_singleton, hout, hvout]
    rfl

/-- What stands after the entries of a dictionary. -/
theorem commaTail_close {read : Reader Tree} {comma : Bool} {i j : Input}
    (hc : Crosses i (commaIf comma) j) (hj : j.sees "\x7d" = true) (fuel : Nat) (b : Bool)
    (seen : List Tree) : ∃ b',
      commaTail read (·.sees "\x7d") (fuel + 1) b seen i = some ((seen.reverse, b'), j) := by
  cases comma with
  | false =>
    obtain rfl := hc.eq_of_nil
    exact ⟨b, commaTail_of_before (show "," ∉ ["\x7d"] by decide)
      (Input.before_of_sees hj List.mem_cons_self) fuel b seen⟩
  | true =>
    obtain ⟨t, k, htake, -, -, hk⟩ := Crosses.take hc rfl
    obtain rfl := hk.eq_of_nil
    have hgoes : i.goesOn "," = true := Crosses.goesOn hc rfl ","
    refine ⟨true, ?_⟩
    rw [commaTail, if_pos hgoes, htake]
    simp only [Option.bind_eq_bind, Option.bind_some, hj, if_true]

/-- After the entries of a dictionary a comma or its end follows. -/
theorem sees_commaIf {comma : Bool} {i j : Input} (hc : Crosses i (commaIf comma) j)
    (hj : j.sees "\x7d" = true) : i.sees "," = true ∨ i.sees "\x7d" = true := by
  cases comma with
  | false => exact .inr (hc.eq_of_nil ▸ hj)
  | true => exact .inl (Crosses.sees hc ",")

theorem before_commaOrEnd {i : Input} (h : i.sees "," = true ∨ i.sees "\x7d" = true) :
    i.Before [",", "\x7d"] :=
  h.elim (Input.before_of_sees · (by decide)) (Input.before_of_sees · (by decide))

/-- The entries behind the first one are read up to the end of the dictionary. -/
theorem commaTail_entries {y : Layout} {es : List (Phrase × Phrase)}
    (hes : ∀ x ∈ es, x.1.IsExpression ∧ x.2.IsExpression) {i k j : Input}
    (hc : Crosses i (afterCommas (es.map fun e => ⟨0, y.next, pair e.1 e.2⟩)) k)
    (hcomma : Crosses k (commaIf y.comma) j) (hj : j.sees "\x7d" = true) {fuel : Nat}
    (hsizes : ∀ x ∈ es, 12 * (pair x.1 x.2).size ≤ fuel + 1) (hfuel : es.length < fuel)
    (seen : List Tree) : ∃ ts b,
      commaTail (AgentFlow.Code.pair fuel) (·.sees "\x7d") fuel false seen i =
        some ((seen.reverse ++ ts, b), j) ∧
      ts.map Tree.outline = es.map fun e => group [e.1.tree, e.2.tree] := by
  have hread : ∀ r ∈ es.map fun e => (⟨0, y.next, pair e.1 e.2⟩ : Row),
      ReadsAfter r.lead (AgentFlow.Code.pair fuel) [",", "\x7d"] r.phrase := by
    rw [List.forall_mem_map]
    exact fun x hx => (reads_pair (hes x hx).1 (hes x hx).2 (hsizes x hx)).after _
  have hstop : ∀ r ∈ es.map fun e => (⟨0, y.next, pair e.1 e.2⟩ : Row),
      ∀ ⦃i j : Input⦄, Crosses i (r.phrase.lexemes r.lead) j → i.sees "\x7d" = false := by
    rw [List.forall_mem_map]
    intro x hx i j hc
    exact (formed_pair (hes x hx).1.toFormed (hes x hx).2.toFormed).sees hc (by decide)
  obtain ⟨n, hn⟩ : ∃ n, fuel =
      n + 1 + (es.map fun e => (⟨0, y.next, pair e.1 e.2⟩ : Row)).length :=
    ⟨fuel - es.length - 1, by rw [List.length_map]; omega⟩
  obtain ⟨ts, hts, htail⟩ := commaTail_afterCommas (by decide) hread hstop hc
    (before_commaOrEnd (sees_commaIf hcomma hj)) (n + 1) false seen
  obtain ⟨b, hclose⟩ := commaTail_close hcomma hj n _ (ts.reverse ++ seen)
  rw [hclose, ← hn, List.reverse_append, List.reverse_reverse] at htail
  refine ⟨ts, b, htail, hts.trans ?_⟩
  rw [treesOf, List.map_map]
  rfl

theorem size_dict (y : Layout) (e : Phrase × Phrase) (es : List (Phrase × Phrase)) :
    (dict y e es).size = (listed (dictRows y e es)).length + (commaIf y.comma).length + 2 := by
  simp only [dict, size, List.length_append, List.length_singleton]

theorem joins_commaIf (comma : Bool) : Joins (commaIf comma) := by
  cases comma with
  | false => exact joins_nil
  | true => exact AgentFlow.Code.joins_mark rfl (by decide)

theorem isOperand_braces : braces.IsOperand := by
  have hvalued : braces.Valued :=
    @valued_enclosed "\x7b" "\x7d" (by decide) [] (by simp) (.blanks 0) rfl _
  refine hvalued.isOperand (by decide) ?_
  intro fuel hfuel l i j hc hj
  have hsize : braces.size = 2 := rfl
  obtain ⟨fuel, rfl⟩ : ∃ n, fuel = n + 1 + 1 := ⟨fuel - 2, by omega⟩
  obtain ⟨t, rest, hrest, ht⟩ := hc.head
  have hcross : Crosses i (⟨l, .mark, "\x7b"⟩ :: [] ++ [mark "\x7d"]) j := hc
  obtain ⟨u, k, m, n, htake, -, hk, hsees, hskip, hn⟩ := hcross.bracket (by decide)
  obtain rfl := hk.eq_of_nil
  obtain rfl := hn.eq_of_nil
  have hkind : t.kind = .mark := ht.kind
  have hword : t.word = "\x7b" := ht.word
  refine ⟨j.node .group i.first [], ?_, Input.outline_node _ (by decide) ..⟩
  rw [atom, hrest]
  simp only [hkind, hword]
  rw [if_neg (by decide), if_neg (by decide), if_pos (by decide), braced, htake]
  simp only [Option.bind_eq_bind, Option.bind_some, hsees, if_true, hskip]

section Dict

variable {y : Layout} {e : Phrase × Phrase} {es : List (Phrase × Phrase)}
  (he : ∀ x ∈ e :: es, x.1.IsExpression ∧ x.2.IsExpression)

include he

theorem formed_dictRows (hfirst : y.first.isPlain = true) (hnext : y.next.isPlain = true) :
    ∀ r ∈ dictRows y e es, r.phrase.Formed ∧ r.lead.isPlain = true := by
  rw [List.forall_mem_cons] at he
  rw [dictRows, List.forall_mem_cons, List.forall_mem_map]
  exact ⟨⟨formed_pair he.1.1.toFormed he.1.2.toFormed, hfirst⟩,
    fun x hx => ⟨formed_pair (he.2 x hx).1.toFormed (he.2 x hx).2.toFormed, hnext⟩⟩

/-- A dictionary is read entry by entry. -/
theorem braced_dict {l : Lead} {i j : Input}
    (hc : Crosses i ((dict y e es).lexemes l) j) {fuel : Nat}
    (hfuel : 12 * (dict y e es).size ≤ fuel + 9) :
    ∃ t, braced (fuel + 1) i = some (t, j) ∧ t.outline = (dict y e es).tree := by
  rw [List.forall_mem_cons] at he
  have hcross : Crosses i (⟨l, .mark, "\x7b"⟩ :: (listed (dictRows y e es) ++ commaIf y.comma) ++
      [⟨y.close, .mark, "\x7d"⟩]) j := hc
  obtain ⟨t, k, m, n, htake, -, hinner, hsees, hskip, hn⟩ := hcross.bracket (by decide)
  obtain rfl := hn.eq_of_nil
  obtain ⟨k₂, hlisted, hcomma⟩ := hinner.append
  obtain ⟨k₁, hfirst, hrest⟩ := hlisted.append
  have hnext : k₁.sees "," = true ∨ k₁.sees "\x7d" = true := by
    rcases sees_afterCommas hrest with h | rfl
    · exact .inl h
    · exact sees_commaIf hcomma hsees
  have hloop : k₁.seesLoop = false :=
    hnext.elim (Input.seesLoop_eq_false · (by decide)) (Input.seesLoop_eq_false · (by decide))
  obtain ⟨hlength, hsizes⟩ := @length_listed (dictRows y e es)
  have hentries : es.length < (listed (dictRows y e es)).length := by
    rwa [dictRows, List.length_cons, List.length_map] at hlength
  rw [size_dict] at hfuel
  have hkey : (pair e.1 e.2).size ≤ (listed (dictRows y e es)).length := hsizes _ List.mem_cons_self
  obtain ⟨-, k', m', u, hk', hk'before, hcolon, -, -, hskip', hu, huout⟩ :=
    read_pair he.1.1 he.1.2 (show 12 * (pair e.1 e.2).size ≤ fuel + 2 by omega) hfirst
      (before_commaOrEnd hnext)
  rw [size_pair] at hkey
  obtain ⟨v, hv, hvout⟩ := he.1.1.element (show 12 * e.1.size ≤ fuel + 2 by omega) hk' hk'before
  have hstray : ∀ w ∈ strayWords, k.sees w = false := fun w hw => he.1.1.toFormed.sees hk' hw
  have hpairs : ∀ x ∈ es, 12 * (pair x.1 x.2).size ≤ fuel + 1 := fun x hx => by
    have hsize : (pair x.1 x.2).size ≤ (listed (dictRows y e es)).length :=
      hsizes ⟨0, y.next, pair x.1 x.2⟩ (List.mem_cons_of_mem _ (List.mem_map_of_mem hx))
    omega
  obtain ⟨ts, b, htail, hts⟩ := commaTail_entries he.2 hrest hcomma hsees hpairs
    (show es.length < fuel by omega) [u, v]
  refine ⟨j.node .group i.first (v :: u :: ts), ?_, ?_⟩
  · rw [braced, htake]
    simp only [Option.bind_eq_bind, Option.bind_some, hstray "\x7d" (by decide),
      hstray "," (by decide), hstray "**" (by decide), hv, hcolon, hskip', hu, hloop, hskip,
      Bool.false_eq_true, Bool.false_or, if_false, if_true, htail]
    rfl
  · rw [Input.outline_node _ (by decide), List.map_cons, List.map_cons, hts, hvout, huout]
    rfl

theorem isOperand_dict
    (hy : y.first.isPlain = true ∧ y.next.isPlain = true ∧ y.close.isPlain = true) :
    (dict y e es).IsOperand := by
  have hrows := formed_dictRows he hy.1 hy.2.1
  have hjoins : Joins ((dict y e es).lexemes (.blanks 0)) :=
    ((joins_listed (o := "\x7b") (c := "\x7d") (by decide) hrows rfl).append
      (joins_commaIf y.comma)).append (AgentFlow.Code.joins_mark hy.2.2 (by decide))
  have hfirst := (hrows _ List.mem_cons_self).1.opens
  have hopens : "\x7b" ∉ strayWords := by decide
  refine Valued.isOperand ⟨⟨hjoins.printed, hjoins.settled, hopens⟩, ?_⟩
    (show "\x7b" ≠ "await" by decide) ?_
  · rintro _ ⟨⟩ hmem
    have hall : ∀ w ∈ ["=", ":="], w ∈ strayWords := by decide
    exact hfirst (hall _ hmem)
  · intro fuel hfuel l i j hc hj
    have hpos := (dict y e es).one_le_size
    obtain ⟨fuel, rfl⟩ : ∃ n, fuel = n + 1 + 1 := ⟨fuel - 2, by omega⟩
    obtain ⟨t, hread, hout⟩ := braced_dict he hc (show 12 * (dict y e es).size ≤ fuel + 9 by omega)
    obtain ⟨u, rest, hrest, hu⟩ := hc.head
    have hkind : u.kind = .mark := hu.kind
    have hword : u.word = "\x7b" := hu.word
    refine ⟨t, ?_, hout⟩
    rw [atom, hrest]
    simp only [hkind, hword]
    exact hread

end Dict

end Phrase

end AgentFlow.Code

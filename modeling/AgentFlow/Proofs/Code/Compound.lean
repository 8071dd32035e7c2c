import AgentFlow.Proofs.Code.Simple

/-!
# Statements with blocks

Phrases that are statements with lines of their own: classes, functions, branches, loops and clauses
for exceptions.  Each is read as its header up to the colon, and then as its body.

* `Phrase.IsDefinition`: the phrase is read as a class or a function, also after decorators.
* `IsBody.classOf`, `IsSignature.function`, `IsExpression.ifStatement`, …: **each kind of statement
  with a body is read back as one node.**
-/

namespace AgentFlow.Code.Phrase

variable {p q : Phrase} {s : String} {m : Nat} {l : Lead} {i j k : Input} {rs : List Line}

/-! ### Headers -/

/-- A phrase that starts with a word and ends with a body. -/
def headed (w : String) (xs : List Lexeme) (rs : List Line) (tree : Tree) : Phrase :=
  ⟨.name, w, xs ++ bodyLexemes rs, tree⟩

theorem size_headed (w : String) (xs : List Lexeme) (rs : List Line) (tree : Tree) :
    (headed w xs rs tree).size = xs.length + (lines rs).length + 2 := by
  simp only [headed, size, bodyLexemes, List.length_append, List.length_cons]
  omega

/-- Before a body a colon is printed after any lexemes. -/
theorem printed_headed {w : String} (hw : IsIdentifier w.toList) {xs : List Lexeme} (hx : Joins xs)
    (hlead : ∀ x ∈ xs.head?, x.lead ≠ .blanks 0) (hrs : IsBody m rs) (tree : Tree) :
    Printed ((headed w xs rs tree).lexemes (.blanks 0)) := by
  have hbody : Printed (xs ++ bodyLexemes rs) := hx.printed.append hrs.printed <| by
    intro x hlast y hy
    obtain rfl : mark ":" = y := by simpa [bodyLexemes] using hy
    exact Lexeme.fits_mark (hx.settled x hlast) (by decide) _
  refine (printed_singleton (Lexeme.valid_name rfl hw)).append hbody ?_
  rintro _ ⟨⟩ y hy
  cases xs with
  | nil =>
    obtain rfl : mark ":" = y := by simpa [headed, bodyLexemes] using hy
    rfl
  | cons x xs =>
    obtain rfl : x = y := by simpa [headed] using hy
    exact Lexeme.fits_of_lead (hlead x rfl)

theorem fits_headed {w : String} {xs : List Lexeme} (hx : IsFlat xs) (hrs : IsBody m rs)
    (tree : Tree) : ∀ x ∈ (headed w xs rs tree).tail, x.lead.Fits m :=
  List.forall_mem_append.mpr ⟨hx.fits m, hrs.fits⟩

/-- A header is read up to its colon, with some trees. -/
theorem colon_body (hc : Crosses i (bodyLexemes rs) k) :
    ∃ j, i.skip? ":" = some j ∧ Crosses j (lines rs) k := by
  obtain ⟨j, hskip, -, hj⟩ := Crosses.skip hc (w := ":") rfl rfl
  exact ⟨j, hskip, hj⟩

theorem chars_headed (w : String) (xs : List Lexeme) (rs : List Line) (tree : Tree) :
    (headed w xs rs tree).chars = w.toList ++ charsOf xs ++ ':' :: charsOf (lines rs) := by
  simp [headed, bodyLexemes, chars, charsOf_append, charsOf_cons, Lexeme.chars, Lead.chars]

/-! ### Parameters -/

def typed (s : String) (p : Phrase) : Phrase :=
  (name s).grow (mark ":" :: p.lexemes (.blanks 1))
    (.node .typedParameter .plain 0 0 "" [identifier s, group [p.tree]])

@[simp] theorem flat_typed : (typed s p).Flat ↔ p.Flat := by
  simp [typed, Lead.newline]

@[simp] theorem chars_typed : (typed s p).chars = s.toList ++ ": ".toList ++ p.chars := by
  simp [typed, charsOf_cons, Lexeme.chars, Lead.chars]

structure IsParameter (p : Phrase) : Prop extends p.Formed where
  reads : ∀ ⦃fuel⦄, 12 * p.size ≤ fuel + 1 → Reads (parameter fuel true) [",", ")"] p

theorem isParameter_name (hs : IsName s) : (name s).IsParameter where
  toFormed := (isPrimary_name hs).toFormed
  reads fuel hfuel l i j hc hj := by
    have hsees : ∀ w ∈ strayWords, i.sees w = false := fun w hw => (isPrimary_name hs).sees hc hw
    have hopen : i.sees "(" = false := sees_name hs hc (.inr (by decide +kernel))
    obtain ⟨line, endLine, k, hname, -, hk⟩ :=
      (show Crosses i [⟨l, .name, s⟩] j from hc).name hs.not_reserved
    obtain rfl := hk.eq_of_nil
    obtain ⟨fuel, rfl⟩ : ∃ n, fuel = n + 1 := ⟨fuel - 1, by have := (name s).one_le_size; omega⟩
    refine ⟨.node .identifier .plain line endLine s [], ?_, rfl⟩
    have htarget : isTarget (.node .identifier .plain line endLine s []) = true := rfl
    rw [parameter]
    simp only [hsees "/" (by decide), hsees "*" (by decide), hsees "**" (by decide), hopen, hname,
      hj.assigns (show ":" ∈ Input.assigners by decide) (by decide),
      hj.assigns (show "=" ∈ Input.assigners by decide) (by decide), htarget, Bool.or_self,
      Bool.and_false, Bool.false_eq_true, Bool.not_true, if_false, Option.bind_eq_bind,
      Option.bind_some, List.isEmpty_nil, if_true]

theorem IsExpression.typed (hs : IsName s) (h : p.IsExpression) : (typed s p).IsParameter where
  toFormed := (isPrimary_name hs).toFormed.grow (List.cons_ne_nil _ _)
    (h.joins (Lexeme.valid_mark rfl (by decide)) (fun _ hx => Lexeme.fits_mark hx (by decide) _) rfl
      rfl) _
  reads fuel hfuel l i j hc hj := by
    have hsize : (Phrase.typed s p).size = p.size + 2 := by
      rw [Phrase.typed, size_grow, List.length_cons, length_lexemes]
      simp only [name, size, List.length_nil]
      omega
    obtain ⟨k, hk, hrest⟩ := cross_grow hc
    have hsees : ∀ w ∈ strayWords, i.sees w = false := fun w hw => (isPrimary_name hs).sees hk hw
    have hopen : i.sees "(" = false := sees_name hs hk (.inr (by decide +kernel))
    obtain ⟨line, endLine, k', hname, -, hk'⟩ :=
      (show Crosses i [⟨l, .name, s⟩] k from hk).name hs.not_reserved
    obtain rfl := hk'.eq_of_nil
    have hcolon : k.sees ":" = true := (Crosses.sees hrest ":").trans rfl
    obtain ⟨k₁, hskip, -, hk₁⟩ := Crosses.skip hrest (w := ":") rfl rfl
    obtain ⟨fuel, rfl⟩ : ∃ n, fuel = n + 1 := ⟨fuel - 1, by omega⟩
    obtain ⟨t, ht, hout⟩ := h.asType hk₁ (hj.mono (by decide))
      (show 12 * p.size ≤ fuel + 2 by omega)
    have htarget : isTarget (.node .identifier .plain line endLine s []) = true := rfl
    refine ⟨j.node .typedParameter i.first [.node .identifier .plain line endLine s [], t], ?_, ?_⟩
    · rw [parameter]
      simp only [hsees "/" (by decide), hsees "*" (by decide), hsees "**" (by decide), hopen, hname,
        hcolon, hskip, ht, hj.assigns (show "=" ∈ Input.assigners by decide) (by decide), htarget,
        Bool.or_self, Bool.and_self, Bool.false_eq_true, Bool.not_true, if_false,
        Option.bind_eq_bind, Option.bind_some, List.isEmpty_cons, if_true]
    · rw [Input.outline_node _ (by decide), List.map_cons, List.map_singleton, hout]
      rfl

/-! ### Functions -/

/-- The type of a function's result after its parameters. -/
def resultLexemes : Option Phrase → List Lexeme
  | none => []
  | some t => ⟨.blanks 1, .mark, "->"⟩ :: t.lexemes (.blanks 1)

/-- The name of a function with its parameters and the type of its result. -/
def signature (s : String) (ps : List Phrase) (r : Option Phrase) : List Lexeme :=
  spaced s :: enclosed (.blanks 0) "(" (inLine ps) (.blanks 0) ")" ++ resultLexemes r

/-- The outlines of the parts of a function before its body. -/
def signatureTrees (s : String) (ps : List Phrase) (r : Option Phrase) : List Tree :=
  (identifier s).as .name :: .node .parameters .parameters 0 0 "" (ps.map (·.tree)) ::
    (r.map fun t => group [t.tree]).toList

structure IsSignature (s : String) (ps : List Phrase) (r : Option Phrase) : Prop where
  name : IsName s
  parameters : ∀ p ∈ ps, p.IsParameter
  result : ∀ t ∈ r, t.IsExpression

theorem IsSignature.joins {ps : List Phrase} {r : Option Phrase} (h : IsSignature s ps r) :
    Joins (signature s ps r) := by
  have hresult : Joins (resultLexemes r) := by
    cases r with
    | none => exact joins_nil
    | some t =>
      exact (h.result t rfl).joins (Lexeme.valid_mark rfl (by decide)) (fun _ _ => rfl) rfl rfl
  exact (((isPrimary_name h.name).joins_blank 0).append (joins_enclosed (by decide)
    (formed_inLine fun p hp => (h.parameters p hp).toFormed) rfl rfl)).append hresult

@[simp] theorem isFlat_signature {ps : List Phrase} {r : Option Phrase} :
    IsFlat (signature s ps r) ↔ (∀ p ∈ ps, p.Flat) ∧ ∀ t ∈ r, t.Flat := by
  cases r <;> simp [signature, resultLexemes, Lead.newline]

/-- Parameters are read up to the bracket after them. -/
theorem parameters_eq {ps : List Phrase} (hps : ∀ p ∈ ps, p.IsParameter)
    (hc : Crosses i (listed (inLine ps)) j) (hj : j.sees ")" = true) {size : Nat}
    (hsize : 12 * (listed (inLine ps)).length ≤ size) :
    ∃ ts, (i.sees ")" = true ∧ j = i ∧ ts = [] ∨ i.sees ")" = false ∧
      commaItems size (parameter size true) (·.sees ")") i = some (ts, j)) ∧
        ts.map Tree.outline = ps.map (·.tree) := by
  cases ps with
  | nil =>
    obtain rfl := hc.eq_of_nil
    exact ⟨[], .inl ⟨hj, rfl, rfl⟩, rfl⟩
  | cons p ps =>
    have hrow : ∀ q ∈ inLine (p :: ps), q.phrase.IsParameter := fun q hq =>
      hps _ (phrase_of_mem_inLine hq)
    obtain ⟨hlength, hsizes⟩ := @length_listed (inLine (p :: ps))
    rw [show (inLine (p :: ps)).length = ps.length + 1 by simp [inLine]] at hlength
    have hread : ∀ q ∈ inLine (p :: ps),
        ReadsAfter q.lead (parameter size true) [",", ")"] q.phrase :=
      fun q hq => ((hrow q hq).reads (by have := hsizes q hq; omega)).after q.lead
    obtain ⟨hstray, t, k, ts, hfirst, -, hts, htail⟩ := read_listed (by decide)
      (show ")" ∈ [",", ")"] by decide) (by decide) (fun q hq => (hrow q hq).toFormed) hread hc hj
      (show (ps.map (⟨0, .blanks 1, ·⟩ : Phrase → Row)).length < size
        by rw [List.length_map]; omega)
    refine ⟨t :: ts, .inr ⟨hstray ")" (by decide), ?_⟩, hts.trans (treesOf_inLine (p :: ps))⟩
    rw [commaItems, hfirst]
    simp only [Option.bind_eq_bind, Option.bind_some, htail]

/-- The header of a function is read after the word `def`. -/
theorem functionHeader_eq {ps : List Phrase} {r : Option Phrase} (h : IsSignature s ps r)
    {i₁ i₂ : Input} (hasync : i.skipIf "async" = some i₁) (hdef : i₁.skip? "def" = some i₂)
    (hc : Crosses i₂ (signature s ps r ++ bodyLexemes rs) k) {size : Nat}
    (hsize : 12 * (signature s ps r).length ≤ size) :
    ∃ ts j, functionHeader size i = some (ts, j) ∧ Crosses j (lines rs) k ∧
      ts.map Tree.outline = signatureTrees s ps r := by
  rw [signature, List.length_append, List.length_cons, length_enclosed] at hsize
  rw [signature, List.cons_append, List.cons_append, List.append_assoc] at hc
  obtain ⟨line, endLine, i₃, hname, -, hc⟩ := hc.name h.name.not_reserved
  obtain ⟨i₄, hparams, hrest⟩ := hc.append
  have hbracket : i₃.sees "[" = false := by
    rw [Crosses.sees hparams]
    rfl
  obtain ⟨t, i₅, i₆, i₇, -, hopen, hinner, hsees, hclose, hend⟩ :=
    Crosses.bracket (by decide) hparams
  obtain rfl := hend.eq_of_nil
  obtain ⟨ts, hts, htsout⟩ := parameters_eq h.parameters hinner hsees
    (show 12 * (listed (inLine ps)).length ≤ size by omega)
  obtain ⟨i₈, hresult, hcolon⟩ := hrest.append
  obtain ⟨i₉, hskip, hbody⟩ := colon_body hcolon
  have hseesColon : i₈.sees ":" = true := (Crosses.sees hcolon ":").trans rfl
  obtain ⟨us, hus, husout⟩ : ∃ us, us = [Tree.as .name (.node .identifier .plain line endLine s []),
      Tree.as .parameters (i₄.node .parameters i₃.first ts)] ∧
        us.map Tree.outline = signatureTrees s ps none := by
    refine ⟨_, rfl, ?_⟩
    rw [List.map_cons, List.map_singleton, Tree.outline_as, Tree.outline_as,
      Input.outline_node _ (by decide), htsout]
    rfl
  cases r with
  | none =>
    obtain rfl := hresult.eq_of_nil
    have harrow : i₈.sees "->" = false := Input.sees_eq_false hseesColon (by decide)
    refine ⟨us, i₉, ?_, hbody, husout⟩
    rw [functionHeader, hasync, hus]
    rcases hts with ⟨hnone, rfl, rfl⟩ | ⟨hsome, hitems⟩
    · simp [hdef, hname, typeParameters, hbracket, hopen, hnone, hclose, harrow, hskip]
    · simp [hdef, hname, typeParameters, hbracket, hopen, hsome, hitems, hclose, harrow, hskip]
  | some r =>
    have harrow : i₄.sees "->" = true := (Crosses.sees hresult "->").trans rfl
    obtain ⟨i', hskip', -, hr⟩ := Crosses.skip hresult (w := "->") rfl rfl
    rw [resultLexemes, List.length_cons, length_lexemes] at hsize
    obtain ⟨u, hu, huout⟩ := (h.result r rfl).asType hr
      (Input.before_of_sees hseesColon (by decide)) (show 12 * r.size ≤ size + 2 by omega)
    refine ⟨us ++ [u], i₉, ?_, hbody, ?_⟩
    · rw [functionHeader, hasync, hus]
      rcases hts with ⟨hnone, rfl, rfl⟩ | ⟨hsome, hitems⟩
      · simp [hdef, hname, typeParameters, hbracket, hopen, hnone, hclose, harrow,
          hskip', hu, hskip]
      · simp [hdef, hname, typeParameters, hbracket, hopen, hsome, hitems, hclose,
          harrow, hskip', hu, hskip]
    · rw [List.map_append, List.map_singleton, husout, huout]
      rfl

/-! ### Definitions -/

structure IsDefinition (m : Nat) (closing : Bool) (p : Phrase) : Prop where
  printed : Printed (p.lexemes (.blanks 0))
  fits : ∀ x ∈ p.tail, x.lead.Fits m
  kind : p.kind = .name
  starts : p.body = "def" ∨ p.body = "class" ∨
    p.body = "async" ∧ ∃ xs, p.tail = spaced "def" :: xs
  reads : ∀ ⦃size fuel⦄, 12 * p.size ≤ size → 12 * p.size ≤ fuel + 1 → ∀ ⦃l i k⦄,
    Crosses i (p.lexemes l) k → i.simple = false → i.margin = m → k.Turns m →
    (closing = true → k.Ends) → ∀ start, ∃ t j, definition size fuel start i = .ok (t, j) ∧
      j.settle = k.settle ∧ t.outline = p.tree

/-- A definition is read as its header and its body. -/
theorem definition_eq (start : Nat) (hrs : IsBody m rs) {size fuel : Nat} {isClass : Bool}
    {ts : List Tree}
    (hsize : 12 * (lines rs).length ≤ size) (hfuel : 12 * (lines rs).length + 1 < fuel)
    (hsees : i.sees "class" = isClass)
    (hheader : (if isClass then classHeader size i else functionHeader size i) = some (ts, j))
    (hc : Crosses j (lines rs) k) (hsimple : k.simple = false) (hm : k.margin = m)
    (hk : k.Turns m) (hends : closesLines rs = true → k.Ends) :
    ∃ t i', definition size (fuel + 1) start i = .ok (t, i') ∧ i'.settle = k.settle ∧
      t.outline = .node (if isClass then .classDefinition else .functionDefinition) .plain 0 0 ""
        (ts.map Tree.outline ++ [blockOfLines rs]) := by
  obtain ⟨b, i', hsuite, hi', hb⟩ := hrs.suite hsize hfuel (i := { j with fresh := true }) hc rfl
    hsimple hm (hk.leaves (by omega)) hends
  refine ⟨i'.node (if isClass then .classDefinition else .functionDefinition) i.first (ts ++ [b]),
    i', ?_, hi', ?_⟩
  · rw [definition, hsees, hheader]
    simp only [faultOn, Outcome.ok_bind, hsuite]
  · rw [Input.outline_node _ (by cases isClass <;> decide), List.map_append, List.map_singleton, hb]

theorem sees_definition (hkind : p.kind = .name) (hc : Crosses i (p.lexemes l) k) (w : String) :
    i.sees w = (p.body == w) := by
  rw [lexemes, head, hkind] at hc
  exact sees_word hc w

/-- A class or a function is a line of a block. -/
theorem IsDefinition.isStatement {closing : Bool} (h : p.IsDefinition m closing) :
    p.IsStatement m closing where
  printed := h.printed
  fits := h.fits
  starts := by
    rw [head, Lexeme.word, h.kind]
    rcases h.starts with hs | hs | ⟨hs, -⟩ <;> rw [hs] <;> decide
  reads size fuel hsize hfuel l i k hc hm hk hends := by
    obtain ⟨fuel, rfl⟩ : ∃ n, fuel = n + 1 := ⟨fuel - 1, by have := p.one_le_size; omega⟩
    obtain ⟨t, j, hread, hj, ht⟩ := h.reads hsize hfuel hc rfl hm hk hends i.settle.first.line
    have hsees := sees_definition h.kind hc
    have hdefinition : (i.settle.sees "def" || i.settle.sees "class" ||
        i.settle.sees "async" && i.settle.seesSecond "def") = true := by
      rw [hsees, hsees, hsees]
      rcases h.starts with hs | hs | ⟨hs, xs, htail⟩
      · rw [hs]
        rfl
      · rw [hs]
        rfl
      · rw [lexemes, htail] at hc
        obtain ⟨k', hk', hrest⟩ := hc.cons
        rw [hk'.seesSecond, hrest.sees, hs]
        rfl
    refine ⟨[t], j, ?_, hj, by rw [List.map_singleton, ht]⟩
    rw [statement]
    simp only [hdefinition, if_true, hread]
    rfl

def functionTree (s : String) (ps : List Phrase) (r : Option Phrase) (rs : List Line) : Tree :=
  .node .functionDefinition .plain 0 0 "" (signatureTrees s ps r ++ [blockOfLines rs])

def function (s : String) (ps : List Phrase) (r : Option Phrase) (rs : List Line) : Phrase :=
  headed "def" (signature s ps r) rs (functionTree s ps r rs)

def asyncFunction (s : String) (ps : List Phrase) (r : Option Phrase) (rs : List Line) : Phrase :=
  headed "async" (spaced "def" :: signature s ps r) rs (functionTree s ps r rs)

section Function

variable {ps : List Phrase} {r : Option Phrase} (h : IsSignature s ps r) (hrs : IsBody m rs)
  (hps : ∀ p ∈ ps, p.Flat) (hr : ∀ t ∈ r, t.Flat)

include h hrs hps hr

theorem IsSignature.function : IsDefinition m (closesLines rs) (function s ps r rs) where
  printed := printed_headed (isIdentifier_word (by decide)) h.joins (by rintro _ ⟨⟩; simp) hrs _
  fits := fits_headed (isFlat_signature.mpr ⟨hps, hr⟩) hrs _
  kind := rfl
  starts := .inl rfl
  reads size fuel hsize hfuel l i k hc hsimple hm hk hends start := by
    rw [Phrase.function, size_headed] at hsize hfuel
    obtain ⟨fuel, rfl⟩ : ∃ n, fuel = n + 1 := ⟨fuel - 1, by omega⟩
    have hsees : ∀ w, i.sees w = ("def" == w) := sees_word hc
    obtain ⟨i₂, hskip, hi₂, hrest⟩ := Crosses.skip hc (tells_word l "def") rfl
    have hasync : i.skipIf "async" = some i := by
      rw [Input.skipIf, hsees]
      rfl
    obtain ⟨ts, j, hheader, hj, hts⟩ := functionHeader_eq h hasync hskip hrest
      (show 12 * (signature s ps r).length ≤ size by omega)
    obtain ⟨t, i', hread, hi', ht⟩ := definition_eq start hrs
      (show 12 * (lines rs).length ≤ size by omega)
      (show 12 * (lines rs).length + 1 < fuel by omega)
      (hsees "class") hheader hj (hc.same.2.1.trans hsimple) (hc.same.1.trans hm) hk hends
    exact ⟨t, i', hread, hi', ht.trans (by rw [hts]; rfl)⟩

theorem IsSignature.asyncFunction :
    IsDefinition m (closesLines rs) (asyncFunction s ps r rs) where
  printed := by
    have hdef : Joins [spaced "def"] :=
      ⟨printed_singleton (Lexeme.valid_name rfl (isIdentifier_word (by decide))),
        by rintro _ ⟨⟩ x -; rfl, by rintro _ ⟨⟩; rfl⟩
    exact printed_headed (isIdentifier_word (by decide)) (hdef.append h.joins)
      (by rintro _ ⟨⟩; simp) hrs _
  fits := fits_headed (isFlat_cons.mpr ⟨rfl, isFlat_signature.mpr ⟨hps, hr⟩⟩) hrs _
  kind := rfl
  starts := .inr (.inr ⟨rfl, _, rfl⟩)
  reads size fuel hsize hfuel l i k hc hsimple hm hk hends start := by
    rw [Phrase.asyncFunction, size_headed, List.length_cons] at hsize hfuel
    obtain ⟨fuel, rfl⟩ : ∃ n, fuel = n + 1 := ⟨fuel - 1, by omega⟩
    have hsees : ∀ w, i.sees w = ("async" == w) := sees_word hc
    obtain ⟨i₁, hskip, hi₁, hrest⟩ := Crosses.skip hc (tells_word l "async") rfl
    obtain ⟨i₂, hdef, hi₂, hrest⟩ := Crosses.skip hrest (tells_word (.blanks 1) "def") rfl
    have hasync : i.skipIf "async" = some i₁ := by
      rw [Input.skipIf, hsees]
      exact hskip
    obtain ⟨ts, j, hheader, hj, hts⟩ := functionHeader_eq h hasync hdef hrest
      (show 12 * (signature s ps r).length ≤ size by omega)
    obtain ⟨t, i', hread, hi', ht⟩ := definition_eq start hrs
      (show 12 * (lines rs).length ≤ size by omega)
      (show 12 * (lines rs).length + 1 < fuel by omega)
      (hsees "class") hheader hj (hc.same.2.1.trans hsimple) (hc.same.1.trans hm) hk hends
    exact ⟨t, i', hread, hi', ht.trans (by rw [hts]; rfl)⟩

end Function

/-- The brackets after the name of a class, with the class that it extends. -/
def baseLexemes : Option String → List Lexeme
  | none => []
  | some b => enclosed (.blanks 0) "(" (inLine [name b]) (.blanks 0) ")"

/-- The outlines of the parts of a class before its body. -/
def baseTrees (b : Option String) : List Tree :=
  (b.map fun b => .node .arguments .superclasses 0 0 "" [identifier b]).toList

def classOf (s : String) (b : Option String) (rs : List Line) : Phrase :=
  headed "class" (spaced s :: baseLexemes b) rs
    (.node .classDefinition .plain 0 0 ""
      ((identifier s).as .name :: baseTrees b ++ [blockOfLines rs]))

/-- The header of a class is read. -/
theorem classHeader_eq {b : Option String} (hs : IsName s) (hb : ∀ t ∈ b, IsName t)
    (hc : Crosses i (⟨l, .name, "class"⟩ :: spaced s :: baseLexemes b ++ bodyLexemes rs) k)
    {size : Nat}
    (hsize : 36 ≤ size) : ∃ ts j, classHeader size i = some (ts, j) ∧ Crosses j (lines rs) k ∧
      ts.map Tree.outline = (identifier s).as .name :: baseTrees b := by
  obtain ⟨i₁, hskip, -, hc⟩ := Crosses.skip hc (tells_word l "class") rfl
  obtain ⟨line, endLine, i₂, hname, -, hc⟩ := Crosses.name hc hs.not_reserved
  obtain ⟨i₃, hbase, hcolon⟩ := Crosses.append hc
  obtain ⟨i₄, hskip₄, hbody⟩ := colon_body hcolon
  have hseesColon : i₃.sees ":" = true := (Crosses.sees hcolon ":").trans rfl
  cases b with
  | none =>
    obtain rfl := hbase.eq_of_nil
    refine ⟨[Tree.as .name (.node .identifier .plain line endLine s [])], i₄, ?_, hbody, rfl⟩
    rw [classHeader, hskip]
    simp [hname, typeParameters, Input.sees_eq_false hseesColon (show ":" ≠ "[" by decide),
      Input.sees_eq_false hseesColon (show ":" ≠ "(" by decide), hskip₄]
  | some b =>
    obtain ⟨size, rfl⟩ : ∃ n, size = n + 1 := ⟨size - 1, by omega⟩
    have hargument : ∀ r ∈ inLine [name b], r.phrase.IsArgument := fun r hr => by
      obtain rfl : r = ⟨0, .blanks 0, name b⟩ := by simpa [inLine] using hr
      exact (isPrimary_name (hb b rfl)).isExpression.isArgument
    have hlength : (listed (inLine [name b])).length = 1 := rfl
    obtain ⟨t, ht, htout⟩ := arguments_enclosed hargument hbase
      (show 12 * (listed (inLine [name b])).length ≤ size by omega)
    have hsees : ∀ w, i₂.sees w = (mark "(").tells w := Crosses.sees hbase
    refine ⟨[Tree.as .name (.node .identifier .plain line endLine s []),
      t.as .superclasses], i₄, ?_, hbody, ?_⟩
    · rw [classHeader, hskip]
      have hbracket : i₂.sees "[" = false := hsees "["
      have hopen : i₂.sees "(" = true := hsees "("
      simp [hname, typeParameters, hbracket, hopen, ht, hskip₄]
    · rw [List.map_cons, List.map_singleton, Tree.outline_as, Tree.outline_as, htout]
      rfl

theorem IsBody.classOf {b : Option String} (hs : IsName s) (hb : ∀ t ∈ b, IsName t)
    (hrs : IsBody m rs) : IsDefinition m (closesLines rs) (classOf s b rs) where
  printed := by
    have hbase : Joins (baseLexemes b) := by
      cases b with
      | none => exact joins_nil
      | some b =>
        refine joins_enclosed (by decide) (formed_inLine ?_) rfl rfl
        simpa using (isPrimary_name (hb b rfl)).toFormed
    exact printed_headed (isIdentifier_word (by decide))
      (((isPrimary_name hs).joins_blank 0).append hbase) (by rintro _ ⟨⟩; simp [head]) hrs _
  fits := by
    refine fits_headed ?_ hrs _
    cases b <;> simp [baseLexemes, Lead.newline]
  kind := rfl
  starts := .inr (.inl rfl)
  reads size fuel hsize hfuel l i k hc hsimple hm hk hends start := by
    have hlines := hrs.one_le_length
    rw [Phrase.classOf, size_headed, List.length_cons] at hsize hfuel
    obtain ⟨fuel, rfl⟩ : ∃ n, fuel = n + 1 := ⟨fuel - 1, by omega⟩
    have hsees : ∀ w, i.sees w = ("class" == w) := sees_word hc
    obtain ⟨ts, j, hheader, hj, hts⟩ := classHeader_eq hs hb hc (show 36 ≤ size by omega)
    obtain ⟨t, i', hread, hi', ht⟩ := definition_eq start hrs
      (show 12 * (lines rs).length ≤ size by omega)
      (show 12 * (lines rs).length + 1 < fuel by omega)
      (hsees "class") hheader hj (hc.same.2.1.trans hsimple) (hc.same.1.trans hm) hk hends
    exact ⟨t, i', hread, hi', ht.trans (by rw [hts]; rfl)⟩

/-! ### Decorators -/

/-- A definition after a decorator, in a block with the margin. -/
def decorated (m : Nat) (e p : Phrase) : Phrase :=
  ⟨.mark, "@", e.lexemes (.blanks 0) ++ p.lexemes (.breaks 0 m),
    .node .decorated .plain 0 0 "" [e.tree, p.tree.as .definition]⟩

/-- A decorator is read up to the definition behind it. -/
theorem decorators_eq {closing : Bool} (he : p.IsExpression) (hq : IsDefinition m closing q)
    (hc : Crosses i ((decorated m p q).lexemes l) k) (hsimple : k.simple = false)
    (hopened : k.opened = []) {n : Nat} (hn : 12 * p.size ≤ n + 4) :
    ∃ t j, decorators (n + 1 + 1) [] i = some ([t], j) ∧ j.simple = false ∧
      Crosses j (q.lexemes (.breaks 0 m)) k ∧ t.outline = p.tree := by
  obtain ⟨i₁, hskip, -, hc₁⟩ := Crosses.skip hc (w := "@") rfl rfl
  -- The decorator is read as on a simple line, so that it is over where the line ends.
  obtain ⟨i₂, he₂, hq₂⟩ := (hc₁.withSimple true).append
  have hnext : ∀ w ∈ "@" :: Input.assigners, i₂.sees w = false := fun w hw => by
    rw [sees_definition hq.kind hq₂, beq_eq_false_iff_ne]
    rintro rfl
    have hall : ∀ w ∈ "@" :: Input.assigners, w ∉ ["def", "class", "async"] := by decide
    exact hall _ hw (by rcases hq.starts with h | h | h <;> simp [h])
  have hended : i₂.lineEnded = true := Crosses.lineEnded hq₂
  have hover : i₂.Over :=
    { ended := by
        rw [Input.ended, hended, hq₂.same.2.2.2.symm.trans hopened, ← hq₂.same.2.1]
        rfl
      assigners := fun w hw => hnext w (List.mem_cons_of_mem _ hw) }
  obtain ⟨t, ht, htout⟩ := he.reads (show 12 * p.size ≤ n + 1 + 3 by omega) true he₂
    (hover.before _)
  have hfirst : i.sees "@" = true := Crosses.sees hc "@"
  have hsecond : Input.sees { i₂ with simple := false } "@" = false := hnext "@" List.mem_cons_self
  have hcross := hq₂.withSimple false
  rw [show ({ k with simple := false } : Input) = k by rw [← hsimple]] at hcross
  refine ⟨t, { i₂ with simple := false }, ?_, rfl, hcross, htout⟩
  rw [decorators, if_pos hfirst, hskip]
  simp only [Option.bind_eq_bind, Option.bind_some, ht, hended, if_true]
  rw [decorators, hsecond]
  rfl

theorem IsExpression.decorated {closing : Bool} (he : p.IsExpression) (hdots : p.body ≠ "...")
    (hflat : p.Flat) (hq : IsDefinition m closing q) : (decorated m p q).IsStatement m closing where
  printed := by
    refine (he.joins_mark (m := "@") (by decide) (.inr hdots) rfl rfl).printed.append
      (printed_after hq.printed (by simp)) ?_
    rintro _ - _ ⟨⟩
    exact Lexeme.fits_of_lead Lead.noConfusion
  fits := List.forall_mem_append.mpr ⟨((isFlat_lexemes ..).mpr ⟨rfl, hflat⟩).fits m,
    List.forall_mem_cons.mpr ⟨fun _ => le_rfl, hq.fits⟩⟩
  starts := (by decide : "@" ∉ Input.assigners ++ clauseWords)
  reads size fuel hsize hfuel l i k hc hm hk hends := by
    have hlength : (Phrase.decorated m p q).size = p.size + q.size + 1 := by
      simp only [Phrase.decorated, Phrase.size, List.length_append, lexemes, List.length_cons,
        Nat.add_assoc]
    rw [hlength] at hsize hfuel
    obtain ⟨fuel, rfl⟩ : ∃ n, fuel = n + 1 := ⟨fuel - 1, by omega⟩
    obtain ⟨n, rfl⟩ : ∃ n, size = n + 1 + 1 := ⟨size - 2, by omega⟩
    have hsees : ∀ w, i.settle.sees w = (⟨l, .mark, "@"⟩ : Lexeme).tells w := Crosses.sees hc
    obtain ⟨t, i₁, hdecorators, hsimple, hdefinition, htout⟩ :=
      decorators_eq he hq hc hc.same.2.1 hk.opened (show 12 * p.size ≤ n + 4 by omega)
    obtain ⟨u, j, hu, hj, huout⟩ := hq.reads (show 12 * q.size ≤ n + 1 + 1 by omega)
      (show 12 * q.size ≤ fuel + 1 by omega) hdefinition hsimple
      (hdefinition.same.1.symm.trans (hc.same.1.trans hm)) hk hends i.settle.first.line
    refine ⟨[j.node .decorated i.settle.first ([t] ++ [u.as .definition])], j, ?_, hj, ?_⟩
    · rw [statement]
      simp only [hsees, hdecorators, orFault, faultOn, Outcome.ok_bind, hu]
      rfl
    · rw [List.map_singleton, Input.outline_node _ (by decide), List.map_append, List.map_singleton,
        List.map_singleton, Tree.outline_as, htout, huout]
      rfl

/-! ### Branches, contexts and loops -/

def ifStatement (p : Phrase) (rs : List Line) : Phrase :=
  headed "if" (p.lexemes (.blanks 1)) rs
    (.node .ifStatement .plain 0 0 "" [p.tree, blockOfLines rs])

def withStatement (p : Phrase) (rs : List Line) : Phrase :=
  headed "with" (p.lexemes (.blanks 1)) rs (group [p.tree, blockOfLines rs])

def furtherTargets (ss : List String) : List Row := ss.map fun s => ⟨0, .blanks 1, name s⟩

/-- A loop over the items of a collection. -/
def forStatement (s : String) (ss : List String) (p : Phrase) (rs : List Line) : Phrase :=
  headed "for" (spaced s :: afterCommas (furtherTargets ss) ++
    (spaced "in" :: p.lexemes (.blanks 1))) rs
    (group [treeOfList ⟨0, .blanks 1, name s⟩ (furtherTargets ss), p.tree, blockOfLines rs])

/-- A header with one expression is read. -/
theorem wordHeader_eq (w : String) (several : Bool) (h : p.IsExpression)
    (hc : Crosses i (⟨l, .name, w⟩ :: p.lexemes (.blanks 1) ++ bodyLexemes rs) k) {size : Nat}
    (hsize : 12 * p.size ≤ size) :
    ∃ t j, wordHeader size w several i = some ([t], j) ∧ Crosses j (lines rs) k ∧
      t.outline = p.tree := by
  obtain ⟨i₁, hskip, -, hc⟩ := Crosses.skip hc (tells_word l w) rfl
  obtain ⟨i₂, hp, hcolon⟩ := Crosses.append hc
  obtain ⟨i₃, hskip₃, hbody⟩ := colon_body hcolon
  have hbefore {ws : List String} (hws : ":" ∈ ws) : i₂.Before ws :=
    Input.before_of_sees ((Crosses.sees hcolon ":").trans rfl) hws
  cases several with
  | true =>
    obtain ⟨t, ht, htout⟩ := h.expressions (show 12 * p.size ≤ size + 2 by omega) hp
      (hbefore (by decide))
    refine ⟨t, i₃, ?_, hbody, htout⟩
    rw [wordHeader, hskip]
    simp [ht, hskip₃]
  | false =>
    obtain ⟨t, ht, htout⟩ := h.reads (show 12 * p.size ≤ size + 3 by omega) true hp
      (hbefore (by decide))
    refine ⟨t, i₃, ?_, hbody, htout⟩
    rw [wordHeader, hskip]
    simp [ht, hskip₃]

/-- No clause follows a statement that is over. -/
theorem clauses_eq_nil (hi : i.settle = k.settle) (hm : k.margin = m) (hk : k.Turns m)
    {ws : List String} (hws : ∀ w ∈ ws, w ∈ clauseWords) (size fuel : Nat) (seen : List Tree) :
    clauses size (fuel + 1) ws seen i = .ok (seen.reverse, i) := by
  have hnone : ws.find? i.seesClause = none := by
    have hmargin : i.margin = m := (Input.margin_eq_of_settle hi).trans hm
    rw [List.find?_eq_none]
    intro w hw
    rw [(hk.of_settle hi).seesClause hmargin (hws w hw)]
    exact Bool.false_ne_true
  rw [clauses, hnone]

theorem starts_blocks : ∀ w ∈ ["if", "with", "for", "try"],
    w ∉ Input.assigners ++ clauseWords := by
  decide

theorem IsExpression.ifStatement (h : p.IsExpression) (hflat : p.Flat) (hrs : IsBody m rs) :
    (ifStatement p rs).IsStatement m (closesLines rs) where
  printed := printed_headed (isIdentifier_word (by decide)) (h.joins_blank 0)
    (by rintro _ ⟨⟩; simp [head]) hrs _
  fits := fits_headed ((isFlat_lexemes ..).mpr ⟨rfl, hflat⟩) hrs _
  starts := starts_blocks "if" (by decide)
  reads size fuel hsize hfuel l i k hc hm hk hends := by
    rw [Phrase.ifStatement, size_headed, length_lexemes] at hsize hfuel
    obtain ⟨fuel, rfl⟩ : ∃ n, fuel = n + 1 + 1 := ⟨fuel - 2, by omega⟩
    have hsees : ∀ w, i.settle.sees w = ("if" == w) := sees_word hc
    obtain ⟨t, j, hheader, hbody, ht⟩ := wordHeader_eq "if" false h hc
      (show 12 * p.size ≤ size by omega)
    obtain ⟨b, j', hsuite, hj', hb⟩ := hrs.suite (show 12 * (lines rs).length ≤ size by omega)
      (show 12 * (lines rs).length + 1 < fuel + 1 by omega) hbody rfl hc.same.2.1
      (hc.same.1.trans hm) (hk.leaves (by omega)) hends
    have hclauses : ∀ ws, (∀ w ∈ ws, w ∈ clauseWords) →
        clauses size (fuel + 1) ws [] j' = .ok ([], j') := fun ws hws =>
      clauses_eq_nil hj' (hc.same.1.trans hm) hk hws size fuel []
    refine ⟨[j'.node .ifStatement i.settle.first [t, b]], j', ?_, hj', ?_⟩
    · rw [statement]
      simp only [hsees, String.reduceBEq, Bool.false_and, Bool.or_self,
        Bool.false_eq_true, if_false,
        if_true, hheader, orFault, faultOn, Outcome.ok_bind, hsuite,
        hclauses ["elif"] (by decide), hclauses ["else"] (by decide), List.append_nil,
        List.singleton_append]
    · rw [List.map_singleton, Input.outline_node _ (by decide), List.map_cons,
        List.map_singleton, ht, hb]
      rfl

theorem IsExpression.withStatement (h : p.IsExpression) (hflat : p.Flat) (hrs : IsBody m rs) :
    (withStatement p rs).IsStatement m (closesLines rs) where
  printed := printed_headed (isIdentifier_word (by decide)) (h.joins_blank 0)
    (by rintro _ ⟨⟩; simp [head]) hrs _
  fits := fits_headed ((isFlat_lexemes ..).mpr ⟨rfl, hflat⟩) hrs _
  starts := starts_blocks "with" (by decide)
  reads size fuel hsize hfuel l i k hc hm hk hends := by
    rw [Phrase.withStatement, size_headed, length_lexemes] at hsize hfuel
    obtain ⟨fuel, rfl⟩ : ∃ n, fuel = n + 1 := ⟨fuel - 1, by omega⟩
    have hsees : ∀ w, i.settle.sees w = ("with" == w) := sees_word hc
    obtain ⟨t, j, hheader, hbody, ht⟩ := wordHeader_eq "with" true h hc
      (show 12 * p.size ≤ size by omega)
    obtain ⟨b, j', hsuite, hj', hb⟩ := hrs.suite (show 12 * (lines rs).length ≤ size by omega)
      (show 12 * (lines rs).length + 1 < fuel by omega) hbody rfl hc.same.2.1
      (hc.same.1.trans hm) (hk.leaves (by omega)) hends
    have hwith : withHeader size i.settle = some ([t], j) := by
      rw [withHeader, Input.skipIf, hsees]
      exact hheader
    refine ⟨[j'.node .group i.settle.first [t, b]], j', ?_, hj', ?_⟩
    · rw [statement]
      simp only [hsees, String.reduceBEq, Bool.false_and, Bool.or_self, Bool.or_false,
        Bool.false_eq_true, if_false, if_true, hwith, orFault, faultOn, Outcome.ok_bind, hsuite,
        List.singleton_append]
    · rw [List.map_singleton, Input.outline_node _ (by decide), List.map_cons,
        List.map_singleton, ht, hb]
      rfl

theorem joins_targets {ss : List String} (hs : IsName s) (hss : ∀ t ∈ ss, IsName t) (h : p.Formed) :
    Joins (spaced s :: afterCommas (furtherTargets ss) ++ (spaced "in" :: p.lexemes (.blanks 1))) :=
  by
  have hrest : Joins (afterCommas (furtherTargets ss)) := by
    refine Joins.flatMap ?_
    rw [furtherTargets, List.forall_mem_map]
    exact fun t ht => (isPrimary_name (hss t ht)).toFormed.joins_mark (by decide)
      (.inl (by decide)) rfl rfl
  exact (((isPrimary_name hs).joins_blank 0).append hrest).append
    (h.joins_spaced (isIdentifier_word (by decide)))

/-- The header of a loop is read. -/
theorem forHeader_eq {ss : List String} (hs : IsName s) (hss : ∀ t ∈ ss, IsName t)
    (h : p.IsExpression) (hc : Crosses i ((forStatement s ss p rs).lexemes l) k) {size : Nat}
    (hsize : 12 * ((afterCommas (furtherTargets ss)).length + p.size + 1) ≤ size) :
    ∃ t u j, forHeader (size + 1) i = some ([t, u], j) ∧ Crosses j (lines rs) k ∧
      t.outline = treeOfList ⟨0, .blanks 1, name s⟩ (furtherTargets ss) ∧ u.outline = p.tree := by
  have hsees : ∀ w, i.sees w = ("for" == w) := sees_word hc
  obtain ⟨i₁, hskip, -, hc₁⟩ := Crosses.skip hc (tells_word l "for") rfl
  obtain ⟨i₂, hheader, hcolon⟩ := Crosses.append hc₁
  obtain ⟨i₃, htargets, hin⟩ := Crosses.append hheader
  obtain ⟨i₄, hskip₄, -, hp⟩ := Crosses.skip hin (tells_word (.blanks 1) "in") rfl
  obtain ⟨i₅, hskip₅, hbody⟩ := colon_body hcolon
  have hrows : ∀ q ∈ ⟨0, .blanks 1, name s⟩ :: furtherTargets ss,
      ∃ s, IsName s ∧ q.phrase = name s := by
    rw [List.forall_mem_cons, furtherTargets, List.forall_mem_map]
    exact ⟨⟨s, hs, rfl⟩, fun t ht => ⟨t, hss t ht, rfl⟩⟩
  obtain ⟨t, ht, htout⟩ := targets_names hrows htargets ((Crosses.sees hin "in").trans rfl)
    (show 12 * (listed (⟨0, .blanks 1, name s⟩ :: furtherTargets ss)).length ≤ size by
      rw [listed, List.length_append, length_lexemes, show (name s).size = 1 from rfl]
      omega)
  obtain ⟨u, hu, huout⟩ := h.expressions (show 12 * p.size ≤ size + 1 + 2 by omega) hp
    (Input.before_of_sees ((Crosses.sees hcolon ":").trans rfl) (by decide))
  refine ⟨t, u, i₅, ?_, hbody, htout, huout⟩
  rw [forHeader, Input.skipIf, hsees]
  simp [hskip, ht, hskip₄, hu, hskip₅]

theorem IsExpression.forStatement {ss : List String} (hs : IsName s) (hss : ∀ t ∈ ss, IsName t)
    (h : p.IsExpression) (hflat : p.Flat) (hrs : IsBody m rs) :
    (forStatement s ss p rs).IsStatement m (closesLines rs) where
  printed := printed_headed (isIdentifier_word (by decide)) (joins_targets hs hss h.toFormed)
    (by rintro _ ⟨⟩; simp) hrs _
  fits := by
    refine fits_headed ?_ hrs _
    have hnames : IsFlat (afterCommas (furtherTargets ss)) := flat_afterCommas (by
      rw [furtherTargets, List.forall_mem_map]
      exact fun t _ => ⟨rfl, flat_name t⟩)
    simp [hnames, hflat, Lead.newline]
  starts := starts_blocks "for" (by decide)
  reads size fuel hsize hfuel l i k hc hm hk hends := by
    have hlength : (spaced s :: afterCommas (furtherTargets ss) ++
        (spaced "in" :: p.lexemes (.blanks 1))).length =
          (afterCommas (furtherTargets ss)).length + p.size + 2 := by
      simp only [List.cons_append, List.length_cons, List.length_append, length_lexemes]
      omega
    rw [Phrase.forStatement, size_headed, hlength] at hsize hfuel
    obtain ⟨fuel, rfl⟩ : ∃ n, fuel = n + 1 + 1 := ⟨fuel - 2, by omega⟩
    obtain ⟨size, rfl⟩ : ∃ n, size = n + 1 := ⟨size - 1, by omega⟩
    have hsees : ∀ w, i.settle.sees w = ("for" == w) := sees_word hc
    obtain ⟨t, u, i₁, hfor, hbody, htout, huout⟩ := forHeader_eq hs hss h hc
      (show 12 * ((afterCommas (furtherTargets ss)).length + p.size + 1) ≤ size by omega)
    obtain ⟨b, j, hsuite, hj, hb⟩ := hrs.suite (show 12 * (lines rs).length ≤ size + 1 by omega)
      (show 12 * (lines rs).length + 1 < fuel + 1 by omega) hbody rfl hc.same.2.1
      (hc.same.1.trans hm) (hk.leaves (by omega)) hends
    have hclauses : clauses (size + 1) (fuel + 1) ["else"] [] j = .ok ([], j) :=
      clauses_eq_nil hj (hc.same.1.trans hm) hk (by decide) (size + 1) fuel []
    refine ⟨[j.node .group i.settle.first [t, u, b]], j, ?_, hj, ?_⟩
    · rw [statement]
      simp only [hsees, String.reduceBEq, Bool.false_and, Bool.or_self, Bool.or_false,
        Bool.false_eq_true, if_false, if_true, hfor, orFault, faultOn, Outcome.ok_bind, hsuite,
        hclauses, List.cons_append, List.nil_append]
    · rw [List.map_singleton, Input.outline_node _ (by decide), List.map_cons, List.map_cons,
        List.map_singleton, htout, huout, hb]
      rfl

end AgentFlow.Code.Phrase

import AgentFlow.Proofs.Code.Crossing
import AgentFlow.Proofs.Code.Outline

/-!
# Phrases

A phrase is a piece of code as it is printed: lexemes, of which only what stands before the first
one is left open, and the outline of the tree that a reader makes of them.

* `Phrase.grow`: a phrase with more lexemes after it.
* `Joins xs`: the lexemes `xs` may follow any phrase.
* `Phrase.Formed`: **the lexemes of a phrase are read back one by one**, and its first ones do not
  start another form.
-/

namespace AgentFlow.Code

/-! ### Single lexemes -/

abbrev mark (w : String) : Lexeme := ⟨.blanks 0, .mark, w⟩

abbrev spaced (w : String) : Lexeme := ⟨.blanks 1, .name, w⟩

structure IsName (s : String) : Prop where
  chars : IsIdentifier s.toList
  free : s ∉ codeKeywords

instance (cs : List Char) : Decidable (IsIdentifier cs) :=
  inferInstanceAs (Decidable ((∃ c ∈ cs.head?, Text.isIdentifierStart c = true) ∧
    ∀ c ∈ cs, Text.isIdentifierChar c = true ∧ c ≠ '\n'))

instance (s : String) : Decidable (IsName s) :=
  decidable_of_iff (IsIdentifier s.toList ∧ s ∉ codeKeywords)
    ⟨fun h => ⟨h.1, h.2⟩, fun h => ⟨h.1, h.2⟩⟩

/-- The words of the language are read as names are. -/
theorem isIdentifier_word {w : String} (hw : w ∈ "async" :: "await" :: reservedWords) :
    IsIdentifier w.toList := by
  have hall : ∀ w ∈ "async" :: "await" :: reservedWords, IsIdentifier w.toList := by decide +kernel
  exact hall w hw

theorem IsName.not_reserved {s : String} (h : IsName s) : s ∉ reservedWords := by
  have hall : ∀ w ∈ reservedWords, w ∈ codeKeywords := by decide
  exact fun hs => h.free (hall s hs)

def strayWords : List String :=
  reservedWords.filter (fun w => !(["True", "False", "None"].contains w)) ++
    marks.filter (fun m => !(["(", "[", "\x7b", "..."].contains m))

/-- A name is neither a word of the language nor a mark. -/
theorem IsName.not_mem {s : String} (h : IsName s) {ws : List String}
    (hws : ∀ w ∈ ws, w ∈ codeKeywords ∨ ∀ c ∈ w.toList.head?, Text.isIdentifierStart c = false) :
    s ∉ ws := by
  intro hs
  rcases hws s hs with hk | hc
  · exact h.free hk
  · obtain ⟨c, hmem, hstart⟩ := h.chars.1
    exact Bool.noConfusion ((hc c hmem).symm.trans hstart)

theorem IsName.not_stray {s : String} (h : IsName s) : s ∉ strayWords :=
  h.not_mem (by decide +kernel)

/-- Whether the lexeme can be told from a mark after it, unless that is a point. -/
def Lexeme.isSettled (x : Lexeme) : Bool := x.kind != .mark || closedMarks.contains x.body

theorem Lexeme.fits_mark {x : Lexeme} (h : x.isSettled = true) {m : String}
    (hm : m ∉ [".", "..."]) (l : Lead) : x.fits ⟨l, .mark, m⟩ = true := by
  have htight : x.tight ⟨l, .mark, m⟩ = true := by
    cases hk : x.kind <;> simp_all [Lexeme.tight, Lexeme.isSettled]
  rw [Lexeme.fits]
  split
  · exact htight
  · rfl

theorem Lexeme.fits_of_lead {x y : Lexeme} (h : y.lead ≠ .blanks 0) : x.fits y = true := by
  rw [Lexeme.fits]
  split
  · next heq => exact absurd heq h
  · rfl

def Lead.isPlain : Lead → Bool
  | comment .. => false
  | _ => true

theorem isPlain_of_newline {l : Lead} (h : l.newline = false) : l.isPlain = true := by
  cases l with
  | comment => exact Bool.noConfusion h
  | _ => rfl

theorem Lexeme.valid_mark {l : Lead} (hl : l.isPlain = true) {m : String} (hm : m ∈ plainMarks) :
    (⟨l, .mark, m⟩ : Lexeme).Valid where
  comment n s he := by
    obtain rfl : l = .comment n s := he
    exact Bool.noConfusion hl
  body := hm

theorem Lexeme.valid_name {l : Lead} (hl : l.isPlain = true) {s : String}
    (hs : IsIdentifier s.toList) : (⟨l, .name, s⟩ : Lexeme).Valid where
  comment n s he := by
    obtain rfl : l = .comment n s := he
    exact Bool.noConfusion hl
  body := hs

/-! ### Lexemes that follow others -/

theorem Printed.append {xs ys : List Lexeme} (hx : Printed xs) (hy : Printed ys)
    (h : ∀ x ∈ xs.getLast?, ∀ y ∈ ys.head?, x.fits y = true) : Printed (xs ++ ys) where
  valid := List.forall_mem_append.mpr ⟨hx.valid, hy.valid⟩
  fits := List.isChain_append.mpr ⟨hx.fits, hy.fits, h⟩

theorem printed_singleton {x : Lexeme} (h : x.Valid) : Printed [x] :=
  ⟨by simpa using h, .singleton x⟩

/-- The lexemes may follow any phrase, and any mark but a point may follow them. -/
structure Joins (xs : List Lexeme) : Prop where
  printed : Printed xs
  joins : ∀ y ∈ xs.head?, ∀ x : Lexeme, x.isSettled = true → x.fits y = true
  settled : ∀ x ∈ xs.getLast?, x.isSettled = true

theorem joins_nil : Joins [] where
  printed := ⟨fun _ h => absurd h List.not_mem_nil, .nil⟩
  joins := by simp
  settled := by simp

theorem Joins.append {xs ys : List Lexeme} (hx : Joins xs) (hy : Joins ys) : Joins (xs ++ ys) where
  printed := hx.printed.append hy.printed fun x hlast y hhead =>
    hy.joins y hhead x (hx.settled x hlast)
  joins := by
    cases xs with
    | nil => exact hy.joins
    | cons x xs => exact hx.joins
  settled := by
    cases ys with
    | nil => simpa using hx.settled
    | cons y ys =>
      rw [List.getLast?_append_of_ne_nil _ (List.cons_ne_nil y ys)]
      exact hy.settled

theorem Joins.flatMap {α : Type} {f : α → List Lexeme} {as : List α} (h : ∀ a ∈ as, Joins (f a)) :
    Joins (as.flatMap f) := by
  induction as with
  | nil => exact joins_nil
  | cons a as ih =>
    rw [List.forall_mem_cons] at h
    rw [List.flatMap_cons]
    exact h.1.append (ih h.2)

/-- Brackets, commas and other marks that start no longer mark join. -/
theorem joins_mark {l : Lead} (hl : l.isPlain = true) {m : String}
    (hm : m ∈ closedMarks ∧ m ≠ "...") : Joins [⟨l, .mark, m⟩] := by
  have hplain : ∀ m ∈ closedMarks, m ≠ "..." → m ∈ plainMarks ∧ m ∉ [".", "..."] := by decide
  obtain ⟨hmarks, hpoints⟩ := hplain m hm.1 hm.2
  refine ⟨printed_singleton (Lexeme.valid_mark hl hmarks), ?_, ?_⟩
  · rintro _ ⟨⟩ x hx
    exact Lexeme.fits_mark hx hpoints l
  · rintro _ ⟨⟩
    simpa [Lexeme.isSettled] using hm.1

def IsFlat (xs : List Lexeme) : Prop := ∀ x ∈ xs, x.lead.newline = false

@[simp] theorem isFlat_nil : IsFlat [] := by simp [IsFlat]

@[simp] theorem isFlat_cons {x : Lexeme} {xs : List Lexeme} :
    IsFlat (x :: xs) ↔ x.lead.newline = false ∧ IsFlat xs := List.forall_mem_cons

@[simp] theorem isFlat_append {xs ys : List Lexeme} : IsFlat (xs ++ ys) ↔ IsFlat xs ∧ IsFlat ys :=
  List.forall_mem_append

@[simp] theorem isFlat_flatMap {α : Type} {f : α → List Lexeme} {as : List α} :
    IsFlat (as.flatMap f) ↔ ∀ a ∈ as, IsFlat (f a) := by
  simp only [IsFlat, List.mem_flatMap]
  exact ⟨fun h a ha x hx => h x ⟨a, ha, hx⟩, fun h x ⟨a, ha, hx⟩ => h a ha x hx⟩

theorem IsFlat.fits {xs : List Lexeme} (h : IsFlat xs) (m : Nat) : ∀ x ∈ xs, x.lead.Fits m :=
  fun x hx hnewline => Bool.noConfusion ((h x hx).symm.trans hnewline)

/-! ### Phrases -/

/-- A piece of code: its first token, the lexemes after it and the outline of its tree. -/
structure Phrase where
  kind : TokenKind
  body : String
  tail : List Lexeme
  tree : Tree

namespace Phrase

variable (p : Phrase)

def head (l : Lead) : Lexeme := ⟨l, p.kind, p.body⟩

def lexemes (l : Lead) : List Lexeme := p.head l :: p.tail

def size : Nat := p.tail.length + 1

/-- What is printed after the lead. -/
def text : String := spelling (p.lexemes (.blanks 0))

/-- The phrase with more lexemes after it, and the outline of the whole. -/
def grow (xs : List Lexeme) (tree : Tree) : Phrase :=
  { p with tail := p.tail ++ xs, tree := tree }

@[simp] theorem length_lexemes (l : Lead) : (p.lexemes l).length = p.size := rfl

def Flat : Prop := IsFlat p.tail

@[simp] theorem isFlat_lexemes (l : Lead) : IsFlat (p.lexemes l) ↔ l.newline = false ∧ p.Flat :=
  isFlat_cons

@[simp] theorem flat_grow (xs : List Lexeme) (tree : Tree) :
    (p.grow xs tree).Flat ↔ p.Flat ∧ IsFlat xs := isFlat_append

def chars : List Char := p.body.toList ++ charsOf p.tail

@[simp] theorem charsOf_lexemes (l : Lead) : charsOf (p.lexemes l) = l.chars ++ p.chars := by
  rw [lexemes, charsOf_cons, Lexeme.chars, chars, head, List.append_assoc]

@[simp] theorem chars_grow (xs : List Lexeme) (tree : Tree) :
    (p.grow xs tree).chars = p.chars ++ charsOf xs := by
  rw [chars, chars, Phrase.grow, charsOf_append, List.append_assoc]

theorem lexemes_grow (xs : List Lexeme) (tree : Tree) (l : Lead) :
    (p.grow xs tree).lexemes l = p.lexemes l ++ xs := rfl

@[simp] theorem size_grow (xs : List Lexeme) (tree : Tree) :
    (p.grow xs tree).size = p.size + xs.length := by
  simp only [size, Phrase.grow, List.length_append]
  omega

@[simp] theorem tree_grow (xs : List Lexeme) (tree : Tree) : (p.grow xs tree).tree = tree := rfl

/-- The lexemes of the phrase are read back one by one, and its first word may start a value. -/
structure Formed : Prop where
  printed : Printed (p.lexemes (.blanks 0))
  settled : ∀ x ∈ (p.lexemes (.blanks 0)).getLast?, x.isSettled = true
  opens : (p.head (.blanks 0)).word ∉ strayWords

/-- The phrase gives no name to a value. -/
structure Valued : Prop extends p.Formed where
  second : ∀ x ∈ p.tail.head?, x.word ∉ ["=", ":="]

variable {p}

/-- What stands before a phrase may be any lead. -/
theorem printed_after (h : Printed (p.lexemes (.blanks 0))) {l : Lead}
    (hl : ∀ n s, l = .comment n s → IsRemark s.toList) : Printed (p.lexemes l) := by
  obtain ⟨hvalid, hfits⟩ := h
  rw [lexemes, List.forall_mem_cons] at hvalid
  refine ⟨List.forall_mem_cons.mpr ⟨⟨hl, hvalid.1.body⟩, hvalid.2⟩, ?_⟩
  cases hp : p.tail with
  | nil =>
    rw [lexemes, hp]
    exact .singleton _
  | cons x xs =>
    rw [lexemes, hp] at hfits ⊢
    rw [List.isChain_cons_cons] at hfits ⊢
    exact hfits

theorem getLast?_grow {xs : List Lexeme} (hne : xs ≠ []) (tree : Tree) (l : Lead) :
    ((p.grow xs tree).lexemes l).getLast? = xs.getLast? := by
  rw [lexemes_grow, List.getLast?_append_of_ne_nil _ hne]

/-- More lexemes after a phrase that can be told from its last one. -/
theorem Formed.grow_of_fits (h : p.Formed) {xs : List Lexeme} (hne : xs ≠ []) (hx : Printed xs)
    (hfits : ∀ x ∈ (p.lexemes (.blanks 0)).getLast?, ∀ y ∈ xs.head?, x.fits y = true)
    (hsettled : ∀ x ∈ xs.getLast?, x.isSettled = true) (tree : Tree) : (p.grow xs tree).Formed where
  printed := h.printed.append hx hfits
  settled := by rwa [getLast?_grow hne]
  opens := h.opens

theorem Formed.grow (h : p.Formed) {xs : List Lexeme} (hne : xs ≠ []) (hx : Joins xs)
    (tree : Tree) :
    (p.grow xs tree).Formed :=
  h.grow_of_fits hne hx.printed (fun x hlast y hhead => hx.joins y hhead x (h.settled x hlast))
    hx.settled tree

theorem Valued.second_grow (h : p.Valued) {xs : List Lexeme} {tree : Tree}
    (hsecond : ∀ x ∈ xs.head?, x.word ∉ ["=", ":="]) :
    ∀ x ∈ (p.grow xs tree).tail.head?, x.word ∉ ["=", ":="] := by
  rw [Phrase.grow]
  cases htail : p.tail with
  | nil => exact hsecond
  | cons y ys => exact fun x hx => h.second x (htail ▸ hx)

theorem Valued.grow (h : p.Valued) {xs : List Lexeme} (hne : xs ≠ []) (hx : Joins xs)
    (hsecond : ∀ x ∈ xs.head?, x.word ∉ ["=", ":="]) (tree : Tree) : (p.grow xs tree).Valued where
  toFormed := h.toFormed.grow hne hx tree
  second := h.second_grow hsecond

/-- A phrase with more lexemes is crossed before them. -/
theorem cross_grow {xs : List Lexeme} {tree : Tree} {l : Lead} {i j : Input}
    (hc : Crosses i ((p.grow xs tree).lexemes l) j) :
    ∃ k, Crosses i (p.lexemes l) k ∧ Crosses k xs j := hc.append

/-- A mark can be told from the phrase after it. -/
theorem Formed.fits_head (h : p.Formed) {m : String}
    (hm : m ∈ closedMarks ∨ m ≠ "." ∧ p.body ≠ "...") (l l' : Lead) :
    (⟨l, .mark, m⟩ : Lexeme).fits (p.head l') = true := by
  have hpoint : m ≠ "." := by
    rcases hm with hm | hm
    · rintro rfl
      exact absurd hm (by decide)
    · exact hm.1
  have htight : (⟨l, .mark, m⟩ : Lexeme).tight (p.head l') = true := by
    rw [Lexeme.tight, head]
    cases hk : p.kind with
    | mark =>
      have hmark : p.body ∈ plainMarks := by
        have := (h.printed.valid _ List.mem_cons_self).body
        rwa [head, hk] at this
      have hopens : p.body ∉ strayWords := by
        have := h.opens
        rwa [head, Lexeme.word, hk] at this
      have hall : ∀ m ∈ plainMarks, m ∉ strayWords → m ∈ openingMarks ∨ m = "..." := by decide
      rcases hm with hm | hm
      · simp [hm]
      · simp [(hall _ hmark hopens).resolve_right hm.2]
    | number => simpa using hpoint
    | _ => rfl
  rw [Lexeme.fits]
  split
  · exact htight
  · rfl

/-- A phrase after a lexeme that joins. -/
theorem Formed.joins (h : p.Formed) {y : Lexeme} (hy : y.Valid)
    (hjoins : ∀ x : Lexeme, x.isSettled = true → x.fits y = true) {l : Lead}
    (hl : l.isPlain = true) (hfits : y.fits (p.head l) = true) : Joins (y :: p.lexemes l) where
  printed := by
    have hcomment : ∀ n s, l = .comment n s → IsRemark s.toList := by
      rintro n s rfl
      exact Bool.noConfusion hl
    refine (printed_singleton hy).append (printed_after h.printed hcomment) ?_
    rintro _ ⟨⟩ _ ⟨⟩
    exact hfits
  joins := by
    rintro _ ⟨⟩ x hx
    exact hjoins x hx
  settled := by
    have := h.settled
    rw [lexemes] at this ⊢
    cases htail : p.tail with
    | nil =>
      rw [htail] at this
      rintro _ ⟨⟩
      exact this (p.head (.blanks 0)) rfl
    | cons x xs =>
      rw [htail, List.getLast?_cons_cons] at this
      rwa [List.getLast?_cons_cons, List.getLast?_cons_cons]

/-- A phrase after a blank. -/
theorem Formed.joins_blank (h : p.Formed) (n : Nat) : Joins (p.lexemes (.blanks (n + 1))) where
  printed := printed_after h.printed (by simp)
  joins := by
    rintro _ ⟨⟩ x -
    rfl
  settled := by
    have hsettled := h.settled
    rw [lexemes] at hsettled ⊢
    cases htail : p.tail with
    | nil =>
      rw [htail] at hsettled
      rintro _ ⟨⟩
      exact hsettled (p.head (.blanks 0)) rfl
    | cons x xs =>
      rw [htail, List.getLast?_cons_cons] at hsettled
      rwa [List.getLast?_cons_cons]

/-- A phrase after a mark. -/
theorem Formed.joins_mark (h : p.Formed) {m : String} (hm : m ∈ plainMarks ∧ m ∉ [".", "..."])
    (hfit : m ∈ closedMarks ∨ p.body ≠ "...") {l l' : Lead} (hl : l.isPlain = true)
    (hl' : l'.isPlain = true) : Joins (⟨l, .mark, m⟩ :: p.lexemes l') := by
  refine h.joins (Lexeme.valid_mark hl hm.1) (fun x hx => Lexeme.fits_mark hx hm.2 l) hl'
    (h.fits_head (hfit.imp_right fun hp => ⟨?_, hp⟩) l l')
  rintro rfl
  exact absurd hm.2 (by decide)

/-- A phrase after a word and a blank. -/
theorem Formed.joins_spaced (h : p.Formed) {w : String} (hw : IsIdentifier w.toList) :
    Joins (spaced w :: p.lexemes (.blanks 1)) :=
  h.joins (Lexeme.valid_name rfl hw) (fun _ _ => rfl) rfl rfl

end Phrase

end AgentFlow.Code

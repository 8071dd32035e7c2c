import AgentFlow.Code.Lexer
import AgentFlow.Proofs.Workflow.Names

/-!
# Cutting out single tokens

What the lexer makes of the characters of generated code: blanks, line ends and comments between
two tokens, and names, marks, numbers and texts in quotes.

* `gapAt_blanks`, `gapAt_breaks`, `gapAt_comment`, `gapAt_stop`: what stands before a token is
  passed.
* `tokenAt_name`, `tokenAt_mark`, `tokenAt_number`, `tokenAt_text`: **the characters of a token are
  read as that token, if what follows lets it end.**
-/

namespace AgentFlow.Code

open Text

/-! ### Between tokens -/

theorem gapAt_blank (g : Gap) (o l : Nat) (cs : List Char) :
    gapAt g .blank o l (' ' :: cs) =
      gapAt { g with indent := g.indent + 1 } .blank (o + 1) l cs := by
  rw [gapAt.eq_def]; rfl

theorem gapAt_break (g : Gap) (o l : Nat) (cs : List Char) :
    gapAt g .blank o l ('\n' :: cs) =
      gapAt { g with newline := true, indent := 0 } .blank (o + 1) (l + 1) cs := by
  rw [gapAt.eq_def]; rfl

theorem gapAt_hash {g : Gap} (h : g.newline = true) (o l : Nat) (cs : List Char) :
    gapAt g .blank o l ('#' :: cs) =
      gapAt { g with comments := ⟨g.indent, l⟩ :: g.comments, newline := false, indent := 0 }
        .comment (o + 1) l cs := by
  rw [gapAt.eq_def]; simp [h]

theorem gapAt_blanks (g : Gap) (o l n : Nat) (cs : List Char) :
    gapAt g .blank o l (List.replicate n ' ' ++ cs) =
      gapAt { g with indent := g.indent + n } .blank (o + n) l cs := by
  induction n generalizing g o with
  | zero => rfl
  | succ n ih =>
    rw [List.replicate_succ, List.cons_append, gapAt_blank, ih]
    simp only [Nat.add_assoc, Nat.add_comm 1]

theorem gapAt_breaks (before : List Comment) (o l n : Nat) (cs : List Char) :
    gapAt ⟨before, true, 0⟩ .blank o l (List.replicate n '\n' ++ cs) =
      gapAt ⟨before, true, 0⟩ .blank (o + n) (l + n) cs := by
  induction n generalizing o l with
  | zero => rfl
  | succ n ih =>
    rw [List.replicate_succ, List.cons_append, gapAt_break, ih]
    simp only [Nat.add_assoc, Nat.add_comm 1]

/-- Characters that a comment may hold. -/
def IsRemark (cs : List Char) : Prop := '\n' ∉ cs ∧ '\x00' ∉ cs

theorem gapAt_comment (g : Gap) (o l : Nat) {text : List Char} (h : IsRemark text)
    (cs : List Char) :
    gapAt g .comment o l (text ++ '\n' :: cs) =
      gapAt { g with newline := true, indent := 0 } .blank (o + (text.length + 1)) (l + 1) cs := by
  induction text generalizing o with
  | nil => rw [List.nil_append, gapAt.eq_def]; rfl
  | cons c text ih =>
    rw [IsRemark, List.mem_cons, List.mem_cons, not_or, not_or] at h
    obtain ⟨⟨hbreak, hbreaks⟩, hnull, hnulls⟩ := h
    rw [List.cons_append, gapAt.eq_def]
    simp only [beq_false_of_ne (Ne.symm hbreak), beq_false_of_ne (Ne.symm hnull),
      Bool.false_eq_true, if_false]
    rw [ih _ ⟨hbreaks, hnulls⟩, List.length_cons]
    simp only [Nat.add_assoc, Nat.add_comm 1]

def startsToken (c : Char) : Bool :=
  !(['\n', ' ', '\t', '\r', '\x0c', '#', '\\'].contains c || isInvisible c)

theorem gapAt_stop (g : Gap) (o l : Nat) {c : Char} (h : startsToken c = true) (cs : List Char) :
    gapAt g .blank o l (c :: cs) = (g, ⟨c :: cs, o, l⟩) := by
  simp only [startsToken, Bool.not_eq_true', Bool.or_eq_false_iff, List.contains_eq_mem,
    decide_eq_false_iff_not, List.mem_cons, not_or, List.not_mem_nil, not_false_eq_true,
    and_true] at h
  obtain ⟨⟨hbreak, hblank, htab, hreturn, hfeed, hhash, hslash⟩, hvisible⟩ := h
  rw [gapAt.eq_def]
  simp [hbreak, hblank, htab, hreturn, hfeed, hhash, hslash, hvisible]

/-! ### Names -/

/-- A cursor moves over characters on one line. -/
theorem move_eq {as : List Char} (h : '\n' ∉ as) (bs : List Char) (o l : Nat) :
    Cursor.move ⟨as ++ bs, o, l⟩ as.length = ⟨bs, o + as.length, l⟩ := by
  induction as generalizing o with
  | nil => rfl
  | cons a as ih =>
    rw [List.mem_cons, not_or] at h
    rw [List.length_cons, Cursor.move, List.cons_append]
    simp only [beq_false_of_ne (Ne.symm h.1), Bool.false_eq_true, if_false]
    rw [ih h.2]
    simp only [Nat.add_assoc, Nat.add_comm 1]

theorem takeWhile_append_stop {p : Char → Bool} {as bs : List Char} (h : ∀ c ∈ as, p c = true)
    (hb : ∀ c ∈ bs.head?, p c = false) : (as ++ bs).takeWhile p = as := by
  rw [List.takeWhile_append_of_pos h]
  cases bs with
  | nil => simp
  | cons b bs => rw [List.takeWhile_cons_of_neg (by simpa using hb b rfl), List.append_nil]

def IsIdentifier (cs : List Char) : Prop :=
  (∃ c ∈ cs.head?, isIdentifierStart c = true) ∧ ∀ c ∈ cs, isIdentifierChar c = true ∧ c ≠ '\n'

/-- A name ends before what cannot go on in it. -/
theorem tokenAt_name {cs after : List Char} (h : IsIdentifier cs)
    (hafter : ∀ c ∈ after.head?, isIdentifierChar c = false ∧ isQuote c = false) (n : Nat) (g : Gap)
    (o l : Nat) :
    tokenAt (n + 1) g ⟨cs ++ after, o, l⟩ =
      (.mk .name (String.ofList cs) (cs ++ after) o (o + cs.length) l l g [],
        ⟨after, o + cs.length, l⟩) := by
  obtain ⟨⟨c, hc, hstart⟩, hchars⟩ := h
  have hletters : (cs ++ after).takeWhile isIdentifierChar = cs :=
    takeWhile_append_stop (fun d hd => (hchars d hd).1) (fun d hd => (hafter d hd).1)
  have hmove := move_eq (fun hmem => (hchars _ hmem).2 rfl : '\n' ∉ cs) after o l
  obtain ⟨tail, rfl⟩ : ∃ tail, cs = c :: tail := by
    cases cs with
    | nil => simp at hc
    | cons d tail => exact ⟨tail, by simpa using hc⟩
  rw [tokenAt.eq_def]
  rw [List.cons_append] at hletters hmove ⊢
  simp only [hletters, hstart, if_true, hmove]
  have hdrop : (c :: (tail ++ after)).drop (c :: tail).length = after := by
    rw [← List.cons_append, List.drop_left]
  rw [hdrop]
  cases after with
  | nil => rfl
  | cons d after => simp only [(hafter d rfl).2, Bool.false_eq_true, if_false]

/-! ### Marks -/

def plainMarks : List String :=
  ["(", ")", "[", "]", "\x7b", "\x7d", ",", ":", ".", "=", "==", "->", "@", "-", ">>", "|", "..."]

def closedMarks : List String := ["(", ")", "[", "]", "\x7b", "\x7d", ",", "==", "->", "..."]

/-- A mark that is looked for before a plain mark is no start of it, and goes on after it only with
one of three characters. -/
theorem rivals_of_mem_plainMarks : ∀ m ∈ plainMarks,
    marks.takeWhile (· != m) ++ m :: (marks.dropWhile (· != m)).drop 1 = marks ∧
    ∀ r ∈ marks.takeWhile (· != m), r.toList.isPrefixOf m.toList = false ∧
      (m.toList.isPrefixOf r.toList = true → m ∉ closedMarks ∧
        (r.toList.drop m.toList.length).head? ∈ [some '=', some '>', some '.']) := by
  decide +kernel

/-- The longest mark that starts the characters is the plain one. -/
theorem mark?_eq {m : String} (hm : m ∈ plainMarks) {after : List Char}
    (h : m ∈ closedMarks ∨ ∀ c ∈ after.head?, c ≠ '=' ∧ c ≠ '>' ∧ c ≠ '.') :
    mark? (m.toList ++ after) = some m := by
  obtain ⟨hmarks, hrivals⟩ := rivals_of_mem_plainMarks m hm
  rw [mark?, List.find?_eq_some_iff_append]
  refine ⟨by simp, _, _, hmarks.symm, fun r hr => ?_⟩
  obtain ⟨hshort, hlong⟩ := hrivals r hr
  rw [Bool.not_eq_true', ← Bool.not_eq_true, List.isPrefixOf_iff_prefix]
  intro hr
  rcases List.prefix_or_prefix_of_prefix hr (List.prefix_append m.toList after) with hrm | hmr
  · rw [List.isPrefixOf_iff_prefix.mpr hrm] at hshort
    exact Bool.noConfusion hshort
  · obtain ⟨hopen, hhead⟩ := hlong (List.isPrefixOf_iff_prefix.mpr hmr)
    obtain ⟨t, ht⟩ := hmr
    rw [← ht, List.prefix_append_right_inj] at hr
    rw [← ht, List.drop_left] at hhead
    cases t with
    | nil => simp at hhead
    | cons c t =>
      obtain ⟨u, rfl⟩ := hr
      obtain ⟨h1, h2, h3⟩ := h.resolve_left hopen c rfl
      simp [h1, h2, h3] at hhead

theorem tokenAt_mark {m : String} (hm : m ∈ plainMarks) {after : List Char}
    (h : m ∈ closedMarks ∨ ∀ c ∈ after.head?, c ≠ '=' ∧ c ≠ '>' ∧ c ≠ '.')
    (hpoint : m = "." → ∀ c ∈ after.head?, c.isDigit = false) (n : Nat) (g : Gap) (o l : Nat) :
    tokenAt (n + 1) g ⟨m.toList ++ after, o, l⟩ =
      (.mk .mark m (m.toList ++ after) o (o + m.toList.length) l l g [],
        ⟨after, o + m.toList.length, l⟩) := by
  have hmark := mark?_eq hm h
  have hchars : ∀ m ∈ plainMarks, '\n' ∉ m.toList ∧ ∃ c ∈ m.toList.head?,
      isIdentifierStart c = false ∧ isQuote c = false ∧ c.isDigit = false ∧
        (c = '.' → m = "." ∨ m = "...") := by
    decide +kernel
  obtain ⟨hbreak, c, hc, hstart, hquote, hdigit, hpoints⟩ := hchars m hm
  have hmove := move_eq hbreak after o l
  obtain ⟨tail, htail⟩ : ∃ tail, m.toList = c :: tail := by
    cases hcs : m.toList with
    | nil => simp [hcs] at hc
    | cons d tail => exact ⟨tail, by simpa [hcs] using hc⟩
  have hnumber : (c == '.' && ((tail ++ after).head?.map Char.isDigit).getD false) = false := by
    by_cases hpt : c = '.'
    · rcases hpoints hpt with rfl | rfl
      · have : tail = [] := by simpa [eq_comm] using (List.cons.inj htail).2
        subst this
        cases after with
        | nil => simp
        | cons d after => simp [hpoint rfl d rfl]
      · have : tail = ['.', '.'] := (List.cons.inj htail).2.symm
        subst this
        simp
    · simp [hpt]
  rw [htail] at hmark hmove ⊢
  rw [tokenAt.eq_def]
  simp only [List.cons_append] at hmark hmove ⊢
  have hlength : (c :: tail).length = m.length := by rw [← htail, String.length_toList]
  rw [hlength] at hmove ⊢
  simp only [hstart, Bool.false_eq_true, if_false, List.length_nil, List.drop_zero, hquote, hdigit,
    hnumber, hmark, Bool.or_self, hmove]

/-! ### Numbers -/

def IsDigits (cs : List Char) : Prop := cs ≠ [] ∧ ∀ c ∈ cs, c.isDigit = true

/-- The characters of a number without a sign: digits, and maybe a point and more digits. -/
def IsNumber (cs : List Char) : Prop :=
  IsDigits cs ∨ ∃ whole part, IsDigits whole ∧ IsDigits part ∧ cs = whole ++ '.' :: part

theorem digitRun_append {ds after : List Char} (h : ∀ c ∈ ds, c.isDigit = true)
    (hafter : ∀ c ∈ after.head?, c.isDigit = false ∧ c ≠ '_') (b : Bool) :
    digitRun b (ds ++ after) = ds.length := by
  induction ds generalizing b with
  | nil =>
    cases after with
    | nil => rfl
    | cons c after =>
      obtain ⟨hd, hu⟩ := hafter c rfl
      simp [digitRun, hd, hu]
  | cons d ds ih =>
    rw [List.forall_mem_cons] at h
    rw [List.cons_append, digitRun, if_pos h.1, ih h.2, List.length_cons]

/-- A character that may come right after a number. -/
def EndsNumber (c : Char) : Prop := isIdentifierChar c = false ∧ c ≠ '.'

theorem isIdentifierChar_of_isNameChar {c : Char} (h : isNameChar c = true) :
    isIdentifierChar c = true := by
  rw [isIdentifierChar, if_pos (toNat_lt_of_isNameChar h)]
  exact h

theorem isNameChar_of_isDigit {c : Char} (h : c.isDigit = true) : isNameChar c = true := by
  rw [isNameChar, Char.isAlphanum, h, Bool.or_true, Bool.true_or]

/-- A character inside a number or after it is no letter. -/
theorem not_isAlpha {c : Char} (h : c.isDigit = true ∨ c = '.' ∨ EndsNumber c) :
    c.isAlpha = false := by
  rw [← Bool.not_eq_true]
  intro halpha
  have hname : isNameChar c = true := isNameChar_of_isAlpha halpha
  rcases h with h | rfl | h
  · have hall : ∀ n < 128, (Char.ofNat n).isDigit = true → (Char.ofNat n).isAlpha = false := by
      decide
    have := hall c.toNat (toNat_lt_of_isNameChar hname)
    rw [Char.ofNat_toNat] at this
    exact Bool.noConfusion ((this h).symm.trans halpha)
  · exact absurd halpha (by decide)
  · exact Bool.noConfusion (h.1.symm.trans (isIdentifierChar_of_isNameChar hname))

theorem EndsNumber.not_digit {c : Char} (h : EndsNumber c) : c.isDigit = false ∧ c ≠ '_' := by
  constructor
  · rw [← Bool.not_eq_true]
    intro hd
    exact Bool.noConfusion
      (h.1.symm.trans (isIdentifierChar_of_isNameChar (isNameChar_of_isDigit hd)))
  · rintro rfl
    exact absurd h.1 (by decide)

/-- The second character of a number, or the first one after its only digit, is no letter: so the
number is no hexadecimal, octal or binary one. -/
theorem second_of_isNumber {cs after : List Char} (h : IsNumber cs)
    (hafter : ∀ c ∈ after.head?, EndsNumber c) {c d : Char} {rest : List Char}
    (he : cs ++ after = c :: d :: rest) : d.isAlpha = false := by
  refine not_isAlpha ?_
  have hmem : d ∈ cs ∨ d ∈ after.head? := by
    cases cs with
    | nil =>
      rcases h with h | ⟨_, _, _, _, h⟩
      · exact absurd rfl h.1
      · simp at h
    | cons c' cs =>
      have he' : cs ++ after = d :: rest := (List.cons.inj he).2
      cases cs with
      | nil => right; simpa using congrArg List.head? he'
      | cons d' cs => left; rw [(List.cons.inj he').1]; simp
  rcases hmem with hmem | hmem
  · rcases h with h | ⟨whole, part, hw, hp, rfl⟩
    · exact .inl (h.2 d hmem)
    · rcases List.mem_append.mp hmem with hmem | hmem
      · exact .inl (hw.2 d hmem)
      · rcases List.mem_cons.mp hmem with rfl | hmem
        · exact .inr (.inl rfl)
        · exact .inl (hp.2 d hmem)
  · exact .inr (.inr (hafter d hmem))

theorem exponentLength_eq_zero {cs : List Char} (h : ∀ c ∈ cs.head?, c.isAlpha = false) :
    exponentLength cs = 0 := by
  cases cs with
  | nil => rfl
  | cons c cs =>
    have hne : ∀ d : Char, d.isAlpha = true → c ≠ d := by
      rintro d hd rfl
      exact Bool.noConfusion ((h c rfl).symm.trans hd)
    simp [exponentLength, hne 'e' (by decide), hne 'E' (by decide)]

theorem suffixLength_eq_zero {ls cs : List Char} (hls : ∀ l ∈ ls, l.isAlpha = true)
    (h : ∀ c ∈ cs.head?, c.isAlpha = false) : suffixLength ls cs = 0 := by
  cases cs with
  | nil => rfl
  | cons c cs =>
    have hc : c ∉ ls := fun hmem => Bool.noConfusion ((h c rfl).symm.trans (hls c hmem))
    simp [suffixLength, hc]

/-- A number reaches as far as its digits. -/
theorem numberLength_append {cs after : List Char} (h : IsNumber cs)
    (hafter : ∀ c ∈ after.head?, EndsNumber c) : numberLength (cs ++ after) = cs.length := by
  have hend : ∀ c ∈ after.head?, c.isDigit = false ∧ c ≠ '_' := fun c hc => (hafter c hc).not_digit
  have hletter : ∀ c ∈ after.head?, c.isAlpha = false := fun c hc =>
    not_isAlpha (.inr (.inr (hafter c hc)))
  rw [numberLength]
  · rcases h with h | ⟨whole, part, hw, hp, rfl⟩
    · rw [digitRun_append h.2 hend, List.drop_left]
      cases after with
      | nil => simp [exponentLength, suffixLength]
      | cons c after =>
        have hpoint : c ≠ '.' := (hafter c rfl).2
        split
        · next heq => exact absurd (List.cons.inj heq).1 hpoint
        · simp only [List.drop_left, exponentLength_eq_zero hletter, Nat.add_zero, beq_self_eq_true,
            if_true]
          rw [suffixLength_eq_zero (by decide) hletter, Nat.add_zero]
    · have hpoint : ∀ c ∈ ('.' :: (part ++ after)).head?, c.isDigit = false ∧ c ≠ '_' := by simp
      have hwhole := digitRun_append hw.2 hpoint false
      have hdrop :
          (whole ++ '.' :: (part ++ after)).drop (whole.length + 1 + part.length) = after := by
        have : whole.length + 1 + part.length = (whole ++ '.' :: part).length := by simp; omega
        rw [this, ← List.cons_append, ← List.append_assoc, List.drop_left]
      rw [List.append_assoc, List.cons_append, hwhole, List.drop_left]
      simp only [digitRun_append hp.2 hend, hdrop, exponentLength_eq_zero hletter, Nat.add_zero]
      rw [suffixLength_eq_zero (by split <;> decide) hletter]
      simp
      omega
  iterate 6
    exact fun _ he => absurd (second_of_isNumber h hafter he) (by decide)

theorem not_isIdentifierStart {c : Char} (h : c.isDigit = true) : isIdentifierStart c = false := by
  have hne : c ≠ '_' := by rintro rfl; exact absurd h (by decide)
  have hlt : c.toNat < 0x80 := toNat_lt_of_isNameChar (isNameChar_of_isDigit h)
  rw [isIdentifierStart, if_pos hlt, not_isAlpha (.inl h), beq_false_of_ne hne, Bool.or_self]

theorem tokenAt_number {cs after : List Char} (h : IsNumber cs)
    (hafter : ∀ c ∈ after.head?, EndsNumber c) (n : Nat) (g : Gap) (o l : Nat) :
    tokenAt (n + 1) g ⟨cs ++ after, o, l⟩ =
      (.mk .number "" (cs ++ after) o (o + cs.length) l l g [], ⟨after, o + cs.length, l⟩) := by
  have hlength := numberLength_append h hafter
  have hchars : ∀ c ∈ cs, c.isDigit = true ∨ c = '.' := by
    rcases h with h | ⟨whole, part, hw, hp, rfl⟩
    · exact fun c hc => .inl (h.2 c hc)
    · simp only [List.forall_mem_append, List.forall_mem_cons, or_true, true_and]
      exact ⟨fun c hc => .inl (hw.2 c hc), fun c hc => .inl (hp.2 c hc)⟩
  obtain ⟨c, tail, rfl, hdigit⟩ : ∃ c tail, cs = c :: tail ∧ c.isDigit = true := by
    rcases h with ⟨hne, h⟩ | ⟨whole, part, ⟨hne, hw⟩, -, rfl⟩
    · obtain ⟨c, tail, rfl⟩ := List.exists_cons_of_ne_nil hne
      exact ⟨c, tail, rfl, h c List.mem_cons_self⟩
    · obtain ⟨c, tail, rfl⟩ := List.exists_cons_of_ne_nil hne
      exact ⟨c, tail ++ '.' :: part, rfl, hw c List.mem_cons_self⟩
  have hbreak : '\n' ∉ c :: tail := fun hmem => absurd (hchars _ hmem) (by decide)
  have hmove := move_eq hbreak after o l
  have hstart := not_isIdentifierStart hdigit
  have hquote : isQuote c = false := by
    rw [← Bool.not_eq_true]
    intro hq
    simp only [isQuote, Bool.or_eq_true, beq_iff_eq] at hq
    rcases hq with (rfl | rfl) | rfl <;> exact absurd hdigit (by decide)
  rw [List.cons_append] at hlength hmove ⊢
  rw [tokenAt.eq_def]
  simp only [hstart, Bool.false_eq_true, if_false, List.length_nil, List.drop_zero, hquote, hdigit,
    Bool.true_or, if_true, hlength, hmove]

/-! ### Texts -/

/-- Characters between quotes: each stands for itself or is part of an escape. -/
inductive Inside : List Char → Prop
  | nil : Inside []
  | plain {c : Char} {cs : List Char} : c ≠ '"' → c ≠ '\\' → c ≠ '\n' → c ≠ '\x00' → Inside cs →
      Inside (c :: cs)
  | escape {e cs : List Char} : (∀ rest, escapeLength (e ++ rest) = e.length) → '\n' ∉ e →
      Inside cs → Inside ('\\' :: (e ++ cs))

theorem Inside.not_mem {cs : List Char} (h : Inside cs) : '\n' ∉ cs := by
  induction h with
  | nil => exact List.not_mem_nil
  | plain _ _ hn _ _ ih => exact fun hmem => (List.mem_cons.mp hmem).elim (fun he => hn he.symm) ih
  | escape _ he _ ih =>
    intro hmem
    rcases List.mem_cons.mp hmem with h | h
    · exact absurd h (by decide)
    · exact (List.mem_append.mp h).elim he ih

theorem Inside.append {as bs : List Char} (ha : Inside as) (hb : Inside bs) :
    Inside (as ++ bs) := by
  induction ha with
  | nil => exact hb
  | plain h1 h2 h3 h4 _ ih => exact .plain h1 h2 h3 h4 ih
  | escape he hn _ ih =>
    rw [List.cons_append, List.append_assoc]
    exact .escape he hn ih

def doubleQuoted (triple : Bool) : Quoting := ⟨false, false, false, triple, '"'⟩

def closing (triple : Bool) : List Char := if triple then ['"', '"', '"'] else ['"']

/-- A text between quotes is read up to the quotes that close it. -/
theorem textBody_inside {cs : List Char} (h : Inside cs) (triple content : Bool) (after : List Char)
    (o l fuel : Nat) (hfuel : cs.length < fuel) :
    textBody fuel (doubleQuoted triple) content [] ⟨cs ++ (closing triple ++ after), o, l⟩ =
      some ([], ⟨after, o + (cs.length + (closing triple).length), l⟩) := by
  induction h generalizing content o fuel with
  | nil =>
    obtain ⟨fuel, rfl⟩ : ∃ k, fuel = k + 1 := ⟨fuel - 1, by simp at hfuel; omega⟩
    cases triple <;> rw [textBody.eq_def] <;> simp [closing, doubleQuoted, Cursor.move]
  | @plain c cs hq hb hn hnull _ ih =>
    obtain ⟨fuel, rfl⟩ : ∃ k, fuel = k + 1 := ⟨fuel - 1, by simp at hfuel; omega⟩
    rw [textBody.eq_def]
    rw [List.length_cons] at hfuel
    have := ih true (o + 1) fuel (by omega)
    simp [doubleQuoted, hq, hb, hn, hnull, Cursor.move] at this ⊢
    rw [this]
    congr 3
    omega
  | @escape e cs he hn _ ih =>
    obtain ⟨fuel, rfl⟩ : ∃ k, fuel = k + 1 := ⟨fuel - 1, by simp at hfuel; omega⟩
    rw [List.length_cons, List.length_append] at hfuel
    have hmove : Cursor.move ⟨'\\' :: (e ++ (cs ++ (closing triple ++ after))), o, l⟩ (1 + e.length)
        = ⟨cs ++ (closing triple ++ after), o + (1 + e.length), l⟩ := by
      have hmem : '\n' ∉ '\\' :: e := by simpa using hn
      rw [← List.cons_append, Nat.add_comm 1]
      exact move_eq hmem _ o l
    have hlater := ih false (o + (1 + e.length)) fuel (by omega)
    rw [List.cons_append, List.append_assoc, textBody.eq_def]
    simp [doubleQuoted, he, hmove] at hlater ⊢
    rw [hlater]
    congr 3
    omega

def IsText (cs : List Char) : Prop :=
  ∃ triple inner, Inside inner ∧ cs = closing triple ++ (inner ++ closing triple)

theorem Inside.head_ne {cs : List Char} (h : Inside cs) : ∀ c ∈ cs.head?, c ≠ '"' := by
  cases h with
  | nil => simp
  | plain hq => simpa using hq
  | escape => simp

/-- Whether the quote before the characters is the first of three. -/
def opensTriple (quote : Char) : List Char → Bool
  | a :: b :: _ => a == quote && b == quote
  | _ => false

/-- Two quotes before anything else are an empty text, and do not open a longer one. -/
theorem not_opensTriple {inner after : List Char} (h : Inside inner)
    (hafter : ∀ c ∈ after.head?, c ≠ '"') : opensTriple '"' (inner ++ '"' :: after) = false := by
  cases inner with
  | nil =>
    cases after with
    | nil => rfl
    | cons d after => simpa [opensTriple] using hafter d rfl
  | cons c inner =>
    have hc : c ≠ '"' := h.head_ne c rfl
    cases inner <;> simp [opensTriple, hc]

theorem tokenAt_quote (n : Nat) (g : Gap) (o l : Nat) (more : List Char) :
    tokenAt (n + 1) g ⟨'"' :: more, o, l⟩ =
      match textBody n (doubleQuoted (opensTriple '"' more)) false []
          (Cursor.move ⟨'"' :: more, o, l⟩ (if opensTriple '"' more then 3 else 1)) with
      | some (fields, d) =>
        (.mk .text "" ('"' :: more) o d.offset l d.line g fields.reverse, d)
      | none => (.mk .broken "" ('"' :: more) o o l l g [], ⟨[], o, l⟩) := by
  have hstyle : ∀ b, quoting? [] '"' b = some (doubleQuoted b) := fun _ => rfl
  have hstart : isIdentifierStart '"' = false := by decide
  have hquote : isQuote '"' = true := by decide
  rw [tokenAt.eq_def]
  simp only [hstart, Bool.false_eq_true, if_false, List.length_nil, List.drop_zero, hquote, if_true,
    hstyle, Option.map_some, Nat.zero_add]
  cases more with
  | nil => rfl
  | cons a more =>
    cases more with
    | nil => rfl
    | cons b more => rfl

theorem tokenAt_text {cs after : List Char} (h : IsText cs) (hafter : ∀ c ∈ after.head?, c ≠ '"')
    (n : Nat) (hn : cs.length < n) (g : Gap) (o l : Nat) :
    tokenAt (n + 1) g ⟨cs ++ after, o, l⟩ =
      (.mk .text "" (cs ++ after) o (o + cs.length) l l g [], ⟨after, o + cs.length, l⟩) := by
  obtain ⟨triple, inner, hinner, rfl⟩ := h
  have hbody := textBody_inside hinner triple false after (o + (closing triple).length) l n
    (by simp at hn; omega)
  have hopen : opensTriple '"' ((closing triple).tail ++ (inner ++ (closing triple ++ after))) =
      triple := by
    cases triple with
    | false => exact not_opensTriple hinner hafter
    | true => rfl
  have hmove : Cursor.move ⟨closing triple ++ (inner ++ (closing triple ++ after)), o, l⟩
      (if triple then 3 else 1) =
        ⟨inner ++ (closing triple ++ after), o + (closing triple).length, l⟩ := by
    cases triple <;> rfl
  have hcons : closing triple = '"' :: (closing triple).tail := by cases triple <;> rfl
  have hquote := tokenAt_quote n g o l ((closing triple).tail ++
    (inner ++ (closing triple ++ after)))
  rw [hopen, ← List.cons_append, ← hcons, hmove, hbody] at hquote
  rw [List.append_assoc, List.append_assoc, hquote]
  simp only [List.length_append, List.reverse_nil, Nat.add_assoc]

end AgentFlow.Code

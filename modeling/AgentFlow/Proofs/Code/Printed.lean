import AgentFlow.Proofs.Code.Lexing
import Mathlib.Algebra.GroupWithZero.Nat
import Mathlib.Data.List.Chain

/-!
# Cutting printed texts into tokens

Generated code is printed as lexemes: tokens with what stands before each, which is blanks, line
ends or a comment on a line of its own.

* `Lexeme.Valid`: the characters of a lexeme are those of a token of its kind.
* `Lexeme.fits`: whether a lexeme can be told from the one after it.
* `tokens_print`: **a text that is printed as such lexemes is cut into their tokens.**
* `Spelled`: the tokens are those of some lexemes, at some place of a text.
-/

namespace AgentFlow.Code

open Text

/-! ### Before lexemes -/

/-- What stands before a token: blanks, line ends and then blanks, or a comment on a line. -/
inductive Lead where
  | blanks (n : Nat)
  | breaks (more indent : Nat)
  | comment (indent : Nat) (text : String)

namespace Lead

def chars : Lead → List Char
  | blanks n => List.replicate n ' '
  | breaks k n => '\n' :: (List.replicate k '\n' ++ List.replicate n ' ')
  | comment n s =>
    '\n' :: (List.replicate n ' ' ++ '#' :: (s.toList ++ '\n' :: List.replicate n ' '))

/-- The number of line ends in it. -/
def height : Lead → Nat
  | blanks _ => 0
  | breaks k _ => k + 1
  | comment .. => 2

def gap (line : Nat) : Lead → Gap
  | blanks n => { indent := n }
  | breaks _ n => { newline := true, indent := n }
  | comment n _ => { comments := [⟨n, line + 1⟩], newline := true, indent := n }

end Lead

/-- What stands before a token is passed. -/
theorem gap_lead {l : Lead} (hl : ∀ n s, l = .comment n s → IsRemark s.toList) {c : Char}
    (h : startsToken c = true) (cs : List Char) (o n : Nat) :
    Cursor.gap ⟨l.chars ++ c :: cs, o, n⟩ =
      (l.gap n, ⟨c :: cs, o + l.chars.length, n + l.height⟩) := by
  rw [Cursor.gap]
  cases l with
  | blanks k => simp [Lead.chars, gapAt_blanks, gapAt_stop _ _ _ h, Lead.gap, Lead.height]
  | breaks k m =>
    simp [Lead.chars, gapAt_break, gapAt_breaks, gapAt_blanks, gapAt_stop _ _ _ h,
      Lead.gap, Lead.height]
    omega
  | comment k s =>
    have hs := hl k s rfl
    simp [Lead.chars, gapAt_break, gapAt_blanks, gapAt_hash, gapAt_comment _ _ _ hs,
      gapAt_stop _ _ _ h, Lead.gap, Lead.height]
    omega

/-! ### Lexemes -/

/-- A token as it is printed, with what stands before it. -/
structure Lexeme where
  lead : Lead := .blanks 0
  kind : TokenKind
  body : String

namespace Lexeme

def word (x : Lexeme) : String :=
  match x.kind with
  | .name | .mark => x.body
  | _ => ""

def chars (x : Lexeme) : List Char := x.lead.chars ++ x.body.toList

/-- The characters after a lexeme let it end. -/
def EndsBefore (x : Lexeme) (after : List Char) : Prop :=
  ∀ c ∈ after.head?, match x.kind with
    | .name => isIdentifierChar c = false ∧ isQuote c = false
    | .number => EndsNumber c
    | .text => c ≠ '"'
    | _ => (x.body ∈ closedMarks ∨ c ≠ '=' ∧ c ≠ '>' ∧ c ≠ '.') ∧
        (x.body = "." → c.isDigit = false)

/-- A lexeme that is read as a token of its kind. -/
structure Valid (x : Lexeme) : Prop where
  comment : ∀ n s, x.lead = .comment n s → IsRemark s.toList
  body : match x.kind with
    | .name => IsIdentifier x.body.toList
    | .number => IsNumber x.body.toList
    | .text => IsText x.body.toList
    | .mark => x.body ∈ plainMarks
    | _ => False

/-- The token of the lexeme that follows `before` characters and `line - 1` line ends. -/
def token (x : Lexeme) (offset line : Nat) (after : List Char) : Token :=
  .mk x.kind x.word (x.body.toList ++ after) (offset + x.lead.chars.length)
    (offset + x.chars.length) (line + x.lead.height) (line + x.lead.height) (x.lead.gap line) []

end Lexeme

def charsOf (xs : List Lexeme) : List Char := xs.flatMap Lexeme.chars

/-- The number of line ends before and between lexemes. -/
def heightOf (xs : List Lexeme) : Nat := (xs.map (·.lead.height)).sum

/-- The tokens of lexemes, from a place on and before other characters. -/
def place (offset line : Nat) (after : List Char) : List Lexeme → List Token
  | [] => []
  | x :: xs => x.token offset line (charsOf xs ++ after) ::
      place (offset + x.chars.length) (line + x.lead.height) after xs

/-- The characters of a lexeme are read as its token. -/
theorem Lexeme.Valid.tokenAt_eq {x : Lexeme} (h : x.Valid) {after : List Char}
    (hafter : x.EndsBefore after) {n : Nat} (hn : x.body.length < n) (g : Gap) (o l : Nat) :
    tokenAt (n + 1) g ⟨x.body.toList ++ after, o, l⟩ =
      (.mk x.kind x.word (x.body.toList ++ after) o (o + x.body.length) l l g [],
        ⟨after, o + x.body.length, l⟩) := by
  obtain ⟨lead, kind, body⟩ := x
  have hb := h.body
  rw [← String.length_toList] at hn ⊢
  cases kind with
  | name =>
    rw [tokenAt_name hb hafter, String.ofList_toList]
    rfl
  | number => exact tokenAt_number hb hafter n g o l
  | text => exact tokenAt_text hb hafter n hn g o l
  | mark =>
    refine tokenAt_mark hb ?_ (fun hp c hc => (hafter c hc).2 hp) n g o l
    by_cases hm : body ∈ closedMarks
    · exact .inl hm
    · exact .inr fun c hc => (hafter c hc).1.resolve_left hm
  | conversion => exact hb.elim
  | broken => exact hb.elim
  | finish => exact hb.elim

/-! ### Lexemes one after the other -/

theorem not_isInvisible {c : Char} (h : isIdentifierStart c = true) : isInvisible c = false := by
  have hall : ['\x0b', '\ufeff', '\u2060', '\u200b'].any isIdentifierStart = false := by
    decide +kernel
  rw [← Bool.not_eq_true]
  intro hi
  rw [List.any_eq_false] at hall
  refine hall c ?_ h
  simpa [isInvisible, or_assoc] using hi

theorem startsToken_of_isIdentifierStart {c : Char} (h : isIdentifierStart c = true) :
    startsToken c = true := by
  have hall : ['\n', ' ', '\t', '\r', '\x0c', '#', '\\'].any isIdentifierStart = false := by
    decide +kernel
  have hc : c ∉ ['\n', ' ', '\t', '\r', '\x0c', '#', '\\'] := fun hmem =>
    List.any_eq_false.mp hall c hmem h
  simp only [startsToken, not_isInvisible h, Bool.or_false, List.contains_eq_mem, hc, decide_false,
    Bool.not_false]

theorem startsToken_of_isDigit {c : Char} (h : c.isDigit = true) : startsToken c = true := by
  have hall : ∀ n < 128, (Char.ofNat n).isDigit = true → startsToken (Char.ofNat n) = true := by
    decide
  have hlt := toNat_lt_of_isNameChar (isNameChar_of_isDigit h)
  rw [← Char.ofNat_toNat c] at h ⊢
  exact hall c.toNat hlt h

/-- The first character of what is printed for a token of the kind. -/
def OpensKind (body : String) (c : Char) : TokenKind → Prop
  | .name => isIdentifierStart c = true
  | .number => c.isDigit = true
  | .text => c = '"'
  | _ => isIdentifierChar c = false ∧ isQuote c = false ∧ (c = '.' → body ∈ [".", "..."])

theorem Lexeme.Valid.exists_head {x : Lexeme} (h : x.Valid) :
    ∃ c cs, x.body.toList = c :: cs ∧ startsToken c = true ∧ OpensKind x.body c x.kind := by
  obtain ⟨lead, kind, body⟩ := x
  have hb := h.body
  cases kind with
  | name =>
    obtain ⟨⟨c, hc, hstart⟩, -⟩ := hb
    obtain ⟨cs, hcs⟩ := List.head?_eq_some_iff.mp hc
    exact ⟨c, cs, hcs, startsToken_of_isIdentifierStart hstart, hstart⟩
  | number =>
    have hhead : ∃ c cs, body.toList = c :: cs ∧ c.isDigit = true := by
      rcases hb with ⟨hne, hd⟩ | ⟨whole, part, ⟨hne, hd⟩, -, he⟩
      · obtain ⟨c, cs, hcs⟩ := List.exists_cons_of_ne_nil hne
        rw [hcs] at hd
        exact ⟨c, cs, hcs, hd c List.mem_cons_self⟩
      · obtain ⟨c, cs, rfl⟩ := List.exists_cons_of_ne_nil hne
        exact ⟨c, cs ++ '.' :: part, he, hd c List.mem_cons_self⟩
    obtain ⟨c, cs, hcs, hd⟩ := hhead
    exact ⟨c, cs, hcs, startsToken_of_isDigit hd, hd⟩
  | text =>
    obtain ⟨triple, inner, -, he⟩ := hb
    refine ⟨'"', (closing triple).tail ++ (inner ++ closing triple), ?_, by decide, rfl⟩
    cases triple <;> exact he
  | mark =>
    have hall : ∀ m ∈ plainMarks, ∃ c ∈ m.toList.head?, startsToken c = true ∧
        isIdentifierChar c = false ∧ isQuote c = false ∧ (c = '.' → m ∈ [".", "..."]) := by
      decide +kernel
    obtain ⟨c, hc, hs, hi, hq, hp⟩ := hall body hb
    obtain ⟨cs, hcs⟩ := List.head?_eq_some_iff.mp hc
    exact ⟨c, cs, hcs, hs, hi, hq, hp⟩
  | conversion => exact hb.elim
  | broken => exact hb.elim
  | finish => exact hb.elim

def openingMarks : List String := ["(", "[", "\x7b"]

/-- Whether a lexeme can be told from one that follows it at once, by their kinds and marks. -/
def Lexeme.tight (x y : Lexeme) : Bool :=
  match x.kind, y.kind with
  | .mark, .mark => closedMarks.contains x.body || openingMarks.contains y.body
  | .mark, .number => x.body != "."
  | .mark, _ => true
  | .number, .mark => !([".", "..."].contains y.body)
  | _, .mark => true
  | _, _ => false

/-- Whether a lexeme can be told from the one after it. -/
def Lexeme.fits (x y : Lexeme) : Bool :=
  match y.lead with
  | .blanks 0 => x.tight y
  | _ => true

theorem Lexeme.Valid.endsBefore_blank {x : Lexeme} (h : x.Valid) {c : Char}
    (hc : c = ' ' ∨ c = '\n')
    (cs : List Char) : x.EndsBefore (c :: cs) := by
  intro d hd
  obtain rfl : c = d := by simpa using hd
  obtain ⟨lead, kind, body⟩ := x
  rcases hc with rfl | rfl <;> cases kind <;> first
    | exact ⟨by decide, by decide⟩
    | exact ⟨.inr (by decide), fun _ => by decide⟩
    | exact fun he => absurd he (by decide)

/-- A lexeme ends before one that it can be told from. -/
theorem Lexeme.endsBefore_of_tight {x y : Lexeme} (hx : x.Valid) (hy : y.Valid)
    (h : x.tight y = true) (cs : List Char) : x.EndsBefore (y.body.toList ++ cs) := by
  obtain ⟨c, ds, hbody, -, hopen⟩ := hy.exists_head
  intro d hd
  obtain rfl : c = d := by simpa [hbody] using hd
  obtain ⟨xlead, xkind, xbody⟩ := x
  obtain ⟨ylead, ykind, ybody⟩ := y
  have hmark (hk : ykind = .mark) : isIdentifierChar c = false ∧ isQuote c = false := by
    subst hk
    exact ⟨hopen.1, hopen.2.1⟩
  cases xkind with
  | name => exact hmark (by cases ykind <;> first | rfl | exact Bool.noConfusion h)
  | text =>
    have hq := hmark (by cases ykind <;> first | rfl | exact Bool.noConfusion h)
    exact fun hc => absurd (hc ▸ hq.2) (by decide)
  | number =>
    obtain rfl : ykind = .mark := by cases ykind <;> first | rfl | exact Bool.noConfusion h
    refine ⟨hopen.1, fun hc => ?_⟩
    simp [Lexeme.tight] at h
    simpa [h] using hopen.2.2 hc
  | mark =>
    cases ykind with
    | mark =>
      have hclosed : xbody ∈ closedMarks ∨ ybody ∈ openingMarks := by
        simpa [Lexeme.tight] using h
      rcases hclosed with hclosed | hopening
      · exact ⟨.inl hclosed, fun hp => absurd (hp ▸ hclosed : "." ∈ closedMarks) (by decide)⟩
      · have hall : ∀ m ∈ openingMarks, ∀ c ∈ m.toList.head?,
            c ≠ '=' ∧ c ≠ '>' ∧ c ≠ '.' ∧ c.isDigit = false := by decide
        obtain ⟨h1, h2, h3, h4⟩ := hall ybody hopening c (hbody ▸ rfl)
        exact ⟨.inr ⟨h1, h2, h3⟩, fun _ => h4⟩
    | number =>
      have hp : xbody ≠ "." := by simpa [Lexeme.tight] using h
      have hne : ∀ d : Char, d.isDigit = false → c ≠ d := fun d hd he =>
        Bool.noConfusion (hd.symm.trans (he ▸ hopen))
      exact ⟨.inr ⟨hne _ (by decide), hne _ (by decide), hne _ (by decide)⟩, fun he => absurd he hp⟩
    | text =>
      obtain rfl : c = '"' := hopen
      exact ⟨.inr (by decide), fun _ => by decide⟩
    | name =>
      have hc : isIdentifierStart c = true := hopen
      have hne : ∀ d : Char, isIdentifierStart d = false → c ≠ d := fun d hd he =>
        Bool.noConfusion (hd.symm.trans (he ▸ hc))
      refine ⟨.inr ⟨hne _ (by decide), hne _ (by decide), hne _ (by decide)⟩, fun _ => ?_⟩
      rw [← Bool.not_eq_true]
      exact fun hd => Bool.noConfusion ((not_isIdentifierStart hd).symm.trans hc)
    | conversion => exact hy.body.elim
    | broken => exact hy.body.elim
    | finish => exact hy.body.elim
  | conversion => exact hx.body.elim
  | broken => exact hx.body.elim
  | finish => exact hx.body.elim

theorem Lexeme.lead_cases (x : Lexeme) :
    x.lead = .blanks 0 ∨ ∃ c cs, x.lead.chars = c :: cs ∧ (c = ' ' ∨ c = '\n') := by
  obtain ⟨lead, kind, body⟩ := x
  cases lead with
  | blanks n =>
    cases n with
    | zero => exact .inl rfl
    | succ n => exact .inr ⟨' ', List.replicate n ' ', rfl, .inl rfl⟩
  | breaks k n => exact .inr ⟨'\n', _, rfl, .inr rfl⟩
  | comment n s => exact .inr ⟨'\n', _, rfl, .inr rfl⟩

theorem Lexeme.endsBefore_of_fits {x y : Lexeme} (hx : x.Valid) (hy : y.Valid)
    (h : x.fits y = true) (cs : List Char) : x.EndsBefore (y.chars ++ cs) := by
  rw [Lexeme.chars, List.append_assoc]
  rcases y.lead_cases with hlead | ⟨c, ds, hlead, hc⟩
  · rw [hlead]
    rw [Lexeme.fits, hlead] at h
    exact Lexeme.endsBefore_of_tight hx hy h cs
  · rw [hlead]
    exact hx.endsBefore_blank hc _

/-- Lexemes that are read back as they are printed. -/
structure Printed (xs : List Lexeme) : Prop where
  valid : ∀ x ∈ xs, x.Valid
  fits : xs.IsChain fun x y => x.fits y = true

theorem Printed.tail {x : Lexeme} {xs : List Lexeme} (h : Printed (x :: xs)) : Printed xs :=
  ⟨fun y hy => h.valid y (List.mem_cons_of_mem x hy), h.fits.tail⟩

@[simp] theorem charsOf_nil : charsOf [] = [] := rfl

theorem charsOf_cons (x : Lexeme) (xs : List Lexeme) : charsOf (x :: xs) = x.chars ++ charsOf xs :=
  List.flatMap_cons

theorem charsOf_append (xs ys : List Lexeme) : charsOf (xs ++ ys) = charsOf xs ++ charsOf ys :=
  List.flatMap_append

theorem Lexeme.length_chars (x : Lexeme) :
    x.chars.length = x.lead.chars.length + x.body.length := by
  rw [Lexeme.chars, List.length_append, String.length_toList]

theorem Lexeme.Valid.gap_eq {x : Lexeme} (h : x.Valid) (after : List Char) (o l : Nat) :
    Cursor.gap ⟨x.chars ++ after, o, l⟩ =
      (x.lead.gap l, ⟨x.body.toList ++ after, o + x.lead.chars.length, l + x.lead.height⟩) := by
  obtain ⟨c, cs, hbody, hstart, -⟩ := h.exists_head
  rw [Lexeme.chars, List.append_assoc, hbody, List.cons_append]
  exact gap_lead h.comment hstart _ o l

/-- A lexeme of printed ones ends before what follows it. -/
theorem Printed.endsBefore {x : Lexeme} {xs : List Lexeme} (h : Printed (x :: xs))
    {after : List Char}
    (hafter : ∀ y ∈ (x :: xs).getLast?, y.EndsBefore after) :
    x.EndsBefore (charsOf xs ++ after) := by
  cases xs with
  | nil => exact hafter x rfl
  | cons y ys =>
    rw [charsOf_cons, List.append_assoc]
    exact Lexeme.endsBefore_of_fits (h.valid x List.mem_cons_self)
      (h.valid y (List.mem_cons_of_mem x List.mem_cons_self)) (List.isChain_cons_cons.mp h.fits).1 _

/-- The lexer goes over printed lexemes. -/
theorem tokensFrom_place {size : Nat} {xs : List Lexeme} (h : Printed xs) {after : List Char}
    (hafter : ∀ x ∈ xs.getLast?, x.EndsBefore after) (hsize : (charsOf xs).length + 1 < size)
    (fuel o l : Nat) (seen : List Token) :
    tokensFrom size (fuel + xs.length) seen ⟨charsOf xs ++ after, o, l⟩ =
      tokensFrom size fuel ((place o l after xs).reverse ++ seen)
        ⟨after, o + (charsOf xs).length, l + heightOf xs⟩ := by
  induction xs generalizing o l seen with
  | nil => rfl
  | cons x xs ih =>
    have hx := h.valid x List.mem_cons_self
    rw [charsOf_cons, List.length_append, x.length_chars] at hsize
    obtain ⟨n, rfl⟩ : ∃ n, size = n + 1 := ⟨size - 1, by omega⟩
    have hn : x.body.length < n := by omega
    have htoken := hx.tokenAt_eq (h.endsBefore hafter) hn (x.lead.gap l) (o + x.lead.chars.length)
      (l + x.lead.height)
    have hkind : (x.kind == .finish) = false := by
      have hb := hx.body
      cases hk : x.kind <;> rw [hk] at hb <;> first | rfl | exact hb.elim
    have hlast : ∀ y ∈ xs.getLast?, y.EndsBefore after := by
      cases xs with
      | nil => simp
      | cons y ys => exact hafter
    have hafterx : o + x.lead.chars.length + x.body.length = o + x.chars.length := by
      rw [x.length_chars, Nat.add_assoc]
    rw [List.length_cons, ← Nat.add_assoc, tokensFrom, charsOf_cons, List.append_assoc, hx.gap_eq]
    simp only [htoken, Token.kind, hkind, Bool.false_eq_true, if_false, hafterx]
    rw [ih h.tail hlast (by omega), place, List.reverse_cons, List.append_assoc, List.length_append,
      heightOf, heightOf, List.map_cons, List.sum_cons, Nat.add_assoc, Nat.add_assoc]
    rfl

theorem length_le_charsOf {xs : List Lexeme} (h : ∀ x ∈ xs, x.Valid) :
    xs.length ≤ (charsOf xs).length := by
  induction xs with
  | nil => exact Nat.zero_le _
  | cons x xs ih =>
    rw [List.forall_mem_cons] at h
    obtain ⟨c, cs, hbody, -⟩ := h.1.exists_head
    have hpos : 0 < x.body.length := by rw [← String.length_toList, hbody]; simp
    have := ih h.2
    rw [charsOf_cons, List.length_append, x.length_chars, List.length_cons]
    omega

def endToken (offset line : Nat) : Token :=
  .mk .finish "" [] (offset + 1) (offset + 1) (line + 1) (line + 1) { newline := true } []

/-- The lexer ends after the last line end. -/
theorem tokensFrom_end (size fuel o l : Nat) (seen : List Token) :
    tokensFrom (size + 1) (fuel + 1) seen ⟨['\n'], o, l⟩ = seen.reverse ++ [endToken o l] := by
  have hgap : Cursor.gap ⟨['\n'], o, l⟩ = ({ newline := true }, ⟨[], o + 1, l + 1⟩) := by
    rw [Cursor.gap, gapAt_break]
    rfl
  have htoken : tokenAt (size + 1) { newline := true } ⟨[], o + 1, l + 1⟩ =
      (endToken o l, ⟨[], o + 1, l + 1⟩) := by
    rw [tokenAt.eq_def]
    rfl
  rw [tokensFrom, hgap]
  simp only [htoken]
  rw [if_pos (by rfl), List.reverse_cons]

/-- **Printed lexemes are cut into their tokens.** -/
theorem tokens_print {xs : List Lexeme} (h : Printed xs) :
    tokens (String.ofList (charsOf xs ++ ['\n'])) =
      place 0 1 ['\n'] xs ++ [endToken (charsOf xs).length (1 + heightOf xs)] := by
  have hlast : ∀ x ∈ xs.getLast?, x.EndsBefore ['\n'] := fun x hx =>
    (h.valid x (List.mem_of_mem_getLast? hx)).endsBefore_blank (.inr rfl) []
  have hle := length_le_charsOf h.valid
  obtain ⟨k, hk⟩ : ∃ k, (charsOf xs).length + 1 + 2 = k + 1 + xs.length :=
    ⟨(charsOf xs).length + 2 - xs.length, by omega⟩
  rw [tokens, String.length_ofList, String.toList_ofList, List.length_append, List.length_singleton,
    hk, tokensFrom_place h hlast (by omega), Nat.zero_add, List.append_nil]
  exact (tokensFrom_end _ k _ _ _).trans (by rw [List.reverse_reverse])

/-! ### Tokens of lexemes -/

theorem place_append (o l : Nat) (after : List Char) (xs ys : List Lexeme) :
    place o l after (xs ++ ys) = place o l (charsOf ys ++ after) xs ++
      place (o + (charsOf xs).length) (l + heightOf xs) after ys := by
  induction xs generalizing o l with
  | nil => rfl
  | cons x xs ih =>
    rw [List.cons_append, place, ih, place, charsOf_append, charsOf_cons]
    simp only [heightOf, List.map_cons, List.sum_cons, List.length_append, List.cons_append,
      List.append_assoc, Nat.add_assoc]

/-- The tokens are those of the lexemes at some place. -/
def Spelled (xs : List Lexeme) (ts : List Token) : Prop :=
  ∃ offset line after, ts = place offset line after xs

/-- What a token shows of its lexeme. -/
structure Token.Shows (t : Token) (x : Lexeme) : Prop where
  kind : t.kind = x.kind
  word : t.word = x.word
  fields : t.fields = []
  gap : ∃ line, t.gap = x.lead.gap line

theorem Spelled.append {xs ys : List Lexeme} {ts : List Token} (h : Spelled (xs ++ ys) ts) :
    ∃ us vs, ts = us ++ vs ∧ Spelled xs us ∧ Spelled ys vs := by
  obtain ⟨o, l, after, rfl⟩ := h
  exact ⟨_, _, place_append o l after xs ys, ⟨_, _, _, rfl⟩, ⟨_, _, _, rfl⟩⟩

theorem Spelled.cons {x : Lexeme} {xs : List Lexeme} {ts : List Token} (h : Spelled (x :: xs) ts) :
    ∃ t us, ts = t :: us ∧ t.Shows x ∧ Spelled xs us := by
  obtain ⟨o, l, after, rfl⟩ := h
  exact ⟨_, _, rfl, ⟨rfl, rfl, rfl, l, rfl⟩, _, _, _, rfl⟩

/-- The last token ends where the characters do. -/
theorem stop_getLast_place {o l : Nat} {after : List Char} {xs : List Lexeme} {t : Token}
    (h : (place o l after xs).getLast? = some t) : t.stop = o + (charsOf xs).length := by
  induction xs generalizing o l with
  | nil => exact absurd h (by simp [place])
  | cons x xs ih =>
    cases xs with
    | nil =>
      obtain rfl : x.token o l (charsOf [] ++ after) = t := by simpa [place] using h
      simp [Lexeme.token, Token.stop, charsOf]
    | cons y ys =>
      rw [place, place, List.getLast?_cons_cons, ← place] at h
      rw [ih h, charsOf_cons x, List.length_append, Nat.add_assoc]

theorem endLine_getLast_place {o l : Nat} {after : List Char} {xs : List Lexeme} {t : Token}
    (h : (place o l after xs).getLast? = some t) : t.endLine = l + heightOf xs := by
  induction xs generalizing o l with
  | nil => exact absurd h (by simp [place])
  | cons x xs ih =>
    cases xs with
    | nil =>
      obtain rfl : x.token o l (charsOf [] ++ after) = t := by simpa [place] using h
      simp [Lexeme.token, Token.endLine, heightOf]
    | cons y ys =>
      rw [place, place, List.getLast?_cons_cons, ← place] at h
      rw [ih h, heightOf, heightOf, List.map_cons (l := y :: ys), List.sum_cons, Nat.add_assoc]

/-- The characters of lexemes from the first token on. -/
def spelling : List Lexeme → String
  | [] => ""
  | x :: xs => String.ofList (x.body.toList ++ charsOf xs)

/-- The lines from the first token to the last one. -/
theorem Spelled.endLine {x : Lexeme} {xs : List Lexeme} {ts : List Token}
    (h : Spelled (x :: xs) ts) {first last : Token} (hfirst : ts.head? = some first)
    (hlast : ts.getLast? = some last) : last.endLine = first.line + heightOf xs := by
  obtain ⟨o, l, after, rfl⟩ := h
  obtain rfl : x.token o l (charsOf xs ++ after) = first := by simpa [place] using hfirst
  rw [endLine_getLast_place hlast, heightOf, List.map_cons, List.sum_cons, ← Nat.add_assoc]
  rfl

/-- The text from the first token to the last one. -/
theorem Spelled.text {xs : List Lexeme} {ts : List Token} (h : Spelled xs ts) {first last : Token}
    (hfirst : ts.head? = some first) (hlast : ts.getLast? = some last) :
    textUpTo first last.stop = spelling xs := by
  obtain ⟨o, l, after, rfl⟩ := h
  cases xs with
  | nil => simp [place] at hfirst
  | cons x xs =>
    obtain rfl : x.token o l (charsOf xs ++ after) = first := by simpa [place] using hfirst
    rw [textUpTo, stop_getLast_place hlast, spelling]
    congr 1
    have : o + (charsOf (x :: xs)).length - (o + x.lead.chars.length) =
        (x.body.toList ++ charsOf xs).length := by
      rw [charsOf_cons, Lexeme.chars]
      simp only [List.length_append]
      omega
    simp only [Lexeme.token, Token.start, Token.source]
    rw [this, ← List.append_assoc, List.take_left]

end AgentFlow.Code

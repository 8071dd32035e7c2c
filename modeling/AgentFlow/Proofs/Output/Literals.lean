import AgentFlow.Output.Names
import AgentFlow.Proofs.Output.OneLine

/-!
# Literals in generated code

How Python reads a text between quotes, and what the texts of a specification are read as once they
stand in generated code.  A literal is first cut off (`literal?`): a backslash takes the next
character with it, and the first closing quotes that no backslash takes end the literal.  Then its
escapes are resolved (`unescape?`).

* `StandsFor`: some characters of a literal are read as one character, whatever follows them.
* `literalBody?_flatMap`, `unescape?_flatMap`: a text written character by character is read back.
* `freeText_staysInLiteral`: **a free text never leaves its literal**: a documentation string ends
  with its last quote and holds no line break, and a quoted text is read as the text itself.
-/

namespace AgentFlow

open Text Output

/-! ### Cutting off a literal -/

/-- The text of a literal up to the quotes `close`, as it is written, and what follows the literal.
Between single quotes a line must not end. -/
def literalBody? (close : List Char) : List Char → Option (List Char × List Char)
  | [] => none
  | ['\\'] => none
  | '\\' :: c :: rest =>
    (literalBody? close rest).map fun (body, after) => ('\\' :: c :: body, after)
  | c :: rest =>
    if close.isPrefixOf (c :: rest) then some ([], (c :: rest).drop close.length)
    else if close.length == 1 && (c == '\n' || c == '\r') then none
    else (literalBody? close rest).map fun (body, after) => (c :: body, after)

def tripleQuotes : List Char := ['"', '"', '"']

/-- The text of the literal at the start, as it is written, and what follows the literal. -/
def literal? : List Char → Option (List Char × List Char)
  | '"' :: '"' :: '"' :: rest => literalBody? tripleQuotes rest
  | '"' :: rest => literalBody? ['"'] rest
  | _ => none

/-! ### Resolving escapes -/

/-- The letters and signs that stand for one character after a backslash. -/
def escapeSigns : List (Char × Char) :=
  [('\\', '\\'), ('\'', '\''), ('"', '"'), ('a', '\x07'), ('b', '\x08'), ('f', '\x0c'), ('n', '\n'),
    ('r', '\r'), ('t', '\t'), ('v', '\x0b')]

def digitValue? (base : Nat) (c : Char) : Option Nat :=
  let value :=
    if c.isDigit then some (c.toNat - 0x30)
    else if 'a' ≤ c ∧ c ≤ 'f' then some (c.toNat - 0x57)
    else if 'A' ≤ c ∧ c ≤ 'F' then some (c.toNat - 0x37)
    else none
  value.filter (· < base)

def codeValue? (base : Nat) (digits : List Char) : Option Nat :=
  digits.foldlM (fun n c => (digitValue? base c).map (n * base + ·)) 0

def charOfCode? (n : Nat) : Option Char := if n.isValidChar then some (Char.ofNat n) else none

/-- The character whose code is written with `count` digits at the start. -/
def codedChar? (base count : Nat) (cs : List Char) : Option Char := do
  if cs.length < count then none else charOfCode? (← codeValue? base (cs.take count))

/-- The number of octal digits at the start, of which a code takes at most three. -/
def octalCount (cs : List Char) : Nat :=
  ((cs.take 3).takeWhile fun c => (digitValue? 8 c).isSome).length

section Unescape

variable (named : List Char → Option Char)

/-- What a backslash before `c` stands for, and how many characters of `rest` it takes along.
`named` gives the characters that have a name. -/
def escaped? (c : Char) (rest : List Char) : Option (List Char × Nat) :=
  match escapeSigns.lookup c with
  | some d => some ([d], 0)
  | none =>
    if c == '\n' then some ([], 0)
    else if c == '\r' then some ([], if rest.head? == some '\n' then 1 else 0)
    else if c == 'x' then (codedChar? 16 2 rest).map fun d => ([d], 2)
    else if c == 'u' then (codedChar? 16 4 rest).map fun d => ([d], 4)
    else if c == 'U' then (codedChar? 16 8 rest).map fun d => ([d], 8)
    else if c == 'N' then
      let name := (rest.drop 1).takeWhile (· != '\x7d')
      if rest.head? == some '\x7b' && rest.contains '\x7d' then
        (named name).map fun d => ([d], name.length + 2)
      else none
    else
      match octalCount (c :: rest) with
      | 0 => some (['\\', c], 0)
      | n + 1 => (codedChar? 8 (n + 1) (c :: rest)).map fun d => ([d], n)

/-- What the text of a literal stands for. -/
def unescape? : List Char → Option (List Char)
  | [] => some []
  | ['\\'] => none
  | '\\' :: c :: rest =>
    match escaped? named c rest with
    | some (meant, n) => (unescape? (rest.drop n)).map (meant ++ ·)
    | none => none
  | c :: rest => (unescape? rest).map (c :: ·)
termination_by cs => cs.length
decreasing_by
  · simp only [List.length_drop, List.length_cons]
    omega
  · simp

/-- What the literal at the start stands for, and what follows it. -/
def readLiteral? (cs : List Char) : Option (List Char × List Char) := do
  let (body, after) ← literal? cs
  let meant ← unescape? named body
  some (meant, after)

/-! ### Characters of a literal -/

/-- Between the quotes `close`, the characters `w` are read as `c`, whatever follows them. -/
structure StandsFor (close w : List Char) (c : Char) : Prop where
  kept : ∀ rest, literalBody? close (w ++ rest) =
    (literalBody? close rest).map fun (body, after) => (w ++ body, after)
  meant : ∀ rest, unescape? named (w ++ rest) = (unescape? named rest).map (c :: ·)

variable {named} {close : List Char}

theorem literalBody?_escape (c : Char) (rest : List Char) :
    literalBody? close ('\\' :: c :: rest) =
      (literalBody? close rest).map fun (body, after) => ('\\' :: c :: body, after) := by
  rw [literalBody?]

theorem literalBody?_plain {c : Char} (hc : c ≠ '\\') (hclose : close.head? ≠ some c)
    (hne : close ≠ []) (hline : close.length = 1 → c ≠ '\n' ∧ c ≠ '\r') (rest : List Char) :
    literalBody? close (c :: rest) =
      (literalBody? close rest).map fun (body, after) => (c :: body, after) := by
  have hstarts : close.isPrefixOf (c :: rest) = false := by
    cases close with
    | nil => exact absurd rfl hne
    | cons d ds =>
      have hd : d ≠ c := by simpa using hclose
      simp [List.isPrefixOf, hd]
  have hstay : (close.length == 1 && (c == '\n' || c == '\r')) = false := by
    by_cases hlength : close.length = 1
    · simp [hline hlength]
    · simp [hlength]
  rw [literalBody?, if_neg (by simp [hstarts]), if_neg (by simp [hstay])]
  all_goals simp_all

theorem unescape?_sign {e c : Char} (h : escapeSigns.lookup e = some c) (rest : List Char) :
    unescape? named ('\\' :: e :: rest) = (unescape? named rest).map (c :: ·) := by
  rw [unescape?, escaped?, h]
  rfl

theorem unescape?_plain {c : Char} (hc : c ≠ '\\') (rest : List Char) :
    unescape? named (c :: rest) = (unescape? named rest).map (c :: ·) := by
  rw [unescape?]
  all_goals simp_all

theorem standsFor_sign {e c : Char} (h : escapeSigns.lookup e = some c) :
    StandsFor named close ['\\', e] c :=
  ⟨literalBody?_escape e, unescape?_sign h⟩

theorem standsFor_self {c : Char} (hc : c ≠ '\\') (hclose : close.head? ≠ some c)
    (hne : close ≠ []) (hline : close.length = 1 → c ≠ '\n' ∧ c ≠ '\r') :
    StandsFor named close [c] c :=
  ⟨literalBody?_plain hc hclose hne hline, unescape?_plain hc⟩

/-- The code of a control character in four hexadecimal digits. -/
theorem standsFor_code {n : Nat} (hn : n < 0x20) :
    StandsFor named ['"'] ['\\', 'u', '0', '0', hexDigit (n / 16), hexDigit (n % 16)]
      (Char.ofNat n) := by
  have hdigits : ∀ n < 0x20, ∀ c ∈ ['0', '0', hexDigit (n / 16), hexDigit (n % 16)],
      c ≠ '\\' ∧ c ≠ '"' ∧ c ≠ '\n' ∧ c ≠ '\r' := by decide
  have hcode : ∀ n < 0x20, codeValue? 16 ['0', '0', hexDigit (n / 16), hexDigit (n % 16)] = some n ∧
      n.isValidChar := by decide
  constructor
  · intro rest
    have hplain : ∀ c ∈ ['0', '0', hexDigit (n / 16), hexDigit (n % 16)], ∀ rest,
        literalBody? ['"'] (c :: rest) =
          (literalBody? ['"'] rest).map fun (body, after) => (c :: body, after) := by
      intro c hc
      obtain ⟨hback, hquote, hline⟩ := hdigits n hn c hc
      exact literalBody?_plain hback (by simpa using hquote.symm) (by simp) fun _ => hline
    simp only [List.forall_mem_cons] at hplain
    obtain ⟨h0, -, h1, h2, -⟩ := hplain
    simp only [List.cons_append, List.nil_append]
    rw [literalBody?_escape, h0, h0, h1, h2]
    simp [Option.map_map, Function.comp_def]
  · intro rest
    have hread : codedChar? 16 4 ('0' :: '0' :: hexDigit (n / 16) :: hexDigit (n % 16) :: rest) =
        some (Char.ofNat n) := by
      rw [codedChar?, if_neg (by simp), List.take_succ_cons, List.take_succ_cons,
        List.take_succ_cons, List.take_succ_cons, List.take_zero, (hcode n hn).1]
      exact if_pos (hcode n hn).2
    have hescaped : escaped? named 'u'
        ('0' :: '0' :: hexDigit (n / 16) :: hexDigit (n % 16) :: rest) =
          some ([Char.ofNat n], 4) := by
      change (codedChar? 16 4 _).map (fun d => ([d], 4)) = _
      rw [hread]
      rfl
    simp only [List.cons_append, List.nil_append]
    rw [unescape?, hescaped]
    rfl

/-! ### Texts of a literal -/

theorem literalBody?_close (hne : close ≠ []) (hback : close.head? ≠ some '\\') (rest : List Char) :
    literalBody? close (close ++ rest) = some ([], rest) := by
  cases close with
  | nil => exact absurd rfl hne
  | cons d ds =>
    have hd : d ≠ '\\' := by simpa using hback
    have hstarts : (d :: ds).isPrefixOf (d :: (ds ++ rest)) = true := by
      rw [List.isPrefixOf_iff_prefix]
      exact List.prefix_append (d :: ds) rest
    rw [List.cons_append, literalBody?, if_pos hstarts, ← List.cons_append, List.drop_left]
    all_goals simp_all

variable {f : Char → List Char} {cs : List Char}

/-- **A text written character by character ends its literal where its quotes stand.** -/
theorem literalBody?_flatMap (h : ∀ c ∈ cs, StandsFor named close (f c) c) (hne : close ≠ [])
    (hback : close.head? ≠ some '\\') (rest : List Char) :
    literalBody? close (cs.flatMap f ++ (close ++ rest)) = some (cs.flatMap f, rest) := by
  induction cs with
  | nil => exact literalBody?_close hne hback rest
  | cons c cs ih =>
    rw [List.forall_mem_cons] at h
    rw [List.flatMap_cons, List.append_assoc, h.1.kept, ih h.2]
    rfl

/-- **A text written character by character is what its literal stands for.** -/
theorem unescape?_flatMap (h : ∀ c ∈ cs, StandsFor named close (f c) c) :
    unescape? named (cs.flatMap f) = some cs := by
  induction cs with
  | nil => rw [List.flatMap_nil, unescape?]
  | cons c cs ih =>
    rw [List.forall_mem_cons] at h
    rw [List.flatMap_cons, h.1.meant, ih h.2]
    rfl

end Unescape

/-! ### The texts of a specification -/

section Texts

variable (named : List Char → Option Char)

theorem standsFor_quotedChar (c : Char) : StandsFor named ['"'] (quotedChar c) c := by
  -- one case for each escape, then the control characters, then all others
  have hsign : ∀ {e d : Char}, (c == d) = true → escapeSigns.lookup e = some d →
      StandsFor named ['"'] ['\\', e] c := fun hc h => beq_iff_eq.mp hc ▸ standsFor_sign h
  unfold quotedChar
  split
  · next h => exact hsign h rfl
  split
  · next h => exact hsign h rfl
  split
  · next h => exact hsign h rfl
  split
  · next h => exact hsign h rfl
  split
  · next h => exact hsign h rfl
  split
  · next h => exact hsign h rfl
  split
  · next h => exact hsign h rfl
  split
  · next h =>
    have hcode : StandsFor named ['"'] _ (Char.ofNat c.toNat) := standsFor_code h
    rwa [Char.ofNat_toNat] at hcode
  · next hquote hback _ _ hfeed hreturn _ _ =>
    refine standsFor_self (by simpa using hback) (fun h => hquote ?_) (by simp)
      fun _ => ⟨by simpa using hfeed, by simpa using hreturn⟩
    rw [← Option.some.inj h, beq_self_eq_true]

/-- The characters that stand for `c` in a documentation string. -/
def docChar (c : Char) : List Char :=
  if c = '\\' then ['\\', '\\'] else if c = '"' then ['\\', '"'] else [c]

theorem toList_docText (s : String) : (docText s).toList = (collapse s).toList.flatMap docChar := by
  rw [docText, replaceChars, replaceChars, String.toList_ofList, String.toList_ofList,
    List.flatMap_assoc]
  congr 1
  funext c
  by_cases hback : c = '\\'
  · subst hback
    rfl
  · by_cases hquote : c = '"'
    · subst hquote
      rfl
    · simp [docChar, hback, hquote]

theorem standsFor_docChar (c : Char) : StandsFor named tripleQuotes (docChar c) c := by
  unfold docChar
  split
  · next hback =>
    subst hback
    exact standsFor_sign rfl
  · next hback =>
    split
    · next hquote =>
      subst hquote
      exact standsFor_sign rfl
    · next hquote =>
      exact standsFor_self hback (fun h => hquote (Option.some.inj h).symm) (by decide)
        fun h => absurd h (by decide)

theorem literal?_docString (s : String) :
    literal? (docString (docText s)).toList = some ((docText s).toList, []) := by
  have hopen : (docString (docText s)).toList =
      '"' :: '"' :: '"' :: ((docText s).toList ++ (tripleQuotes ++ [])) := by
    simp [docString, tripleQuotes]
  rw [hopen, literal?, toList_docText]
  exact literalBody?_flatMap (fun c _ => standsFor_docChar (fun _ => none) c) (by decide)
    (by decide) []

/-- No quote stands at the start of an escaped text. -/
theorem head_quotedChars (cs : List Char) : (quotedChars cs).head? ≠ some '"' := by
  have hone : ∀ c, (quotedChar c).head? ≠ some '"' ∧ quotedChar c ≠ [] := by
    intro c
    unfold quotedChar
    repeat' split
    all_goals simp_all
  cases cs with
  | nil => simp [quotedChars]
  | cons c cs =>
    obtain ⟨d, ds, hds⟩ := List.exists_cons_of_ne_nil (hone c).2
    have hhead := (hone c).1
    rw [hds] at hhead
    rw [quotedChars, List.flatMap_cons, hds]
    exact hhead

theorem literal?_quoted (s : String) :
    literal? (quoted s).toList = some (quotedChars s.toList, []) := by
  have hbody : literalBody? ['"'] (quotedChars s.toList ++ (['"'] ++ [])) =
      some (quotedChars s.toList, []) :=
    literalBody?_flatMap (fun c _ => standsFor_quotedChar (fun _ => none) c) (by decide)
      (by decide) []
  rw [List.append_nil] at hbody
  rw [quoted, String.toList_ofList, List.cons_append, ← hbody, literal?]
  -- one quote opens the literal: three could only stand there if the text started with one
  intro rest hrest
  have hhead := head_quotedChars s.toList
  cases hcs : quotedChars s.toList with
  | nil => simp [hcs] at hrest
  | cons c cs =>
    rw [hcs] at hrest hhead
    simp at hrest hhead
    exact hhead hrest.1

def lineBreaks : List Char :=
  ['\n', '\x0b', '\x0c', '\r', Char.ofNat 0x85, Char.ofNat 0x2028, Char.ofNat 0x2029]

theorem not_lineBreak_docText {s : String} {c : Char} (h : c ∈ (docText s).toList) :
    c ∉ lineBreaks := by
  have hblank : ∀ d ∈ lineBreaks, isBlank d = true ∧ d ≠ ' ' ∧ d ≠ '\\' ∧ d ≠ '"' := by decide
  intro hc
  obtain ⟨hblank, hspace, hback, hquote⟩ := hblank c hc
  rw [toList_docText] at h
  obtain ⟨d, hd, hcd⟩ := List.mem_flatMap.mp h
  obtain rfl : c = d := by
    unfold docChar at hcd
    split at hcd
    · simp_all
    split at hcd
    · simp_all
    · exact List.mem_singleton.mp hcd
  rcases mem_of_mem_intercalate hd with hsep | ⟨w, hw, hcw⟩
  · exact hspace (List.mem_singleton.mp hsep)
  · obtain ⟨cs, hcs, rfl⟩ := List.mem_map.mp hw
    rw [String.toList_ofList] at hcw
    rw [(words_not_blank hcs).2 c hcw] at hblank
    exact Bool.noConfusion hblank

/-- **A free text never leaves its literal.**  Between triple quotes it ends exactly at the last
quote, on the line where it starts, and stands for its words; between single quotes it ends exactly
at the last quote and stands for itself. -/
theorem freeText_staysInLiteral (s : String) :
    (literal? (docString (docText s)).toList = some ((docText s).toList, []) ∧
      (∀ c ∈ (docString (docText s)).toList, c ∉ lineBreaks) ∧
      readLiteral? named (docString (docText s)).toList = some ((collapse s).toList, [])) ∧
    literal? (quoted s).toList = some (quotedChars s.toList, []) ∧
      readLiteral? named (quoted s).toList = some (s.toList, []) := by
  have hdoc : unescape? named (docText s).toList = some (collapse s).toList := by
    rw [toList_docText]
    exact unescape?_flatMap fun c _ => standsFor_docChar named c
  have hquoted : unescape? named (quotedChars s.toList) = some s.toList :=
    unescape?_flatMap fun c _ => standsFor_quotedChar named c
  refine ⟨⟨literal?_docString s, ?_, ?_⟩, literal?_quoted s, ?_⟩
  · intro c hc
    simp only [docString, String.toList_append, List.mem_append] at hc
    have hquotes : ∀ c ∈ "\"\"\"".toList, c ∉ lineBreaks := by decide
    obtain (hc | hc) | hc := hc
    · exact hquotes c hc
    · exact not_lineBreak_docText hc
    · exact hquotes c hc
  · rw [readLiteral?, literal?_docString]
    simp [hdoc]
  · rw [readLiteral?, literal?_quoted]
    simp [hquoted]

end Texts

end AgentFlow

import AgentFlow.Json.Printer
import AgentFlow.Json.Reader
import Mathlib.Data.List.DropRight

/-!
# JSON texts read back

The printers and the reader are joined by a grammar: `Writes v cs` says that the characters `cs`
write the value `v`, with blanks where the printers put them.  Numbers are left aside: what a text
says of a number depends on the precision of its reader.

* `Writes.reads`: **what the grammar derives, the reader reads**, whatever follows it.
* `Numberless.writes_compact` and `Numberless.writes_prettyAt`: both printers write by the grammar.
* `read?_compact` and `read?_pretty`: **a value without numbers is read back from its text.**
-/

namespace AgentFlow.Json

open Data Text

/-! ### Blanks -/

def Blank (b : List Char) : Prop := ∀ c ∈ b, isSpace c = true

theorem blank_nil : Blank [] := List.forall_mem_nil _

theorem blank_space : Blank [' '] := List.forall_mem_singleton.mpr rfl

theorem skipSpace_blank {b : List Char} (h : Blank b) (cs : List Char) :
    skipSpace (b ++ cs) = skipSpace cs :=
  List.dropWhile_append_of_pos h

theorem skipSpace_cons {c : Char} (h : isSpace c = false) (cs : List Char) :
    skipSpace (c :: cs) = c :: cs := by
  rw [skipSpace, List.dropWhile_cons_of_neg (by simp [h])]

theorem skipSpace_skipSpace (cs : List Char) : skipSpace (skipSpace cs) = skipSpace cs :=
  List.dropWhile_idempotent isSpace cs

theorem value?_skipSpace (fuel : Nat) (cs : List Char) :
    value? fuel (skipSpace cs) = value? fuel cs := by
  cases fuel with
  | zero => rw [value?, value?]
  | succ fuel => rw [value?, value?, skipSpace_skipSpace]

theorem items?_skipSpace (fuel : Nat) (cs : List Char) :
    items? fuel (skipSpace cs) = items? fuel cs := by
  cases fuel with
  | zero => rw [items?, items?]
  | succ fuel => rw [items?, items?, value?_skipSpace]

theorem members?_skipSpace (fuel : Nat) (cs : List Char) :
    members? fuel (skipSpace cs) = members? fuel cs := by
  cases fuel with
  | zero => rw [members?, members?]
  | succ fuel => rw [members?, members?, skipSpace_skipSpace]

/-! ### Texts -/

theorem escape?_code {n : Nat} (hn : n < 32) (rest : List Char) :
    escape? ('u' :: '0' :: '0' :: hexDigit (n / 16) :: hexDigit (n % 16) :: rest) =
      some (Char.ofNat n, rest) := by
  have hdigits : ∀ n < 32, hexValue? (hexDigit (n / 16)) = some (n / 16) ∧
      hexValue? (hexDigit (n % 16)) = some (n % 16) := by decide
  obtain ⟨hhigh, hlow⟩ := hdigits n hn
  have hzero : hexValue? '0' = some 0 := by decide
  have hcode : ((0 * 16 + 0) * 16 + n / 16) * 16 + n % 16 = n := by omega
  simp only [escape?, unicodeEscape?, hex4?, hzero, hhigh, hlow, hcode, Option.bind_eq_bind,
    Option.bind_some]
  rw [if_neg (by omega), if_neg (by omega)]

/-- What stands for a character between quotes is read as that character. -/
theorem textBody_quotedChar (c : Char) (fuel : Nat) (seen rest : List Char) :
    textBody (fuel + 1) seen (quotedChar c ++ rest) = textBody fuel (c :: seen) rest := by
  have hescape {d : Char} {cs : List Char} (h : escape? (cs ++ rest) = some (d, rest)) :
      textBody (fuel + 1) seen ('\\' :: cs ++ rest) = textBody fuel (d :: seen) rest := by
    simp [textBody, h]
  -- one case for each escape, then the control characters, then all others
  simp only [quotedChar, beq_iff_eq]
  split
  · next h => subst h; exact hescape rfl
  split
  · next h => subst h; exact hescape rfl
  split
  · next h => subst h; exact hescape rfl
  split
  · next h => subst h; exact hescape rfl
  split
  · next h => subst h; exact hescape rfl
  split
  · next h => subst h; exact hescape rfl
  split
  · next h => subst h; exact hescape rfl
  split
  · next h =>
    refine hescape ((escape?_code h rest).trans ?_)
    rw [Char.ofNat_toNat]
  · next hquote hback _ _ _ _ _ hcontrol => simp [textBody, hquote, hback, hcontrol]

theorem textBody_quotedChars (cs : List Char) {fuel : Nat} (h : cs.length < fuel)
    (seen rest : List Char) :
    textBody fuel seen (quotedChars cs ++ '"' :: rest) = some (cs.reverse ++ seen, rest) := by
  induction cs generalizing fuel seen with
  | nil =>
    obtain ⟨fuel, rfl⟩ := Nat.exists_eq_add_of_lt h
    simp [quotedChars, textBody]
  | cons c cs ih =>
    obtain ⟨fuel, rfl⟩ : ∃ n, fuel = n + 1 := ⟨fuel - 1, by omega⟩
    rw [quotedChars, List.flatMap_cons, List.append_assoc, textBody_quotedChar]
    refine (ih (by simpa using h) (c :: seen)).trans ?_
    rw [List.reverse_cons, List.append_assoc, List.singleton_append]

/-- **A quoted text is read back.** -/
theorem text?_quotedChars (s : String) {fuel : Nat} (h : s.toList.length < fuel)
    (rest : List Char) :
    text? fuel (quotedChars s.toList ++ '"' :: rest) = some (s, rest) := by
  rw [text?, textBody_quotedChars s.toList h, Option.map_some, List.append_nil]
  exact congrArg (fun t => some (t, rest)) (by rw [List.reverse_reverse, String.ofList_toList])

theorem length_le_length_quotedChars (cs : List Char) : cs.length ≤ (quotedChars cs).length := by
  have hone (c : Char) : 1 ≤ (quotedChar c).length := by
    unfold quotedChar
    repeat' split
    all_goals simp
  induction cs with
  | nil => exact Nat.zero_le _
  | cons c cs ih =>
    have hc := hone c
    rw [quotedChars, List.flatMap_cons, List.length_append, List.length_cons]
    rw [quotedChars] at ih
    omega

/-! ### The grammar -/

/-- A member of a table as it is written: blanks, the key, and the text of the value. -/
structure Member where
  lead : List Char
  key : String
  value : Value
  text : List Char

def Member.chars (m : Member) : List Char :=
  m.lead ++ ('"' :: quotedChars m.key.toList ++ '"' :: ':' :: m.text)

inductive Writes : Value → List Char → Prop
  | null : Writes .null ['n', 'u', 'l', 'l']
  | yes : Writes (.bool true) ['t', 'r', 'u', 'e']
  | no : Writes (.bool false) ['f', 'a', 'l', 's', 'e']
  | text (s : String) : Writes (.text s) ('"' :: (quotedChars s.toList ++ ['"']))
  | list {items : List (Value × List Char)} {b : List Char} (hb : Blank b)
      (h : ∀ p ∈ items, Writes p.1 p.2) :
      Writes (.list (items.map (·.1))) ('[' :: ([','].intercalate (items.map (·.2)) ++ b ++ [']']))
  | table {members : List Member} {b : List Char} (hb : Blank b)
      (hlead : ∀ m ∈ members, Blank m.lead) (h : ∀ m ∈ members, Writes m.value m.text) :
      Writes (.table (members.map fun m => (m.key, m.value)))
        ('\x7b' :: ([','].intercalate (members.map (·.chars)) ++ b ++ ['\x7d']))
  | lead {v : Value} {b cs : List Char} (hb : Blank b) (h : Writes v cs) : Writes v (b ++ cs)

/-! ### Reading what the grammar derives -/

theorem prefix_intercalate (sep p : List Char) (parts : List (List Char)) :
    p <+: sep.intercalate (p :: parts) := by
  cases parts with
  | nil => exact ⟨[], by rw [List.intercalate_singleton, List.append_nil]⟩
  | cons q parts =>
    rw [List.intercalate_cons_cons, List.append_assoc]
    exact List.prefix_append p _

/-- The reader takes exactly these characters for the value, whatever follows, and they do not look
like the end of a list. -/
structure Reads (v : Value) (cs : List Char) : Prop where
  value : ∀ {fuel : Nat}, 2 * cs.length ≤ fuel → ∀ rest, value? fuel (cs ++ rest) = some (v, rest)
  opening : ∀ rest, ∃ c cs', skipSpace (cs ++ rest) = c :: cs' ∧ c ≠ ']'

/-- A text that starts with a character that neither is a blank nor ends a list. -/
theorem Reads.of_cons {v : Value} {c : Char} {cs : List Char} (hspace : isSpace c = false)
    (hc : c ≠ ']')
    (h : ∀ {fuel : Nat}, 2 * cs.length + 1 ≤ fuel →
      ∀ rest, value? (fuel + 1) (c :: (cs ++ rest)) = some (v, rest)) : Reads v (c :: cs) where
  value {fuel} hfuel rest := by
    rw [List.length_cons] at hfuel
    obtain ⟨fuel, rfl⟩ : ∃ n, fuel = n + 1 := ⟨fuel - 1, by omega⟩
    exact h (by omega) rest
  opening rest := ⟨c, cs ++ rest, skipSpace_cons hspace _, hc⟩

theorem Reads.text (s : String) : Reads (.text s) ('"' :: (quotedChars s.toList ++ ['"'])) := by
  refine .of_cons rfl (by decide) ?_
  intro fuel hfuel rest
  rw [List.length_append, List.length_singleton] at hfuel
  have hlength := length_le_length_quotedChars s.toList
  rw [value?, skipSpace_cons rfl, List.append_assoc, List.singleton_append]
  simp only [text?_quotedChars s (show s.toList.length < fuel by omega), Option.map_some]

theorem Reads.lead {v : Value} {b cs : List Char} (hb : Blank b) (h : Reads v cs) :
    Reads v (b ++ cs) where
  value {fuel} hfuel rest := by
    rw [List.length_append] at hfuel
    rw [← value?_skipSpace, List.append_assoc, skipSpace_blank hb, value?_skipSpace]
    exact h.value (by omega) rest
  opening rest := by
    rw [List.append_assoc, skipSpace_blank hb]
    exact h.opening rest

section Lists

theorem items?_last {v : Value} {cs rest rest' : List Char} {fuel : Nat} (h : Reads v cs)
    (hfuel : 2 * cs.length ≤ fuel) (hrest : skipSpace rest = ']' :: rest') :
    items? (fuel + 1) (cs ++ rest) = some ([v], rest') := by
  simp [items?, h.value hfuel, hrest]

theorem items?_more {v : Value} {vs : List Value} {cs rest rest' : List Char} {fuel : Nat}
    (h : Reads v cs) (hfuel : 2 * cs.length ≤ fuel) (hrest : items? fuel rest = some (vs, rest')) :
    items? (fuel + 1) (cs ++ ',' :: rest) = some (v :: vs, rest') := by
  simp [items?, h.value hfuel, skipSpace_cons (c := ',') rfl, hrest]

variable {items : List (Value × List Char)} {b : List Char}

theorem items?_intercalate (hne : items ≠ []) (hb : Blank b) (h : ∀ p ∈ items, Reads p.1 p.2)
    (fuel : Nat) (hfuel : 2 * ([','].intercalate (items.map (·.2))).length + 1 ≤ fuel)
    (rest : List Char) :
    items? fuel ([','].intercalate (items.map (·.2)) ++ (b ++ ']' :: rest)) =
      some (items.map (·.1), rest) := by
  induction items generalizing fuel with
  | nil => exact absurd rfl hne
  | cons p items ih =>
    obtain ⟨fuel, rfl⟩ : ∃ n, fuel = n + 1 := ⟨fuel - 1, by omega⟩
    rw [List.forall_mem_cons] at h
    cases items with
    | nil =>
      rw [List.map_singleton, List.intercalate_singleton] at hfuel ⊢
      refine items?_last h.1 (by omega) ?_
      rw [skipSpace_blank hb, skipSpace_cons rfl]
    | cons q items =>
      simp only [List.map_cons, List.intercalate_cons_cons, List.length_append, List.length_cons,
        List.append_assoc, List.singleton_append] at hfuel ih ⊢
      exact items?_more h.1 (by omega) (ih (List.cons_ne_nil _ _) h.2 _ (by omega))

theorem Reads.list (hb : Blank b) (h : ∀ p ∈ items, Reads p.1 p.2) :
    Reads (.list (items.map (·.1)))
      ('[' :: ([','].intercalate (items.map (·.2)) ++ b ++ [']'])) := by
  refine .of_cons rfl (by decide) ?_
  intro fuel hfuel rest
  rw [List.append_assoc, List.length_append] at hfuel
  rw [value?, skipSpace_cons rfl, List.append_assoc, List.append_assoc, List.singleton_append]
  cases items with
  | nil => simp [skipSpace_blank hb, skipSpace_cons (c := ']') rfl]
  | cons p items =>
    have hread := items?_intercalate (List.cons_ne_nil p items) hb h fuel
      (by simp only [List.length_append, List.length_singleton] at hfuel; omega) rest
    -- the first item is no closing bracket
    obtain ⟨c, cs, hcs, hc⟩ : ∃ c cs,
        skipSpace ([','].intercalate ((p :: items).map (·.2)) ++ (b ++ ']' :: rest)) = c :: cs ∧
          c ≠ ']' := by
      obtain ⟨more, hmore⟩ := prefix_intercalate [','] p.2 (items.map (·.2))
      rw [List.map_cons, ← hmore, List.append_assoc]
      exact (h p List.mem_cons_self).opening _
    rw [← items?_skipSpace, hcs] at hread
    simp only [hcs]
    split
    · next heq => exact absurd (List.cons.inj heq).1 hc
    · rw [hread, Option.map_some]

end Lists

section Tables

def behindMember (fuel : Nat) (m : Member) :
    List Char → Option (List (String × Value) × List Char)
  | ',' :: rest => do
    let (more, rest) ← members? fuel rest
    some ((m.key, m.value) :: more, rest)
  | '\x7d' :: rest => some ([(m.key, m.value)], rest)
  | _ => none

/-- The reader takes the characters of a member, then looks for the next one. -/
theorem members?_chars {m : Member} {fuel : Nat} (hlead : Blank m.lead)
    (h : Reads m.value m.text) (hfuel : 2 * m.chars.length ≤ fuel) (rest : List Char) :
    members? (fuel + 1) (m.chars ++ rest) = behindMember fuel m (skipSpace rest) := by
  have hkey := length_le_length_quotedChars m.key.toList
  simp only [Member.chars, List.length_append, List.length_cons] at hfuel
  have htext := text?_quotedChars m.key (show m.key.toList.length < fuel by omega)
    (':' :: (m.text ++ rest))
  simp only [members?, Member.chars, List.append_assoc, skipSpace_blank hlead, List.cons_append,
    skipSpace_cons (c := '"') rfl, htext, Option.bind_eq_bind, Option.bind_some,
    skipSpace_cons (c := ':') rfl, h.value (show 2 * m.text.length ≤ fuel by omega)]
  rfl

theorem members?_last {m : Member} {rest rest' : List Char} {fuel : Nat} (hlead : Blank m.lead)
    (h : Reads m.value m.text) (hfuel : 2 * m.chars.length ≤ fuel)
    (hrest : skipSpace rest = '\x7d' :: rest') :
    members? (fuel + 1) (m.chars ++ rest) = some ([(m.key, m.value)], rest') := by
  simp [members?_chars hlead h hfuel, hrest, behindMember]

theorem members?_more {m : Member} {ms : List (String × Value)} {rest rest' : List Char}
    {fuel : Nat} (hlead : Blank m.lead) (h : Reads m.value m.text)
    (hfuel : 2 * m.chars.length ≤ fuel) (hrest : members? fuel rest = some (ms, rest')) :
    members? (fuel + 1) (m.chars ++ ',' :: rest) = some ((m.key, m.value) :: ms, rest') := by
  simp [members?_chars hlead h hfuel, skipSpace_cons (c := ',') rfl, hrest, behindMember]

variable {members : List Member} {b : List Char}

theorem members?_intercalate (hne : members ≠ []) (hb : Blank b)
    (hlead : ∀ m ∈ members, Blank m.lead) (h : ∀ m ∈ members, Reads m.value m.text) (fuel : Nat)
    (hfuel : 2 * ([','].intercalate (members.map (·.chars))).length + 1 ≤ fuel)
    (rest : List Char) :
    members? fuel ([','].intercalate (members.map (·.chars)) ++ (b ++ '\x7d' :: rest)) =
      some (members.map fun m => (m.key, m.value), rest) := by
  induction members generalizing fuel with
  | nil => exact absurd rfl hne
  | cons m members ih =>
    obtain ⟨fuel, rfl⟩ : ∃ n, fuel = n + 1 := ⟨fuel - 1, by omega⟩
    rw [List.forall_mem_cons] at h hlead
    cases members with
    | nil =>
      rw [List.map_singleton, List.intercalate_singleton] at hfuel ⊢
      refine members?_last hlead.1 h.1 (by omega) ?_
      rw [skipSpace_blank hb, skipSpace_cons rfl]
    | cons n members =>
      simp only [List.map_cons, List.intercalate_cons_cons, List.length_append, List.length_cons,
        List.append_assoc, List.singleton_append] at hfuel ih ⊢
      exact members?_more hlead.1 h.1 (by omega)
        (ih (List.cons_ne_nil _ _) hlead.2 h.2 _ (by omega))

theorem Reads.table (hb : Blank b) (hlead : ∀ m ∈ members, Blank m.lead)
    (h : ∀ m ∈ members, Reads m.value m.text) :
    Reads (.table (members.map fun m => (m.key, m.value)))
      ('\x7b' :: ([','].intercalate (members.map (·.chars)) ++ b ++ ['\x7d'])) := by
  refine .of_cons rfl (by decide) ?_
  intro fuel hfuel rest
  rw [List.append_assoc, List.length_append] at hfuel
  rw [value?, skipSpace_cons rfl, List.append_assoc, List.append_assoc, List.singleton_append]
  cases members with
  | nil => simp [skipSpace_blank hb, skipSpace_cons (c := '\x7d') rfl]
  | cons m members =>
    have hread := members?_intercalate (List.cons_ne_nil m members) hb hlead h fuel
      (by simp only [List.length_append, List.length_singleton] at hfuel; omega) rest
    -- the first member starts with its key
    obtain ⟨cs, hcs⟩ : ∃ cs, skipSpace ([','].intercalate ((m :: members).map (·.chars)) ++
        (b ++ '\x7d' :: rest)) = '"' :: cs := by
      obtain ⟨more, hmore⟩ := prefix_intercalate [','] m.chars (members.map (·.chars))
      rw [List.map_cons, ← hmore, List.append_assoc, Member.chars, List.append_assoc,
        skipSpace_blank (hlead m List.mem_cons_self)]
      exact ⟨_, skipSpace_cons rfl _⟩
    rw [← members?_skipSpace, hcs] at hread
    simp only [hcs]
    refine (congrArg (Option.map _) hread).trans ?_
    rfl

end Tables

/-- **What the grammar derives, the reader reads.** -/
theorem Writes.reads {v : Value} {cs : List Char} (h : Writes v cs) : Reads v cs := by
  induction h with
  | null =>
    refine .of_cons rfl (by decide) fun _ rest => ?_
    rw [value?, skipSpace_cons rfl]
    rfl
  | yes =>
    refine .of_cons rfl (by decide) fun _ rest => ?_
    rw [value?, skipSpace_cons rfl]
    rfl
  | no =>
    refine .of_cons rfl (by decide) fun _ rest => ?_
    rw [value?, skipSpace_cons rfl]
    rfl
  | text s => exact .text s
  | list hb _ ih => exact .list hb ih
  | table hb hlead _ ih => exact .table hb hlead ih
  | lead hb _ ih => exact ih.lead hb

/-- A text that the grammar derives writes its value and no other. -/
theorem Writes.read? {v : Value} {s : String} (h : Writes v s.toList) : read? s = some v := by
  have hread := h.reads.value (Nat.le_add_right (2 * s.toList.length) 2) []
  rw [List.append_nil] at hread
  simp [Json.read?, hread, skipSpace]

/-! ### The printers -/

/-- No number stands in the value, and no scalar whose kind is open. -/
inductive Numberless : Value → Prop
  | null : Numberless .null
  | bool (b : Bool) : Numberless (.bool b)
  | text (s : String) : Numberless (.text s)
  | list {items : List Value} (h : ∀ v ∈ items, Numberless v) : Numberless (.list items)
  | table {members : List (String × Value)} (h : ∀ m ∈ members, Numberless m.2) :
      Numberless (.table members)

theorem compactAll_eq_map (items : List Value) : compactAll items = items.map compact := by
  induction items with
  | nil => rw [compactAll, List.map_nil]
  | cons v items ih => rw [compactAll, ih, List.map_cons]

theorem compactMembers_eq_map (members : List (String × Value)) :
    compactMembers members = members.map fun m => quoted m.1 ++ ":" ++ compact m.2 := by
  induction members with
  | nil => rw [compactMembers, List.map_nil]
  | cons m members ih =>
    obtain ⟨k, v⟩ := m
    rw [compactMembers, ih, List.map_cons]

theorem prettyAll_eq_map (level : Nat) (items : List Value) :
    prettyAll level items = items.map (prettyAt level) := by
  induction items with
  | nil => rw [prettyAll, List.map_nil]
  | cons v items ih => rw [prettyAll, ih, List.map_cons]

theorem prettyMembers_eq_map (level : Nat) (members : List (String × Value)) :
    prettyMembers level members =
      members.map fun m => quoted m.1 ++ ": " ++ prettyAt level m.2 := by
  induction members with
  | nil => rw [prettyMembers, List.map_nil]
  | cons m members ih =>
    obtain ⟨k, v⟩ := m
    rw [prettyMembers, ih, List.map_cons]

theorem writes_quoted (s : String) : Writes (.text s) (quoted s).toList := by
  rw [quoted, String.toList_ofList]
  exact .text s

theorem writes_null : Writes .null (scalar .null).toList := .null

theorem writes_bool (b : Bool) : Writes (.bool b) (scalar (.bool b)).toList := by
  cases b with
  | true => exact .yes
  | false => exact .no

theorem Numberless.writes_compact {v : Value} (h : Numberless v) :
    Writes v (compact v).toList := by
  induction h with
  | null => exact .null
  | bool b => exact writes_bool b
  | text s => exact writes_quoted s
  | @list items _ ih =>
    have hwrites := @Writes.list (items.map fun v => (v, (compact v).toList)) [] blank_nil
      (List.forall_mem_map.mpr ih)
    simpa [compact, compactAll_eq_map, String.toList_intercalate, Function.comp_def]
      using hwrites
  | @table members _ ih =>
    have hwrites := @Writes.table (members.map fun m => ⟨[], m.1, m.2, (compact m.2).toList⟩) []
      blank_nil
      (List.forall_mem_map.mpr fun _ _ => blank_nil) (List.forall_mem_map.mpr ih)
    simpa [compact, compactMembers_eq_map, String.toList_intercalate, Function.comp_def,
      Member.chars, quoted] using hwrites

def lineBreak (level : Nat) : List Char := '\n' :: (indent level).toList

theorem blank_lineBreak (level : Nat) : Blank (lineBreak level) := by
  intro c hc
  rw [lineBreak, indent, String.toList_ofList, List.mem_cons, List.mem_replicate] at hc
  obtain rfl | ⟨_, rfl⟩ := hc
  · rfl
  · rfl

/-- What leads the first part and stands in each separator leads each part. -/
theorem append_intercalate (lead : List Char) (parts : List (List Char)) (hne : parts ≠ []) :
    lead ++ (',' :: lead).intercalate parts = [','].intercalate (parts.map (lead ++ ·)) := by
  induction parts with
  | nil => exact absurd rfl hne
  | cons p parts ih =>
    cases parts with
    | nil => rw [List.map_singleton, List.intercalate_singleton, List.intercalate_singleton]
    | cons q parts =>
      have htail := ih (List.cons_ne_nil _ _)
      simp only [List.map_cons, List.intercalate_cons_cons, List.append_assoc, List.cons_append,
        List.nil_append] at htail ⊢
      rw [htail]

/-- In a block, a line break leads each member and the closing bracket. -/
theorem toList_block (level : Nat) (opening closing : String) {members : List String}
    (hne : members ≠ []) :
    (block level opening closing members).toList = opening.toList ++
      ([','].intercalate (members.map fun m => lineBreak (level + 1) ++ m.toList) ++
        lineBreak level ++ closing.toList) := by
  have hparts := append_intercalate (lineBreak (level + 1)) (members.map String.toList)
    (by simpa using hne)
  rw [List.map_map] at hparts
  simp only [Function.comp_def] at hparts
  have hsep : (",\n" ++ indent (level + 1)).toList = ',' :: lineBreak (level + 1) := by
    rw [String.toList_append]
    rfl
  rw [← hparts]
  cases members with
  | nil => exact absurd rfl hne
  | cons m members =>
    simp only [block, String.toList_append, String.toList_intercalate, hsep, lineBreak]
    simp

theorem Numberless.writes_prettyAt {v : Value} (h : Numberless v) (level : Nat) :
    Writes v (prettyAt level v).toList := by
  induction h generalizing level with
  | null =>
    rw [prettyAt.eq_def]
    exact writes_null
  | bool b =>
    rw [prettyAt.eq_def]
    exact writes_bool b
  | text s =>
    rw [prettyAt.eq_def]
    exact writes_quoted s
  | @list items _ ih =>
    by_cases hne : items = []
    · subst hne
      rw [prettyAt.eq_def]
      simp only [prettyAll, block]
      exact @Writes.list [] [] blank_nil (List.forall_mem_nil _)
    · have hwrites := @Writes.list
        (items.map fun v => (v, lineBreak (level + 1) ++ (prettyAt (level + 1) v).toList))
        (lineBreak level) (blank_lineBreak level)
        (List.forall_mem_map.mpr fun v hv => (ih v hv _).lead (blank_lineBreak _))
      rw [prettyAt.eq_def]
      simp only [prettyAll_eq_map]
      rw [toList_block _ _ _ (by simpa using hne)]
      simpa [Function.comp_def] using hwrites
  | @table members _ ih =>
    by_cases hne : members = []
    · subst hne
      rw [prettyAt.eq_def]
      simp only [prettyMembers, block]
      exact @Writes.table [] [] blank_nil (List.forall_mem_nil _) (List.forall_mem_nil _)
    · have hwrites := @Writes.table
        (members.map fun m =>
          ⟨lineBreak (level + 1), m.1, m.2, ' ' :: (prettyAt (level + 1) m.2).toList⟩)
        (lineBreak level) (blank_lineBreak level)
        (List.forall_mem_map.mpr fun _ _ => blank_lineBreak _)
        (List.forall_mem_map.mpr fun m hm => (ih m hm _).lead blank_space)
      rw [prettyAt.eq_def]
      simp only [prettyMembers_eq_map]
      rw [toList_block _ _ _ (by simpa using hne)]
      simpa [Function.comp_def, Member.chars, quoted] using hwrites

/-! ### Values and their texts -/

/-- **A value without numbers is read back from its text without blanks.** -/
theorem read?_compact {v : Value} (h : Numberless v) : read? (compact v) = some v :=
  h.writes_compact.read?

/-- **A value without numbers is read back from its text over several lines.** -/
theorem read?_pretty {v : Value} (h : Numberless v) : read? (pretty v) = some v :=
  (h.writes_prettyAt 0).read?

end AgentFlow.Json

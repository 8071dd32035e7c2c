import AgentFlow.Lint.Facts
import AgentFlow.Proofs.Code.Identifiers
import AgentFlow.Proofs.Code.Phrase
import AgentFlow.Proofs.Text.LowerCase
import AgentFlow.Proofs.Text.Trim

/-!
# Exception clauses

An exception clause catches all exceptions, or one that is named, or those that are listed in
brackets.  It is read by cutting and trimming its text.  No step takes away more than it should,
since what stands between the marks that are cut at is names and blanks: a name holds none of these
marks, and it is not the word `as`.

* `splitFirst_append`: a text is cut at a pattern that does not occur before.
* `ExceptClause`: a clause as it is written, with any blanks in it and any text behind it.
* `Caught.as_not_mem`: no exception is called `as`, so the text is cut before the alias.
* `caughtNames_text`: **the names that are read are those that are written.**
-/

namespace AgentFlow.Lint

open Code Text

variable {c : Char} {cs word before after : List Char}

/-! ## Steps of the reading -/

theorem dropCopies_append (hne : word ≠ []) (h : ¬ word <+: cs) :
    dropCopies word (word ++ cs) = cs := by
  have hstart : word ≠ [] ∧ word.isPrefixOf (word ++ cs) = true :=
    ⟨hne, List.isPrefixOf_iff_prefix.mpr (List.prefix_append word cs)⟩
  have hrest : ¬ (word ≠ [] ∧ word.isPrefixOf cs = true) := by
    rw [List.isPrefixOf_iff_prefix]
    exact fun hcopy => h hcopy.2
  rw [dropCopies, dif_pos hstart, List.drop_left, dropCopies, dif_neg hrest]

theorem strip_append {p : Char → Bool} (hne : cs ≠ []) (hbefore : ∀ c ∈ before, p c = true)
    (hcs : ∀ c ∈ cs, p c = false) (hafter : ∀ c ∈ after, p c = true) :
    strip p (before ++ (cs ++ after)) = cs := by
  have hkeep : ∀ {as : List Char} (bs : List Char), as ≠ [] → (∀ c ∈ as, p c = false) →
      (as ++ bs).dropWhile p = as ++ bs := by
    intro as bs has hnot
    obtain ⟨a, rest, rfl⟩ := List.exists_cons_of_ne_nil has
    exact List.dropWhile_cons_of_neg (by simp [hnot a])
  have hback : (after.reverse ++ cs.reverse).dropWhile p = cs.reverse := by
    have hend := hkeep [] (List.reverse_ne_nil_iff.mpr hne) (by simpa using hcs)
    rw [List.append_nil] at hend
    rw [List.dropWhile_append_of_pos (by simpa using hafter), hend]
  rw [strip, List.dropWhile_append_of_pos hbefore, hkeep after hne hcs, List.reverse_append,
    hback, List.reverse_reverse]

/-- A text is cut at the first place where a pattern occurs. -/
theorem splitFirst_append {pattern : List Char}
    (h : ¬ pattern <:+: before ++ pattern.dropLast) :
    splitFirst pattern (before ++ (pattern ++ after)) = some (before, after) := by
  have hne : pattern ≠ [] := by
    rintro rfl
    exact h List.nil_infix
  induction before with
  | nil =>
    obtain ⟨c, rest, rfl⟩ := List.exists_cons_of_ne_nil hne
    have hstart : (c :: rest).isPrefixOf (c :: rest ++ after) = true :=
      List.isPrefixOf_iff_prefix.mpr (List.prefix_append _ _)
    rw [List.nil_append, List.cons_append, splitFirst, ← List.cons_append, if_pos hstart,
      List.drop_left]
  | cons c rest ih =>
    -- an occurrence here would end before the one that is known of does
    have hnot : ¬ pattern <+: c :: (rest ++ (pattern ++ after)) := by
      intro hstart
      have hbegin : c :: rest ++ pattern.dropLast <+: c :: (rest ++ (pattern ++ after)) := by
        rw [← List.cons_append, List.prefix_append_right_inj]
        exact (List.dropLast_prefix pattern).trans (List.prefix_append _ _)
      have hlength : pattern.length ≤ (c :: rest ++ pattern.dropLast).length := by
        rw [List.length_append, List.length_cons, List.length_dropLast]
        omega
      exact h (List.prefix_of_prefix_length_le hstart hbegin hlength).isInfix
    have hrest := ih fun hpart => h (hpart.trans (List.suffix_cons c _).isInfix)
    rw [List.cons_append, splitFirst, if_neg (by rwa [List.isPrefixOf_iff_prefix]), hrest]
    rfl

theorem splitFirst_eq_none {pattern : List Char} (h : ¬ pattern <:+: cs) :
    splitFirst pattern cs = none := by
  rw [← occursIn_iff, occursIn] at h
  simpa using h

/-- Parts with a mark between them are cut at the mark, if none of them holds it. -/
theorem splitWhere_intercalate {sep : String} {parts : List String} (hsep : sep.toList = [c])
    (hne : parts ≠ []) (h : ∀ s ∈ parts, c ∉ s.toList) :
    splitWhere (· == c) (sep.intercalate parts).toList = parts.map String.toList := by
  rw [splitWhere_eq_splitOnP, ← List.splitOn_eq_splitOnP, String.toList_intercalate, hsep]
  refine List.splitOn_intercalate c ?_ (by simpa using hne)
  intro cs hcs
  obtain ⟨s, hs, rfl⟩ := List.mem_map.mp hcs
  exact h s hs

/-! ## Clauses -/

structure Blanks where
  text : String
  blank : ∀ c ∈ text.toList, isBlank c = true

/-- An exception by its name, behind the names of the modules that it is in. -/
structure ExceptionName where
  modules : List String
  name : String
  isName : ∀ s ∈ modules ++ [name], IsName s

def ExceptionName.text (e : ExceptionName) : String := ".".intercalate (e.modules ++ [e.name])

/-- A name in a list, with blanks around it. -/
structure ListedName where
  before : Blanks
  exception : ExceptionName
  after : Blanks

def ListedName.text (e : ListedName) : String := e.before.text ++ e.exception.text ++ e.after.text

/-- A list of names, with a comma after each but the last.  A comma after the last may have blanks
behind it. -/
structure NameList where
  first : ListedName
  more : List ListedName
  comma : Option Blanks

namespace NameList

variable (xs : NameList)

def names : List ListedName := xs.first :: xs.more

def pieces : List String := xs.names.map (·.text) ++ xs.comma.toList.map (·.text)

def text : String := ",".intercalate xs.pieces

end NameList

/-- What a clause catches: an exception, or those of a list in brackets. -/
inductive Caught
  | one (gap : Blanks) (hgap : gap.text ≠ "") (e : ExceptionName)
  | listed (gap : Blanks) (xs : NameList)

namespace Caught

def gap : Caught → Blanks
  | one gap _ _ => gap
  | listed gap _ => gap

def exceptions : Caught → List ExceptionName
  | one _ _ e => [e]
  | listed _ xs => xs.names.map (·.exception)

def inner : Caught → String
  | one _ _ e => e.text
  | listed _ xs => xs.text

def text : Caught → String
  | one _ _ e => e.text
  | listed _ xs => "(" ++ xs.text ++ ")"

end Caught

structure Alias where
  before : Blanks
  after : Blanks
  name : String
  isName : IsName name

def Alias.text (a : Alias) : String := a.before.text ++ " as " ++ a.after.text ++ a.name

def Caught.bound (x : Caught) : Option Alias → String
  | none => x.text
  | some a => x.text ++ a.text

/-- An exception clause with its body, which is any text. -/
inductive ExceptClause
  | bare (gap : Blanks) (body : String)
  | catching (caught : Caught) (name : Option Alias) (gap : Blanks) (body : String)

namespace ExceptClause

def text : ExceptClause → String
  | bare gap body => "except" ++ gap.text ++ ":" ++ body
  | catching caught name gap body =>
    "except" ++ caught.gap.text ++ caught.bound name ++ gap.text ++ ":" ++ body

def exceptions? : ExceptClause → Option (List ExceptionName)
  | bare _ _ => none
  | catching caught _ _ _ => some caught.exceptions

end ExceptClause

/-! ## Characters of clauses -/

/-- A character of a name with blanks around it. -/
def InList (c : Char) : Prop := isIdentifierChar c = true ∨ c = '.' ∨ isBlank c = true

instance (c : Char) : Decidable (InList c) :=
  inferInstanceAs (Decidable (isIdentifierChar c = true ∨ c = '.' ∨ isBlank c = true))

theorem Blanks.not_identifier (b : Blanks) : ∀ c ∈ b.text.toList, isIdentifierChar c = false :=
  fun c hc => isIdentifierChar_of_isBlank (b.blank c hc)

theorem Blanks.inList (b : Blanks) : ∀ c ∈ b.text.toList, InList c :=
  fun c hc => .inr (.inr (b.blank c hc))

namespace ExceptionName

variable (e : ExceptionName)

theorem mem_text (hc : c ∈ e.text.toList) : isIdentifierChar c = true ∨ c = '.' := by
  rcases mem_of_mem_intercalate hc with hpoint | ⟨s, hs, hc⟩
  · exact .inr (by simpa using hpoint)
  · exact .inl ((e.isName s hs).chars.2 c hc).1

theorem inList : ∀ c ∈ e.text.toList, InList c :=
  fun _ hc => (e.mem_text hc).imp_right .inl

theorem solid : Solid e.text.toList := by
  obtain ⟨c, hc, -⟩ := (e.isName e.name (by simp)).chars.1
  have hmem : c ∈ e.text.toList :=
    mem_intercalate_of_mem (List.mem_append_right _ List.mem_cons_self) (List.mem_of_mem_head? hc)
  refine solid_of_not_isBlank (List.ne_nil_of_mem hmem) ?_
  intro d hd
  rcases e.mem_text hd with hchar | rfl
  · by_contra hblank
    rw [isIdentifierChar_of_isBlank (by simpa using hblank)] at hchar
    cases hchar
  · decide

theorem identifiersIn_text :
    identifiersIn e.text.toList = (e.modules ++ [e.name]).map String.toList := by
  rw [text, identifiersIn_intercalate (c := '.') rfl (by decide), List.map_eq_flatMap]
  exact List.flatMap_congr fun s hs => identifiersIn_identifier (e.isName s hs).chars

theorem lastSegment_text : lastSegment e.text = e.name := by
  have hcut : splitWhere (· == '.') e.text.toList =
      (e.modules ++ [e.name]).map String.toList := by
    refine splitWhere_intercalate rfl (by simp) ?_
    intro s hs hpoint
    exact absurd ((e.isName s hs).chars.2 '.' hpoint).1 (by decide)
  rw [lastSegment, pieces, hcut]
  simp

end ExceptionName

/-! ## Lists of names -/

theorem ListedName.text_eq (e : ListedName) : e.text.toList =
    e.before.text.toList ++ (e.exception.text.toList ++ e.after.text.toList) := by
  rw [text, String.toList_append, String.toList_append, List.append_assoc]

theorem ListedName.trim_text (e : ListedName) : trim e.text = e.exception.text := by
  rw [trim, e.text_eq, e.exception.solid.trim_eq e.before.blank e.after.blank,
    String.ofList_toList]

theorem Blanks.trim_text (b : Blanks) : trim b.text = "" := by
  rw [trim_eq_empty_iff, hasInk, List.any_eq_false]
  intro c hc
  simp [b.blank c hc]

namespace NameList

variable (xs : NameList)

theorem pieces_ne_nil : xs.pieces ≠ [] := by
  rw [pieces, names, List.map_cons]
  exact List.cons_ne_nil _ _

theorem inList {s : String} (hs : s ∈ xs.pieces) : ∀ c ∈ s.toList, InList c := by
  rw [pieces, List.mem_append] at hs
  rcases hs with hs | hs
  · obtain ⟨e, -, rfl⟩ := List.mem_map.mp hs
    rw [e.text_eq]
    simp only [List.forall_mem_append]
    exact ⟨e.before.inList, e.exception.inList, e.after.inList⟩
  · obtain ⟨b, -, rfl⟩ := List.mem_map.mp hs
    exact b.inList

theorem mem_text (hc : c ∈ xs.text.toList) : InList c ∨ c = ',' := by
  rcases mem_of_mem_intercalate hc with hcomma | ⟨s, hs, hc⟩
  · exact .inr (by simpa using hcomma)
  · exact .inl (xs.inList hs c hc)

theorem splitWhere_text :
    splitWhere (· == ',') xs.text.toList = xs.pieces.map String.toList := by
  refine splitWhere_intercalate rfl xs.pieces_ne_nil ?_
  intro s hs hcomma
  exact absurd (xs.inList hs ',' hcomma) (by decide)

theorem text_ne_nil : xs.text.toList ≠ [] := by
  obtain ⟨c, hc⟩ := List.exists_mem_of_ne_nil _ xs.first.exception.solid.ne_nil
  refine List.ne_nil_of_mem (a := c) (mem_intercalate_of_mem (l := xs.first.text) ?_ ?_)
  · exact List.mem_append_left _ (List.mem_map_of_mem List.mem_cons_self)
  · rw [xs.first.text_eq]
    exact List.mem_append_right _ (List.mem_append_left _ hc)

theorem identifiersIn_text : identifiersIn xs.text.toList =
    xs.names.flatMap fun e => identifiersIn e.exception.text.toList := by
  have hname : ∀ e : ListedName, identifiersIn e.text.toList =
      identifiersIn e.exception.text.toList := by
    intro e
    rw [e.text_eq, identifiersIn_stops_append e.before.not_identifier,
      identifiersIn_append_stops e.after.not_identifier]
  have hblanks : ∀ b : Blanks, identifiersIn b.text.toList = [] := by
    intro b
    have := identifiersIn_append_stops b.not_identifier []
    rwa [List.nil_append] at this
  rw [text, identifiersIn_intercalate (c := ',') rfl (by decide), pieces, List.flatMap_append,
    List.flatMap_map, List.flatMap_map]
  simp only [hname, hblanks, List.flatMap_eq_nil_iff.mpr (fun _ _ => rfl), List.append_nil]

end NameList

/-! ## What is caught -/

namespace ExceptionName

variable (e : ExceptionName)

theorem name_ne_empty : e.name ≠ "" := by
  intro hname
  obtain ⟨c, hc, -⟩ := (e.isName e.name (by simp)).chars.1
  rw [hname] at hc
  cases hc

theorem trim_text : trim e.text = e.text := by
  have htrim := e.solid.trim_eq (List.forall_mem_nil _) (List.forall_mem_nil _)
  rw [List.nil_append, List.append_nil] at htrim
  rw [trim, htrim, String.ofList_toList]

end ExceptionName

namespace Caught

variable (x : Caught)

/-- The names in what stands between the commas. -/
theorem names_inner :
    ((splitWhere (· == ',') x.inner.toList).map fun cs =>
      lastSegment (String.ofList (strip isBlank cs))).filter (· != "") =
        x.exceptions.map (·.name) := by
  have htrim : ∀ s : String, String.ofList (strip isBlank s.toList) = trim s := fun _ => rfl
  cases x with
  | one b hgap e =>
    have hcomma : ',' ∉ e.text.toList := fun hmem => absurd (e.inList _ hmem) (by decide)
    have hcut : splitWhere (· == ',') (",".intercalate [e.text]).toList = [e.text.toList] :=
      splitWhere_intercalate rfl (by simp) (by simpa using hcomma)
    rw [String.intercalate_singleton] at hcut
    simp [inner, exceptions, hcut, htrim, e.trim_text, e.lastSegment_text, e.name_ne_empty]
  | listed b xs =>
    have hname : ∀ e : ListedName, lastSegment (trim e.text) = e.exception.name := by
      intro e
      rw [e.trim_text, e.exception.lastSegment_text]
    have hblanks : ∀ b : Blanks, lastSegment (trim b.text) = "" := by
      intro b
      rw [b.trim_text]
      rfl
    have hkept : (xs.names.map (·.exception.name)).filter (· != "") =
        xs.names.map (·.exception.name) := by
      refine List.filter_eq_self.mpr ?_
      intro s hs
      obtain ⟨e, -, rfl⟩ := List.mem_map.mp hs
      simpa using e.exception.name_ne_empty
    rw [inner, xs.splitWhere_text, List.map_map, NameList.pieces, List.map_append, List.map_map,
      List.map_map, List.filter_append]
    simp only [Function.comp_def, htrim, hname, hblanks, hkept, exceptions, List.map_map]
    cases xs.comma <;> simp

theorem strip_text : strip (fun c => c == '(' || c == ')') x.text.toList = x.inner.toList := by
  have hinner : ∀ {cs : List Char}, (∀ c ∈ cs, InList c ∨ c = ',') →
      ∀ c ∈ cs, (c == '(' || c == ')') = false := by
    intro cs hcs c hc
    have hne : c ≠ '(' ∧ c ≠ ')' := by
      constructor <;> rintro rfl <;> exact absurd (hcs _ hc) (by decide)
    simp [hne]
  cases x with
  | one b hgap e =>
    have hchars := hinner fun c hc => .inl (e.inList c hc)
    have hstrip := strip_append e.solid.ne_nil (List.forall_mem_nil _) hchars
      (List.forall_mem_nil _)
    rwa [List.nil_append, List.append_nil] at hstrip
  | listed b xs =>
    have hchars := hinner fun c hc => xs.mem_text hc
    rw [text, inner, String.toList_append, String.toList_append, List.append_assoc]
    exact strip_append xs.text_ne_nil (by decide) hchars (by decide)

theorem solid : Solid x.text.toList := by
  cases x with
  | one b hgap e => exact e.solid
  | listed b xs =>
    have hopen : Solid "(".toList := solid_of_not_isBlank (by simp) (by decide)
    have hclose : Solid ")".toList := solid_of_not_isBlank (by simp) (by decide)
    rw [text, String.toList_append, String.toList_append, List.append_assoc]
    exact hopen.append hclose xs.text.toList

theorem colon_not_mem : ':' ∉ x.text.toList := by
  intro hcolon
  cases x with
  | one b hgap e => exact absurd (e.inList _ hcolon) (by decide)
  | listed b xs =>
    rw [text, String.toList_append, String.toList_append] at hcolon
    have hmem : ':' ∈ xs.text.toList := by simpa using hcolon
    exact absurd (xs.mem_text hmem) (by decide)

/-- No exception has the name `as`. -/
theorem as_not_mem : "as".toList ∉ identifiersIn x.text.toList := by
  have hname : ∀ e : ExceptionName, "as".toList ∉ identifiersIn e.text.toList := by
    intro e has
    rw [e.identifiersIn_text] at has
    obtain ⟨s, hs, heq⟩ := List.mem_map.mp has
    rw [String.toList_inj] at heq
    exact (e.isName s hs).free (heq ▸ by decide)
  cases x with
  | one b hgap e => exact hname e
  | listed b xs =>
    have hopen : ∀ c ∈ "(".toList, isIdentifierChar c = false := by decide
    have hclose : ∀ c ∈ ")".toList, isIdentifierChar c = false := by decide
    rw [text, String.toList_append, String.toList_append, identifiersIn_append_stops hclose,
      identifiersIn_stops_append hopen, xs.identifiersIn_text, List.mem_flatMap]
    rintro ⟨e, -, has⟩
    exact hname e.exception has

end Caught

/-! ## Reading a clause -/

/-- Between spaces the word `as` is one of the identifiers of a text. -/
theorem as_mem_identifiersIn (h : " as ".toList <:+: cs) : "as".toList ∈ identifiersIn cs := by
  obtain ⟨front, back, rfl⟩ := h
  have hword : IsIdentifier "as".toList := by decide
  have hcs : front ++ " as ".toList ++ back = front ++ ' ' :: ("as".toList ++ ' ' :: back) := by
    simp
  rw [hcs, identifiersIn_append (by decide), identifiersIn_append (by decide),
    identifiersIn_identifier hword]
  exact List.mem_append_right _ (List.mem_append_left _ List.mem_cons_self)

/-- A text with `as` in it behind blanks has no other such word between spaces before it. -/
theorem Caught.not_as_before (x : Caught) (b : Blanks) :
    ¬ " as ".toList <:+: x.text.toList ++ b.text.toList ++ " as ".toList.dropLast := by
  intro h
  -- an occurrence ends with a space, so before the last two characters
  have hlast : ∀ d, d ≠ ' ' → ∀ cs, ¬ " as ".toList <:+ cs ++ [d] := by
    intro d hd cs hend
    rcases List.suffix_concat_iff.mp hend with hnil | ⟨t, ht, -⟩
    · cases hnil
    · have hends : ' ' = d := by simpa using congrArg List.getLast? ht
      exact hd hends.symm
  have hbefore : " as ".toList <:+: x.text.toList ++ (b.text.toList ++ [' ']) := by
    have hsnoc : x.text.toList ++ b.text.toList ++ " as ".toList.dropLast =
        x.text.toList ++ (b.text.toList ++ [' ']) ++ ['a'] ++ ['s'] := by simp
    rw [hsnoc, List.infix_concat_iff, List.infix_concat_iff] at h
    rcases h with hs | ha | hbefore
    · exact absurd hs (hlast 's' (by decide) _)
    · exact absurd ha (hlast 'a' (by decide) _)
    · exact hbefore
  have has := as_mem_identifiersIn hbefore
  rw [identifiersIn_append_stops] at has
  · exact x.as_not_mem has
  · intro c hc
    rcases List.mem_append.mp hc with hc | hc
    · exact b.not_identifier c hc
    · rw [List.mem_singleton.mp hc]
      decide

/-- The text is cut before the alias, if there is one. -/
theorem Caught.splitFirst_bound (x : Caught) (name : Option Alias) :
    ((splitFirst " as ".toList (x.bound name).toList).map fun cut => strip isBlank cut.1).getD
      (x.bound name).toList = x.text.toList := by
  cases name with
  | none =>
    have hnone : splitFirst " as ".toList x.text.toList = none :=
      splitFirst_eq_none fun h => x.as_not_mem (as_mem_identifiersIn h)
    rw [bound, hnone]
    rfl
  | some a =>
    have hsplit : splitFirst " as ".toList (x.text.toList ++ a.before.text.toList ++
        (" as ".toList ++ (a.after.text ++ a.name).toList)) =
          some (x.text.toList ++ a.before.text.toList, (a.after.text ++ a.name).toList) :=
      splitFirst_append (x.not_as_before a.before)
    have htext : (x.text ++ a.text).toList = x.text.toList ++ a.before.text.toList ++
        (" as ".toList ++ (a.after.text ++ a.name).toList) := by
      simp [Alias.text]
    rw [bound, htext, hsplit]
    exact x.solid.trim_eq (List.forall_mem_nil _) a.before.blank

theorem Caught.solid_bound (x : Caught) (name : Option Alias) : Solid (x.bound name).toList := by
  cases name with
  | none => exact x.solid
  | some a =>
    have hname : Solid a.name.toList := (ExceptionName.mk [] a.name (by simpa using a.isName)).solid
    have htext : (x.bound (some a)).toList = x.text.toList ++
        ((a.before.text ++ " as " ++ a.after.text).toList ++ a.name.toList) := by
      simp [bound, Alias.text]
    rw [htext]
    exact x.solid.append hname _

theorem Caught.colon_not_mem_bound (x : Caught) (name : Option Alias) :
    ':' ∉ (x.bound name).toList := by
  cases name with
  | none => exact x.colon_not_mem
  | some a =>
    have hblanks : ∀ b : Blanks, ':' ∉ b.text.toList := fun b hcolon =>
      absurd (b.inList _ hcolon) (by decide)
    have hname : ':' ∉ a.name.toList := fun hcolon =>
      absurd (a.isName.chars.2 _ hcolon).1 (by decide)
    simp [bound, Alias.text, x.colon_not_mem, hblanks, hname]

/-- The word that starts the clause does not start what stands behind it as well. -/
theorem Caught.not_except_again (x : Caught) (name : Option Alias) :
    ¬ "except".toList <+: x.gap.text.toList ++ (x.bound name).toList := by
  have hnot : ∀ {c cs}, c ≠ 'e' → ¬ "except".toList <+: c :: cs := by
    intro c cs hc hstart
    exact hc (List.cons_prefix_cons.mp hstart).1.symm
  cases hgap : x.gap.text.toList with
  | cons c rest =>
    refine hnot ?_
    rintro rfl
    have hblank := x.gap.blank 'e' (by rw [hgap]; exact List.mem_cons_self)
    exact absurd hblank (by decide)
  | nil =>
    cases x with
    | one b hb e => exact absurd (String.toList_eq_nil_iff.mp hgap) hb
    | listed b xs =>
      have hopen : ∃ cs, ((listed b xs).bound name).toList = '(' :: cs := by
        cases name <;> simp [bound, text]
      obtain ⟨cs, hcs⟩ := hopen
      rw [List.nil_append, hcs]
      exact hnot (by decide)

/-- What stands before the colon of a clause. -/
theorem takeWhile_header (hcs : ':' ∉ cs) (b : Blanks) (body : List Char) :
    ("except".toList ++ cs ++ b.text.toList ++ ':' :: body).takeWhile (· != ':') =
      "except".toList ++ cs ++ b.text.toList := by
  refine takeWhile_append_stop ?_ (fun c hc => by cases hc; rfl)
  intro c hc
  have hne : c ≠ ':' := by
    rintro rfl
    rw [List.mem_append, List.mem_append] at hc
    rcases hc with (hc | hc) | hc
    · revert hc
      decide
    · exact hcs hc
    · exact absurd (b.inList _ hc) (by decide)
  simpa using hne

/-- What stands between the keyword of a clause and its colon, without the blanks at the end. -/
theorem dropCopies_header (hcolon : ':' ∉ cs) (hsolid : Solid ("except".toList ++ cs))
    (hagain : ¬ "except".toList <+: cs) (b : Blanks) (body : List Char) :
    dropCopies "except".toList (strip isBlank
      (("except".toList ++ cs ++ b.text.toList ++ ':' :: body).takeWhile (· != ':'))) = cs := by
  have htrim : strip isBlank ("except".toList ++ cs ++ b.text.toList) = "except".toList ++ cs :=
    hsolid.trim_eq (List.forall_mem_nil _) b.blank
  rw [takeWhile_header hcolon, htrim, dropCopies_append (by simp) hagain]

/-- What is caught is read from its text. -/
theorem Caught.names_text (x : Caught) :
    (if x.text.toList.isEmpty = true then none else
      some (((splitWhere (· == ',')
        (strip (fun c => c == '(' || c == ')') x.text.toList)).map fun cs =>
          lastSegment (String.ofList (strip isBlank cs))).filter (· != ""))) =
        some (x.exceptions.map (·.name)) := by
  rw [if_neg (by simpa using x.solid.ne_nil), x.strip_text, x.names_inner]

/-- **The names that are read from a clause are those that are written in it.** -/
theorem caughtNames_text (clause : ExceptClause) :
    caughtNames clause.text = clause.exceptions?.map fun es => es.map (·.name) := by
  have hkeyword : Solid "except".toList := solid_of_not_isBlank (by simp) (by decide)
  cases clause with
  | bare b body =>
    have htext : (ExceptClause.bare b body).text.toList =
        "except".toList ++ [] ++ b.text.toList ++ ':' :: body.toList := by
      simp [ExceptClause.text]
    have hheader := dropCopies_header List.not_mem_nil (by simpa using hkeyword) (by simp) b
      body.toList
    rw [caughtNames, htext]
    simp only [hheader]
    rfl
  | catching x name b body =>
    have htext : (ExceptClause.catching x name b body).text.toList =
        "except".toList ++ (x.gap.text.toList ++ (x.bound name).toList) ++ b.text.toList ++
          ':' :: body.toList := by
      simp [ExceptClause.text]
    have hcolon : ':' ∉ x.gap.text.toList ++ (x.bound name).toList := by
      rw [List.mem_append, not_or]
      refine ⟨fun hmem => ?_, x.colon_not_mem_bound name⟩
      exact absurd (x.gap.inList _ hmem) (by decide)
    have hheader := dropCopies_header hcolon (hkeyword.append (x.solid_bound name) _)
      (x.not_except_again name) b body.toList
    have hgap : strip isBlank (x.gap.text.toList ++ (x.bound name).toList) =
        (x.bound name).toList := by
      have := (x.solid_bound name).trim_eq x.gap.blank (List.forall_mem_nil _)
      rwa [List.append_nil] at this
    have hbefore := x.splitFirst_bound name
    rw [caughtNames, htext]
    simp only [hheader, hgap]
    -- Whether a name is bound or not, what is left is the text of what is caught.
    cases hsplit : splitFirst " as ".toList (x.bound name).toList with
    | none =>
      rw [hsplit, Option.map_none, Option.getD_none] at hbefore
      rw [hbefore]
      exact x.names_text
    | some cut =>
      rw [hsplit, Option.map_some, Option.getD_some] at hbefore
      simp only [hbefore]
      exact x.names_text

end AgentFlow.Lint

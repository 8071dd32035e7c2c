import AgentFlow.Proofs.Output.CodeNames
import AgentFlow.Proofs.Code.Layout

/-!
# Types in generated code

The types that a specification states go into generated code as they are.  Here is stated which
texts are types: dotted names with lists of types in brackets after them, and unions.

* `IsAnnotation`: the texts that are types, with blanks between their parts.
* `exists_typePhrase`: **each of them is read as an expression.**
-/

namespace AgentFlow

/-- How tightly the parts of a type hold together. -/
inductive TypeRank where
  /-- What may have an attribute or a list in brackets after it. -/
  | name
  /-- What may be part of a union. -/
  | member
  | whole
deriving DecidableEq

/-- A part of a type after a mark, with the numbers of blanks before and after that. -/
structure TypePart where
  before : Nat
  after : Nat
  text : String

def TypePart.spelled (mark : String) (x : TypePart) : String :=
  String.ofList (List.replicate x.before ' ') ++ mark ++
    String.ofList (List.replicate x.after ' ') ++ x.text

/-- Parts in brackets: one after some blanks, further ones after commas, and blanks. -/
def typeList (n : Nat) (s : String) (xs : List TypePart) (b : Nat) : String :=
  "[" ++ String.ofList (List.replicate n ' ') ++ s ++ String.join (xs.map (·.spelled ",")) ++
    String.ofList (List.replicate b ' ') ++ "]"

/-- The text is a type: a name, maybe with points and with lists of types in brackets, a fixed
value, a list of types, or a union of these. -/
inductive IsAnnotation : TypeRank → String → Prop
  | named {s : String} : isClassName s = true → IsAnnotation .name s
  | dotted {t s : String} : IsAnnotation .name t → isClassName s = true →
      IsAnnotation .name (t ++ "." ++ s)
  | generic {t s : String} {n b : Nat} {xs : List TypePart} : IsAnnotation .name t →
      IsAnnotation .whole s → (∀ x ∈ xs, IsAnnotation .whole x.text) →
        IsAnnotation .name (t ++ typeList n s xs b)
  | member {t : String} : IsAnnotation .name t → IsAnnotation .member t
  | value {s : String} : s ∈ ["True", "False", "None"] → IsAnnotation .member s
  | number {s : String} : s.toList ≠ [] → (∀ c ∈ s.toList, c.isDigit = true) →
      IsAnnotation .member s
  | list {s : String} {n b : Nat} {xs : List TypePart} : IsAnnotation .whole s →
      (∀ x ∈ xs, IsAnnotation .whole x.text) → IsAnnotation .member (typeList n s xs b)
  | emptyList : IsAnnotation .member "[]"
  | whole {t : String} : IsAnnotation .member t → IsAnnotation .whole t
  | union {t : String} {x : TypePart} {xs : List TypePart} : IsAnnotation .member t →
      (∀ y ∈ x :: xs, IsAnnotation .member y.text) →
        IsAnnotation .whole (t ++ String.join ((x :: xs).map (·.spelled "|")))
  | dots : IsAnnotation .whole "..."

namespace Code

open Phrase

def TypeRank.Reads (p : Phrase) : TypeRank → Prop
  | .name => p.IsPrimary ∧ p.body ≠ "..."
  | .member => p.IsOperand ∧ p.body ≠ "..."
  | .whole => p.IsExpression

/-- A phrase on one line that is read as a type of the rank and has the text. -/
structure SpellsType (rank : TypeRank) (s : String) (p : Phrase) : Prop where
  reads : TypeRank.Reads p rank
  flat : p.Flat
  chars : p.chars = s.toList

theorem exists_rows {xs : List TypePart} (h : ∀ x ∈ xs, ∃ p, SpellsType .whole x.text p) :
    ∃ rs : List Row, (∀ r ∈ rs, r.phrase.IsExpression ∧ r.lead.newline = false ∧ r.phrase.Flat) ∧
      charsOf (afterCommas rs) = (String.join (xs.map (·.spelled ","))).toList := by
  induction xs with
  | nil => exact ⟨[], by simp, rfl⟩
  | cons x xs ih =>
    rw [List.forall_mem_cons] at h
    obtain ⟨⟨p, hp⟩, hxs⟩ := h
    obtain ⟨rs, hrs, hchars⟩ := ih hxs
    refine ⟨⟨x.before, .blanks x.after, p⟩ :: rs,
      List.forall_mem_cons.mpr ⟨⟨hp.reads, rfl, hp.flat⟩, hrs⟩, ?_⟩
    rw [afterCommas, List.flatMap_cons, ← afterCommas, charsOf_append, hchars]
    simp [charsOf_cons, Lexeme.chars, Lead.chars, hp.chars, TypePart.spelled, String.toList_join]

theorem exists_steps {xs : List TypePart} (h : ∀ x ∈ xs, ∃ p, SpellsType .member x.text p) :
    ∃ ys : List Step, ys.length = xs.length ∧
      (∀ y ∈ ys, y.Valid ∧ y.lead.newline = false ∧ y.phrase.Flat) ∧
        (ys.flatMap fun y => List.replicate y.blanks ' ' ++ y.operator.toList ++ y.lead.chars ++
          y.phrase.chars) = (String.join (xs.map (·.spelled "|"))).toList := by
  induction xs with
  | nil => exact ⟨[], rfl, by simp, rfl⟩
  | cons x xs ih =>
    rw [List.forall_mem_cons] at h
    obtain ⟨⟨p, hp⟩, hxs⟩ := h
    obtain ⟨ys, hlength, hys, hchars⟩ := ih hxs
    have hvalid : (⟨x.before, "|", .blanks x.after, p⟩ : Step).Valid :=
      ⟨show "|" ∈ operators by decide, hp.reads.1, rfl, by simp, hp.reads.2⟩
    refine ⟨⟨x.before, "|", .blanks x.after, p⟩ :: ys, by simp [hlength],
      List.forall_mem_cons.mpr ⟨⟨hvalid, rfl, hp.flat⟩, hys⟩, ?_⟩
    rw [List.flatMap_cons, hchars]
    simp [Lead.chars, hp.chars, TypePart.spelled, String.toList_join]

/-- A list of types in brackets as rows. -/
theorem exists_list {s : String} {xs : List TypePart} (hs : ∃ p, SpellsType .whole s p)
    (hxs : ∀ x ∈ xs, ∃ p, SpellsType .whole x.text p) (n b : Nat) : ∃ r rs,
      (∀ q ∈ r :: rs, q.phrase.IsExpression ∧ q.lead.newline = false) ∧ IsFlat (listed (r :: rs)) ∧
        '[' :: (charsOf (listed (r :: rs)) ++ (List.replicate b ' ' ++ [']'])) =
          (typeList n s xs b).toList := by
  obtain ⟨p, hp⟩ := hs
  obtain ⟨rs, hrs, hchars⟩ := exists_rows hxs
  refine ⟨⟨0, .blanks n, p⟩, rs, List.forall_mem_cons.mpr
    ⟨⟨hp.reads, rfl⟩, fun r hr => ⟨(hrs r hr).1, (hrs r hr).2.1⟩⟩, ?_, ?_⟩
  · exact flat_listed (List.forall_mem_cons.mpr ⟨⟨rfl, hp.flat⟩, fun r hr => (hrs r hr).2⟩)
  · rw [listed, charsOf_append, charsOf_lexemes, hchars]
    simp [Lead.chars, hp.chars, typeList]

/-- **A type is read as an expression.** -/
theorem exists_typePhrase {rank : TypeRank} {s : String} (h : IsAnnotation rank s) :
    ∃ p, SpellsType rank s p := by
  induction h with
  | @named s hs =>
    have hname := isName_of_isClassName hs
    refine ⟨name s, ⟨isPrimary_name hname, ?_⟩, flat_name s, chars_name s⟩
    rintro rfl
    exact absurd hname (by decide)
  | dotted _ hs ih =>
    obtain ⟨p, hp⟩ := ih
    exact ⟨p.attr _ 0 0, ⟨hp.reads.1.attr (isName_of_isClassName hs) 0 0, hp.reads.2⟩,
      flat_attr.mpr hp.flat, by simp [hp.chars]⟩
  | @generic t s n b xs _ _ _ iht ihs ihxs =>
    obtain ⟨p, hp⟩ := iht
    obtain ⟨r, rs, hrs, hflat, hchars⟩ := exists_list ihs ihxs n b
    refine ⟨p.index (r :: rs) 0 b, ⟨hp.reads.1.index hrs 0 b, hp.reads.2⟩,
      flat_index.mpr ⟨hp.flat, hflat⟩, ?_⟩
    rw [String.toList_append, ← hchars]
    simp [hp.chars]
  | member _ ih =>
    obtain ⟨p, hp⟩ := ih
    exact ⟨p, ⟨hp.reads.1.isOperand, hp.reads.2⟩, hp.flat, hp.chars⟩
  | @value s hs =>
    refine ⟨constant s, ⟨isOperand_constant hs, ?_⟩, flat_constant s, chars_constant s⟩
    rintro rfl
    exact absurd hs (by decide)
  | @number s hne hs =>
    refine ⟨Phrase.number s, ⟨isOperand_number (.inl ⟨hne, hs⟩), ?_⟩, flat_number s, chars_number s⟩
    rintro rfl
    exact absurd hs (by decide)
  | @list s n b xs _ _ ihs ihxs =>
    obtain ⟨r, rs, hrs, hflat, hchars⟩ := exists_list ihs ihxs n b
    have hplain : ∀ q ∈ r :: rs, q.phrase.IsExpression ∧ q.lead.isPlain = true := fun q hq =>
      ⟨(hrs q hq).1, isPlain_of_newline (hrs q hq).2⟩
    refine ⟨bracketRows "[" "]" (r :: rs) b,
      ⟨(isPrimary_bracketRows (.inr rfl) hplain b).isOperand, show "[" ≠ "..." by decide⟩,
      flat_bracketRows.mpr hflat, ?_⟩
    rw [← hchars]
    simp
  | emptyList =>
    exact ⟨Phrase.list [], ⟨(isPrimary_collection (.inr rfl) (by simp)).isOperand, by decide⟩,
      by simp, by simp⟩
  | whole _ ih =>
    obtain ⟨p, hp⟩ := ih
    exact ⟨p, hp.reads.1.isExpression, hp.flat, hp.chars⟩
  | @union t x xs _ _ iht ihxs =>
    obtain ⟨p, hp⟩ := iht
    obtain ⟨ys, hlength, hys, hchars⟩ := exists_steps ihxs
    obtain ⟨y, ys, rfl⟩ : ∃ z zs, ys = z :: zs := by
      cases ys with
      | nil => exact absurd hlength (by simp)
      | cons z zs => exact ⟨z, zs, rfl⟩
    refine ⟨p.chain (y :: ys), (hp.reads.1.chain fun z hz => (hys z hz).1).isExpression,
      flat_chain.mpr ⟨hp.flat, fun z hz => (hys z hz).2⟩, ?_⟩
    rw [chars_chain, hchars, hp.chars, String.toList_append]
  | dots => exact ⟨Phrase.dots, isOperand_dots.isExpression, flat_dots, chars_dots⟩

end Code

end AgentFlow

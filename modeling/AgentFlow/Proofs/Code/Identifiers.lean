import AgentFlow.Proofs.Code.Lexing
import AgentFlow.Proofs.Text.Lines

/-!
# Identifiers in a text

Every text has its identifiers: the longest runs of characters that may stand in one.  A character
that may not, such as a blank, parts them.

* `isIdentifierChar_of_isBlank`: no blank stands in an identifier.
* `identifiersIn_append`: **a character that stands in no identifier cuts a text in two.**
* `identifiersIn_intercalate`: the identifiers of a text with such a character between its parts.
-/

namespace AgentFlow.Code

open Text

def blankPoints : List Nat :=
  [0x9, 0xA, 0xB, 0xC, 0xD, 0x20, 0x85, 0xA0, 0x1680, 0x2000, 0x2001, 0x2002, 0x2003, 0x2004,
    0x2005, 0x2006, 0x2007, 0x2008, 0x2009, 0x200A, 0x2028, 0x2029, 0x202F, 0x205F, 0x3000]

theorem isIdentifierChar_of_isBlank {c : Char} (hc : isBlank c = true) :
    isIdentifierChar c = false := by
  have hpoint : c.toNat ∈ blankPoints := by
    simp only [isBlank, Bool.or_eq_true, Bool.and_eq_true, decide_eq_true_eq, beq_iff_eq] at hc
    simp only [blankPoints, List.mem_cons]
    omega
  have hall : ∀ n ∈ blankPoints, isIdentifierChar (Char.ofNat n) = false := by decide +kernel
  have := hall _ hpoint
  rwa [Char.ofNat_toNat] at this

/-- The identifiers in a text: the longest runs of characters that may stand in one. -/
def identifiersIn (cs : List Char) : List (List Char) :=
  (splitWhere (fun c => !isIdentifierChar c) cs).filter (· ≠ [])

variable {c : Char} {cs stops : List Char}

theorem identifiersIn_append (hc : isIdentifierChar c = false) (as bs : List Char) :
    identifiersIn (as ++ c :: bs) = identifiersIn as ++ identifiersIn bs := by
  have hsep : (!isIdentifierChar c) = true := by rw [hc]; rfl
  have hcut := List.splitOnP_append_cons (p := fun c => !isIdentifierChar c) as bs hsep
  simp only [identifiersIn, splitWhere_eq_splitOnP, hcut, List.filter_append]

theorem identifiersIn_stops_append (h : ∀ c ∈ stops, isIdentifierChar c = false)
    (cs : List Char) : identifiersIn (stops ++ cs) = identifiersIn cs := by
  induction stops with
  | nil => rfl
  | cons c rest ih =>
    rw [List.forall_mem_cons] at h
    have hrest := ih h.2
    have hcons := identifiersIn_append h.1 [] (rest ++ cs)
    rw [List.nil_append] at hcons
    rw [List.cons_append, hcons, hrest]
    rfl

theorem identifiersIn_append_stops (h : ∀ c ∈ stops, isIdentifierChar c = false)
    (cs : List Char) : identifiersIn (cs ++ stops) = identifiersIn cs := by
  cases stops with
  | nil => rw [List.append_nil]
  | cons c rest =>
    rw [List.forall_mem_cons] at h
    have hrest := identifiersIn_stops_append h.2 []
    rw [List.append_nil] at hrest
    rw [identifiersIn_append h.1, hrest]
    exact List.append_nil _

theorem identifiersIn_identifier (h : IsIdentifier cs) : identifiersIn cs = [cs] := by
  have hne : cs ≠ [] := by
    rintro rfl
    obtain ⟨c, hc, -⟩ := h.1
    cases hc
  rw [identifiersIn, splitWhere_eq_splitOnP, List.splitOnP_eq_singleton]
  · simp [hne]
  · intro c hc
    rw [(h.2 c hc).1]
    rfl

theorem identifiersIn_intercalate {sep : String} (hsep : sep.toList = [c])
    (hc : isIdentifierChar c = false) (parts : List String) :
    identifiersIn (sep.intercalate parts).toList =
      parts.flatMap fun s => identifiersIn s.toList := by
  induction parts with
  | nil => rfl
  | cons s rest ih =>
    cases rest with
    | nil => simp
    | cons t more =>
      rw [String.intercalate_cons_cons, String.toList_append, String.toList_append, hsep,
        List.append_assoc, List.singleton_append, identifiersIn_append hc, ih]
      simp only [List.flatMap_cons]

end AgentFlow.Code

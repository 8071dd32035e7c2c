import AgentFlow.Text.Split

/-!
# Blanks

The Unicode property White_Space, and what depends on it: trimming a text and cutting it into
words.  Spaces make a text as wide as a column; the width counts characters, and a text that is
wider stays as it is.

* `trim_eq_empty_iff`: a text trims to nothing exactly when it holds blanks only.
* `words_not_blank`: no word holds a blank, and none is empty.
* `length_padRight`, `length_padLeft`: the width is reached, and passed only by the text itself.
-/

namespace AgentFlow.Text

/-- The Unicode property White_Space. -/
def isBlank (c : Char) : Bool :=
  let n := c.toNat
  (9 ≤ n && n ≤ 13) || n == 0x20 || n == 0x85 || n == 0xA0 || n == 0x1680 ||
    (0x2000 ≤ n && n ≤ 0x200A) || n == 0x2028 || n == 0x2029 || n == 0x202F || n == 0x205F ||
    n == 0x3000

/-! ## Trimming -/

def dropBlank (cs : List Char) : List Char := cs.dropWhile isBlank

def dropBlankEnd (cs : List Char) : List Char := (dropBlank cs.reverse).reverse

def trimStart (s : String) : String := String.ofList (dropBlank s.toList)

def trimEnd (s : String) : String := String.ofList (dropBlankEnd s.toList)

def trim (s : String) : String := String.ofList (dropBlankEnd (dropBlank s.toList))

/-- Whether the text holds a character other than blanks. -/
def hasInk (s : String) : Bool := s.toList.any fun c => !isBlank c

theorem dropBlank_eq_nil_iff (cs : List Char) : dropBlank cs = [] ↔ ∀ c ∈ cs, isBlank c := by
  induction cs with
  | nil => simp [dropBlank]
  | cons c rest ih =>
    by_cases hc : isBlank c
    · rw [show dropBlank (c :: rest) = dropBlank rest by simp [dropBlank, hc], ih]; simp [hc]
    · simp [dropBlank, hc]

theorem trim_eq_empty_iff (s : String) : trim s = "" ↔ hasInk s = false := by
  have key : ∀ cs : List Char, dropBlankEnd (dropBlank cs) = [] ↔ ∀ c ∈ cs, isBlank c := by
    intro cs
    constructor
    · intro h
      have h' : dropBlank (dropBlank cs).reverse = [] := by
        simpa [dropBlankEnd] using h
      have hall := (dropBlank_eq_nil_iff _).mp h'
      cases hd : dropBlank cs with
      | nil => exact (dropBlank_eq_nil_iff cs).mp hd
      | cons c r =>
        have hc : isBlank c = true := hall c (by simp [hd])
        have hhead := List.head?_dropWhile_not isBlank cs
        rw [show cs.dropWhile isBlank = c :: r from hd] at hhead
        simp [hc] at hhead
    · intro h
      rw [(dropBlank_eq_nil_iff cs).mpr h]; rfl
  have hs : trim s = "" ↔ dropBlankEnd (dropBlank s.toList) = [] := by
    constructor
    · intro h
      have := congrArg String.toList h
      simpa [trim] using this
    · intro h; simp [trim, h]
  rw [hs, key]
  simp [hasInk]

/-! ## Words -/

/-- The maximal runs of characters that are no blanks, in order. -/
def wordsOf (cs : List Char) : List (List Char) :=
  (splitWhere isBlank cs).filter fun w => !w.isEmpty

def words (s : String) : List String := (wordsOf s.toList).map String.ofList

/-- The words of a text with one space between each two. -/
def collapse (s : String) : String := " ".intercalate (words s)

theorem words_not_blank {cs w : List Char} (h : w ∈ wordsOf cs) :
    w ≠ [] ∧ ∀ c ∈ w, isBlank c = false := by
  simp only [wordsOf, List.mem_filter] at h
  refine ⟨by simpa using h.2, fun c hc => ?_⟩
  exact not_of_mem_splitWhere h.1 c hc

/-! ## Columns -/

def blanks (n : Nat) : String := String.ofList (List.replicate n ' ')

/-- The text with spaces behind it. -/
def padRight (width : Nat) (s : String) : String := s ++ blanks (width - s.length)

/-- The text with spaces before it. -/
def padLeft (width : Nat) (s : String) : String := blanks (width - s.length) ++ s

theorem length_blanks (n : Nat) : (blanks n).length = n := by
  simp [blanks]

theorem length_padRight (width : Nat) (s : String) :
    (padRight width s).length = max width s.length := by
  simp only [padRight, String.length_append, length_blanks]
  omega

theorem length_padLeft (width : Nat) (s : String) :
    (padLeft width s).length = max width s.length := by
  simp only [padLeft, String.length_append, length_blanks]
  omega

end AgentFlow.Text

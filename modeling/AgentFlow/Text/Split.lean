/-!
# Cutting and searching text

Pieces of a text between separators, its lines, and the search for one text inside another.  All
of it works on lists of characters; the functions on `String` are wrappers.

* `splitWhere_ne_nil`, `of_mem_splitWhere`: there is always a first piece, and each piece holds
  characters of the text and no separator.
-/

namespace AgentFlow.Text

/-! ## Pieces -/

/-- The pieces between the characters that `p` accepts; one more than there are such characters. -/
def splitWhere {α : Type} (p : α → Bool) : List α → List (List α)
  | [] => [[]]
  | c :: rest =>
    if p c then [] :: splitWhere p rest
    else
      match splitWhere p rest with
      | [] => [[c]]
      | piece :: more => (c :: piece) :: more

theorem splitWhere_ne_nil {α : Type} (p : α → Bool) (cs : List α) : splitWhere p cs ≠ [] := by
  cases cs with
  | nil => simp [splitWhere]
  | cons c rest =>
    unfold splitWhere
    split
    · simp
    · split <;> simp

theorem of_mem_splitWhere {α : Type} {p : α → Bool} {cs piece : List α}
    (h : piece ∈ splitWhere p cs) : ∀ c ∈ piece, c ∈ cs ∧ p c = false := by
  induction cs generalizing piece with
  | nil => simp [splitWhere] at h; simp [h]
  | cons c rest ih =>
    have hrest {piece : List α} (h : piece ∈ splitWhere p rest) :
        ∀ d ∈ piece, d ∈ c :: rest ∧ p d = false := fun d hd =>
      ⟨List.mem_cons_of_mem c (ih h d hd).1, (ih h d hd).2⟩
    unfold splitWhere at h
    split at h
    · rcases List.mem_cons.mp h with rfl | h
      · exact List.forall_mem_nil _
      · exact hrest h
    · next hc =>
      split at h
      · next hnil => exact absurd hnil (splitWhere_ne_nil p rest)
      · next q more hq =>
        rcases List.mem_cons.mp h with rfl | h
        · rw [List.forall_mem_cons]
          exact ⟨⟨List.mem_cons_self, by simpa using hc⟩, hrest (hq ▸ List.mem_cons_self)⟩
        · exact hrest (hq ▸ List.mem_cons_of_mem _ h)

theorem not_of_mem_splitWhere {α : Type} {p : α → Bool} {cs piece : List α}
    (h : piece ∈ splitWhere p cs) : ∀ c ∈ piece, p c = false := fun c hc =>
  (of_mem_splitWhere h c hc).2

/-- The pieces of a text between the characters that `p` accepts. -/
def pieces (p : Char → Bool) (s : String) : List String :=
  (splitWhere p s.toList).map String.ofList

/-! ## Lines -/

/-- A line without the carriage return at its end, if there is one. -/
def dropReturn (line : List Char) : List Char :=
  match line.reverse with
  | '\r' :: rest => rest.reverse
  | _ => line

/-- The closed lines of `pieces`, and its last piece as an open line unless it is empty. -/
def closeLines : List (List Char) → List (List Char)
  | [] => []
  | [last] => if last.isEmpty then [] else [last]
  | line :: more => dropReturn line :: closeLines more

/-- The lines of a text.  A line ends with a line feed, which may have a carriage return before it;
a last line without a line feed counts if it is not empty. -/
def linesOf (cs : List Char) : List (List Char) := closeLines (splitWhere (· == '\n') cs)

def lines (s : String) : List String := (linesOf s.toList).map String.ofList

/-- The text of lines, each with a line feed at its end. -/
def unlines (ls : List String) : String := String.join (ls.map (· ++ "\n"))

/-! ## Searching -/

/-- The part of `cs` before the first occurrence of `pattern` and the part after it. -/
def splitFirst (pattern : List Char) : List Char → Option (List Char × List Char)
  | [] => if pattern.isEmpty then some ([], []) else none
  | c :: rest =>
    if pattern.isPrefixOf (c :: rest) then some ([], (c :: rest).drop pattern.length)
    else (splitFirst pattern rest).map fun (before, after) => (c :: before, after)

def occursIn (pattern cs : List Char) : Bool := (splitFirst pattern cs).isSome

def contains (s pattern : String) : Bool := occursIn pattern.toList s.toList

/-- The text with every character that `p` accepts replaced by `by'`. -/
def replaceChars (p : Char → Bool) (by' : List Char) (s : String) : String :=
  String.ofList (s.toList.flatMap fun c => if p c then by' else [c])

def afterHead? (head s : String) : Option String :=
  if head.toList.isPrefixOf s.toList then some (String.ofList (s.toList.drop head.length))
  else none

def startsWith (s head : String) : Bool := head.toList.isPrefixOf s.toList

def endsWith (s tail : String) : Bool := tail.toList.isSuffixOf s.toList

end AgentFlow.Text

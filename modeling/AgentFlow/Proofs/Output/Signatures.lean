import AgentFlow.Proofs.Output.Exchange

/-!
# Functions of generated files

A generated file defines functions outside of its classes, each with a header at the start of a
line.  This file reads the headers back: the name of a function, and the text between the brackets
after it.

* `signature?`: what a line states if it is the header of a function.
* `signatures`: the functions of a file, in order.
* `signature?_header`: **a header that is written is read back.**
* `signatures_parts`: **the functions of a file that is written part by part.**
-/

namespace AgentFlow

open Text Output

structure Signature where
  name : String
  parameters : String
  deriving DecidableEq

/-- The part of a line after the word that starts the header of a function. -/
def afterDef? (line : String) : Option String :=
  match afterHead? "def " line with
  | some rest => some rest
  | none => afterHead? "async def " line

/-- The function whose header the line is: its name stands before the first round bracket, and its
parameters before the next closing one. -/
def signature? (line : String) : Option Signature :=
  (afterDef? line).map fun rest =>
    ⟨String.ofList (rest.toList.takeWhile (· != '(')),
      String.ofList (((rest.toList.dropWhile (· != '(')).drop 1).takeWhile (· != ')'))⟩

def signaturesOf (ls : List String) : List Signature := ls.filterMap signature?

/-- The functions of a file that start at the start of a line. -/
def signatures (file : String) : List Signature := signaturesOf (lines file)

/-! ### One line -/

variable {name parameters line : String}

theorem afterHead?_append {head : String} {cs : List Char} (h : line.toList = head.toList ++ cs) :
    afterHead? head line = some (String.ofList cs) := by
  rw [afterHead?, if_pos (by rw [h]; simp), h, ← String.length_toList, List.drop_left]

/-- A line without the head has nothing after it. -/
theorem afterHead?_eq_none {head : String} (h : ¬ head.toList <+: line.toList) :
    afterHead? head line = none := by
  rw [afterHead?, if_neg]
  rwa [List.isPrefixOf_iff_prefix]

/-- A name and parameters are read up to the brackets around the parameters. -/
theorem signature?_of_after {cs rest : List Char}
    (hafter : afterDef? line = some (String.ofList cs))
    (h : cs = name.toList ++ '(' :: (parameters.toList ++ ')' :: rest))
    (hname : '(' ∉ name.toList) (hparameters : ')' ∉ parameters.toList) :
    signature? line = some ⟨name, parameters⟩ := by
  have hopen : ∀ c ∈ name.toList, (c != '(') = true := fun c hc =>
    bne_iff_ne.mpr (ne_of_mem_of_not_mem hc hname)
  have hclose : ∀ c ∈ parameters.toList, (c != ')') = true := fun c hc =>
    bne_iff_ne.mpr (ne_of_mem_of_not_mem hc hparameters)
  rw [signature?, hafter, Option.map_some, String.toList_ofList, h,
    List.takeWhile_append_of_pos hopen, List.dropWhile_append_of_pos hopen,
    List.takeWhile_cons_of_neg (by decide), List.dropWhile_cons_of_neg (by decide),
    List.drop_one, List.tail_cons, List.takeWhile_append_of_pos hclose,
    List.takeWhile_cons_of_neg (by decide), List.append_nil, List.append_nil,
    String.ofList_toList, String.ofList_toList]

/-- **The header of a function is read back.** -/
theorem signature?_header (rest : List Char) (hname : '(' ∉ name.toList)
    (hparameters : ')' ∉ parameters.toList)
    (h : line.toList =
      "def ".toList ++ (name.toList ++ '(' :: (parameters.toList ++ ')' :: rest))) :
    signature? line = some ⟨name, parameters⟩ :=
  signature?_of_after (by rw [afterDef?, afterHead?_append h]) rfl hname hparameters

/-- **The header of an asynchronous function is read back.** -/
theorem signature?_asyncHeader (rest : List Char) (hname : '(' ∉ name.toList)
    (hparameters : ')' ∉ parameters.toList)
    (h : line.toList =
      "async def ".toList ++ (name.toList ++ '(' :: (parameters.toList ++ ')' :: rest))) :
    signature? line = some ⟨name, parameters⟩ := by
  have hother : afterHead? "def " line = none := by
    refine afterHead?_eq_none fun hprefix => ?_
    rw [h] at hprefix
    simp at hprefix
  exact signature?_of_after (by rw [afterDef?, hother, afterHead?_append h]) rfl hname hparameters

/-- A line that starts with another character has nothing after the head. -/
theorem afterHead?_of_first {head : String} {c : Char} (hhead : head.toList.head? = some c)
    (h : line.toList.head? ≠ some c) : afterHead? head line = none := by
  refine afterHead?_eq_none ?_
  rintro ⟨more, hmore⟩
  refine h ?_
  rw [← hmore, List.head?_append, hhead]
  rfl

/-- A line that starts with another character is no header. -/
theorem signature?_eq_none (h : ∀ c ∈ line.toList.head?, c ≠ 'd' ∧ c ≠ 'a') :
    signature? line = none := by
  have hdef : afterHead? "def " line = none :=
    afterHead?_of_first rfl fun hd => (h 'd' hd).1 rfl
  have hasync : afterHead? "async def " line = none :=
    afterHead?_of_first rfl fun ha => (h 'a' ha).2 rfl
  rw [signature?, afterDef?, hdef]
  simp only
  rw [hasync]
  rfl

/-! ### Lines after each other -/

theorem signaturesOf_append (ls ms : List String) :
    signaturesOf (ls ++ ms) = signaturesOf ls ++ signaturesOf ms :=
  List.filterMap_append

theorem signaturesOf_cons_some {l : String} {s : Signature} (h : signature? l = some s)
    (ls : List String) : signaturesOf (l :: ls) = s :: signaturesOf ls :=
  List.filterMap_cons_some h

/-- Lines of which none is a header define nothing. -/
theorem signaturesOf_eq_nil {ls : List String}
    (h : ∀ l ∈ ls, ∀ c ∈ l.toList.head?, c ≠ 'd' ∧ c ≠ 'a') : signaturesOf ls = [] := by
  refine List.filterMap_eq_nil_iff.mpr fun l hl => ?_
  exact signature?_eq_none (h l hl)

/-- **A file of parts with two blank lines before each defines what they define.** -/
theorem signatures_parts {α : Type} {head : List String} {f : α → List String}
    {g : α → List Signature} {xs : List α} (hhead : ∀ l ∈ head, OneLine l)
    (h : ∀ x ∈ xs, (∀ l ∈ f x, OneLine l) ∧ signaturesOf (f x) = g x) :
    signatures (unlines (head ++ xs.flatMap fun x => ["", ""] ++ f x)) =
      signaturesOf head ++ xs.flatMap g :=
  filterMap_lines_parts (signature?_eq_none (by decide)) hhead h

end AgentFlow

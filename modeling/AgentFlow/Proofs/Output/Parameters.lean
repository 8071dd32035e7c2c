import AgentFlow.Output.Utility
import AgentFlow.Proofs.Output.Signatures
import AgentFlow.Proofs.Text.Trim

/-!
# The parameters of generated utilities

The parameters of a utility are written as a list with commas, each with its type as it is stated.
A type may hold commas of its own in square brackets.  This file reads the list back, cut at the
commas outside square brackets, and says when the items are the stated parameters.

* `outerPieces`, `listItems`: a list cut at the commas outside square brackets.
* `HasOuterComma`: a comma before which as many brackets are closed as opened.
* `outerPieces_eq_singleton_iff`: **a type is one piece exactly if it has no such comma.**
* `listItems_commas`: the items of a list are those of its parts.
* `parameters_readBack_iff`: a utility has the stated parameters exactly if no type has an outer
  comma, and more of them otherwise.
-/

namespace AgentFlow

open Text Output

/-! ### Items of lists -/

/-- How many square brackets are open after the character, with `depth` of them open before it. -/
def depthAfter (depth : Nat) (c : Char) : Nat :=
  if c = '[' then depth + 1 else if c = ']' then depth - 1 else depth

/-- The pieces between the commas outside square brackets, with `depth` brackets open before. -/
def outerPieces (depth : Nat) : List Char → List (List Char)
  | [] => [[]]
  | c :: rest =>
    if c = ',' ∧ depth = 0 then [] :: outerPieces 0 rest
    else (outerPieces (depthAfter depth c) rest).modifyHead (c :: ·)

/-- The pieces of a text between the commas outside square brackets, without blanks before them. -/
def outerItems (s : String) : List String :=
  (outerPieces 0 s.toList).map fun piece => trimStart (String.ofList piece)

def listItems (s : String) : List String := if s.isEmpty then [] else outerItems s

/-- The text has a comma before which as many square brackets are closed as are opened. -/
def HasOuterComma (s : String) : Prop :=
  ∃ before after, s.toList = before ++ ',' :: after ∧ before.count '[' = before.count ']'

example : listItems "query: str, limit, options: dict[str, int]" =
    ["query: str", "limit", "options: dict[str, int]"] := by decide

variable {cs as bs : List Char} {c : Char} {d : Nat}

theorem outerPieces_ne_nil (d : Nat) (cs : List Char) : outerPieces d cs ≠ [] := by
  induction cs generalizing d with
  | nil => exact List.cons_ne_nil _ _
  | cons c rest ih =>
    rw [outerPieces]
    split
    · exact List.cons_ne_nil _ _
    · obtain ⟨piece, more, hpieces⟩ := List.exists_cons_of_ne_nil (ih (depthAfter d c))
      rw [hpieces]
      exact List.cons_ne_nil _ _

/-- What is before a comma outside square brackets is cut by itself. -/
theorem outerPieces_append_comma (h : as.foldl depthAfter d = 0) (bs : List Char) :
    outerPieces d (as ++ ',' :: bs) = outerPieces d as ++ outerPieces 0 bs := by
  induction as generalizing d with
  | nil =>
    obtain rfl : d = 0 := h
    rfl
  | cons a as ih =>
    rw [List.foldl_cons] at h
    rw [List.cons_append, outerPieces, outerPieces]
    by_cases ha : a = ',' ∧ d = 0
    · obtain ⟨rfl, rfl⟩ := ha
      rw [if_pos ⟨rfl, rfl⟩, if_pos ⟨rfl, rfl⟩, ih (d := 0) h, List.cons_append]
    · rw [if_neg ha, if_neg ha, ih h, modifyHead_append (outerPieces_ne_nil _ as)]

/-- Characters that are neither commas nor square brackets belong to the first piece after them. -/
theorem outerPieces_append_plain (h : ∀ c ∈ as, c ≠ ',' ∧ c ≠ '[' ∧ c ≠ ']') (bs : List Char) :
    outerPieces d (as ++ bs) = (outerPieces d bs).modifyHead (as ++ ·) := by
  induction as with
  | nil =>
    obtain ⟨piece, more, hpieces⟩ := List.exists_cons_of_ne_nil (outerPieces_ne_nil d bs)
    rw [List.nil_append, hpieces]
    rfl
  | cons a as ih =>
    rw [List.forall_mem_cons] at h
    obtain ⟨⟨hcomma, hopen, hclose⟩, has⟩ := h
    have hdepth : depthAfter d a = d := by rw [depthAfter, if_neg hopen, if_neg hclose]
    rw [List.cons_append, outerPieces, if_neg fun hand => hcomma hand.1, hdepth, ih has,
      List.modifyHead_modifyHead]
    rfl

theorem foldl_depthAfter_plain (h : ∀ c ∈ as, c ≠ ',' ∧ c ≠ '[' ∧ c ≠ ']') :
    as.foldl depthAfter d = d := by
  induction as with
  | nil => rfl
  | cons a as ih =>
    rw [List.forall_mem_cons] at h
    rw [List.foldl_cons, depthAfter, if_neg h.1.2.1, if_neg h.1.2.2, ih h.2]

/-- A text is one piece, or there are more. -/
theorem outerPieces_cases (d : Nat) (cs : List Char) :
    outerPieces d cs = [cs] ∨ 1 < (outerPieces d cs).length := by
  induction cs generalizing d with
  | nil => exact .inl rfl
  | cons c rest ih =>
    rw [outerPieces]
    split
    · have hpos := List.length_pos_iff.mpr (outerPieces_ne_nil 0 rest)
      exact .inr (by rw [List.length_cons]; omega)
    · rcases ih (depthAfter d c) with hone | hmore
      · exact .inl (by rw [hone]; rfl)
      · exact .inr (by rwa [List.length_modifyHead])

/-! ### Types -/

def IsTypeChar (c : Char) : Prop := isNameChar c = true ∨ c ∈ ['[', ']', '.', ',', ' ', '|']

/-- A text whose brackets match starts with a character of types, and the brackets match after
it. -/
theorem typeBracketsMatch_cons (h : typeBracketsMatch d (c :: cs) = true) :
    IsTypeChar c ∧ (c = ']' → 0 < d) ∧ typeBracketsMatch (depthAfter d c) cs = true := by
  rw [typeBracketsMatch.eq_def] at h
  simp only at h
  by_cases hopen : c = '['
  · rw [if_pos (beq_iff_eq.mpr hopen)] at h
    subst hopen
    exact ⟨.inr (by decide), nofun, h⟩
  · rw [if_neg (by simpa using hopen)] at h
    by_cases hclose : c = ']'
    · rw [if_pos (beq_iff_eq.mpr hclose)] at h
      subst hclose
      cases d with
      | zero => exact Bool.noConfusion h
      | succ d => exact ⟨.inr (by decide), fun _ => Nat.succ_pos d, h⟩
    · rw [if_neg (by simpa using hclose), Bool.and_eq_true, Bool.or_eq_true] at h
      refine ⟨h.1.imp_right fun hmem => ?_, fun he => absurd he hclose, ?_⟩
      · exact List.mem_cons_of_mem _ (List.mem_cons_of_mem _ (by simpa using hmem))
      · rw [depthAfter, if_neg hopen, if_neg hclose]
        exact h.2

theorem isTypeChar_of_typeBracketsMatch (h : typeBracketsMatch d cs = true) :
    ∀ c ∈ cs, IsTypeChar c := by
  induction cs generalizing d with
  | nil => exact fun c hc => absurd hc List.not_mem_nil
  | cons c cs ih =>
    obtain ⟨hchar, -, hrest⟩ := typeBracketsMatch_cons h
    exact List.forall_mem_cons.mpr ⟨hchar, ih hrest⟩

/-- After a type no bracket is open. -/
theorem foldl_depthAfter_of_typeBracketsMatch (h : typeBracketsMatch d cs = true) :
    cs.foldl depthAfter d = 0 := by
  induction cs generalizing d with
  | nil => simpa [typeBracketsMatch] using h
  | cons c cs ih => exact ih (typeBracketsMatch_cons h).2.2

/-- The brackets that are open after one more character are those that are counted with it. -/
theorem count_cons_iff (hclose : c = ']' → 0 < d) (before : List Char) :
    (c :: before).count '[' + d = (c :: before).count ']' ↔
      before.count '[' + depthAfter d c = before.count ']' := by
  rw [depthAfter, List.count_cons, List.count_cons]
  by_cases hopened : c = '['
  · subst hopened
    simp
    omega
  · by_cases hclosed : c = ']'
    · have hpos := hclose hclosed
      subst hclosed
      simp
      omega
    · simp [hopened, hclosed]

/-- **A type is one piece exactly if no comma stands where all brackets are closed.** -/
theorem outerPieces_eq_singleton_iff (h : typeBracketsMatch d cs = true) :
    outerPieces d cs = [cs] ↔
      ∀ before after, cs = before ++ ',' :: after → before.count '[' + d ≠ before.count ']' := by
  induction cs generalizing d with
  | nil => exact iff_of_true rfl fun before after he => by simp at he
  | cons c rest ih =>
    obtain ⟨-, hclose, hrest⟩ := typeBracketsMatch_cons h
    rw [outerPieces]
    by_cases hcomma : c = ',' ∧ d = 0
    · -- The comma is an outer one, and it starts another piece.
      rw [if_pos hcomma]
      refine iff_of_false (by simp) fun hall => ?_
      exact hall [] rest (by rw [hcomma.1]; rfl) (by simp [hcomma.2])
    · have hone : (outerPieces (depthAfter d c) rest).modifyHead (c :: ·) = [c :: rest] ↔
          outerPieces (depthAfter d c) rest = [rest] := by
        cases outerPieces (depthAfter d c) rest <;> simp
      rw [if_neg hcomma, hone, ih hrest]
      constructor
      · intro hall before after he
        cases before with
        | nil =>
          obtain ⟨rfl, -⟩ := List.cons.inj he
          intro hd
          exact hcomma ⟨rfl, by simpa using hd⟩
        | cons b before =>
          obtain ⟨rfl, hbefore⟩ := List.cons.inj he
          intro hcount
          exact hall before after hbefore ((count_cons_iff hclose before).mp hcount)
      · intro hall before after he hcount
        exact hall (c :: before) after (by rw [he]; rfl) ((count_cons_iff hclose before).mpr hcount)

/-! ### Items of a written list -/

/-- All brackets that the text opens are closed in it. -/
def Closed (s : String) : Prop := s.toList.foldl depthAfter 0 = 0

/-- The text of a list is cut at the commas between its parts, and each part by itself. -/
theorem outerPieces_commas {s : String} {ss : List String} (h : ∀ t ∈ s :: ss, Closed t) :
    outerPieces 0 (commas (s :: ss)).toList = outerPieces 0 s.toList ++
      ss.flatMap fun t => (outerPieces 0 t.toList).modifyHead (' ' :: ·) := by
  induction ss generalizing s with
  | nil => simp [commas]
  | cons t ss ih =>
    rw [List.forall_mem_cons] at h
    have hblank : ∀ c ∈ [' '], c ≠ ',' ∧ c ≠ '[' ∧ c ≠ ']' := by decide
    have htext : (commas (s :: t :: ss)).toList =
        s.toList ++ ',' :: ([' '] ++ (commas (t :: ss)).toList) := by
      simp [commas, String.intercalate_cons_cons]
    rw [htext, outerPieces_append_comma h.1, outerPieces_append_plain hblank, ih h.2,
      modifyHead_append (outerPieces_ne_nil 0 _), List.flatMap_cons]
    rfl

theorem trimStart_blank (cs : List Char) :
    trimStart (String.ofList (' ' :: cs)) = trimStart (String.ofList cs) := by
  have hblank : ∀ c ∈ [' '], isBlank c = true := by decide
  rw [trimStart, trimStart, String.toList_ofList, String.toList_ofList]
  exact congrArg String.ofList (dropBlank_append hblank)

/-- **The items of a list are those of its parts.** -/
theorem listItems_commas {ss : List String} (h : ∀ s ∈ ss, Closed s ∧ s ≠ "") :
    listItems (commas ss) = ss.flatMap outerItems := by
  cases ss with
  | nil => rfl
  | cons s ss =>
    have hclosed : ∀ t ∈ s :: ss, Closed t := fun t ht => (h t ht).1
    have hne : (commas (s :: ss)).isEmpty = false := by
      obtain ⟨c, cs, hs⟩ := List.exists_cons_of_ne_nil fun hnil =>
        (h s List.mem_cons_self).2 (String.toList_eq_nil_iff.mp hnil)
      have hmem : c ∈ (commas (s :: ss)).toList :=
        mem_intercalate_of_mem List.mem_cons_self (hs ▸ List.mem_cons_self)
      rw [← Bool.not_eq_true, String.isEmpty_iff]
      intro hempty
      rw [hempty] at hmem
      exact List.not_mem_nil hmem
    rw [listItems, hne, if_neg Bool.false_ne_true, outerItems, outerPieces_commas hclosed,
      List.map_append, List.flatMap_cons, List.map_flatMap]
    refine congrArg (outerItems s ++ ·) (congrArg (List.flatMap · ss) (funext fun t => ?_))
    rw [outerItems]
    cases outerPieces 0 t.toList with
    | nil => rfl
    | cons piece more => exact congrArg (· :: _) (trimStart_blank piece)

/-! ### Parameters -/

variable {p : ParamSpec} {u : UtilitySpec} {w : WorkflowSpec}

theorem plain_of_isNameChar (h : isNameChar c = true) : c ≠ ',' ∧ c ≠ '[' ∧ c ≠ ']' :=
  ⟨ne_of_isNameChar h (by decide), ne_of_isNameChar h (by decide), ne_of_isNameChar h (by decide)⟩

theorem IsTypeChar.ne (h : IsTypeChar c) : c ≠ ')' ∧ c ≠ '\n' ∧ c ≠ '\r' := by
  rcases h with h | h
  · exact ⟨ne_of_isNameChar h (by decide), ne_of_isNameChar h (by decide),
      ne_of_isNameChar h (by decide)⟩
  · revert h
    revert c
    decide

theorem isTypeChar_of_isTypeText {s : String} (h : isTypeText s = true) :
    ∀ c ∈ s.toList, IsTypeChar c := by
  rw [isTypeText, Bool.and_eq_true] at h
  exact isTypeChar_of_typeBracketsMatch h.1

theorem oneLine_of_isTypeText {s : String} (h : isTypeText s = true) : OneLine s :=
  oneLine_iff.mpr fun c hc => (isTypeChar_of_isTypeText h c hc).ne.2

def ParamSpec.item (p : ParamSpec) : String := p.name ++ ": " ++ p.type

theorem ParamSpec.toList_item (p : ParamSpec) :
    p.item.toList = (p.name.toList ++ ": ".toList) ++ p.type.toList := by simp [item]

theorem ParamSpec.item_ne_empty (p : ParamSpec) : p.item ≠ "" := by
  intro hempty
  have hnil := congrArg String.toList hempty
  rw [p.toList_item] at hnil
  simp at hnil

namespace ParamSpec.Valid

variable (h : p.Valid)

include h

theorem nameChar : ∀ c ∈ p.name.toList, isNameChar c = true :=
  (nameChar_of_isFunctionName h.name).2

/-- No comma and no bracket stands before the type of a parameter. -/
theorem plain_head : ∀ c ∈ p.name.toList ++ ": ".toList, c ≠ ',' ∧ c ≠ '[' ∧ c ≠ ']' :=
  List.forall_mem_append.mpr ⟨fun c hc => plain_of_isNameChar (h.nameChar c hc), by decide⟩

theorem brackets : typeBracketsMatch 0 p.type.toList = true := by
  have htype := h.type
  rw [isTypeText, Bool.and_eq_true] at htype
  exact htype.1

theorem closed : Closed p.item := by
  rw [Closed, p.toList_item, List.foldl_append, foldl_depthAfter_plain h.plain_head]
  exact foldl_depthAfter_of_typeBracketsMatch h.brackets

/-- A parameter is one item exactly if its type has no outer comma, and else there are more. -/
theorem outerItems_iff : (outerItems p.item = [p.item] ↔ ¬ HasOuterComma p.type) ∧
    (outerItems p.item = [p.item] ∨ 1 < (outerItems p.item).length) := by
  have hpieces : outerPieces 0 p.item.toList =
      (outerPieces 0 p.type.toList).modifyHead (p.name.toList ++ ": ".toList ++ ·) := by
    rw [p.toList_item, outerPieces_append_plain h.plain_head]
  have hself : trimStart (String.ofList p.item.toList) = p.item := by
    obtain ⟨c, cs, hname⟩ := List.exists_cons_of_ne_nil (nameChar_of_isFunctionName h.name).1
    have hhead : ∀ d ∈ p.item.toList.head?, isBlank d = false := by
      rw [p.toList_item, hname]
      rintro d ⟨⟩
      exact not_isBlank_of_isNameChar (h.nameChar c (hname ▸ List.mem_cons_self))
    rw [String.ofList_toList, trimStart, dropBlank_of_head hhead, String.ofList_toList]
  have hcomma : outerPieces 0 p.type.toList = [p.type.toList] ↔ ¬ HasOuterComma p.type := by
    rw [outerPieces_eq_singleton_iff h.brackets]
    constructor
    · rintro hall ⟨before, after, he, hcount⟩
      exact hall before after he hcount
    · intro hnone before after he hcount
      exact hnone ⟨before, after, he, hcount⟩
  rw [← hcomma, outerItems, hpieces]
  rcases outerPieces_cases 0 p.type.toList with hone | hmore
  · have hitem : [p.item.toList].map (fun piece => trimStart (String.ofList piece)) = [p.item] :=
      congrArg ([·]) hself
    rw [hone, List.modifyHead_cons, ← p.toList_item, hitem]
    exact ⟨iff_of_true rfl rfl, .inl rfl⟩
  · rw [List.length_map, List.length_modifyHead]
    refine ⟨iff_of_false (fun he => ?_) (fun he => ?_), .inr hmore⟩
    · have hlength := congrArg List.length he
      rw [List.length_map, List.length_modifyHead, List.length_singleton] at hlength
      omega
    · rw [he] at hmore
      exact absurd hmore (by simp)

end ParamSpec.Valid

/-! ### The file of a utility -/

theorem oneLine_sampleValue (type : String) : OneLine (sampleValue type) := by
  unfold sampleValue
  split <;> decide

/-- The lines before the header of the function. -/
def UtilitySpec.fileHead (u : UtilitySpec) : List String :=
  [docString (docText u.summary), "", "from typing import Any", "", ""]

def UtilitySpec.defLine (u : UtilitySpec) : String :=
  "def " ++ u.name ++ "(" ++ commas u.parameterItems ++ ") -> " ++ u.returnType ++ ":"

/-- The lines after the header of the function. -/
def UtilitySpec.fileTail (u : UtilitySpec) : List String :=
  ["    " ++ docString (docText u.summary),
    "    raise NotImplementedError(" ++ quoted (u.name ++ " is not implemented yet") ++ ")", "", "",
    "if __name__ == \"__main__\":",
    "    print(" ++ u.name ++ "(" ++ commas (u.parameters.map fun p => sampleValue p.type) ++ "))"]

theorem UtilitySpec.file_eq (u : UtilitySpec) :
    u.file = unlines (u.fileHead ++ u.defLine :: u.fileTail) := rfl

namespace UtilitySpec.Valid

variable (h : u.Valid)

include h

theorem oneLine_parameters : OneLine (commas u.parameterItems) := by
  refine oneLine_intercalate (by decide) fun l hl => ?_
  obtain ⟨p, hp, rfl⟩ := List.mem_map.mp hl
  have hname : OneLine p.name := oneLine_of_isFunctionName (h.parameters p hp).name
  simp only [oneLine_append, hname, oneLine_of_isTypeText (h.parameters p hp).type, and_true,
    true_and]
  decide

theorem not_mem_parameters : ')' ∉ (commas u.parameterItems).toList := by
  intro hmem
  rcases mem_of_mem_intercalate hmem with hc | ⟨l, hl, hc⟩
  · exact absurd hc (by decide)
  · obtain ⟨p, hp, rfl⟩ := List.mem_map.mp hl
    rw [String.toList_append, String.toList_append, List.mem_append, List.mem_append] at hc
    rcases hc with (hc | hc) | hc
    · exact ne_of_isNameChar ((h.parameters p hp).nameChar _ hc) (by decide) rfl
    · exact absurd hc (by decide)
    · exact (isTypeChar_of_isTypeText (h.parameters p hp).type _ hc).ne.1 rfl

theorem signature?_defLine :
    signature? u.defLine = some ⟨u.name, commas u.parameterItems⟩ := by
  have hname := (nameChar_of_isFunctionName h.name).2
  exact signature?_header (" -> ".toList ++ (u.returnType.toList ++ [':']))
    (fun hc => ne_of_isNameChar (hname _ hc) (by decide) rfl) h.not_mem_parameters
    (by simp [defLine])

theorem oneLine_fileLines : ∀ l ∈ u.fileHead ++ u.defLine :: u.fileTail, OneLine l := by
  have hname := oneLine_of_isFunctionName h.name
  have hsamples : OneLine (commas (u.parameters.map fun p => sampleValue p.type)) := by
    refine oneLine_intercalate (by decide) fun l hl => ?_
    obtain ⟨p, -, rfl⟩ := List.mem_map.mp hl
    exact oneLine_sampleValue p.type
  simp only [fileHead, defLine, fileTail, docString, List.forall_mem_append, List.forall_mem_cons,
    List.not_mem_nil, false_imp_iff, implies_true, oneLine_append, oneLine_docText, hname,
    h.oneLine_parameters, oneLine_of_isTypeText h.returnType, hsamples, oneLine_quotedText,
    and_true, and_assoc]
  repeat refine ⟨oneLine_ofList (by decide), ?_⟩
  exact oneLine_ofList (by decide)

/-- The header in the file of a utility is its only one. -/
theorem signatures_file : signatures u.file = [⟨u.name, commas u.parameterItems⟩] := by
  have hhead : ∀ l ∈ u.fileHead, ∀ c ∈ l.toList.head?, c ≠ 'd' ∧ c ≠ 'a' := by
    simp [fileHead, docString]
  have htail : ∀ l ∈ u.fileTail, ∀ c ∈ l.toList.head?, c ≠ 'd' ∧ c ≠ 'a' := by simp [fileTail]
  rw [signatures, u.file_eq, lines_unlines h.oneLine_fileLines, signaturesOf_append,
    signaturesOf_eq_nil hhead, List.nil_append, signaturesOf_cons_some h.signature?_defLine,
    signaturesOf_eq_nil htail]

end UtilitySpec.Valid

namespace WorkflowSpec

/-- **A generated utility has exactly the stated parameters, each with its type, unless a type has a
comma outside square brackets; with such a comma it has more.** -/
theorem parameters_readBack_iff (h : w.validate = .ok ()) (hu : u ∈ w.utilities) :
    ∃ s, signatures u.file = [s] ∧ s.name = u.name ∧
      (listItems s.parameters = u.parameters.map (fun p => p.name ++ ": " ++ p.type) ↔
        ∀ p ∈ u.parameters, ¬ HasOuterComma p.type) ∧
      ((∃ p ∈ u.parameters, HasOuterComma p.type) →
        u.parameters.length < (listItems s.parameters).length) := by
  have hvalid := (validate_eq_ok_iff.mp h).utilities u hu
  have hitems : listItems (commas u.parameterItems) =
      u.parameters.flatMap fun p => outerItems p.item := by
    have hmap : u.parameterItems = u.parameters.map ParamSpec.item := rfl
    have hall : ∀ s ∈ u.parameters.map ParamSpec.item, Closed s ∧ s ≠ "" := by
      intro s hs
      obtain ⟨p, hp, rfl⟩ := List.mem_map.mp hs
      exact ⟨(hvalid.parameters p hp).closed, ParamSpec.item_ne_empty p⟩
    rw [hmap, listItems_commas hall, List.flatMap_map]
  obtain ⟨-, heq, hmore⟩ := flatMap_eq_map_iff (f := fun p => outerItems p.item)
    (g := ParamSpec.item) fun p hp => (hvalid.parameters p hp).outerItems_iff.2
  refine ⟨_, hvalid.signatures_file, rfl, ?_, ?_⟩
  · rw [hitems]
    refine heq.trans ?_
    exact forall₂_congr fun p hp => (hvalid.parameters p hp).outerItems_iff.1
  · rintro ⟨p, hp, hcomma⟩
    rw [hitems]
    exact hmore ⟨p, hp, fun he => (hvalid.parameters p hp).outerItems_iff.1.mp he hcomma⟩

/-- A search whose first type has an outer comma, and whose second one has an inner comma. -/
def search : UtilitySpec :=
  ⟨"search", "Searches", [⟨"query", "str, limit"⟩, ⟨"options", "dict[str, list[int]] | None"⟩],
    "list[str]"⟩

/-- The review loop with the search. -/
def searchDesk : WorkflowSpec := { reviewLoop with utilities := [search] }

theorem parameters_readBack_search :
    searchDesk.validate = .ok () ∧ ∃ s, signatures search.file = [s] ∧ s.name = search.name ∧
      listItems s.parameters ≠ search.parameters.map (fun p => p.name ++ ": " ++ p.type) ∧
        search.parameters.length < (listItems s.parameters).length := by
  have hvalid : searchDesk.validate = .ok () := rfl
  have hquery : (⟨"query", "str, limit"⟩ : ParamSpec) ∈ search.parameters := List.mem_cons_self
  have hcomma : HasOuterComma "str, limit" := ⟨"str".toList, " limit".toList, rfl, rfl⟩
  obtain ⟨s, hs, hname, hiff, hmore⟩ :=
    parameters_readBack_iff (u := search) hvalid List.mem_cons_self
  exact ⟨hvalid, s, hs, hname, fun hitems => hiff.mp hitems _ hquery hcomma,
    hmore ⟨_, hquery, hcomma⟩⟩

end WorkflowSpec

end AgentFlow

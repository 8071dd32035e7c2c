import AgentFlow.Output.Tests
import AgentFlow.Proofs.Output.Signatures
import Mathlib.Data.List.Nodup

/-!
# The keys of results

A node stores its result under a key that is made of its name: the words of the name in lower case,
with underscores between them.  The names of nodes are distinct, but words do not tell names apart,
since their letters may differ in case and an underscore may stand for a capital letter.  This file
says which names share a key.

* `nameWords`: the words of a name, which start at capital letters or after underscores.
* `snakeCase_eq_iff`: **two names are written alike exactly if their words are, up to case.**
* `Valid.nodup_resultKeys`: names in plain camel case keep their results apart.
* `signatures_nodeTestsFile`: the functions in the file of tests, two for each node.
* `resultKeys_distinct_iff`: the keys of results, the stored keys and the tests are distinct exactly
  if no two names have the same words.
-/

namespace AgentFlow

open Text Output

/-! ### Words of names -/

/-- A word starts at the capital letter `c` between two others: after a small letter or a digit, or
after another capital letter if a small letter follows. -/
def WordStarts (before c : Char) (after : Option Char) : Prop :=
  c.isUpper = true ∧ (before.isLower = true ∨ before.isDigit = true ∨
    (before.isUpper = true ∧ ∃ d ∈ after, d.isLower = true))

instance (before c : Char) (after : Option Char) : Decidable (WordStarts before c after) :=
  inferInstanceAs (Decidable (_ ∧ _))

def nameWords : List Char → List (List Char)
  | [] => [[]]
  | [c] => if c = '_' then [[], []] else [[c]]
  | c :: d :: rest =>
    if c = '_' then [] :: nameWords (d :: rest)
    else if WordStarts c d rest.head? then [c] :: nameWords (d :: rest)
    else (nameWords (d :: rest)).modifyHead (c :: ·)

example : nameWords "HTTPClient_v2Api".toList =
    ["HTTP".toList, "Client".toList, "v2".toList, "Api".toList] := by decide

/-- The words of two names are the same, up to the case of their letters. -/
def SameWords (s t : String) : Prop :=
  (nameWords s.toList).map (·.map Char.toLower) = (nameWords t.toList).map (·.map Char.toLower)

instance (s t : String) : Decidable (SameWords s t) := inferInstanceAs (Decidable (_ = _))

theorem nameWords_ne_nil (cs : List Char) : nameWords cs ≠ [] := by
  cases cs with
  | nil => exact List.cons_ne_nil _ _
  | cons c cs =>
    induction cs generalizing c with
    | nil =>
      rw [nameWords]
      split <;> exact List.cons_ne_nil _ _
    | cons d rest ih =>
      rw [nameWords]
      split
      · exact List.cons_ne_nil _ _
      · split
        · exact List.cons_ne_nil _ _
        · obtain ⟨word, more, hwords⟩ := List.exists_cons_of_ne_nil (ih d)
          rw [hwords]
          exact List.cons_ne_nil _ _

/-- No word has an underscore. -/
theorem not_mem_of_mem_nameWords {cs : List Char} : ∀ word ∈ nameWords cs, '_' ∉ word := by
  cases cs with
  | nil => decide
  | cons c cs =>
    induction cs generalizing c with
    | nil =>
      rw [nameWords]
      split
      · decide
      · next hc => simpa using Ne.symm hc
    | cons d rest ih =>
      rw [nameWords]
      split
      · exact List.forall_mem_cons.mpr ⟨List.not_mem_nil, ih d⟩
      · next hc =>
        split
        · exact List.forall_mem_cons.mpr ⟨by simpa using Ne.symm hc, ih d⟩
        · obtain ⟨word, more, hwords⟩ := List.exists_cons_of_ne_nil (nameWords_ne_nil (d :: rest))
          have hih := ih d
          rw [hwords, List.forall_mem_cons] at hih
          rw [hwords, List.modifyHead_cons, List.forall_mem_cons, List.mem_cons, not_or]
          exact ⟨⟨Ne.symm hc, hih.1⟩, hih.2⟩

/-! ### Names in lower case -/

theorem startsWord_iff {c d : Char} {rest : List Char} :
    (d.isUpper && startsWord (some c) rest) = true ↔ WordStarts c d rest.head? := by
  have hnext : (rest.head?.map Char.isLower).getD false = true ↔
      ∃ e ∈ rest.head?, e.isLower = true := by
    cases rest with
    | nil => simp
    | cons e rest => simp
  rw [startsWord, WordStarts, Bool.and_eq_true, Bool.or_eq_true, Bool.or_eq_true, Bool.and_eq_true,
    hnext, or_assoc]

theorem intercalate_modifyHead {α : Type} {sep : List α} {words : List (List α)} (h : words ≠ [])
    (c : α) : sep.intercalate (words.modifyHead (c :: ·)) = c :: sep.intercalate words := by
  cases words with
  | nil => exact absurd rfl h
  | cons word more =>
    cases more <;> simp [List.intercalate]

/-- The characters of a name are written as its words. -/
theorem cons_snakeFrom (c : Char) (cs : List Char) : c.toLower :: snakeFrom (some c) cs =
    ['_'].intercalate ((nameWords (c :: cs)).map (·.map Char.toLower)) := by
  induction cs generalizing c with
  | nil =>
    rw [nameWords, snakeFrom]
    split
    · next hc =>
      subst hc
      rfl
    · rfl
  | cons d rest ih =>
    have hne : (nameWords (d :: rest)).map (·.map Char.toLower) ≠ [] :=
      fun h => nameWords_ne_nil _ (List.map_eq_nil_iff.mp h)
    rw [nameWords, snakeFrom, ih d]
    by_cases hc : c = '_'
    · -- No word starts after an underscore, since it is neither a letter nor a digit.
      subst hc
      have hstart : ¬ WordStarts '_' d rest.head? := by
        rintro ⟨-, h | h | ⟨h, -⟩⟩ <;> exact absurd h (by decide)
      rw [if_neg (mt startsWord_iff.mp hstart), if_pos rfl, List.map_cons,
        List.intercalate_cons_of_ne_nil hne]
      rfl
    · rw [if_neg hc]
      by_cases hstart : WordStarts c d rest.head?
      · rw [if_pos (startsWord_iff.mpr hstart), if_pos hstart, List.map_cons,
          List.intercalate_cons_of_ne_nil hne]
        rfl
      · rw [if_neg (mt startsWord_iff.mp hstart), if_neg hstart]
        have hmap : ((nameWords (d :: rest)).modifyHead (c :: ·)).map (·.map Char.toLower) =
            ((nameWords (d :: rest)).map (·.map Char.toLower)).modifyHead (c.toLower :: ·) := by
          cases nameWords (d :: rest) <;> rfl
        rw [hmap, intercalate_modifyHead hne]

theorem toList_snakeCase (s : String) : (snakeCase s).toList =
    ['_'].intercalate ((nameWords s.toList).map (·.map Char.toLower)) := by
  rw [snakeCase, String.toList_ofList]
  cases s.toList with
  | nil => rfl
  | cons c cs =>
    have hfirst : snakeFrom none (c :: cs) = c.toLower :: snakeFrom (some c) cs := by
      rw [snakeFrom, startsWord, Bool.and_false, if_neg Bool.false_ne_true]
    rw [hfirst, cons_snakeFrom]

/-- **Two names are written alike exactly if their words are the same, up to case.** -/
theorem snakeCase_eq_iff {s t : String} : snakeCase s = snakeCase t ↔ SameWords s t := by
  have hplain : ∀ s : String, ∀ l ∈ (nameWords s.toList).map (·.map Char.toLower), '_' ∉ l := by
    intro s l hl
    obtain ⟨word, hword, rfl⟩ := List.mem_map.mp hl
    intro hmem
    obtain ⟨c, hc, hlower⟩ := List.mem_map.mp hmem
    have hne : c ≠ '_' := ne_of_mem_of_not_mem hc (not_mem_of_mem_nameWords word hword)
    exact toLower_ne_underscore hne hlower
  have hne : ∀ s : String, (nameWords s.toList).map (·.map Char.toLower) ≠ [] := fun s h =>
    nameWords_ne_nil _ (List.map_eq_nil_iff.mp h)
  rw [← String.toList_inj, toList_snakeCase, toList_snakeCase,
    intercalate_inj (hplain s) (hplain t) (hne s) (hne t), SameWords]

/-! ### Names in plain camel case -/

/-- A name in plain camel case: letters and digits, a capital letter first, and no two capital
letters next to each other. -/
structure IsCamel (s : String) : Prop where
  starts : ∃ c ∈ s.toList.head?, c.isUpper = true
  chars : ∀ c ∈ s.toList, c.isAlphanum = true
  apart : s.toList.IsChain fun c d => ¬ (c.isUpper = true ∧ d.isUpper = true)

/-- A word with a capital letter first. -/
def recased : List Char → List Char
  | [] => []
  | c :: rest => c.toUpper :: rest

/-- What is after the first character of a name in camel case is told by its words in lower case. -/
theorem exists_nameWords {c : Char} {cs : List Char} (hchars : ∀ d ∈ c :: cs, d.isAlphanum = true)
    (hapart : (c :: cs).IsChain fun c d => ¬ (c.isUpper = true ∧ d.isUpper = true)) :
    ∃ word more, nameWords (c :: cs) = (c :: word) :: more ∧
      cs = word.map Char.toLower ++ (more.map (·.map Char.toLower)).flatMap recased := by
  have hne : c ≠ '_' := by
    rintro rfl
    exact absurd (hchars _ List.mem_cons_self) (by decide)
  induction cs generalizing c with
  | nil => exact ⟨[], [], by rw [nameWords, if_neg hne], rfl⟩
  | cons d rest ih =>
    rw [List.isChain_cons_cons] at hapart
    rw [List.forall_mem_cons] at hchars
    have hd : d ≠ '_' := by
      rintro rfl
      exact absurd (hchars.2 _ List.mem_cons_self) (by decide)
    obtain ⟨word, more, hwords, hrest⟩ := ih hchars.2 hapart.2 hd
    rw [nameWords, if_neg hne, hwords]
    by_cases hupper : d.isUpper = true
    · -- The letter before is no capital one, so that a word starts here.
      have hstarts : WordStarts c d rest.head? := by
        rcases Bool.or_eq_true_iff.mp hchars.1 with hletter | hdigit
        · rcases Bool.or_eq_true_iff.mp hletter with hcapital | hsmall
          · exact absurd ⟨hcapital, hupper⟩ hapart.1
          · exact ⟨hupper, .inl hsmall⟩
        · exact ⟨hupper, .inr (.inl hdigit)⟩
      refine ⟨[], (d :: word) :: more, if_pos hstarts, ?_⟩
      rw [List.map_nil, List.nil_append, List.map_cons, List.flatMap_cons, List.map_cons, recased,
        (toLower_of_isUpper hupper).2, List.cons_append, ← hrest]
    · refine ⟨d :: word, more, by rw [if_neg fun hstarts => hupper hstarts.1]; rfl, ?_⟩
      rw [List.map_cons, toLower_of_not_isUpper hupper, List.cons_append, ← hrest]

/-- **A name in plain camel case is told by its words in lower case.** -/
theorem IsCamel.flatMap_recased {s : String} (h : IsCamel s) :
    ((nameWords s.toList).map (·.map Char.toLower)).flatMap recased = s.toList := by
  obtain ⟨c, hc, hupper⟩ := h.starts
  obtain ⟨cs, hcs⟩ := List.head?_eq_some_iff.mp hc
  have hchars := h.chars
  have hapart := h.apart
  rw [hcs] at hchars hapart ⊢
  obtain ⟨word, more, hwords, hrest⟩ := exists_nameWords hchars hapart
  rw [hwords, List.map_cons, List.flatMap_cons, List.map_cons, recased,
    (toLower_of_isUpper hupper).2, List.cons_append, ← hrest]

theorem SameWords.eq {s t : String} (h : SameWords s t) (hs : IsCamel s) (ht : IsCamel t) :
    s = t := by
  rw [← String.toList_inj, ← hs.flatMap_recased, ← ht.flatMap_recased, h]

/-! ### Functions of the tests -/

variable {n : NodeSpec} {w : WorkflowSpec}

def NodeSpec.testNames (n : NodeSpec) : List String :=
  ["test_" ++ snakeCase n.name ++ "_post_stores_result",
    "test_" ++ snakeCase n.name ++ "_exec_is_pending"]

theorem signature?_test {name : String} (hname : ∀ c ∈ name.toList, isNameChar c = true)
    {ending : String} (hending : '(' ∉ ending.toList) :
    signature? ("def test_" ++ name ++ ending ++ "():") = some ⟨"test_" ++ name ++ ending, ""⟩ := by
  refine signature?_header [':'] ?_ (by decide) (by simp)
  rw [String.toList_append, String.toList_append, List.mem_append, List.mem_append]
  rintro ((hc | hc) | hc)
  · exact absurd hc (by decide)
  · exact ne_of_isNameChar (hname _ hc) (by decide) rfl
  · exact hending hc

/-- The functions in the tests of a node. -/
theorem signaturesOf_testLines (h : IsNodeName n.name) :
    signaturesOf n.testLines = n.testNames.map fun name => ⟨name, ""⟩ := by
  have hpost := signature?_test (nameChar_snakeCase h)
    (by decide : '(' ∉ "_post_stores_result".toList)
  have hexec := signature?_test (nameChar_snakeCase h) (by decide : '(' ∉ "_exec_is_pending".toList)
  have hbody : ∀ action : String, ∀ l ∈ ["    node = " ++ n.name ++ "()", "    shared = \x7b\x7d",
      "    action = " ++ action, "    assert action == \"default\"",
      "    assert shared[" ++ quoted n.resultKey ++ "] == \"result\"", "", ""],
      ∀ c ∈ l.toList.head?, c ≠ 'd' ∧ c ≠ 'a' := by simp
  have hcall : ∀ call : String, ∀ l ∈ ["    with pytest.raises(NotImplementedError):",
      "        " ++ call], ∀ c ∈ l.toList.head?, c ≠ 'd' ∧ c ≠ 'a' := by simp
  rw [NodeSpec.testLines]
  simp only [String.append_assoc] at hpost hexec hbody hcall ⊢
  refine (signaturesOf_cons_some hpost _).trans (congrArg (_ :: ·) ?_)
  refine (signaturesOf_append [_, _, _, _, _, _, _] _).trans ?_
  rw [signaturesOf_eq_nil (hbody _), List.nil_append]
  refine (signaturesOf_cons_some hexec _).trans (congrArg (_ :: ·) ?_)
  exact signaturesOf_eq_nil (hcall _)

theorem oneLine_testLines (h : IsNodeName n.name) : ∀ l ∈ n.testLines, OneLine l := by
  have hname : OneLine (snakeCase n.name) := oneLine_of_nameChar (nameChar_snakeCase h)
  rw [NodeSpec.testLines]
  cases n.kind.isAsync
  all_goals
    simp only [Bool.false_eq_true, if_true, if_false, List.forall_mem_cons, List.not_mem_nil,
      false_imp_iff, implies_true, oneLine_append, hname, h.oneLine, oneLine_quotedText, and_true,
      true_and, and_assoc]
    repeat refine ⟨oneLine_ofList (by decide), ?_⟩
    exact oneLine_ofList (by decide)

namespace WorkflowSpec

def nodeTestsHead (w : WorkflowSpec) : List String :=
  [docString ("Node tests for " ++ docText w.name ++ "."), ""] ++
    (if w.hasAsync then ["import asyncio", ""] else []) ++
    ["import pytest", "", "from nodes import " ++ commas (w.nodes.map (·.name))]

/-- **The file of tests has two functions for each node.** -/
theorem Valid.signatures_nodeTestsFile (h : w.Valid) :
    (signatures w.nodeTestsFile).map (·.name) = w.nodes.flatMap NodeSpec.testNames := by
  have hnames : OneLine (commas (w.nodes.map (·.name))) := by
    refine oneLine_intercalate (by decide) fun l hl => ?_
    obtain ⟨n, hn, rfl⟩ := List.mem_map.mp hl
    exact (h.nodeNames n hn).oneLine
  have hhead : ∀ l ∈ w.nodeTestsHead, OneLine l := by
    simp only [nodeTestsHead, List.forall_mem_append, List.forall_mem_cons, docString]
    refine ⟨⟨⟨?_, by decide⟩, by split <;> decide⟩, by decide, by decide, ?_, by simp⟩
    · simp only [oneLine_append, oneLine_docText, and_true]
      decide
    · exact oneLine_append.mpr ⟨by decide, hnames⟩
  have hnone : ∀ l ∈ w.nodeTestsHead, ∀ c ∈ l.toList.head?, c ≠ 'd' ∧ c ≠ 'a' := by
    simp only [nodeTestsHead, List.forall_mem_append]
    refine ⟨⟨by simp [docString], by split <;> decide⟩, by simp⟩
  have hfile : w.nodeTestsFile =
      unlines (w.nodeTestsHead ++ w.nodes.flatMap fun n => ["", ""] ++ n.testLines) := rfl
  rw [hfile, signatures_parts hhead fun n hn =>
      ⟨oneLine_testLines (h.nodeNames n hn), signaturesOf_testLines (h.nodeNames n hn)⟩,
    signaturesOf_eq_nil hnone, List.nil_append, List.map_flatMap]
  simp only [List.map_map]
  exact congrArg (List.flatMap · w.nodes) (funext fun n => List.map_id _)

end WorkflowSpec

/-! ### Distinct names -/

theorem resultKey_eq_iff {m n : NodeSpec} :
    m.resultKey = n.resultKey ↔ SameWords m.name n.name := by
  rw [NodeSpec.resultKey, NodeSpec.resultKey, String.append_left_inj, snakeCase_eq_iff]

/-- The two tests of nodes differ in their last letter. -/
theorem postTest_ne_execTest (s t : String) :
    "test_" ++ s ++ "_post_stores_result" ≠ "test_" ++ t ++ "_exec_is_pending" := by
  intro h
  have hpost : "_post_stores_result".toList.getLast? = some 't' := rfl
  have hexec : "_exec_is_pending".toList.getLast? = some 'g' := rfl
  have hlast := congrArg (·.toList.getLast?) h
  simp only [String.toList_append, List.getLast?_append, hpost, hexec, Option.some_or] at hlast
  exact absurd hlast (by decide)

theorem nodup_testNames (n : NodeSpec) : n.testNames.Nodup := by
  rw [NodeSpec.testNames, List.nodup_cons, List.mem_singleton]
  exact ⟨postTest_ne_execTest _ _, List.nodup_singleton _⟩

/-- Two nodes share no test exactly if they have different words. -/
theorem disjoint_testNames_iff {m n : NodeSpec} :
    m.testNames.Disjoint n.testNames ↔ ¬ SameWords m.name n.name := by
  have hsame : ∀ ending, "test_" ++ snakeCase m.name ++ ending =
      "test_" ++ snakeCase n.name ++ ending ↔ SameWords m.name n.name := fun ending => by
    rw [String.append_left_inj, String.append_right_inj, snakeCase_eq_iff]
  rw [List.disjoint_left]
  constructor
  · intro h hwords
    refine h List.mem_cons_self ?_
    rw [(hsame "_post_stores_result").mpr hwords]
    exact List.mem_cons_self
  · intro hwords name hm hn
    simp only [NodeSpec.testNames, List.mem_cons, List.not_mem_nil, or_false] at hm hn
    rcases hm with rfl | rfl <;> rcases hn with hn | hn
    · exact hwords ((hsame _).mp hn)
    · exact postTest_ne_execTest _ _ hn
    · exact postTest_ne_execTest _ _ hn.symm
    · exact hwords ((hsame _).mp hn)

/-- Each node stores its result, and the last one the output. -/
theorem flatMap_stores_plansFrom {nodes : List NodeSpec} (h : nodes ≠ []) (key : String) :
    ((plansFrom key nodes).map (·.use)).flatMap (·.stores) =
      nodes.map (·.resultKey) ++ [outputKey] := by
  induction nodes generalizing key with
  | nil => exact absurd rfl h
  | cons n rest ih =>
    rw [plansFrom, List.map_cons, List.flatMap_cons, List.map_cons]
    cases rest with
    | nil => rfl
    | cons m more =>
      rw [ih (List.cons_ne_nil m more)]
      rfl

namespace WorkflowSpec

theorem nodup_resultKeys_iff : (w.nodes.map (·.resultKey)).Nodup ↔
    w.nodeNames.Pairwise fun s t => ¬ SameWords s t := by
  rw [List.Nodup, List.pairwise_map, nodeNames, List.pairwise_map]
  exact List.Pairwise.iff fun m n => not_congr resultKey_eq_iff

/-- **Nodes with names in plain camel case keep distinct results.** -/
theorem Valid.nodup_resultKeys (h : w.Valid) (hcamel : ∀ s ∈ w.nodeNames, IsCamel s) :
    (w.nodes.map (·.resultKey)).Nodup := by
  refine nodup_resultKeys_iff.mpr (h.nodup_nodeNames.imp_of_mem fun hs ht hne hwords => ?_)
  exact hne (hwords.eq (hcamel _ hs) (hcamel _ ht))

/-- **The keys of results are never those of the input and the output, and they are distinct exactly
if no two nodes have the same words in their names.  So are the keys that the generated nodes store
and the functions of their tests.** -/
theorem resultKeys_distinct_iff (h : w.validate = .ok ()) :
    (∀ n ∈ w.nodes, n.resultKey ≠ inputKey ∧ n.resultKey ≠ outputKey) ∧
      ((w.nodes.map (·.resultKey)).Nodup ↔ w.nodeNames.Pairwise fun s t => ¬ SameWords s t) ∧
        (((nodeUses w.nodesFile).flatMap (·.stores)).Nodup ↔
          w.nodeNames.Pairwise fun s t => ¬ SameWords s t) ∧
          (((signatures w.nodeTestsFile).map (·.name)).Nodup ↔
            w.nodeNames.Pairwise fun s t => ¬ SameWords s t) := by
  have hvalid := validate_eq_ok_iff.mp h
  refine ⟨fun n _ => ⟨resultKey_ne (by decide) n, resultKey_ne_outputKey n⟩, nodup_resultKeys_iff,
    ?_, ?_⟩
  · have houtput : outputKey ∉ w.nodes.map (·.resultKey) := by
      intro hmem
      obtain ⟨n, -, hn⟩ := List.mem_map.mp hmem
      exact resultKey_ne_outputKey n hn
    rw [hvalid.nodeUses_nodesFile, plans, flatMap_stores_plansFrom hvalid.nodes_ne_nil,
      ← List.concat_eq_append, List.nodup_concat, nodup_resultKeys_iff]
    exact and_iff_right houtput
  · rw [hvalid.signatures_nodeTestsFile, List.nodup_flatMap, nodeNames, List.pairwise_map]
    refine (and_iff_right fun n _ => nodup_testNames n).trans ?_
    exact List.Pairwise.iff fun m n => disjoint_testNames_iff

/-- Two nodes whose names differ in the case of letters only. -/
def clients : WorkflowSpec where
  name := "clients"
  pattern := .workflow
  nodes := [.of "HTTPClient" .node "", .of "HttpClient" .node ""]

theorem resultKeys_clients :
    clients.validate = .ok () ∧ ¬ (clients.nodes.map (·.resultKey)).Nodup ∧
      ¬ ((nodeUses clients.nodesFile).flatMap (·.stores)).Nodup ∧
        ¬ ((signatures clients.nodeTestsFile).map (·.name)).Nodup := by
  have hvalid : clients.validate = .ok () := rfl
  have hsame : ¬ clients.nodeNames.Pairwise fun s t => ¬ SameWords s t := by decide
  obtain ⟨-, hkeys, hstores, htests⟩ := resultKeys_distinct_iff hvalid
  exact ⟨hvalid, mt hkeys.mp hsame, mt hstores.mp hsame, mt htests.mp hsame⟩

end WorkflowSpec

end AgentFlow

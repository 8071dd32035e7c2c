import AgentFlow.Output.Nodes
import AgentFlow.Proofs.Output.RouteTable
import Mathlib.Logic.Relation

/-!
# What the generated nodes exchange

A generated node reads one shared value before it runs and stores its result after it.  The keys
come from the order in which the nodes are listed, while the flow goes along the transitions.  This
file reads the keys back from the text of the file of nodes and says when the two agree.

* `nodeUses`: the classes in a file of nodes, with the keys that they read and store.
* `nodeUses_nodesFile`: **they are the keys of the plans of the nodes.**
* `WorkflowSpec.Exchanges`: the nodes that are reached pass values along the transitions.
* `WorkflowSpec.nodesFile_exchanges_iff`: they do without stated transitions, and with them exactly
  if the transitions go along the list.
-/

namespace AgentFlow

open Text Output

/-! ### Reading a file of nodes -/

inductive NodeLine where
  | opens (name : String)
  | reads (key : String)
  | stores (key : String)
  | other
  deriving DecidableEq

/-- The text between `head`, which starts the line, and the next `stop`. -/
def between? (head : String) (stop : Char) (line : String) : Option String :=
  (afterHead? head line).map fun rest => String.ofList (rest.toList.takeWhile (· != stop))

def NodeLine.of (line : String) : NodeLine :=
  match between? "class " '(' line, between? "        return shared.get(\"" '"' line,
      between? "        shared[\"" '"' line with
  | some name, _, _ => .opens name
  | none, some key, _ => .reads key
  | none, none, some key => .stores key
  | none, none, none => .other

/-- A class of a node with the keys that it reads and stores. -/
structure NodeUse where
  name : String
  reads : List String := []
  stores : List String := []
  deriving DecidableEq

/-- The classes in lines, the first of which belong to the open class. -/
def usesFrom (opened : Option NodeUse) : List String → List NodeUse
  | [] => opened.toList
  | l :: rest =>
    match NodeLine.of l with
    | .opens name => opened.toList ++ usesFrom (some { name }) rest
    | .reads key => usesFrom (opened.map fun u => { u with reads := u.reads ++ [key] }) rest
    | .stores key => usesFrom (opened.map fun u => { u with stores := u.stores ++ [key] }) rest
    | .other => usesFrom opened rest

def nodeUses (file : String) : List NodeUse := usesFrom none (lines file)

/-! ### The lines of a class -/

theorem between?_eq {head line key : String} {stop : Char} {rest : List Char}
    (h : line.toList = head.toList ++ (key.toList ++ stop :: rest)) (hkey : stop ∉ key.toList) :
    between? head stop line = some key := by
  have hall : ∀ c ∈ key.toList, (c != stop) = true := fun c hc =>
    bne_iff_ne.mpr (ne_of_mem_of_not_mem hc hkey)
  rw [between?, afterHead?, if_pos (by rw [h]; simp), Option.map_some, String.toList_ofList, h,
    ← String.length_toList, List.drop_left, List.takeWhile_append_of_pos hall]
  simp

theorem Plain.not_mem {key : String} (h : Plain key) {c : Char} (hc : isLabelChar c = false) :
    c ∉ key.toList :=
  fun hmem => ne_of_isLabelChar (h c hmem) hc rfl

theorem of_openLine {name : String} (h : Plain name) (rest : String) :
    NodeLine.of ("class " ++ name ++ "(" ++ rest) = .opens name := by
  have hline : ("class " ++ name ++ "(" ++ rest).toList =
      "class ".toList ++ (name.toList ++ '(' :: rest.toList) := by simp
  rw [NodeLine.of, between?_eq hline (h.not_mem (by decide))]

theorem of_readLine {key : String} (h : Plain key) (rest : String) :
    NodeLine.of ("        return shared.get(" ++ quoted key ++ ")" ++ rest) = .reads key := by
  have hline : ("        return shared.get(" ++ quoted key ++ ")" ++ rest).toList =
      "        return shared.get(\"".toList ++ (key.toList ++ '"' :: ')' :: rest.toList) := by
    simp [toList_quoted h]
  have hopen : between? "class " '(' ("        return shared.get(" ++ quoted key ++ ")" ++ rest) =
      none := by simp [between?, afterHead?]
  rw [NodeLine.of, hopen, between?_eq hline (h.not_mem (by decide))]

theorem of_storeLine {key : String} (h : Plain key) (rest : String) :
    NodeLine.of ("        shared[" ++ quoted key ++ rest) = .stores key := by
  have hline : ("        shared[" ++ quoted key ++ rest).toList =
      "        shared[\"".toList ++ (key.toList ++ '"' :: rest.toList) := by
    simp [toList_quoted h]
  have hopen : between? "class " '(' ("        shared[" ++ quoted key ++ rest) = none := by
    simp [between?, afterHead?]
  have hread : between? "        return shared.get(\"" '"'
      ("        shared[" ++ quoted key ++ rest) = none := by simp [between?, afterHead?]
  rw [NodeLine.of, hopen, hread, between?_eq hline (h.not_mem (by decide))]

/-- A line that starts with neither of the three heads does nothing. -/
theorem of_docLine (s : String) : NodeLine.of (docString s) = .other := by
  simp [NodeLine.of, between?, afterHead?, docString]

theorem of_indentedDocLine (s : String) : NodeLine.of ("    " ++ docString s) = .other := by
  simp [NodeLine.of, between?, afterHead?, docString]

theorem of_importLine (s : String) :
    NodeLine.of ("from pocketflow import " ++ s) = .other := by
  simp [NodeLine.of, between?, afterHead?]

theorem of_raiseLine (s : String) :
    NodeLine.of ("        raise NotImplementedError(" ++ s) = .other := by
  simp [NodeLine.of, between?, afterHead?]

/-! ### A class after the other -/

theorem usesFrom_other {l : String} (h : NodeLine.of l = .other) (u : Option NodeUse)
    (rest : List String) : usesFrom u (l :: rest) = usesFrom u rest := by
  rw [usesFrom, h]

theorem usesFrom_stores {keys : List String} (h : ∀ k ∈ keys, Plain k) (u : NodeUse)
    (rest : List String) :
    usesFrom (some u)
        (keys.map (fun k => "        shared[" ++ quoted k ++ "] = exec_res") ++ rest) =
      usesFrom (some { u with stores := u.stores ++ keys }) rest := by
  induction keys generalizing u with
  | nil => rw [List.map_nil, List.nil_append, List.append_nil]
  | cons k keys ih =>
    rw [List.forall_mem_cons] at h
    have hline : NodeLine.of ("        shared[" ++ quoted k ++ "] = exec_res") = .stores k := by
      simpa [String.append_assoc] using of_storeLine h.1 "] = exec_res"
    rw [List.map_cons, List.cons_append, usesFrom, hline]
    simp only [Option.map_some]
    rw [ih h.2, List.append_assoc, List.singleton_append]

def Output.NodePlan.use (p : NodePlan) : NodeUse := ⟨p.node.name, [p.inputKey], p.outputKeys⟩

/-- The names in a plan stand between quotes as they are. -/
structure Output.NodePlan.Plain (p : NodePlan) : Prop where
  name : AgentFlow.Plain p.node.name
  inputKey : AgentFlow.Plain p.inputKey
  outputKeys : ∀ k ∈ p.outputKeys, AgentFlow.Plain k

/-- **The lines of a class are read as what its plan says.** -/
theorem usesFrom_lines {p : NodePlan} (h : p.Plain) (u : Option NodeUse) (rest : List String) :
    usesFrom u (["", ""] ++ p.lines ++ rest) = u.toList ++ usesFrom (some p.use) rest := by
  have hopen : NodeLine.of ("class " ++ p.node.name ++ "(" ++ p.node.kind.name ++ "):") =
      .opens p.node.name := by
    simpa [String.append_assoc] using of_openLine h.name (p.node.kind.name ++ "):")
  have hread := of_readLine h.inputKey (if p.node.kind.isBatch then " or []" else "")
  have hdef : ∀ s, NodeLine.of
      ((if p.node.kind.isAsync then "    async def " else "    def ") ++ s) = .other := by
    intro s
    split <;> simp [NodeLine.of, between?, afterHead?]
  have hraise : ∀ s, NodeLine.of ("        raise NotImplementedError(" ++ s ++ ")") = .other :=
    fun s => by rw [String.append_assoc]; exact of_raiseLine _
  have hreturn : NodeLine.of "        return \"default\"" = .other := by decide
  have hempty : NodeLine.of "" = .other := by decide
  simp only [NodePlan.lines, List.cons_append, List.nil_append, List.append_assoc]
  rw [usesFrom_other hempty, usesFrom_other hempty, usesFrom, hopen]
  simp only [String.append_assoc] at hread hraise ⊢
  rw [usesFrom_other (of_indentedDocLine _), usesFrom_other hempty, usesFrom_other (hdef _),
    usesFrom, hread]
  have hstores := usesFrom_stores h.outputKeys ⟨p.node.name, [p.inputKey], []⟩
    ("        return \"default\"" :: rest)
  simp only [Option.map_some, List.nil_append, String.append_assoc] at hstores ⊢
  rw [usesFrom_other hempty, usesFrom_other (hdef _), usesFrom_other (hraise _),
    usesFrom_other hempty, usesFrom_other (hdef _), hstores, usesFrom_other hreturn]
  rfl

theorem usesFrom_plans {ps : List NodePlan} (h : ∀ p ∈ ps, p.Plain) (u : Option NodeUse) :
    usesFrom u (ps.flatMap fun p => ["", ""] ++ p.lines) = u.toList ++ ps.map (·.use) := by
  induction ps generalizing u with
  | nil => rw [List.flatMap_nil, usesFrom, List.map_nil, List.append_nil]
  | cons p ps ih =>
    rw [List.forall_mem_cons] at h
    rw [List.flatMap_cons, usesFrom_lines h.1, ih h.2, List.map_cons]
    rfl

theorem oneLine_quotedChar (c : Char) : ∀ d ∈ quotedChar c, d ≠ '\n' ∧ d ≠ '\r' := by
  have hall : ∀ n < 128, ∀ d ∈ quotedChar (Char.ofNat n), d ≠ '\n' ∧ d ≠ '\r' := by decide
  by_cases hlt : c.toNat < 128
  · rw [← Char.ofNat_toNat c]
    exact hall c.toNat hlt
  · have hne : ∀ d : Char, d.toNat < 128 → c ≠ d := by
      rintro d hd rfl
      exact hlt hd
    have hself : quotedChar c = [c] := by
      simp [quotedChar, hne '"', hne '\\', hne '\x08', hne '\x0c', hne '\n', hne '\r', hne '\t']
      omega
    rw [hself]
    exact fun d hd => List.mem_singleton.mp hd ▸ ⟨hne '\n' (by decide), hne '\r' (by decide)⟩

/-- No text breaks the line that it is quoted in. -/
theorem oneLine_quotedText (s : String) : OneLine (quoted s) := by
  rw [oneLine_iff, quoted, String.toList_ofList, List.cons_append, List.forall_mem_cons,
    List.forall_mem_append]
  refine ⟨by decide, fun d hd => ?_, by decide⟩
  obtain ⟨c, -, hd⟩ := List.mem_flatMap.mp hd
  exact oneLine_quotedChar c d hd

theorem Plain.oneLine {s : String} (h : Plain s) : OneLine s :=
  oneLine_of_not_isBlank fun c hc => not_isBlank_of_isLabelChar (h c hc)

theorem NodeKind.oneLine_name (k : NodeKind) : OneLine k.name := by cases k <;> decide

theorem oneLine_of_mem_lines {p : NodePlan} (h : p.Plain) : ∀ l ∈ p.lines, OneLine l := by
  have hstores : ∀ l ∈ p.outputKeys.map fun k => "        shared[" ++ quoted k ++ "] = exec_res",
      OneLine l := by
    intro l hl
    obtain ⟨k, hk, rfl⟩ := List.mem_map.mp hl
    simp only [oneLine_append, oneLine_quoted (h.outputKeys k hk), and_true]
    decide
  have hdef : OneLine (if p.node.kind.isAsync then "    async def " else "    def ") := by
    split <;> decide
  have hending : OneLine (if p.node.kind.isAsync then "_async" else "") := by split <;> decide
  have hargument : OneLine (if p.node.kind.isBatch then "item" else "prep_res") := by
    split <;> decide
  have hdefault : OneLine (if p.node.kind.isBatch then " or []" else "") := by split <;> decide
  rw [NodePlan.lines, List.forall_mem_append, List.forall_mem_append]
  refine ⟨⟨?_, hstores⟩, fun l hl => List.mem_singleton.mp hl ▸ by decide⟩
  simp only [List.forall_mem_cons, List.not_mem_nil, false_imp_iff, implies_true, docString,
    oneLine_append, oneLine_docText, h.name.oneLine, p.node.kind.oneLine_name, hdef, hending,
    hargument, hdefault, oneLine_quoted h.inputKey, oneLine_quotedText, and_true, true_and,
    and_assoc]
  repeat refine ⟨oneLine_ofList (by decide), ?_⟩
  exact oneLine_ofList (by decide)

/-! ### Keys -/

theorem isNameChar_toLower {c : Char} (h : isNameChar c = true) : isNameChar c.toLower = true := by
  have hall : ∀ n < 128, isNameChar (Char.ofNat n) = true →
      isNameChar (Char.ofNat n).toLower = true := by decide
  have hlt := toNat_lt_of_isNameChar h
  rw [← Char.ofNat_toNat c] at h ⊢
  exact hall c.toNat hlt h

theorem nameChar_snakeFrom {cs : List Char} (h : ∀ c ∈ cs, isNameChar c = true)
    (before : Option Char) : ∀ c ∈ snakeFrom before cs, isNameChar c = true := by
  induction cs generalizing before with
  | nil => exact fun c hc => absurd hc List.not_mem_nil
  | cons c rest ih =>
    rw [List.forall_mem_cons] at h
    rw [snakeFrom]
    split
    · exact List.forall_mem_cons.mpr ⟨by decide,
        List.forall_mem_cons.mpr ⟨isNameChar_toLower h.1, ih h.2 _⟩⟩
    · exact List.forall_mem_cons.mpr ⟨isNameChar_toLower h.1, ih h.2 _⟩

theorem nameChar_snakeCase {name : String} (h : IsNodeName name) :
    ∀ c ∈ (snakeCase name).toList, isNameChar c = true := by
  rw [snakeCase, String.toList_ofList]
  exact nameChar_snakeFrom h.nameChar none

theorem nameChar_resultKey {n : NodeSpec} (h : IsNodeName n.name) :
    ∀ c ∈ n.resultKey.toList, isNameChar c = true := by
  rw [NodeSpec.resultKey, String.toList_append, List.forall_mem_append]
  exact ⟨nameChar_snakeCase h, by decide⟩

theorem plain_resultKey {n : NodeSpec} (h : IsNodeName n.name) : Plain n.resultKey :=
  fun c hc => isLabelChar_of_isNameChar (nameChar_resultKey h c hc)

theorem plain_inputKey : Plain inputKey := by unfold Plain; decide

theorem plain_outputKey : Plain outputKey := by unfold Plain; decide

/-- The key of a result has an underscore. -/
theorem resultKey_ne {key : String} (h : '_' ∉ key.toList) (n : NodeSpec) : n.resultKey ≠ key := by
  intro hkey
  have hmem : '_' ∈ n.resultKey.toList := by simp [NodeSpec.resultKey]
  rw [hkey] at hmem
  exact h hmem

/-- The result of a node is never taken for the output. -/
theorem resultKey_ne_outputKey (n : NodeSpec) : n.resultKey ≠ outputKey :=
  resultKey_ne (by decide) n

theorem plain_of_mem_plansFrom {nodes : List NodeSpec} (h : ∀ n ∈ nodes, IsNodeName n.name)
    {key : String} (hkey : Plain key) : ∀ p ∈ plansFrom key nodes, p.Plain := by
  induction nodes generalizing key with
  | nil => exact fun p hp => absurd hp List.not_mem_nil
  | cons n rest ih =>
    rw [List.forall_mem_cons] at h
    refine List.forall_mem_cons.mpr ⟨⟨h.1.plain, hkey, ?_⟩, ih h.2 (plain_resultKey h.1)⟩
    refine List.forall_mem_cons.mpr ⟨plain_resultKey h.1, fun k hk => ?_⟩
    split at hk
    · exact List.mem_singleton.mp hk ▸ plain_outputKey
    · exact absurd hk List.not_mem_nil

/-! ### Plans by position -/

theorem map_node_plansFrom (key : String) (nodes : List NodeSpec) :
    (plansFrom key nodes).map (·.node) = nodes := by
  induction nodes generalizing key with
  | nil => rfl
  | cons n rest ih => rw [plansFrom, List.map_cons, ih]

/-- A node after the first one reads the result of the node before it. -/
theorem mem_tail_plansFrom (key : String) {k : String} {nodes : List NodeSpec} {m : NodeSpec} :
    (∃ p ∈ (plansFrom key nodes).tail, p.node = m ∧ p.inputKey = k) ↔
      ∃ n, [n, m] <:+: nodes ∧ n.resultKey = k := by
  induction nodes generalizing key with
  | nil => simp [plansFrom]
  | cons a rest ih =>
    rw [plansFrom, List.tail_cons]
    cases rest with
    | nil => simp [plansFrom, List.infix_cons_iff]
    | cons b more =>
      have hih := ih key
      rw [plansFrom, List.tail_cons] at hih
      simp only [plansFrom, List.mem_cons, or_and_right, exists_or, exists_eq_left, hih,
        @List.infix_cons_iff _ _ _ (b :: more), List.cons_prefix_cons, List.nil_prefix, and_true]
      refine or_congr ?_ Iff.rfl
      constructor
      · rintro ⟨rfl, rfl⟩
        exact ⟨a, ⟨rfl, rfl⟩, rfl⟩
      · rintro ⟨n, ⟨rfl, rfl⟩, rfl⟩
        exact ⟨rfl, rfl⟩

/-- Every node but the last one has another node after it. -/
theorem mem_plansFrom_not_last (key : String) {nodes : List NodeSpec} {n : NodeSpec} :
    (∃ p ∈ plansFrom key nodes, p.node = n ∧ p.isLast = false) ↔ ∃ m, [n, m] <:+: nodes := by
  induction nodes generalizing key with
  | nil => simp [plansFrom]
  | cons a rest ih =>
    simp only [plansFrom, List.mem_cons, or_and_right, exists_or, exists_eq_left, ih,
      @List.infix_cons_iff _ _ _ rest, List.cons_prefix_cons, exists_or]
    refine or_congr ?_ Iff.rfl
    cases rest with
    | nil => simp
    | cons b more => simp [eq_comm]

namespace WorkflowSpec

variable (w : WorkflowSpec)

/-! ### The keys in the file of nodes -/

theorem oneLine_nodeClasses : OneLine (commas w.nodeClasses) := by
  refine oneLine_intercalate (by decide) fun c hc => ?_
  obtain ⟨n, -, rfl⟩ := List.mem_map.mp (mem_of_mem_distinctSorted hc)
  exact n.kind.oneLine_name

variable {w} in
theorem Valid.plain_plans (h : w.Valid) : ∀ p ∈ w.plans, p.Plain :=
  plain_of_mem_plansFrom h.nodeNames plain_inputKey

variable {w} in
/-- **The file of nodes reads back as the keys of the plans.** -/
theorem Valid.nodeUses_nodesFile (h : w.Valid) :
    nodeUses w.nodesFile = w.plans.map (·.use) := by
  have hlines : ∀ l ∈ [docString ("Node definitions for " ++ docText w.name ++ "."), "",
      "from pocketflow import " ++ commas w.nodeClasses] ++
      w.plans.flatMap fun p => ["", ""] ++ p.lines, OneLine l := by
    simp only [List.forall_mem_append, List.forall_mem_cons, List.mem_flatMap]
    refine ⟨⟨?_, by decide, ?_, fun l hl => absurd hl List.not_mem_nil⟩, ?_⟩
    · simp only [docString, oneLine_append, oneLine_docText, and_true]
      decide
    · exact oneLine_append.mpr ⟨by decide, w.oneLine_nodeClasses⟩
    · rintro l ⟨p, hp, hl⟩
      rw [List.mem_append] at hl
      rcases hl with hl | hl
      · revert l
        decide
      · exact oneLine_of_mem_lines (h.plain_plans p hp) l hl
  rw [nodeUses, nodesFile, lines_unlines hlines, List.cons_append,
    usesFrom_other (of_docLine _), List.cons_append, usesFrom_other (by decide),
    List.cons_append, usesFrom_other (of_importLine _), List.nil_append,
    usesFrom_plans h.plain_plans]
  rfl

/-! ### Along the transitions -/

/-- A transition leads from one name to the other. -/
def Leads (a b : String) : Prop := ∃ e ∈ w.resolvedEdges, e.source = a ∧ e.target = b

/-- Transitions lead from the first node to the name. -/
def Reaches (name : String) : Prop :=
  ∃ start ∈ w.nodeNames.head?, Relation.ReflTransGen w.Leads start name

/-- Nodes that pass values along the transitions, as far as they are reached: the first one reads
the input and every other one the result of a node that leads to it, and where no transition goes on
the output is stored. -/
structure Exchanges (uses : List NodeUse) : Prop where
  start : ∀ u ∈ uses.head?, u.reads = [inputKey]
  reads : ∀ u ∈ uses.tail, w.Reaches u.name →
    ∃ n ∈ w.nodes, w.Leads n.name u.name ∧ u.reads = [n.resultKey]
  stores : ∀ u ∈ uses, w.Reaches u.name → (∀ b, ¬ w.Leads u.name b) → outputKey ∈ u.stores

/-- Transitions that go along the list of nodes, as far as nodes are reached: one leads to each node
from a node with the result key of the node before it, and one leads on from each node but the
last. -/
structure FollowsList : Prop where
  to_next : ∀ n m, [n, m] <:+: w.nodes → w.Reaches m.name →
    ∃ p ∈ w.nodes, w.Leads p.name m.name ∧ p.resultKey = n.resultKey
  goes_on : ∀ n m, [n, m] <:+: w.nodes → w.Reaches n.name → ∃ b, w.Leads n.name b

variable {w}

theorem mem_chain_of_infix {names : List String} {a b : String} (h : [a, b] <:+: names) :
    ⟨a, b, defaultAction⟩ ∈ chain names := by
  induction names with
  | nil => simp at h
  | cons x rest ih =>
    cases rest with
    | nil => simp [List.infix_cons_iff] at h
    | cons y more =>
      rw [List.infix_cons_iff, List.cons_prefix_cons, List.cons_prefix_cons] at h
      rcases h with ⟨rfl, rfl, -⟩ | h
      · exact List.mem_cons_self
      · exact List.mem_cons_of_mem _ (ih h)

/-- Without stated transitions one leads from each node to the next. -/
theorem leads_of_infix (h : w.edges = []) {n m : NodeSpec} (hnm : [n, m] <:+: w.nodes) :
    w.Leads n.name m.name := by
  refine ⟨⟨n.name, m.name, defaultAction⟩, ?_, rfl, rfl⟩
  rw [resolvedEdges, h, List.isEmpty_nil, if_pos rfl]
  exact mem_chain_of_infix (hnm.map NodeSpec.name)

theorem followsList_of_edges_eq_nil (h : w.edges = []) : w.FollowsList where
  to_next n _ hnm _ := ⟨n, hnm.subset List.mem_cons_self, leads_of_infix h hnm, rfl⟩
  goes_on _ m hnm _ := ⟨m.name, leads_of_infix h hnm⟩

theorem FollowsList.exchanges (h : w.FollowsList) : w.Exchanges (w.plans.map (·.use)) where
  start u hu := by
    unfold plans at hu
    cases hn : w.nodes with
    | nil => simp [hn, plansFrom] at hu
    | cons n rest =>
      rw [hn, plansFrom, List.map_cons, List.head?_cons, Option.mem_some_iff] at hu
      exact hu ▸ rfl
  reads u hu hreached := by
    rw [← List.map_tail, List.mem_map] at hu
    obtain ⟨p, hp, rfl⟩ := hu
    obtain ⟨n, hnm, hkey⟩ := (mem_tail_plansFrom inputKey).mp ⟨p, hp, rfl, rfl⟩
    obtain ⟨q, hq, hleads, hqkey⟩ := h.to_next n p.node hnm hreached
    exact ⟨q, hq, hleads, by rw [NodePlan.use, ← hkey, hqkey]⟩
  stores u hu hreached hends := by
    obtain ⟨p, hp, rfl⟩ := List.mem_map.mp hu
    cases hlast : p.isLast with
    | true => simp [NodePlan.use, NodePlan.outputKeys, hlast]
    | false =>
      obtain ⟨m, hnm⟩ := (mem_plansFrom_not_last inputKey).mp ⟨p, hp, rfl, hlast⟩
      obtain ⟨b, hb⟩ := h.goes_on p.node m hnm hreached
      exact absurd hb (hends b)

theorem Exchanges.followsList (h : w.Exchanges (w.plans.map (·.use))) : w.FollowsList where
  to_next n m hnm hreached := by
    obtain ⟨p, hp, rfl, hkey⟩ := (mem_tail_plansFrom inputKey).mpr ⟨n, hnm, rfl⟩
    have hu : p.use ∈ (w.plans.map (·.use)).tail := by
      rw [← List.map_tail]
      exact List.mem_map_of_mem hp
    obtain ⟨q, hq, hleads, hreads⟩ := h.reads p.use hu hreached
    have hkeys : p.inputKey = q.resultKey := (List.cons.inj hreads).1
    exact ⟨q, hq, hleads, hkeys.symm.trans hkey⟩
  goes_on n m hnm hreached := by
    obtain ⟨p, hp, rfl, hlast⟩ := (mem_plansFrom_not_last inputKey).mpr ⟨m, hnm⟩
    refine Classical.byContradiction fun hends => ?_
    have hstored := h.stores p.use (List.mem_map_of_mem hp) hreached (not_exists.mp hends)
    rw [NodePlan.use, NodePlan.outputKeys, hlast, if_neg Bool.false_ne_true,
      List.mem_singleton] at hstored
    exact resultKey_ne_outputKey p.node hstored.symm

/-- **The keys in the file of nodes go along the transitions exactly if these go along the list of
nodes**, as they do if none is stated. -/
theorem nodesFile_exchanges_iff (h : w.validate = .ok ()) :
    (nodeUses w.nodesFile).map (·.name) = w.nodeNames ∧
      (w.edges = [] → w.Exchanges (nodeUses w.nodesFile)) ∧
      (w.Exchanges (nodeUses w.nodesFile) ↔ w.FollowsList) := by
  rw [(validate_eq_ok_iff.mp h).nodeUses_nodesFile]
  refine ⟨?_, fun hedges => (followsList_of_edges_eq_nil hedges).exchanges,
    Exchanges.followsList, FollowsList.exchanges⟩
  have hnodes : w.plans.map (·.node) = w.nodes := map_node_plansFrom inputKey w.nodes
  rw [List.map_map, nodeNames, ← hnodes, List.map_map]
  rfl

/-- Transitions that also lead back: every node passes its result on all the same. -/
theorem nodesFile_exchanges_reviewLoop :
    reviewLoop.validate = .ok () ∧ reviewLoop.edges ≠ [] ∧ reviewLoop.FollowsList ∧
      reviewLoop.Exchanges (nodeUses reviewLoop.nodesFile) := by
  have hdraft : reviewLoop.Leads "Draft" "Review" := ⟨_, List.mem_cons_self, rfl, rfl⟩
  have hreview : reviewLoop.Leads "Review" "Publish" :=
    ⟨_, List.mem_cons_of_mem _ (List.mem_cons_of_mem _ List.mem_cons_self), rfl, rfl⟩
  have hnext : ∀ n m, [n, m] <:+: reviewLoop.nodes → reviewLoop.Leads n.name m.name := by
    intro n m hnm
    simp only [reviewLoop, List.infix_cons_iff, List.cons_prefix_cons, List.nil_prefix, and_true,
      List.prefix_nil, List.cons_ne_nil, and_false, List.infix_nil, or_false] at hnm
    rcases hnm with ⟨rfl, rfl⟩ | ⟨rfl, rfl⟩
    · exact hdraft
    · exact hreview
  have hfollows : reviewLoop.FollowsList :=
    { to_next := fun n m hnm _ =>
        ⟨n, hnm.subset List.mem_cons_self, hnext n m hnm, rfl⟩
      goes_on := fun n m hnm _ => ⟨m.name, hnext n m hnm⟩ }
  exact ⟨rfl, nofun, hfollows, (nodesFile_exchanges_iff rfl).2.2.mpr hfollows⟩

/-- A flow that jumps over a listed node and comes back to it. -/
def jump : WorkflowSpec where
  name := "jump"
  pattern := .workflow
  nodes := [.of "Load" .node "", .of "Publish" .node "", .of "Check" .node ""]
  edges := [⟨"Load", "Check", defaultAction⟩, ⟨"Check", "Publish", defaultAction⟩]

/-- A valid specification whose nodes do not exchange values along the transitions. -/
theorem jump_not_exchanges :
    jump.validate = .ok () ∧ ¬ jump.Exchanges (nodeUses jump.nodesFile) := by
  have hvalid : jump.validate = .ok () := rfl
  refine ⟨hvalid, fun h => ?_⟩
  rw [(validate_eq_ok_iff.mp hvalid).nodeUses_nodesFile] at h
  have hlisted : [NodeSpec.of "Publish" .node "", .of "Check" .node ""] <:+: jump.nodes :=
    ⟨[.of "Load" .node ""], [], rfl⟩
  have hcheck : jump.Leads "Load" "Check" := ⟨_, List.mem_cons_self, rfl, rfl⟩
  have hpublish : jump.Leads "Check" "Publish" :=
    ⟨_, List.mem_cons_of_mem _ List.mem_cons_self, rfl, rfl⟩
  have hreached : jump.Reaches "Publish" := ⟨"Load", rfl, (Relation.ReflTransGen.single hcheck).tail
    hpublish⟩
  -- The output is stored by the node listed last, and the flow ends in another one.
  obtain ⟨b, e, he, hsource, -⟩ := h.followsList.goes_on _ _ hlisted hreached
  have hends : ∀ e ∈ jump.resolvedEdges, e.source ≠ "Publish" := by decide
  exact hends e he hsource

end WorkflowSpec

end AgentFlow

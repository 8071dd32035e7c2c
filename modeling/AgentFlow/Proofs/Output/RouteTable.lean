import AgentFlow.Output.Flow
import AgentFlow.Proofs.Output.OneLine

/-!
# The tables of the generated flow

The file of the flow states its nodes and their routes as two tables.  This file reads the tables
back from the text of the file, as the language of the file reads them, and says what they hold for
a valid specification.

* `tokens?`, `entry?`, `nodeKey?`: a line of a table as tokens, and what the tokens state.
* `readNodes?`, `readRoutes?`: the two tables of a file.
* `readNodes?_flowFile`, `readRoutes?_flowFile`: **they read back what was written.**
* `flowFile_routes`: every transition stands in the entry of its source and nowhere else, no action
  hides another one, and only the way to the error handler is added.
-/

namespace AgentFlow

open Text Output

/-! ### Tokens -/

/-- A piece of a line: a text between quotes, or a sign outside of them. -/
inductive Token where
  | text (s : String)
  | sign (c : Char)
  deriving DecidableEq

/-- The tokens of a line, where `inside` holds the characters of an open text in reverse.  Blanks
between tokens are dropped; a text with an escape is refused. -/
def tokens? (inside : Option (List Char)) : List Char → Option (List Token)
  | [] => if inside.isNone then some [] else none
  | c :: rest =>
    match inside with
    | none =>
      if c == '"' then tokens? (some []) rest
      else if c == ' ' then tokens? none rest
      else (tokens? none rest).map (.sign c :: ·)
    | some before =>
      if c == '"' then (tokens? none rest).map (.text (String.ofList before.reverse) :: ·)
      else if c == '\\' then none
      else tokens? (some (c :: before)) rest

/-- The text `cs` gives the tokens `ts`, whatever follows. -/
def Gives (cs : List Char) (ts : List Token) : Prop :=
  ∀ rest, tokens? none (cs ++ rest) = (tokens? none rest).map (ts ++ ·)

theorem Gives.append {as bs : List Char} {us vs : List Token} (ha : Gives as us)
    (hb : Gives bs vs) : Gives (as ++ bs) (us ++ vs) := by
  intro rest
  rw [List.append_assoc, ha, hb, Option.map_map]
  exact congrArg (Option.map · _) (funext fun ts => (List.append_assoc us vs ts).symm)

theorem gives_nil : Gives [] [] := by
  intro rest
  cases h : tokens? none rest <;> simp [h]

theorem gives_blank : Gives [' '] [] := by
  intro rest
  rw [List.singleton_append, tokens?, if_neg (by decide), if_pos (by decide)]
  exact gives_nil rest

theorem gives_sign {c : Char} (hq : c ≠ '"') (hb : c ≠ ' ') : Gives [c] [.sign c] := by
  intro rest
  rw [List.singleton_append, tokens?, if_neg (by simpa using hq), if_neg (by simpa using hb)]
  rfl

/-- A whole line gives its tokens and nothing else. -/
theorem Gives.tokens?_eq {cs : List Char} {ts : List Token} (h : Gives cs ts) :
    tokens? none cs = some ts := by
  have := h []
  rw [List.append_nil] at this
  rw [this, tokens?]
  simp

/-- Names and labels stand between quotes as they are. -/
def Plain (s : String) : Prop := ∀ c ∈ s.toList, isLabelChar c = true

theorem quotedChar_of_isLabelChar {c : Char} (h : isLabelChar c = true) : quotedChar c = [c] := by
  have hge : ¬ c.toNat < 0x20 := by
    rw [isLabelChar, Bool.or_eq_true] at h
    rcases h with h | h
    · have := toNat_of_isNameChar h; omega
    · rw [beq_iff_eq.mp h]; decide
  have hne : ∀ d, isLabelChar d = false → (c == d) = false := fun d hd =>
    beq_false_of_ne (ne_of_isLabelChar h hd)
  rw [quotedChar, hne '"' (by decide), hne '\\' (by decide), hne '\x08' (by decide),
    hne '\x0c' (by decide), hne '\n' (by decide), hne '\r' (by decide), hne '\t' (by decide),
    if_neg hge]
  rfl

theorem quotedChars_of_isLabelChar {cs : List Char} (h : ∀ c ∈ cs, isLabelChar c = true) :
    quotedChars cs = cs := by
  induction cs with
  | nil => rfl
  | cons c rest ih =>
    rw [List.forall_mem_cons] at h
    rw [quotedChars, List.flatMap_cons, quotedChar_of_isLabelChar h.1, List.singleton_append]
    exact congrArg (c :: ·) (ih h.2)

theorem toList_quoted {s : String} (h : Plain s) :
    (quoted s).toList = '"' :: s.toList ++ ['"'] := by
  rw [quoted, String.toList_ofList, quotedChars_of_isLabelChar h]

theorem oneLine_quoted {s : String} (h : Plain s) : OneLine (quoted s) := by
  have hs : OneLine s := oneLine_of_not_isBlank fun c hc => not_isBlank_of_isLabelChar (h c hc)
  rw [oneLine_iff] at hs ⊢
  rw [toList_quoted h, List.cons_append, List.forall_mem_cons, List.forall_mem_append]
  exact ⟨by decide, hs, by decide⟩

theorem tokens?_inside {cs : List Char} (h : ∀ c ∈ cs, isLabelChar c = true)
    (before rest : List Char) :
    tokens? (some before) (cs ++ '"' :: rest) =
      (tokens? none rest).map (.text (String.ofList (before.reverse ++ cs)) :: ·) := by
  induction cs generalizing before with
  | nil => rw [List.nil_append, tokens?, if_pos (by decide), List.append_nil]
  | cons c cs ih =>
    rw [List.forall_mem_cons] at h
    have hq : c ≠ '"' := ne_of_isLabelChar h.1 (by decide)
    have hb : c ≠ '\\' := ne_of_isLabelChar h.1 (by decide)
    rw [List.cons_append, tokens?, if_neg (by simpa using hq), if_neg (by simpa using hb), ih h.2]
    simp

theorem gives_quoted {s : String} (h : Plain s) : Gives (quoted s).toList [.text s] := by
  intro rest
  rw [toList_quoted h, List.append_assoc, List.cons_append, tokens?, if_pos (by decide),
    List.singleton_append, tokens?_inside h, List.reverse_nil, List.nil_append,
    String.ofList_toList]
  rfl

/-! ### What a line states -/

/-- The routes up to the end of the table of a node. -/
def routes? : List Token → Option (List (String × String))
  | [.text action, .sign ':', .text target, .sign '\x7d', .sign ','] => some [(action, target)]
  | .text action :: .sign ':' :: .text target :: .sign ',' :: rest =>
    (routes? rest).map ((action, target) :: ·)
  | _ => none

/-- The node and the routes that a line of the table of routes states. -/
def entry? : List Token → Option (String × List (String × String))
  | .text node :: .sign ':' :: .sign '\x7b' :: rest => (routes? rest).map (node, ·)
  | _ => none

/-- The key that a line of the table of nodes states; its value is made by the class of the same
name. -/
def nodeKey? : List Token → Option String
  | .text node :: .sign ':' :: rest =>
    if rest = (node.toList ++ ['(', ')', ',']).map .sign then some node else none
  | _ => none

def routeTokens : List (String × String) → List Token
  | [] => [.sign '\x7d', .sign ',']
  | [r] => [.text r.1, .sign ':', .text r.2, .sign '\x7d', .sign ',']
  | r :: more => .text r.1 :: .sign ':' :: .text r.2 :: .sign ',' :: routeTokens more

theorem routes?_routeTokens {rs : List (String × String)} (h : rs ≠ []) :
    routes? (routeTokens rs) = some rs := by
  induction rs with
  | nil => exact absurd rfl h
  | cons r more ih =>
    cases more with
    | nil => rfl
    | cons r' rest =>
      rw [routeTokens, routes?, ih (List.cons_ne_nil r' rest)]
      · rfl
      · exact fun h => List.cons_ne_nil r' rest h

/-! ### What the lines of the tables give -/

theorem gives_indent (n : Nat) : Gives (List.replicate n ' ') [] := by
  induction n with
  | zero => exact gives_nil
  | succ n ih => exact gives_blank.append ih

theorem gives_colon : Gives ": ".toList [.sign ':'] :=
  (gives_sign (by decide) (by decide)).append gives_blank

theorem gives_comma : Gives ", ".toList [.sign ','] :=
  (gives_sign (by decide) (by decide)).append gives_blank

theorem gives_closing : Gives "\x7d,".toList [.sign '\x7d', .sign ','] :=
  (gives_sign (by decide) (by decide)).append (gives_sign (by decide) (by decide))

def routeText (r : String × String) : String := quoted r.1 ++ ": " ++ quoted r.2

/-- Both the action and the target of a route are plain. -/
def PlainRoute (r : String × String) : Prop := Plain r.1 ∧ Plain r.2

theorem plainRoute_error : PlainRoute (errorAction, errorHandler) := by
  constructor <;> unfold Plain <;> decide

theorem gives_routeText {r : String × String} (h : PlainRoute r) :
    Gives (routeText r).toList [.text r.1, .sign ':', .text r.2] := by
  rw [routeText, String.toList_append, String.toList_append]
  exact ((gives_quoted h.1).append gives_colon).append (gives_quoted h.2)

theorem gives_routes {rs : List (String × String)} (hne : rs ≠ [])
    (h : ∀ r ∈ rs, PlainRoute r) :
    Gives (commas (rs.map routeText) ++ "\x7d,").toList (routeTokens rs) := by
  induction rs with
  | nil => exact absurd rfl hne
  | cons r more ih =>
    rw [List.forall_mem_cons] at h
    cases more with
    | nil =>
      rw [String.toList_append]
      exact (gives_routeText h.1).append gives_closing
    | cons r' rest =>
      rw [commas, List.map_cons, List.map_cons, String.intercalate_cons_cons, String.append_assoc,
        String.append_assoc, String.toList_append, String.toList_append]
      exact (gives_routeText h.1).append
        (gives_comma.append (ih (List.cons_ne_nil r' rest) h.2))

theorem routeLine_eq (e : String × List (String × String)) : WorkflowSpec.routeLine e =
    "            " ++ quoted e.1 ++ ": \x7b" ++ commas (e.2.map routeText) ++ "\x7d," := rfl

/-- **A line of the table of routes states its entry.** -/
theorem entry?_routeLine {e : String × List (String × String)} (hname : Plain e.1)
    (hne : e.2 ≠ []) (h : ∀ r ∈ e.2, PlainRoute r) :
    (tokens? none (WorkflowSpec.routeLine e).toList).bind entry? = some e := by
  have hgives : Gives (WorkflowSpec.routeLine e).toList
      (.text e.1 :: .sign ':' :: .sign '\x7b' :: routeTokens e.2) := by
    have hopen : Gives ": \x7b".toList [.sign ':', .sign '\x7b'] :=
      gives_colon.append (gives_sign (by decide) (by decide))
    have hline : (WorkflowSpec.routeLine e).toList = List.replicate 12 ' ' ++
        (quoted e.1).toList ++ ": \x7b".toList ++
        (commas (e.2.map routeText) ++ "\x7d,").toList := by
      simp [routeLine_eq, List.replicate]
    rw [hline]
    exact (((gives_indent 12).append (gives_quoted hname)).append hopen).append (gives_routes hne h)
  rw [hgives.tokens?_eq, Option.bind_some, entry?, routes?_routeTokens hne]
  rfl

def nodeLine (name : String) : String := "            " ++ quoted name ++ ": " ++ name ++ "(),"

theorem nodeLine_eq (name : String) :
    nodeLine name = "            " ++ quoted name ++ ": " ++ name ++ "()," := rfl

theorem gives_name {cs : List Char} (h : ∀ c ∈ cs, isNameChar c = true) :
    Gives cs (cs.map .sign) := by
  induction cs with
  | nil => exact gives_nil
  | cons c rest ih =>
    rw [List.forall_mem_cons] at h
    exact (gives_sign (ne_of_isNameChar h.1 (by decide)) (ne_of_isNameChar h.1 (by decide))).append
      (ih h.2)

theorem IsNodeName.plain {s : String} (h : IsNodeName s) : Plain s := fun c hc =>
  isLabelChar_of_isNameChar (h.nameChar c hc)

/-- **A line of the table of nodes states its key.** -/
theorem nodeKey?_nodeLine {name : String} (h : IsNodeName name) :
    (tokens? none (nodeLine name).toList).bind nodeKey? = some name := by
  have hcall : Gives "(),".toList (['(', ')', ','].map .sign) :=
    (gives_sign (by decide) (by decide)).append
      ((gives_sign (by decide) (by decide)).append (gives_sign (by decide) (by decide)))
  have hgives : Gives (nodeLine name).toList
      (.text name :: .sign ':' :: (name.toList ++ ['(', ')', ',']).map .sign) := by
    have hline : (nodeLine name).toList = List.replicate 12 ' ' ++ (quoted name).toList ++
        ": ".toList ++ name.toList ++ "(),".toList := by
      simp [nodeLine_eq, List.replicate]
    have := ((((gives_indent 12).append (gives_quoted h.plain)).append gives_colon).append
      (gives_name h.nameChar)).append hcall
    rw [hline, List.map_append]
    simpa using this
  rw [hgives.tokens?_eq, Option.bind_some, nodeKey?, if_pos rfl]

/-! ### Tables in a file -/

def nodesStart : String := "        self.nodes = \x7b"

def routesStart : String := "        self.edges = \x7b"

def tableEnd : String := "        \x7d"

def tableLines (opening : String) (lines : List String) : List String :=
  ((lines.dropWhile (· != opening)).drop 1).takeWhile (· != tableEnd)

def readTable? {α : Type} (read : List Token → Option α) (opening file : String) :
    Option (List α) :=
  (tableLines opening (lines file)).mapM fun l => (tokens? none l.toList).bind read

def readNodes? (file : String) : Option (List String) :=
  readTable? nodeKey? nodesStart file

def readRoutes? (file : String) : Option (List (String × List (String × String))) :=
  readTable? entry? routesStart file

theorem tableLines_eq {opening : String} {before body after : List String}
    (hbefore : ∀ l ∈ before, l ≠ opening) (hbody : ∀ l ∈ body, l ≠ tableEnd) :
    tableLines opening (before ++ opening :: (body ++ tableEnd :: after)) = body := by
  have hb : ∀ l ∈ before, (l != opening) = true := fun l hl => by simpa using hbefore l hl
  have hc : ∀ l ∈ body, (l != tableEnd) = true := fun l hl => by simpa using hbody l hl
  rw [tableLines, List.dropWhile_append_of_pos hb, List.dropWhile_cons_of_neg (by simp),
    List.drop_one, List.tail_cons, List.takeWhile_append_of_pos hc,
    List.takeWhile_cons_of_neg (by simp), List.append_nil]

/-- A table whose lines are written from items is read as these items. -/
theorem readTable?_eq {α : Type} {read : List Token → Option α} {write : α → String}
    {opening file : String} {items : List α}
    (hlines : tableLines opening (lines file) = items.map write)
    (h : ∀ x ∈ items, (tokens? none (write x).toList).bind read = some x) :
    readTable? read opening file = some items := by
  rw [readTable?, hlines]
  clear hlines
  induction items with
  | nil => rfl
  | cons x rest ih =>
    rw [List.forall_mem_cons] at h
    rw [List.map_cons, List.mapM_cons, h.1, ih h.2]
    rfl

namespace WorkflowSpec

variable (w : WorkflowSpec)

/-- The file of the flow up to its tables. -/
def flowHead : List String :=
  [docString ("Flow graph for " ++ docText w.name ++ "."),
    "",
    "from pocketflow import " ++ w.flowBase,
    "",
    "from nodes import " ++ commas w.nodeNames,
    "",
    "",
    "class " ++ w.flowClass ++ ":",
    "    " ++ docString ("Wires the " ++ docText w.name ++ " nodes into a flow graph."),
    "",
    "    def __init__(self):"]

/-- The file of the flow after its tables. -/
def flowTail : List String :=
  ["",
    "    def build(self):",
    "        \"\"\"Connect nodes by action and return the runnable flow.\"\"\"",
    "        for source, routes in self.edges.items():",
    "            for action, target in routes.items():",
    "                if target == " ++ quoted errorHandler ++ ":",
    "                    continue",
    "                self.nodes[source] - action >> self.nodes[target]",
    "        return " ++ w.flowBase ++ "(start=self.nodes[" ++
      quoted ((w.nodes.head?.map (·.name)).getD "") ++ "])",
    "",
    "    def " ++ errorHandler ++ "(self, shared, error):",
    "        \"\"\"Record a failed step in the shared store.\"\"\"",
    "        shared[\"error\"] = str(error)",
    "        return \"error\"",
    ""] ++
  w.runLines

/-- The lines of the file of the flow: the two tables and what stands around them. -/
def flowLines : List String :=
  w.flowHead ++ nodesStart :: (w.nodeNames.map nodeLine ++ tableEnd ::
    routesStart :: (w.routeTable.map routeLine ++ tableEnd :: w.flowTail))

theorem flowFile_eq : w.flowFile = unlines w.flowLines := by
  simp [flowFile, flowLines, flowHead, flowTail, nodesStart, routesStart, tableEnd, nodeNames,
    nodeLine_eq, Function.comp_def]

/-! ### Lines of the file -/

variable {w}

theorem flowHead_ne : ∀ l ∈ w.flowHead, l ≠ nodesStart ∧ l ≠ routesStart := by
  simp only [flowHead, docString, List.forall_mem_cons, nodesStart, routesStart]
  refine ⟨⟨?_, ?_⟩, by decide, ⟨?_, ?_⟩, by decide, ⟨?_, ?_⟩, by decide, by decide, ⟨?_, ?_⟩,
    ⟨?_, ?_⟩, by decide, by decide, fun l hl => absurd hl List.not_mem_nil⟩ <;>
    simp [← String.toList_inj]

theorem nodeLine_ne (name : String) :
    nodeLine name ≠ tableEnd ∧ nodeLine name ≠ routesStart := by
  simp [nodeLine_eq, tableEnd, routesStart, ← String.toList_inj]

theorem routeLine_ne (e : String × List (String × String)) : routeLine e ≠ tableEnd := by
  simp [routeLine_eq, tableEnd, ← String.toList_inj]

theorem oneLine_flowBase : OneLine w.flowBase := by
  rw [flowBase]
  split <;> decide

theorem Valid.oneLine_flowHead (h : w.Valid) : ∀ l ∈ w.flowHead, OneLine l := by
  have hnames : OneLine (commas w.nodeNames) :=
    oneLine_intercalate (by decide) fun s hs => (h.isNodeName hs).oneLine
  simp only [flowHead, docString, List.forall_mem_cons, List.not_mem_nil, false_imp_iff,
    implies_true, oneLine_append, oneLine_docText, hnames, oneLine_flowBase, oneLine_flowClass,
    and_true, and_assoc]
  repeat refine ⟨oneLine_ofList (by decide), ?_⟩
  exact oneLine_ofList (by decide)

theorem oneLine_errorHandler : OneLine errorHandler := oneLine_ofList (by decide)

theorem oneLine_runLines : ∀ l ∈ w.runLines, OneLine l := by
  unfold runLines
  cases w.hasAsync <;>
    simp only [if_true, if_false, Bool.false_eq_true, List.forall_mem_cons, List.not_mem_nil,
      false_imp_iff, implies_true, oneLine_append, oneLine_errorHandler, and_true, and_assoc] <;>
    (repeat refine ⟨oneLine_ofList (by decide), ?_⟩) <;>
    exact oneLine_ofList (by decide)

theorem Valid.oneLine_flowTail (h : w.Valid) : ∀ l ∈ w.flowTail, OneLine l := by
  have hstart : OneLine (quoted ((w.nodes.head?.map (·.name)).getD "")) := by
    cases hn : w.nodes with
    | nil => exact absurd hn h.nodes_ne_nil
    | cons n rest =>
      exact oneLine_quoted (h.nodeNames n (by rw [hn]; exact List.mem_cons_self)).plain
  have hhandler : OneLine (quoted errorHandler) := oneLine_quoted plainRoute_error.2
  rw [flowTail, List.forall_mem_append]
  refine ⟨?_, oneLine_runLines⟩
  simp only [List.forall_mem_cons, List.not_mem_nil, false_imp_iff, implies_true, oneLine_append,
    oneLine_flowBase, hstart, hhandler, oneLine_errorHandler, and_true, and_assoc]
  repeat refine ⟨oneLine_ofList (by decide), ?_⟩
  exact oneLine_ofList (by decide)

/-! ### Routes -/

/-- An action leads from a node to a target if a transition says so, and `error` always leads to the
error handler. -/
theorem mem_routes {node action target : String} :
    (action, target) ∈ w.routes node ↔
      ⟨node, target, action⟩ ∈ w.resolvedEdges ∨ action = errorAction ∧ target = errorHandler := by
  rw [routes, List.mem_append, List.mem_singleton, Prod.mk.injEq, List.mem_map]
  constructor
  · rintro (⟨e, he, hr⟩ | h)
    · obtain ⟨rfl, rfl⟩ := Prod.mk.inj hr
      obtain ⟨hmem, hs⟩ := List.mem_filter.mp he
      rw [← beq_iff_eq.mp hs]
      exact .inl hmem
    · exact .inr h
  · rintro (h | h)
    · exact .inl ⟨⟨node, target, action⟩, List.mem_filter.mpr ⟨h, beq_self_eq_true node⟩, rfl⟩
    · exact .inr h

theorem routes_ne_nil (node : String) : w.routes node ≠ [] :=
  List.append_ne_nil_of_right_ne_nil _ (List.cons_ne_nil _ _)

theorem Valid.plainRoute (h : w.Valid) {node : String} {r : String × String}
    (hr : r ∈ w.routes node) : PlainRoute r := by
  rcases mem_routes.mp hr with he | ⟨ha, ht⟩
  · have hv := h.resolvedEdge he
    exact ⟨(labelChar_of_isActionLabel hv.action).2, (h.isNodeName hv.target).plain⟩
  · have : r = (errorAction, errorHandler) := Prod.ext ha ht
    exact this ▸ plainRoute_error

/-- No action of a node hides another one. -/
theorem Valid.nodup_actions (h : w.Valid) (node : String) :
    ((w.routes node).map (·.1)).Nodup := by
  rw [routes, List.map_append, List.map_map]
  refine List.nodup_append.mpr ⟨?_, List.nodup_cons.mpr ⟨List.not_mem_nil, List.nodup_nil⟩, ?_⟩
  · have htriggers := List.pairwise_map.mp h.nodup_resolvedTriggers
    refine List.pairwise_map.mpr ((htriggers.sublist List.filter_sublist).imp_of_mem ?_)
    -- Two transitions of one node differ in their actions, since they differ in what takes them.
    intro d e hd he hne heq
    have hsource : d.source = e.source :=
      (beq_iff_eq.mp (List.mem_filter.mp hd).2).trans (beq_iff_eq.mp (List.mem_filter.mp he).2).symm
    exact hne (Prod.ext hsource heq)
  · intro a ha b hb
    obtain ⟨e, he, rfl⟩ := List.mem_map.mp ha
    rw [List.mem_singleton.mp hb]
    exact (h.resolvedEdge (List.mem_filter.mp he).1).ne_error

theorem Valid.entry?_routeLine (h : w.Valid) {e : String × List (String × String)}
    (he : e ∈ w.routeTable) : (tokens? none (routeLine e).toList).bind entry? = some e := by
  obtain ⟨n, hn, rfl⟩ := List.mem_map.mp he
  exact AgentFlow.entry?_routeLine (h.nodeNames n hn).plain (routes_ne_nil n.name)
    fun r hr => h.plainRoute hr

theorem Valid.oneLine_routeLine (h : w.Valid) {e : String × List (String × String)}
    (he : e ∈ w.routeTable) : OneLine (routeLine e) := by
  obtain ⟨n, hn, rfl⟩ := List.mem_map.mp he
  have hroutes : OneLine (commas ((w.routes n.name).map routeText)) := by
    refine oneLine_intercalate (by decide) fun t ht => ?_
    obtain ⟨r, hr, rfl⟩ := List.mem_map.mp ht
    have hp := h.plainRoute hr
    simp only [routeText, oneLine_append, oneLine_quoted hp.1, oneLine_quoted hp.2, true_and,
      and_true]
    decide
  have hname := oneLine_quoted (h.nodeNames n hn).plain
  rw [routeLine_eq, oneLine_append, oneLine_append, oneLine_append, oneLine_append]
  exact ⟨⟨⟨⟨oneLine_ofList (by decide), hname⟩, oneLine_ofList (by decide)⟩, hroutes⟩,
    oneLine_ofList (by decide)⟩

/-! ### Reading the tables back -/

theorem Valid.lines_flowFile (h : w.Valid) : lines w.flowFile = w.flowLines := by
  rw [flowFile_eq]
  refine lines_unlines ?_
  simp only [flowLines, List.forall_mem_append, List.forall_mem_cons]
  refine ⟨h.oneLine_flowHead, by decide, ?_, by decide, by decide, ?_, by decide,
    h.oneLine_flowTail⟩
  · intro l hl
    obtain ⟨name, hname, rfl⟩ := List.mem_map.mp hl
    have hn := h.isNodeName hname
    simp only [nodeLine_eq, oneLine_append, oneLine_quoted hn.plain, hn.oneLine, and_true]
    decide
  · intro l hl
    obtain ⟨e, he, rfl⟩ := List.mem_map.mp hl
    exact h.oneLine_routeLine he

/-- **The table of nodes reads back as the names of the nodes.** -/
theorem Valid.readNodes?_flowFile (h : w.Valid) : readNodes? w.flowFile = some w.nodeNames := by
  have hbody : ∀ l ∈ w.nodeNames.map nodeLine, l ≠ tableEnd := by
    intro l hl
    obtain ⟨name, _, rfl⟩ := List.mem_map.mp hl
    exact (nodeLine_ne name).1
  have hlines : tableLines nodesStart (lines w.flowFile) = w.nodeNames.map nodeLine := by
    rw [h.lines_flowFile, flowLines]
    exact tableLines_eq (fun l hl => (flowHead_ne l hl).1) hbody
  exact readTable?_eq hlines fun name hname => nodeKey?_nodeLine (h.isNodeName hname)

/-- **The table of routes reads back entry by entry.** -/
theorem Valid.readRoutes?_flowFile (h : w.Valid) :
    readRoutes? w.flowFile = some w.routeTable := by
  have hbefore : ∀ l ∈ w.flowHead ++ nodesStart :: (w.nodeNames.map nodeLine ++ [tableEnd]),
      l ≠ routesStart := by
    simp only [List.forall_mem_append, List.forall_mem_cons]
    refine ⟨fun l hl => (flowHead_ne l hl).2, by decide, ?_, by decide,
      fun l hl => absurd hl List.not_mem_nil⟩
    intro l hl
    obtain ⟨name, _, rfl⟩ := List.mem_map.mp hl
    exact (nodeLine_ne name).2
  have hbody : ∀ l ∈ w.routeTable.map routeLine, l ≠ tableEnd := by
    intro l hl
    obtain ⟨e, _, rfl⟩ := List.mem_map.mp hl
    exact routeLine_ne e
  have hsplit : w.flowLines = (w.flowHead ++ nodesStart :: (w.nodeNames.map nodeLine ++ [tableEnd]))
      ++ routesStart :: (w.routeTable.map routeLine ++ tableEnd :: w.flowTail) := by
    simp only [flowLines, List.append_assoc, List.cons_append, List.nil_append]
  have hlines : tableLines routesStart (lines w.flowFile) = w.routeTable.map routeLine := by
    rw [h.lines_flowFile, hsplit]
    exact tableLines_eq hbefore hbody
  exact readTable?_eq hlines fun e he => h.entry?_routeLine he

/-! ### What the tables hold -/

variable (w) in
/-- What the keys of the table of nodes and the entries of the table of routes say about the nodes
and transitions of a specification. -/
structure RoutesOf (keys : List String) (table : List (String × List (String × String))) :
    Prop where
  keys_eq : keys = w.nodeNames
  handler_not_key : errorHandler ∉ keys
  entries_eq : table.map (·.1) = w.nodeNames
  nodup_entries : (table.map (·.1)).Nodup
  nodup_actions : ∀ entry ∈ table, (entry.2.map (·.1)).Nodup
  /-- An entry holds the transitions of its node and the way to the error handler. -/
  mem_entry : ∀ entry ∈ table, ∀ action target, (action, target) ∈ entry.2 ↔
    ⟨entry.1, target, action⟩ ∈ w.resolvedEdges ∨ action = errorAction ∧ target = errorHandler
  target_mem : ∀ entry ∈ table, ∀ r ∈ entry.2, r.1 ≠ errorAction → r.2 ∈ keys
  /-- Every transition stands in the entry of its source. -/
  edge_mem : ∀ e ∈ w.resolvedEdges, ∃ routes, (e.source, routes) ∈ table ∧
    (e.action, e.target) ∈ routes

theorem mem_routeTable {entry : String × List (String × String)} :
    entry ∈ w.routeTable ↔ entry.1 ∈ w.nodeNames ∧ entry.2 = w.routes entry.1 := by
  rw [routeTable, List.mem_map, nodeNames, List.mem_map]
  constructor
  · rintro ⟨n, hn, rfl⟩
    exact ⟨⟨n, hn, rfl⟩, rfl⟩
  · rintro ⟨⟨n, hn, hname⟩, hroutes⟩
    exact ⟨n, hn, Prod.ext hname (by rw [hroutes, ← hname])⟩

theorem routeTable_keys : w.routeTable.map (·.1) = w.nodeNames := by
  rw [routeTable, List.map_map]
  rfl

/-- The routes of a valid specification are complete, and nothing else stands in them. -/
theorem Valid.routesOf (h : w.Valid) : w.RoutesOf w.nodeNames w.routeTable where
  keys_eq := rfl
  handler_not_key := fun hmem => (h.isNodeName hmem).ne_handler rfl
  entries_eq := routeTable_keys
  nodup_entries := routeTable_keys ▸ h.nodup_nodeNames
  nodup_actions := by
    intro entry hentry
    rw [(mem_routeTable.mp hentry).2]
    exact h.nodup_actions entry.1
  mem_entry := by
    intro entry hentry action target
    rw [(mem_routeTable.mp hentry).2]
    exact mem_routes
  target_mem := by
    intro entry hentry r hr hne
    rw [(mem_routeTable.mp hentry).2] at hr
    rcases mem_routes.mp hr with he | ⟨ha, _⟩
    · exact (h.resolvedEdge he).target
    · exact absurd ha hne
  edge_mem := by
    intro e he
    exact ⟨w.routes e.source, mem_routeTable.mpr ⟨(h.resolvedEdge he).source, rfl⟩,
      mem_routes.mpr (.inl he)⟩

/-- **The file of the flow states every transition once, at its source, and hides none.** -/
theorem flowFile_routes (h : w.validate = .ok ()) :
    ∃ keys table, readNodes? w.flowFile = some keys ∧ readRoutes? w.flowFile = some table ∧
      w.RoutesOf keys table := by
  have hv := validate_eq_ok_iff.mp h
  exact ⟨w.nodeNames, w.routeTable, hv.readNodes?_flowFile, hv.readRoutes?_flowFile, hv.routesOf⟩

theorem flowFile_routes_reviewLoop :
    reviewLoop.validate = .ok () ∧ ∃ keys table, readNodes? reviewLoop.flowFile = some keys ∧
      readRoutes? reviewLoop.flowFile = some table ∧ reviewLoop.RoutesOf keys table :=
  ⟨rfl, flowFile_routes rfl⟩

end WorkflowSpec

end AgentFlow

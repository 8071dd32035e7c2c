import AgentFlow.Lint.Rules
import Mathlib.Data.List.Basic

/-!
# Uses of the shared store

A node of a tree is found by its address, the positions of the children that lead to it.  Addresses
in lexicographic order are the nodes in the order of the text, each before its children.

* `Tree.mem_addresses`, `Tree.pairwise_addresses`, `Tree.nodesIn_eq`: the nodes of a tree are those
  at its addresses, in order.
* `UsesShared`: what a use of the shared store is, by the node at an address and the node around it.
* `reports_check`: what a check finds about the shared store.
* `sharedAccesses_exact`: **the uses in a body are listed in order, each once, and a check reports
  exactly the computing methods that have one, at the first.**
-/

namespace AgentFlow.Code.Tree

/-- What holds of a node once it holds of its children holds of every tree. -/
theorem ind {P : Tree → Prop}
    (h : ∀ ty r l m s cs, (∀ c ∈ cs, P c) → P (node ty r l m s cs)) (t : Tree) : P t :=
  Tree.rec h (fun _ hc => absurd hc List.not_mem_nil)
    (fun _ _ ht hts => List.forall_mem_cons.mpr ⟨ht, hts⟩) t

/-! ### Addresses -/

def at? (t : Tree) : List Nat → Option Tree
  | [] => some t
  | k :: p => t.children[k]?.bind (·.at? p)

/-- The node at an address of a tree that stands in `parent`, after the node that it stands in. -/
def place? (t parent : Tree) : List Nat → Option (Tree × Tree)
  | [] => some (parent, t)
  | k :: p => t.children[k]?.bind (·.place? t p)

theorem map_place? (t parent : Tree) (p : List Nat) : (t.place? parent p).map (·.2) = t.at? p := by
  induction p generalizing t parent with
  | nil => rfl
  | cons k p ih =>
    rw [place?, at?]
    cases t.children[k]? with
    | none => rfl
    | some c => exact ih c t

theorem place?_concat (t parent : Tree) (p : List Nat) (k : Nat) :
    t.place? parent (p ++ [k]) = (t.at? p).bind fun u => u.children[k]?.map (u, ·) := by
  induction p generalizing t parent with
  | nil =>
    rw [List.nil_append, place?, at?, Option.bind_some]
    cases t.children[k]? <;> rfl
  | cons j p ih =>
    rw [List.cons_append, place?, at?]
    cases t.children[j]? with
    | none => rfl
    | some c => exact ih c t

mutual

def addresses : Tree → List (List Nat)
  | node _ _ _ _ _ cs => [] :: addressesFrom 0 cs

/-- The addresses of the nodes of several trees, the first of which stands at `k`. -/
def addressesFrom (k : Nat) : List Tree → List (List Nat)
  | [] => []
  | t :: ts => (addresses t).map (k :: ·) ++ addressesFrom (k + 1) ts

end

theorem mem_addressesFrom {ts : List Tree} {k : Nat} {p : List Nat} :
    p ∈ addressesFrom k ts ↔ ∃ j q t, p = (k + j) :: q ∧ ts[j]? = some t ∧ q ∈ t.addresses := by
  induction ts generalizing k with
  | nil => simp [addressesFrom]
  | cons t ts ih =>
    rw [addressesFrom, List.mem_append, List.mem_map, ih]
    constructor
    · rintro (⟨q, hq, rfl⟩ | ⟨j, q, u, rfl, hu, hq⟩)
      · exact ⟨0, q, t, rfl, rfl, hq⟩
      · exact ⟨j + 1, q, u, by rw [Nat.add_right_comm, Nat.add_assoc], hu, hq⟩
    · rintro ⟨j, q, u, rfl, hu, hq⟩
      cases j with
      | zero =>
        obtain rfl : t = u := by simpa using hu
        exact .inl ⟨q, hq, rfl⟩
      | succ j =>
        exact .inr ⟨j, q, u, by rw [Nat.add_right_comm, Nat.add_assoc], by simpa using hu, hq⟩

/-- **The addresses are those of the nodes.** -/
theorem mem_addresses {t : Tree} {p : List Nat} : p ∈ t.addresses ↔ (t.at? p).isSome := by
  induction p generalizing t with
  | nil =>
    obtain ⟨ty, r, l, m, s, cs⟩ := t
    simp [addresses, at?]
  | cons k p ih =>
    obtain ⟨ty, r, l, m, s, cs⟩ := t
    rw [addresses, List.mem_cons, mem_addressesFrom, at?, children]
    cases hk : cs[k]? with
    | none => simp [hk]
    | some c => simp [hk, ih]

/-- **The addresses are in lexicographic order**, so that each occurs once. -/
theorem pairwise_addresses (t : Tree) : t.addresses.Pairwise (· < ·) := by
  induction t using Tree.ind with
  | h ty r l m s cs ih =>
    have hfrom : ∀ k (ts : List Tree), (∀ t ∈ ts, t.addresses.Pairwise (· < ·)) →
        (addressesFrom k ts).Pairwise (· < ·) := by
      intro k ts
      induction ts generalizing k with
      | nil => exact fun _ => .nil
      | cons t ts ihts =>
        intro hall
        rw [List.forall_mem_cons] at hall
        rw [addressesFrom, List.pairwise_append, List.pairwise_map]
        refine ⟨hall.1.imp List.cons_lt_cons_self.mpr, ihts _ hall.2, fun p hp q hq => ?_⟩
        obtain ⟨p', -, rfl⟩ := List.mem_map.mp hp
        obtain ⟨j, q', u, rfl, -⟩ := mem_addressesFrom.mp hq
        exact List.cons_lt_cons_iff.mpr (.inl (by omega))
    rw [addresses, List.pairwise_cons]
    refine ⟨fun p hp => ?_, hfrom 0 cs ih⟩
    obtain ⟨j, q, t, rfl, -⟩ := mem_addressesFrom.mp hp
    exact List.nil_lt_cons _ _

/-- **The nodes are read in the order of their addresses.** -/
theorem nodesOnto_eq (after : List (Tree × Tree)) (parent t : Tree) :
    nodesOnto after parent t = t.addresses.filterMap (t.place? parent) ++ after := by
  induction t using Tree.ind generalizing after parent with
  | h ty r l m s cs ih =>
    have hall : ∀ (before ts : List Tree), cs = before ++ ts →
        nodesOntoAll after (node ty r l m s cs) ts =
          (addressesFrom before.length ts).filterMap ((node ty r l m s cs).place? parent) ++
            after := by
      intro before ts
      induction ts generalizing before with
      | nil => exact fun _ => rfl
      | cons t ts ihts =>
        intro hcs
        have hchild : cs[before.length]? = some t := by simp [hcs]
        have hplace : ∀ p, (node ty r l m s cs).place? parent (before.length :: p) =
            t.place? (node ty r l m s cs) p := by
          intro p
          rw [place?, children, hchild]
          rfl
        have hrest := ihts (before ++ [t]) (by simpa using hcs)
        rw [List.length_append, List.length_singleton] at hrest
        rw [nodesOntoAll, ih t (by simp [hcs]), hrest, addressesFrom, List.filterMap_append,
          List.filterMap_map, List.append_assoc]
        simp only [Function.comp_def, hplace]
    rw [nodesOnto, addresses, hall [] cs rfl]
    rfl

theorem nodesIn_eq (t parent : Tree) :
    t.nodesIn parent = t.addresses.filterMap (t.place? parent) := by
  rw [nodesIn, nodesOnto_eq, List.append_nil]

end AgentFlow.Code.Tree

namespace AgentFlow.Lint

open Code

/-! ### Uses in a body -/

/-- The node at an address plays a part in a node of the given type. -/
def PlaysPart (t : Tree) (p : List Nat) (type : NodeType) (role : Role) : Prop :=
  ∃ q k parent n, p = q ++ [k] ∧ t.at? q = some parent ∧ parent.type = type ∧
    t.at? p = some n ∧ n.role = role

/-- The node at an address is a use of the shared store: a name of it that names neither a keyword
argument nor an attribute, or the attribute of `self` with such a name. -/
inductive UsesShared (t : Tree) (p : List Nat) : Located String → Prop
  | name {n : Tree} (hn : t.at? p = some n) (htype : n.type = .identifier)
      (hname : n.text ∈ sharedNames) (hkeyword : ¬PlaysPart t p .keywordArgument .keyword)
      (hattribute : ¬PlaysPart t p .attribute .attribute) : UsesShared t p ⟨n.text, n.line⟩
  | ofSelf {n object key : Tree} (hn : t.at? p = some n) (htype : n.type = .attribute)
      (hobject : n.child? .object = some object) (hself : object.type = .identifier)
      (htext : object.text = "self") (hkey : n.child? .attribute = some key)
      (hname : key.text ∈ sharedNames) : UsesShared t p ⟨"self." ++ key.text, n.line⟩

def useAt? (t parent : Tree) (p : List Nat) : Option (Located String) :=
  (t.place? parent p).bind fun (u, n) => sharedAccess? u n

theorem playsPart_iff {t parent u n : Tree} {p : List Nat} {type : NodeType} {role : Role}
    (h : t.place? parent p = some (u, n)) :
    PlaysPart t p type role ↔ p ≠ [] ∧ u.type = type ∧ n.role = role := by
  have hn : t.at? p = some n := by
    rw [← t.map_place? parent, h]
    rfl
  rcases List.eq_nil_or_concat p with rfl | ⟨q, k, rfl⟩
  · simp [PlaysPart]
  · rw [List.concat_eq_append] at h hn ⊢
    rw [Tree.place?_concat, Option.bind_eq_some_iff] at h
    obtain ⟨w, hw, hchild⟩ := h
    obtain ⟨m, -, hpair⟩ := Option.map_eq_some_iff.mp hchild
    obtain ⟨rfl, rfl⟩ := Prod.mk.inj hpair
    constructor
    · rintro ⟨q', k', u, m, hp, hu, rfl, hm, rfl⟩
      obtain ⟨rfl, -⟩ := List.append_inj' hp rfl
      obtain rfl := Option.some.inj (hw.symm.trans hu)
      obtain rfl := Option.some.inj (hn.symm.trans hm)
      exact ⟨by simp, rfl, rfl⟩
    · rintro ⟨-, rfl, rfl⟩
      exact ⟨q, k, w, _, rfl, hw, rfl, hn, rfl⟩

theorem isReference_iff {t parent u n : Tree} {p : List Nat} (hroot : t.role = .body)
    (h : t.place? parent p = some (u, n)) :
    isReference u n = true ↔
      ¬PlaysPart t p .keywordArgument .keyword ∧ ¬PlaysPart t p .attribute .attribute := by
  rw [playsPart_iff h, playsPart_iff h]
  by_cases hp : p = []
  · subst hp
    obtain ⟨rfl, rfl⟩ := Prod.mk.inj (Option.some.inj h)
    simp only [ne_eq, not_true_eq_false, false_and, not_false_eq_true, and_self, iff_true]
    rw [isReference, hroot]
    split <;> rfl
  · rw [isReference]
    cases htype : u.type <;> simp [hp]

/-- **A reading of the nodes gives exactly the uses.** -/
theorem useAt?_eq_some_iff {t parent : Tree} {p : List Nat} (hroot : t.role = .body)
    {a : Located String} : useAt? t parent p = some a ↔ UsesShared t p a := by
  rw [useAt?, Option.bind_eq_some_iff]
  constructor
  · rintro ⟨⟨u, n⟩, hplace, ha⟩
    have hn : t.at? p = some n := by
      rw [← t.map_place? parent, hplace]
      rfl
    dsimp only [sharedAccess?] at ha
    split at ha
    · next htype =>
      split at ha
      · next hshared =>
        rw [Bool.and_eq_true, isReference_iff hroot hplace] at hshared
        obtain rfl := Option.some.inj ha
        exact .name hn htype (by simpa using hshared.1) hshared.2.1 hshared.2.2
      · exact absurd ha (by simp)
    · next htype =>
      split at ha
      · next object key hobject hkey =>
        split at ha
        · next hshared =>
          simp only [Bool.and_eq_true, beq_iff_eq, List.contains_iff_mem] at hshared
          obtain rfl := Option.some.inj ha
          exact .ofSelf hn htype hobject hshared.1.1 hshared.1.2 hkey hshared.2
        · exact absurd ha (by simp)
      · exact absurd ha (by simp)
    · exact absurd ha (by simp)
  · intro h
    have hplace : ∀ n, t.at? p = some n → ∃ u, t.place? parent p = some (u, n) := by
      intro n hn
      rw [← t.map_place? parent] at hn
      obtain ⟨⟨u, m⟩, hm, rfl⟩ := Option.map_eq_some_iff.mp hn
      exact ⟨u, hm⟩
    cases h with
    | name hn htype hname hkeyword hattribute =>
      obtain ⟨u, hu⟩ := hplace _ hn
      refine ⟨_, hu, ?_⟩
      have hreference := (isReference_iff hroot hu).mpr ⟨hkeyword, hattribute⟩
      dsimp only
      rw [sharedAccess?, htype]
      exact if_pos (by simpa [hreference] using hname)
    | ofSelf hn htype hobject hself htext hkey hname =>
      obtain ⟨u, hu⟩ := hplace _ hn
      refine ⟨_, hu, ?_⟩
      dsimp only
      rw [sharedAccess?, htype, hobject, hkey]
      exact if_pos (by simpa [hself, htext] using hname)

theorem forall₂_filterMap {α β : Type} {f : α → Option β} {R : α → β → Prop}
    (hR : ∀ x y, f x = some y → R x y) (xs : List α) :
    List.Forall₂ R (xs.filter fun x => (f x).isSome) (xs.filterMap f) := by
  induction xs with
  | nil => exact .nil
  | cons x xs ih =>
    cases hx : f x with
    | none => simpa [hx] using ih
    | some y =>
      rw [List.filter_cons_of_pos (by simp [hx]), List.filterMap_cons_some hx]
      exact .cons (hR x y hx) ih

/-- **The uses in the body of a function are listed in order, each once.** -/
theorem sharedAccesses_functionFacts {f body : Tree} (hbody : f.child? .body = some body) :
    ∃ ps : List (List Nat), ps.Pairwise (· < ·) ∧
      List.Forall₂ (UsesShared body) ps (functionFacts f).sharedAccesses ∧
        ∀ p a, UsesShared body p a → p ∈ ps := by
  have hroot : body.role = .body := by
    have := List.find?_some hbody
    simpa using this
  have hlist : (functionFacts f).sharedAccesses = body.addresses.filterMap (useAt? body f) := by
    rw [functionFacts, hbody]
    dsimp only
    rw [Tree.nodesIn_eq, List.filterMap_filterMap]
    rfl
  rw [hlist]
  refine ⟨body.addresses.filter fun p => (useAt? body f p).isSome,
    (Tree.pairwise_addresses body).filter _,
    forall₂_filterMap (fun p a => (useAt?_eq_some_iff hroot).mp) _, fun p a h => ?_⟩
  have hp := (@useAt?_eq_some_iff body f p hroot a).mpr h
  refine List.mem_filter.mpr ⟨?_, by simp [hp]⟩
  rw [Tree.mem_addresses]
  obtain ⟨x, hx, -⟩ := Option.bind_eq_some_iff.mp hp
  rw [← Tree.map_place? body f, hx]
  rfl

/-! ### What a check finds -/

/-- The finding about a computing method whose first use of the shared store is given. -/
def sharedFinding (path : String) (c : ClassFacts) (f : FunctionFacts) (first : Located String) :
    Violation :=
  .of .sharedStateInExec path first.line
    (c.name ++ "." ++ f.name ++ " accesses the shared store (" ++
      commaText (Text.distinctSorted (f.sharedAccesses.map (·.value))) ++ ")")
    "Read inputs in prep, return them, and write results in post"

/-- The computing methods of nodes that use the shared store, with their first uses. -/
def sharingMethods (facts : SourceFacts) : List (ClassFacts × FunctionFacts × Located String) :=
  (facts.classes.filter (·.isNode)).flatMap fun c =>
    (c.methods.filter fun f => f.name == "exec" || f.name == "exec_async").filterMap fun f =>
      f.sharedAccesses.head?.map (c, f, ·)

def isSharedFinding (v : Violation) : Bool := v.ruleId == Rule.sharedStateInExec.id

/-- Among the findings `vs` those about the shared store are `xs`, and no others are critical. -/
structure Reports (vs xs : List Violation) : Prop where
  findings : vs.filter isSharedFinding = xs
  critical : ∀ v ∈ vs, v.severity = .critical → isSharedFinding v = true

theorem reports_nil : Reports [] [] := ⟨rfl, fun _ hv => absurd hv List.not_mem_nil⟩

theorem reports_other {r : Rule} {severity : Severity} (hr : r ≠ .sharedStateInExec)
    (hseverity : severity ≠ .critical) {path message suggestion : String} {line : Nat} :
    Reports [.withSeverity r severity path line message suggestion] [] := by
  have hids : ∀ r : Rule, r ≠ .sharedStateInExec → (r.id == Rule.sharedStateInExec.id) = false := by
    intro r
    cases r <;> decide
  refine ⟨List.filter_cons_of_neg (by
    simpa [isSharedFinding, Violation.withSeverity] using hids r hr), ?_⟩
  intro v hv hcritical
  obtain rfl := List.mem_singleton.mp hv
  exact absurd hcritical hseverity

theorem Reports.append {vs ws xs ys : List Violation} (hv : Reports vs xs) (hw : Reports ws ys) :
    Reports (vs ++ ws) (xs ++ ys) :=
  ⟨by rw [List.filter_append, hv.findings, hw.findings],
    List.forall_mem_append.mpr ⟨hv.critical, hw.critical⟩⟩

theorem Reports.append_other {vs ws xs : List Violation} (hv : Reports vs xs) (hw : Reports ws []) :
    Reports (vs ++ ws) xs := List.append_nil xs ▸ hv.append hw

theorem Reports.other_append {vs ws xs : List Violation} (hv : Reports vs []) (hw : Reports ws xs) :
    Reports (vs ++ ws) xs := hv.append hw

theorem Reports.flatMap {α : Type} {f g : α → List Violation} {as : List α}
    (h : ∀ a ∈ as, Reports (f a) (g a)) : Reports (as.flatMap f) (as.flatMap g) := by
  induction as with
  | nil => exact reports_nil
  | cons a as ih =>
    rw [List.forall_mem_cons] at h
    exact h.1.append (ih h.2)

theorem Reports.flatMap_other {α : Type} {f : α → List Violation} {as : List α}
    (h : ∀ a ∈ as, Reports (f a) []) : Reports (as.flatMap f) [] := by
  have hnone : as.flatMap (fun _ => ([] : List Violation)) = [] := by simp
  exact hnone ▸ Reports.flatMap h

section Check

variable (path : String) (s : DetectionSettings)

theorem reports_checkExec (c : ClassFacts) (f : FunctionFacts) :
    Reports (checkExec path s c f)
      (f.sharedAccesses.head?.map (sharedFinding path c f)).toList := by
  refine .append_other (.append_other ?_ ?_) (.flatMap_other fun t _ => ?_)
  · unfold sharedFinding
    cases f.sharedAccesses with
    | nil => exact reports_nil
    | cons first rest =>
      refine ⟨rfl, fun v hv _ => ?_⟩
      obtain rfl := List.mem_singleton.mp hv
      rfl
  · split
    · exact reports_other (by decide) (by decide)
    · split
      · exact reports_other (by decide) (by decide)
      · exact reports_nil
  · split
    · exact reports_nil
    · exact reports_other (by decide) (by decide)

theorem reports_checkAround (c : ClassFacts) (f : FunctionFacts) :
    Reports (checkAround path s c f) [] := by
  unfold checkAround
  split
  · exact reports_other (by decide) (by decide)
  · split
    · exact reports_other (by decide) (by decide)
    · exact reports_nil

theorem reports_checkNode (c : ClassFacts) :
    Reports (checkNode path s c)
      ((c.methods.filter fun f => f.name == "exec" || f.name == "exec_async").flatMap fun f =>
        (f.sharedAccesses.head?.map (sharedFinding path c f)).toList) := by
  refine .append_other (.append_other (.other_append ?_ ?_) ?_) ?_
  · split
    · exact reports_other (by decide) (by decide)
    · exact reports_nil
  · exact .flatMap fun f _ => reports_checkExec path s c f
  · exact .flatMap_other fun f _ => reports_checkAround path s c f
  · split
    · exact reports_nil
    · exact reports_other (by decide) (by decide)

theorem reports_checkUtility (f : FunctionFacts) : Reports (checkUtility path s f) [] := by
  refine .append_other ?_ ?_
  · split
    · exact reports_other (by decide) (by decide)
    · exact reports_nil
  · split
    · exact reports_other (by decide) (by decide)
    · exact reports_nil

/-- **A check reports the computing methods that use the shared store, each once, and nothing else
is critical.** -/
theorem reports_check (facts : SourceFacts) :
    ((check path s facts).filter isSharedFinding).Perm
        ((sharingMethods facts).map fun (c, f, first) => sharedFinding path c f first) ∧
      ∀ v ∈ check path s facts, v.severity = .critical → isSharedFinding v = true := by
  have hlist : (sharingMethods facts).map (fun (c, f, first) => sharedFinding path c f first) =
      (facts.classes.filter (·.isNode)).flatMap fun c =>
        (c.methods.filter fun f => f.name == "exec" || f.name == "exec_async").flatMap fun f =>
          (f.sharedAccesses.head?.map (sharedFinding path c f)).toList := by
    rw [sharingMethods, List.map_flatMap]
    simp only [List.filterMap_eq_flatMap_toList, List.map_flatMap]
    congr 1
    funext c
    congr 1
    funext f
    cases f.sharedAccesses <;> rfl
  have hall : Reports ((facts.classes.filter (·.isNode)).flatMap (checkNode path s) ++
      facts.functions.flatMap (checkUtility path s))
        ((sharingMethods facts).map fun (c, f, first) => sharedFinding path c f first) :=
    hlist ▸ .append_other (.flatMap fun c _ => reports_checkNode path s c)
      (.flatMap_other fun f _ => reports_checkUtility path s f)
  have hperm := List.mergeSort_perm ((facts.classes.filter (·.isNode)).flatMap (checkNode path s) ++
    facts.functions.flatMap (checkUtility path s)) fun a b => a.line ≤ b.line
  exact ⟨hall.findings ▸ hperm.filter _, fun v hv => hall.critical v (hperm.mem_iff.mp hv)⟩

end Check

/-- **Uses of the shared store are found exactly.**  The uses in the body of a function are listed
in the order of the text, each once.  A check reports each computing method of a node that has one,
once and at the line of the first, and reports nothing else that is critical. -/
theorem sharedAccesses_exact :
    (∀ f body : Tree, f.child? .body = some body →
      ∃ ps : List (List Nat), ps.Pairwise (· < ·) ∧
        List.Forall₂ (UsesShared body) ps (functionFacts f).sharedAccesses ∧
          ∀ p a, UsesShared body p a → p ∈ ps) ∧
    ∀ (path : String) (s : DetectionSettings) (facts : SourceFacts),
      ((check path s facts).filter isSharedFinding).Perm
          ((sharingMethods facts).map fun (c, f, first) => sharedFinding path c f first) ∧
        ∀ v ∈ check path s facts, v.severity = .critical → isSharedFinding v = true :=
  ⟨fun _ _ => sharedAccesses_functionFacts, reports_check⟩

/-- The method `exec` with the body `self.shared.get(shared=shared)`. -/
def keywordUse : Tree :=
  .node .functionDefinition .plain 1 2 ""
    [.node .identifier .name 1 1 "exec" [],
      .node .block .body 2 2 ""
        [.node .call .plain 2 2 ""
          [.node .attribute .function 2 2 "self.shared.get"
            [.node .attribute .object 2 2 "self.shared"
              [.node .identifier .object 2 2 "self" [],
                .node .identifier .attribute 2 2 "shared" []],
              .node .identifier .attribute 2 2 "get" []],
            .node .arguments .plain 2 2 ""
              [.node .keywordArgument .plain 2 2 ""
                [.node .identifier .keyword 2 2 "shared" [],
                  .node .identifier .value 2 2 "shared" []]]]]]

theorem sharedAccesses_exact_keywordUse :
    (functionFacts keywordUse).sharedAccesses = [⟨"self.shared", 2⟩, ⟨"shared", 2⟩] ∧
      ∃ body, keywordUse.child? .body = some body ∧
        ∃ ps : List (List Nat), ps.Pairwise (· < ·) ∧
          List.Forall₂ (UsesShared body) ps (functionFacts keywordUse).sharedAccesses ∧
            ∀ p a, UsesShared body p a → p ∈ ps :=
  ⟨rfl, _, rfl, sharedAccesses_exact.1 keywordUse _ rfl⟩

end AgentFlow.Lint

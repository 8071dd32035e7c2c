import AgentFlow.Code.Tree
import AgentFlow.Text.Blank

/-!
# Facts about classes and functions

What the rules look at in a syntax tree: the classes and functions of a text, and of each function
the calls, branches, uses of the shared store, exception handlers and changes in place that occur in
its body at any depth.  Each kind of fact is a reading of single nodes, of a use of the shared store
also of the node that it stands in, taken over all nodes of the body in the order of the text.
-/

namespace AgentFlow.Lint

open Code

def sharedNames : List String := ["shared", "shared_store", "shared_state"]

def mutatingMethods : List String :=
  ["update", "pop", "popitem", "setdefault", "clear", "append", "extend", "insert", "remove"]

structure Located (α : Type) where
  value : α
  line : Nat
deriving DecidableEq

/-- The handlers of a `try`: the names that each catches, or nothing if it catches all. -/
structure TryFacts where
  line : Nat
  handlers : List (Option (List String))

structure FunctionFacts where
  name : String
  line : Nat
  parameters : List String := []
  bodyLines : Nat := 0
  branches : Nat := 0
  callees : List String := []
  sharedAccesses : List (Located String) := []
  tries : List TryFacts := []
  mutations : List (Located String) := []

structure ClassFacts where
  name : String
  line : Nat
  bases : List String
  methods : List FunctionFacts

structure SourceFacts where
  classes : List ClassFacts
  functions : List FunctionFacts

/-- What stands behind the last point, or the whole text if it holds none. -/
def lastSegment (s : String) : String := ((Text.pieces (· == '.') s).getLast?).getD s

/-! ## Exception handlers -/

/-- The characters without any number of copies of `word` at their start. -/
def dropCopies (word : List Char) (cs : List Char) : List Char :=
  if _h : word ≠ [] ∧ word.isPrefixOf cs then dropCopies word (cs.drop word.length) else cs
termination_by cs.length
decreasing_by
  obtain ⟨hw, hp⟩ := _h
  have := (List.isPrefixOf_iff_prefix.mp hp).length_le
  have : 0 < word.length := List.length_pos_iff.mpr hw
  simp only [List.length_drop]
  omega

/-- The characters without those at either end that `p` accepts. -/
def strip (p : Char → Bool) (cs : List Char) : List Char :=
  ((cs.dropWhile p).reverse.dropWhile p).reverse

/-- The names that an exception clause catches, read from its text: what stands before the first
colon, without the alias and the outer brackets, cut at commas, each name without its modules.
Nothing for a clause that catches all. -/
def caughtNames (clause : String) : Option (List String) :=
  let header := clause.toList.takeWhile (· != ':')
  let trimmed (cs : List Char) : List Char := strip Text.isBlank cs
  let expression := trimmed (dropCopies "except".toList (trimmed header))
  let expression :=
    match Text.splitFirst " as ".toList expression with
    | some (before, _) => trimmed before
    | none => expression
  if expression.isEmpty then none
  else
    let inner := strip (fun c => c == '(' || c == ')') expression
    let names := (Text.splitWhere (· == ',') inner).map fun cs =>
      lastSegment (String.ofList (trimmed cs))
    some (names.filter (· != ""))

/-! ## Readings of single nodes -/

def isBranch (t : Tree) : Bool :=
  t.type == .ifStatement || t.type == .elifClause || t.type == .caseClause

def callee? (t : Tree) : Option String :=
  if t.type == .call then
    (t.child? .function).map fun f => Text.replaceChars Text.isBlank [] f.text
  else none

/-- Whether a name that stands in `parent` is read as a value, and names neither a keyword argument
nor an attribute. -/
def isReference (parent t : Tree) : Bool :=
  match parent.type with
  | .keywordArgument => t.role != .keyword
  | .attribute => t.role != .attribute
  | _ => true

/-- The use of the shared store that the node in `parent` is: one of its names that is read as a
value, or such an attribute of `self`. -/
def sharedAccess? (parent t : Tree) : Option (Located String) :=
  match t.type with
  | .identifier =>
    if sharedNames.contains t.text && isReference parent t then some ⟨t.text, t.line⟩ else none
  | .attribute =>
    match t.child? .object, t.child? .attribute with
    | some o, some a =>
      if o.type == .identifier && o.text == "self" && sharedNames.contains a.text then
        some ⟨"self." ++ a.text, t.line⟩
      else none
    | _, _ => none
  | _ => none

mutual

def rootName? : Tree → Option String
  | .node .identifier _ _ _ s _ => some s
  | .node .subscript _ _ _ _ ts => rootOfPart .value ts
  | .node .attribute _ _ _ _ ts => rootOfPart .object ts
  | _ => none

def rootOfPart (r : Role) : List Tree → Option String
  | [] => none
  | t :: ts => if t.role == r then rootName? t else rootOfPart r ts

end

/-- The change in place of what stands at the root of a target. -/
def mutationOf (target : Tree) : Option (Located String) :=
  (rootName? target).map fun s => ⟨s, target.line⟩

/-- The changes in place that the node makes: a call of a changing method, an assignment to an item
or an attribute, or a deletion of an item. -/
def mutationsAt (t : Tree) : List (Located String) :=
  match t.type with
  | .call =>
    match t.child? .function with
    | some f =>
      let method := ((f.child? .attribute).map (·.text)).getD ""
      if f.type == .attribute && mutatingMethods.contains method then (mutationOf f).toList else []
    | none => []
  | .assignment =>
    match t.child? .left with
    | some l =>
      if l.type == .subscript || l.type == .attribute then (mutationOf l).toList else []
    | none => []
  | .deleteStatement =>
    (t.children.filter (·.type == .subscript)).filterMap mutationOf
  | _ => []

def tryFacts? (t : Tree) : Option TryFacts :=
  if t.type == .tryStatement then
    some ⟨t.line, (t.children.filter (·.type == .exceptClause)).map fun c => caughtNames c.text⟩
  else none

/-! ## Functions and classes -/

/-- The name of a parameter; none for starred ones and those in brackets. -/
def parameterName? (t : Tree) : Option String :=
  match t.type with
  | .identifier => some t.text
  | .typedParameter => (t.children.find? (·.type == .identifier)).map (·.text)
  | .defaultParameter => (t.child? .name).map (·.text)
  | _ => none

def nameOf (t : Tree) : String := ((t.child? .name).map (·.text)).getD ""

def functionFacts (t : Tree) : FunctionFacts :=
  let parameters :=
    ((t.child? .parameters).map fun p => p.children.filterMap parameterName?).getD []
  match t.child? .body with
  | none => { name := nameOf t, line := t.line, parameters := parameters }
  | some body =>
    let places := body.nodesIn t
    let nodes := places.map (·.2)
    { name := nameOf t
      line := t.line
      parameters := parameters
      bodyLines := body.endLine - body.line + 1
      branches := nodes.countP isBranch
      callees := nodes.filterMap callee?
      sharedAccesses := places.filterMap fun (parent, n) => sharedAccess? parent n
      tries := nodes.filterMap tryFacts?
      mutations := nodes.flatMap mutationsAt }

def undecorated (t : Tree) : Tree :=
  if t.type == .decorated then (t.child? .definition).getD t else t

def classFacts (t : Tree) : ClassFacts :=
  let bases := ((t.child? .superclasses).map fun args =>
    (args.children.filter fun a => a.type == .identifier || a.type == .attribute).map fun a =>
      lastSegment a.text).getD []
  let methods := ((t.child? .body).map fun b =>
    ((b.children.map undecorated).filter (·.type == .functionDefinition)).map functionFacts).getD []
  { name := nameOf t, line := t.line, bases := bases, methods := methods }

def sourceFacts (t : Tree) : SourceFacts :=
  let definitions := t.children.map undecorated
  { classes := (definitions.filter (·.type == .classDefinition)).map classFacts
    functions := (definitions.filter (·.type == .functionDefinition)).map functionFacts }

end AgentFlow.Lint

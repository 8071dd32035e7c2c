import AgentFlow.Code.Expression

/-!
# Outlines of trees

A tree without the lines on which its nodes stand.  Only of a block it is kept how many lines follow
its first one.

* `Tree.outline`: the tree without lines.
* `isTarget_outline`: what can be assigned to is seen in the outline.
-/

namespace AgentFlow.Code

namespace Tree

mutual

/-- The tree without lines; of a block, the number of lines after the first one stays. -/
def outline : Tree → Tree
  | node t r l m s cs => node t r 0 (if t = .block then m - l else 0) s (outlines cs)

def outlines : List Tree → List Tree
  | [] => []
  | t :: ts => outline t :: outlines ts

end

theorem outlines_eq_map (ts : List Tree) : outlines ts = ts.map outline := by
  induction ts with
  | nil => rfl
  | cons t ts ih => rw [outlines, ih, List.map_cons]

theorem outline_node {t : NodeType} (ht : t ≠ .block) (r : Role) (l m : Nat) (s : String)
    (cs : List Tree) : (node t r l m s cs).outline = node t r 0 0 s (cs.map outline) := by
  rw [outline, if_neg ht, outlines_eq_map]

@[simp] theorem outline_as (t : Tree) (r : Role) : (t.as r).outline = t.outline.as r := by
  cases t
  rfl

@[simp] theorem type_outline (t : Tree) : t.outline.type = t.type := by
  cases t
  rfl

@[simp] theorem role_outline (t : Tree) : t.outline.role = t.role := by
  cases t
  rfl

@[simp] theorem text_outline (t : Tree) : t.outline.text = t.text := by
  cases t
  rfl

@[simp] theorem children_outline (t : Tree) : t.outline.children = t.children.map outline := by
  cases t
  exact outlines_eq_map _

end Tree

theorem Input.outline_node (i : Input) {t : NodeType} (ht : t ≠ .block) (first : Token)
    (cs : List Tree) :
    (i.node t first cs).outline = .node t .plain 0 0 "" (cs.map Tree.outline) :=
  Tree.outline_node ht ..

mutual

theorem isTarget_outline : ∀ t : Tree, isTarget t.outline = isTarget t
  | .node t r l m s cs => by
    have hall := areTargets_outlines cs
    cases t with
    | sequence => simpa [Tree.outline, isTarget] using hall
    | starred =>
      match cs with
      | [] => rfl
      | [.node ..] => rfl
      | .node .. :: _ :: _ => rfl
    | _ => rfl

theorem areTargets_outlines : ∀ ts : List Tree, areTargets (Tree.outlines ts) = areTargets ts
  | [] => rfl
  | t :: ts => by
    rw [Tree.outlines, areTargets, areTargets, isTarget_outline t, areTargets_outlines ts]

end

end AgentFlow.Code

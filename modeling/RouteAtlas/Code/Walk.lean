/-
  RouteAtlas: walks over a tree.

  * `Node.descendants` visits every node below a given one with an explicit stack, a node before
    its children and siblings from left to right; `Node.inner` is the same order by recursion on
    the tree, and `descendants_eq_inner` joins the two.
  * `Node.ownReturns` are the return statements of a function itself, not of the functions and
    classes inside it.
-/
import RouteAtlas.Code.Node

namespace RouteAtlas.Code.Node

/-! ## All descendants -/

/-- Visits the trees on a stack, a node before its children; `visited` holds, last first, what was
    visited before. -/
def visit (visited stack : List Node) : List Node :=
  match stack with
  | [] => visited.reverse
  | n :: rest => visit (n :: visited) (n.children ++ rest)
termination_by sizes stack
decreasing_by
  simp only [sizes_append, sizes, size_eq n]; omega

/-- The nodes below a node, a node before its children, from left to right. -/
def descendants (n : Node) : List Node :=
  visit [] n.children

/-- The descendants of one kind, in the same order. -/
def descendantsOf (n : Node) (kind : Kind) : List Node :=
  n.descendants.filter fun d => d.kind == kind

mutual
/-- A node and then the nodes below it, by recursion on the tree. -/
def preorder : Node → List Node
  | mk kind role span text children => mk kind role span text children :: preorders children
/-- The nodes of several trees, one tree after the other. -/
def preorders : List Node → List Node
  | [] => []
  | n :: ns => preorder n ++ preorders ns
end

/-- The nodes strictly below a node, by recursion on the tree. -/
def inner (n : Node) : List Node :=
  preorders n.children

theorem preorder_eq (n : Node) : n.preorder = n :: n.inner := by
  cases n; rfl

theorem preorders_append (ms ns : List Node) :
    preorders (ms ++ ns) = preorders ms ++ preorders ns := by
  induction ms with
  | nil => simp [preorders]
  | cons m ms ih => simp [preorders, ih]

theorem visit_eq (visited stack : List Node) :
    visit visited stack = visited.reverse ++ preorders stack := by
  induction visited, stack using visit.induct with
  | case1 visited => simp [visit, preorders]
  | case2 visited n rest ih =>
    rw [visit, ih, preorders_append, preorders, preorder_eq, inner]
    simp

/-- **The walk with a stack visits the nodes in the order of the recursive one.** -/
theorem descendants_eq_inner (n : Node) : n.descendants = n.inner := by
  simp [descendants, visit_eq, inner]

/-! ## The return statements of a function -/

/-- What hides its return statements from the function around it. -/
def hidesReturns (n : Node) : Bool :=
  n.kind.isFunction || n.kind == .classBody

/-- Collects, last first, the return statements of the trees on a stack; functions and class
    bodies among the children are passed over. -/
def visitReturns (found stack : List Node) : List Node :=
  match stack with
  | [] => found.reverse
  | n :: rest =>
    visitReturns (if n.kind == .returnStatement then n :: found else found)
      (n.children.filter (fun c => !c.hidesReturns) ++ rest)
termination_by sizes stack
decreasing_by
  have h : ∀ ns : List Node, sizes (ns.filter fun c => !c.hidesReturns) ≤ sizes ns := by
    intro ns
    induction ns with
    | nil => simp
    | cons m ms ih =>
      rw [List.filter_cons]
      split
      · simpa [sizes] using ih
      · simp only [sizes]; omega
  have := h n.children
  simp only [sizes_append, sizes, size_eq n]; omega

/-- The return statements of a function itself, in the order of the walk.  That they are sorted by their
    starts afterwards is left out: in a tree in source order this changes nothing (`own_returns`). -/
def ownReturns (function : Node) : List Node :=
  match function.field? .body with
  | none => []
  | some body => visitReturns [] [body]

end RouteAtlas.Code.Node

import TreeLint.Tree.Basic

/-!
# Travelling through a tree

Upwards a tree is travelled by its parent links, which always lead to a smaller index.  Downwards it
is travelled in pre-order, a node before the nodes below it and these in the order of the children.
The traversal keeps the places still to be visited on a stack; `preorder` is the same order as a
recursion over the children.
-/

namespace TreeLint.Tree

variable {t : Tree}

/-! ## Upwards -/

/-- The nodes above `i`, from its parent to the root. -/
def ancestors (t : Tree) (i : t.Pos) : List t.Pos :=
  match _h : t.parent? i with
  | none => []
  | some p => p :: ancestors t p
termination_by i.val
decreasing_by exact parent?_lt _h

/-- `i` and the nodes above it. -/
def lineage (t : Tree) (i : t.Pos) : List t.Pos := i :: t.ancestors i

/-- The nearest node above `i` whose kind satisfies `p`. -/
def enclosing? (t : Tree) (p : Kind → Bool) (i : t.Pos) : Option t.Pos :=
  match _h : t.parent? i with
  | none => none
  | some above => if p (t.kind above) then some above else enclosing? t p above
termination_by i.val
decreasing_by exact parent?_lt _h

theorem enclosing?_lt {p : Kind → Bool} {i d : t.Pos} (h : t.enclosing? p i = some d) :
    d.val < i.val := by
  fun_induction enclosing? t p i with
  | case1 i hparent => cases h
  | case2 i above hparent hkind =>
    cases h
    exact parent?_lt hparent
  | case3 i above hparent hkind ih =>
    have hlt := parent?_lt hparent
    have hup := ih h
    omega

/-! ## Downwards -/

/-- Visits the places on a stack and everything below them, one place a step. -/
def visit (t : Tree) : Nat → List t.Pos → List t.Pos
  | 0, _ => []
  | _ + 1, [] => []
  | fuel + 1, i :: stack => i :: visit t fuel (t.children i ++ stack)

/-- All nodes, in pre-order. -/
def walk (t : Tree) : List t.Pos := t.visit t.size [t.root]

/-- The nodes below `i`, in pre-order. -/
def descendants (t : Tree) (i : t.Pos) : List t.Pos := t.visit t.size (t.children i)

/-- `i` and the nodes below it, by recursion over the children. -/
def preorder (t : Tree) (i : t.Pos) : List t.Pos :=
  i :: (t.children i).attach.flatMap fun c => preorder t c.1
termination_by t.size - i.val
decreasing_by
  have := lt_of_mem_children c.2
  omega

/-- The nodes of one kind below `i`, in pre-order. -/
def descendantsOfKind (t : Tree) (kind : Kind) (i : t.Pos) : List t.Pos :=
  (t.descendants i).filter fun j => t.kind j == kind

def firstOfKind? (t : Tree) (kind : Kind) (i : t.Pos) : Option t.Pos :=
  (t.descendants i).find? fun j => t.kind j == kind

end TreeLint.Tree

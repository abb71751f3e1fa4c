import TreeLint.Tree.Kind
import TreeLint.Tree.Line

/-!
# Trees held in an array

A tree is an array of nodes that refer to each other by index.  The links are kept twice, as a
parent index and as a list of child indices, and `Linked` says that the two agree: the first node
is the only one without a parent, a parent always stands before its children, and the children of a
node are, in ascending order, the nodes that name it as their parent.  A `Tree` carries this fact,
so that nothing that travels along the links can leave the array or fail to end.

The image of a node is the piece of source text that it stands for.  Every dump gives it as a text;
a node that is added by hand may have any value there.

Trees have an identity: two of them are different things even when they hold the same nodes, and the
serial number of a tree is there to tell them apart.
-/

namespace TreeLint

structure Node where
  kind : Kind
  image : Value
  beginLine : Line
  endLine : Line
  parent : Option Nat
  children : List Nat
  attributes : Fields
  deriving DecidableEq

/-- The two tables of links of an array of nodes describe one rooted tree. -/
structure Linked (nodes : Array Node) : Prop where
  parent_isSome : ∀ i (h : i < nodes.size), 0 < i → nodes[i].parent.isSome
  parent_lt : ∀ i (h : i < nodes.size) p, nodes[i].parent = some p → p < i
  mem_children : ∀ p (h : p < nodes.size) j,
    j ∈ nodes[p].children ↔ ∃ hj : j < nodes.size, nodes[j].parent = some p
  ascending : ∀ p (h : p < nodes.size), nodes[p].children.Pairwise (· < ·)

structure Tree where
  file : String
  nodes : Array Node
  nonempty : 0 < nodes.size
  linked : Linked nodes
  /-- Different for trees that are built apart. -/
  serial : Nat := 0

namespace Tree

abbrev size (t : Tree) : Nat := t.nodes.size

/-- A place in a tree. -/
abbrev Pos (t : Tree) := Fin t.size

def root (t : Tree) : t.Pos := ⟨0, t.nonempty⟩

def node (t : Tree) (i : t.Pos) : Node := t.nodes[i]

variable {t : Tree}

def kind (t : Tree) (i : t.Pos) : Kind := (t.node i).kind

def image (t : Tree) (i : t.Pos) : Value := (t.node i).image

theorem parent_bound {i : t.Pos} {p : Nat} (h : (t.node i).parent = some p) : p < t.size :=
  Nat.lt_trans (t.linked.parent_lt i.val i.isLt p h) i.isLt

theorem child_bound {i : t.Pos} {c : Nat} (h : c ∈ (t.node i).children) : c < t.size :=
  ((t.linked.mem_children i.val i.isLt c).1 h).1

/-- The node above `i`; only the root has none. -/
def parent? (t : Tree) (i : t.Pos) : Option t.Pos :=
  match h : (t.node i).parent with
  | none => none
  | some p => some ⟨p, parent_bound h⟩

/-- The nodes right below `i`, in order. -/
def children (t : Tree) (i : t.Pos) : List t.Pos :=
  (t.node i).children.pmap Fin.mk fun _ h => child_bound h

theorem parent?_eq_some_iff {i p : t.Pos} :
    t.parent? i = some p ↔ (t.node i).parent = some p.val := by
  unfold parent?
  split
  · next h => simp [h]
  · next q h => simp [h, Fin.ext_iff]

theorem parent?_lt {i p : t.Pos} (h : t.parent? i = some p) : p.val < i.val :=
  t.linked.parent_lt i.val i.isLt p.val (parent?_eq_some_iff.1 h)

theorem mem_children_iff {i c : t.Pos} : c ∈ t.children i ↔ t.parent? c = some i := by
  rw [parent?_eq_some_iff]
  unfold children
  rw [List.mem_pmap]
  constructor
  · rintro ⟨j, hj, rfl⟩
    exact ((t.linked.mem_children i.val i.isLt j).1 hj).2
  · intro h
    exact ⟨c.val, (t.linked.mem_children i.val i.isLt c.val).2 ⟨c.isLt, h⟩, rfl⟩

theorem lt_of_mem_children {i c : t.Pos} (h : c ∈ t.children i) : i.val < c.val :=
  parent?_lt (mem_children_iff.1 h)

/-- Why an index leads to no place. -/
inductive IndexError where
  | outOfRange
  | tooLarge
  deriving DecidableEq, Repr

def IndexError.message : IndexError → String
  | .outOfRange => "tuple index out of range"
  | .tooLarge => Text.tooWideText

/-- The place at an index that counts from the front, or from the end when it is negative. -/
def locate (t : Tree) (index : Int) : Except IndexError t.Pos :=
  let i := if index < 0 then index + t.size else index
  if !Text.fitsWord index then .error .tooLarge
  else if h : 0 ≤ i ∧ i.toNat < t.size then .ok ⟨i.toNat, h.2⟩
  else .error .outOfRange

end Tree

end TreeLint

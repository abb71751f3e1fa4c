import TreeLint.Tree.Basic

/-!
# Building trees

Nodes are added one after the other, each below one that is there already; only the first has no
parent.  The builder keeps the links in agreement at every step, so a tree can be taken from it at
any time, as soon as it has a node.
-/

namespace TreeLint

/-- A node to be added, without its links. -/
structure Entry where
  kind : Kind
  image : Value := .str ""
  beginLine : Line := .number 0
  /-- The begin line when absent. -/
  endLine : Option Line := none
  attributes : Fields := []

def Entry.toNode (entry : Entry) (parent : Option Nat) : Node where
  kind := entry.kind
  image := entry.image
  beginLine := entry.beginLine
  endLine := entry.endLine.getD entry.beginLine
  parent := parent
  children := []
  attributes := entry.attributes

inductive BuildError where
  | secondRoot
  | unknownParent (index : Int)
  | empty
  /-- The index of the parent has too many digits to be written out in a message. -/
  | unwritable
  deriving DecidableEq, Repr

def BuildError.message : BuildError → String
  | .secondRoot => "Only the first node may be added without a parent."
  | .unknownParent index => "Unknown parent index " ++ toString index ++ "."
  | .empty => "A syntax tree needs at least a root node."
  | .unwritable => Text.Unwritable.tooManyDigits.message

/-- The error about an index that no node has. -/
def BuildError.unknown (index : Int) : BuildError :=
  if Text.isWritable index then .unknownParent index else .unwritable

def Node.addChild (node : Node) (index : Nat) : Node :=
  { node with children := node.children ++ [index] }

/-- The nodes after one more has been added below `p`. -/
def appendBelow (nodes : Array Node) (p : Nat) (entry : Entry) : Array Node :=
  (nodes.modify p (·.addChild nodes.size)).push (entry.toNode (some p))

theorem linked_root (entry : Entry) : Linked #[entry.toNode none] where
  parent_isSome i h hpos := by simp at h; omega
  parent_lt i h p hp := by
    have : i = 0 := by simpa using h
    subst this
    simp [Entry.toNode] at hp
  mem_children p h j := by
    have : p = 0 := by simpa using h
    subst this
    constructor
    · simp [Entry.toNode]
    · rintro ⟨hj, hparent⟩
      have : j = 0 := by simpa using hj
      subst this
      simp [Entry.toNode] at hparent
  ascending p h := by
    have : p = 0 := by simpa using h
    subst this
    simp [Entry.toNode]

@[simp] theorem size_appendBelow (nodes : Array Node) (p : Nat) (entry : Entry) :
    (appendBelow nodes p entry).size = nodes.size + 1 := by
  simp [appendBelow]

theorem parent_appendBelow_old {nodes : Array Node} {p : Nat} {entry : Entry} {i : Nat}
    (hi : i < nodes.size) (h : i < (appendBelow nodes p entry).size) :
    (appendBelow nodes p entry)[i].parent = nodes[i].parent := by
  simp only [appendBelow]
  rw [Array.getElem_push_lt (by simpa using hi), Array.getElem_modify]
  split <;> rfl

theorem parent_appendBelow_new {nodes : Array Node} {p : Nat} {entry : Entry}
    (h : nodes.size < (appendBelow nodes p entry).size) :
    (appendBelow nodes p entry)[nodes.size].parent = some p := by
  simp [appendBelow, Array.getElem_push, Entry.toNode]

theorem children_appendBelow_old {nodes : Array Node} {p : Nat} {entry : Entry} {i : Nat}
    (hi : i < nodes.size) (h : i < (appendBelow nodes p entry).size) :
    (appendBelow nodes p entry)[i].children =
      if p = i then nodes[i].children ++ [nodes.size] else nodes[i].children := by
  simp only [appendBelow]
  rw [Array.getElem_push_lt (by simpa using hi), Array.getElem_modify]
  split <;> rfl

theorem children_appendBelow_new {nodes : Array Node} {p : Nat} {entry : Entry}
    (h : nodes.size < (appendBelow nodes p entry).size) :
    (appendBelow nodes p entry)[nodes.size].children = [] := by
  simp [appendBelow, Array.getElem_push, Entry.toNode]

theorem Linked.child_lt_size {nodes : Array Node} (linked : Linked nodes) {p : Nat}
    (h : p < nodes.size) {j : Nat} (hj : j ∈ nodes[p].children) : j < nodes.size :=
  ((linked.mem_children p h j).1 hj).1

theorem Linked.appendBelow {nodes : Array Node} (linked : Linked nodes) {p : Nat}
    (hp : p < nodes.size) (entry : Entry) : Linked (TreeLint.appendBelow nodes p entry) where
  parent_isSome i h hpos := by
    rw [size_appendBelow] at h
    by_cases hi : i < nodes.size
    · rw [parent_appendBelow_old hi]
      exact linked.parent_isSome i hi hpos
    · have : i = nodes.size := by omega
      subst this
      simp [parent_appendBelow_new]
  parent_lt i h q hq := by
    rw [size_appendBelow] at h
    by_cases hi : i < nodes.size
    · rw [parent_appendBelow_old hi] at hq
      exact linked.parent_lt i hi q hq
    · have : i = nodes.size := by omega
      subst this
      rw [parent_appendBelow_new] at hq
      cases hq
      exact hp
  mem_children q h j := by
    rw [size_appendBelow] at h
    have hnew : (∃ hj : j < (TreeLint.appendBelow nodes p entry).size,
          (TreeLint.appendBelow nodes p entry)[j].parent = some q) ↔
        (∃ hj : j < nodes.size, nodes[j].parent = some q) ∨ (j = nodes.size ∧ p = q) := by
      constructor
      · rintro ⟨hj, hparent⟩
        rw [size_appendBelow] at hj
        by_cases hold : j < nodes.size
        · rw [parent_appendBelow_old hold] at hparent
          exact Or.inl ⟨hold, hparent⟩
        · have : j = nodes.size := by omega
          subst this
          rw [parent_appendBelow_new] at hparent
          exact Or.inr ⟨rfl, by simpa using hparent⟩
      · rintro (⟨hj, hparent⟩ | ⟨rfl, rfl⟩)
        · exact ⟨by simp; omega, by rw [parent_appendBelow_old hj]; exact hparent⟩
        · exact ⟨by simp, parent_appendBelow_new (by simp)⟩
    rw [hnew]
    by_cases hq : q < nodes.size
    · rw [children_appendBelow_old hq]
      split
      · next heq =>
        rw [List.mem_append, linked.mem_children q hq j]
        simp [heq]
      · next hne =>
        rw [linked.mem_children q hq j]
        simp [hne]
    · have : q = nodes.size := by omega
      subst this
      rw [children_appendBelow_new]
      constructor
      · simp
      · rintro (⟨hj, hparent⟩ | ⟨_, hpq⟩)
        · exact absurd (linked.parent_lt j hj _ hparent) (by omega)
        · omega
  ascending q h := by
    rw [size_appendBelow] at h
    by_cases hq : q < nodes.size
    · rw [children_appendBelow_old hq]
      split
      · rw [List.pairwise_append]
        refine ⟨linked.ascending q hq, by simp, ?_⟩
        intro a ha b hb
        rw [List.mem_singleton] at hb
        subst hb
        exact linked.child_lt_size hq ha
      · exact linked.ascending q hq
    · have : q = nodes.size := by omega
      subst this
      rw [children_appendBelow_new]
      exact List.Pairwise.nil

theorem linked_empty : Linked #[] where
  parent_isSome _ h := absurd h (by simp)
  parent_lt _ h := absurd h (by simp)
  mem_children _ h := absurd h (by simp)
  ascending _ h := absurd h (by simp)

structure Builder where
  file : String
  nodes : Array Node
  linked : Linked nodes

namespace Builder

def start (file : String) : Builder := ⟨file, #[], linked_empty⟩

/-- The index that the next node will have. -/
def size (b : Builder) : Nat := b.nodes.size

/-- Adds a node below the one at an index, or as the root. -/
def add (b : Builder) (entry : Entry) (parent : Option Int) : Except BuildError Builder :=
  match parent with
  | none =>
    if b.nodes.isEmpty then .ok ⟨b.file, #[entry.toNode none], linked_root entry⟩
    else .error .secondRoot
  | some p =>
    if h : 0 ≤ p ∧ p.toNat < b.nodes.size then
      .ok ⟨b.file, appendBelow b.nodes p.toNat entry, b.linked.appendBelow h.2 entry⟩
    else .error (.unknown p)

/-- The tree of the nodes so far.  Every call builds a tree of its own. -/
def build (b : Builder) (serial : Nat := 0) : Except BuildError Tree :=
  if h : 0 < b.nodes.size then .ok ⟨b.file, b.nodes, h, b.linked, serial⟩ else .error .empty

end Builder

end TreeLint

import TreeLint.Tree.Basic

/-!
# Nodes as things of their own

A node is known by its tree and by the index that it was asked for by.  Two nodes are equal when
both are the same, so trees that were built apart have no node in common, even if all their nodes
look alike.  Things filed under nodes are found again through equal nodes, and through no others.
-/

namespace TreeLint

instance : DecidableEq Tree := fun a b =>
  withPtrEqDecEq a b fun _ =>
    decidable_of_iff (a.serial = b.serial ∧ a.file = b.file ∧ a.nodes = b.nodes) (by
      cases a
      cases b
      simp only [Tree.mk.injEq]
      constructor
      · rintro ⟨hserial, hfile, hnodes⟩
        exact ⟨hfile, hnodes, hserial⟩
      · rintro ⟨hfile, hnodes, hserial⟩
        exact ⟨hserial, hfile, hnodes⟩)

/-- A node of some tree.  The index may count from the end of the tree. -/
structure NodeRef where
  tree : Tree
  index : Int

namespace NodeRef

instance : DecidableEq NodeRef := fun a b =>
  decidable_of_iff (a.index = b.index ∧ a.tree = b.tree) (by
    cases a
    cases b
    simp only [mk.injEq, and_comm])

instance : Hashable NodeRef where
  hash ref := mixHash (hash ref.tree.serial) (hash ref.index)

end NodeRef

/-- The node at a place. -/
def Tree.ref (t : Tree) (i : t.Pos) : NodeRef := ⟨t, i.val⟩

/-- The same index of two trees makes two nodes, unless the trees are one. -/
theorem Tree.ref_eq_ref_iff {t u : Tree} {i : t.Pos} {j : u.Pos} :
    t.ref i = u.ref j ↔ t = u ∧ i.val = j.val := by
  simp only [ref, NodeRef.mk.injEq, Int.natCast_inj]

end TreeLint

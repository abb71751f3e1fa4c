import TreeLint.Proofs.Traversal

/-!
# The walk and its blocks

A traversal is a loop on a stack: the place on top is visited and gives way to
its children.  `Visits` is this loop with no bound on its rounds.  It ends for
every stack, since a round takes one place off the nodes that are still below
the stack, and what it has visited then is the recursive order of the places
that were on the stack.

In that order the nodes below a place stand right behind it.  The walk is
therefore made of blocks, one for each place, as long as the place has nodes
in its subtree.
-/

namespace TreeLint.Tree

variable {t : Tree}

/-- The loop of a traversal: from a stack, the places visited until it is empty. -/
inductive Visits (t : Tree) : List t.Pos → List t.Pos → Prop where
  | done : Visits t [] []
  | next (i : t.Pos) {stack order : List t.Pos}
      (hrest : Visits t (t.children i ++ stack) order) :
      Visits t (i :: stack) (i :: order)

theorem Visits.eq_flatMap_preorder
    {stack order : List t.Pos}
    (h : Visits t stack order) :
    order = stack.flatMap t.preorder := by
  induction h with
  | done => rfl
  | next i _ ih => rw [flatMap_preorder_cons, ih]

theorem visits_flatMap_preorder (stack : List t.Pos) :
    Visits t stack (stack.flatMap t.preorder) := by
  -- A round shortens what is still to be visited, not the stack.
  induction hlength : (stack.flatMap t.preorder).length generalizing stack with
  | zero =>
      cases stack with
      | nil => exact .done
      | cons i stack =>
          rw [flatMap_preorder_cons] at hlength
          cases hlength
  | succ n ih =>
      cases stack with
      | nil => exact .done
      | cons i stack =>
          rw [flatMap_preorder_cons] at hlength ⊢
          exact .next i (ih _ (Nat.succ.inj hlength))

/-- The loop ends, and it can end in one way only. -/
theorem visits_iff
    {stack order : List t.Pos} :
    Visits t stack order ↔ order = stack.flatMap t.preorder := by
  constructor
  · exact Visits.eq_flatMap_preorder
  · intro heq
    rw [heq]
    exact visits_flatMap_preorder stack

theorem visits_root_iff
    {order : List t.Pos} :
    Visits t [t.root] order ↔ order = t.walk := by
  rw [visits_iff, walk_eq_preorder, List.flatMap_singleton]

theorem visits_children_iff
    {i : t.Pos} {order : List t.Pos} :
    Visits t (t.children i) order ↔ order = t.descendants i := by
  rw [visits_iff, descendants_eq_flatMap]

/-! ## Blocks -/

/-- The order of a place is a part of the order of every place above it. -/
theorem exists_preorder_eq_append
    {i r : t.Pos} (h : r ∈ t.lineage i) :
    ∃ before after, t.preorder r = before ++ t.preorder i ++ after := by
  induction r using children_induction with
  | _ r ih =>
      have hmem := mem_preorder_iff.mpr h
      rw [preorder_eq] at hmem
      rcases List.mem_cons.mp hmem with heq | hbelow
      · rw [heq]
        exact ⟨[], [], (List.append_nil _).symm⟩
      · obtain ⟨c, hc, hmemc⟩ := List.mem_flatMap.mp hbelow
        obtain ⟨before, after, hblock⟩ := ih c hc (mem_preorder_iff.mp hmemc)
        obtain ⟨left, right, hsplit⟩ := List.append_of_mem hc
        refine ⟨r :: left.flatMap t.preorder ++ before,
          after ++ right.flatMap t.preorder, ?_⟩
        rw [preorder_eq, hsplit, List.flatMap_append, List.flatMap_cons, hblock]
        simp only [List.cons_append, List.append_assoc]

/-- The nodes that have `i` in their lineage. -/
def subtree (t : Tree) (i : t.Pos) : Finset t.Pos :=
  Finset.univ.filter fun j => i ∈ t.lineage j

theorem toFinset_preorder (i : t.Pos) :
    (t.preorder i).toFinset = t.subtree i := by
  ext j
  simp only [List.mem_toFinset, subtree, Finset.mem_filter, Finset.mem_univ, true_and]
  exact mem_preorder_iff

theorem length_descendants (i : t.Pos) :
    (t.descendants i).length + 1 = (t.subtree i).card := by
  rw [← toFinset_preorder, List.toFinset_card_of_nodup (nodup_preorder i),
    preorder_eq_cons_descendants, List.length_cons]

/-- The walk ends and lists every place once, in the recursive order, and the
nodes below a place are the block that follows it. -/
theorem walk_lists_subtrees_as_blocks (t : Tree) :
    (∀ order, Visits t [t.root] order ↔ order = t.walk) ∧
      t.walk = t.preorder t.root ∧
      (∀ i, t.preorder i = i :: (t.children i).flatMap t.preorder) ∧
      (∀ i, t.walk.count i = 1) ∧
      ∀ i, (∀ order, Visits t (t.children i) order ↔ order = t.descendants i) ∧
        (∃ before after, t.walk = before ++ i :: (t.descendants i ++ after)) ∧
        (t.descendants i).length + 1 = (t.subtree i).card := by
  refine ⟨fun _ => visits_root_iff, walk_eq_preorder, preorder_eq, ?_, ?_⟩
  · intro i
    exact List.count_eq_one_of_mem (nodup_walk t) (mem_walk t i)
  · intro i
    refine ⟨fun _ => visits_children_iff, ?_, length_descendants i⟩
    obtain ⟨before, after, hblock⟩ := exists_preorder_eq_append (root_mem_lineage i)
    refine ⟨before, after, ?_⟩
    rw [walk_eq_preorder, hblock, preorder_eq_cons_descendants, List.append_assoc,
      List.cons_append]

end TreeLint.Tree

import TreeLint.Proofs.WalkBlocks

/-!
# Ancestors and the walk

Upwards a tree is travelled by a loop that follows one parent link a round.
`Climbs` is this loop with no bound on its rounds.  It ends because a parent has
a smaller index, and what it has passed then are the ancestors, the root last.

The two ways through a tree agree: what a traversal lists below a node are the
nodes that have the node among their ancestors.  A search below a node for a kind
is therefore a search of the whole walk for the nodes of that kind which have the
node above them, and it finds the earliest of them.
-/

namespace TreeLint.Tree

variable {t : Tree}

/-! ## Climbing -/

/-- The loop of a climb: from a place, if there is one, the places passed until there is none. -/
inductive Climbs (t : Tree) : Option t.Pos → List t.Pos → Prop where
  | done : Climbs t none []
  | next (i : t.Pos) {above : List t.Pos}
      (hrest : Climbs t (t.parent? i) above) :
      Climbs t (some i) (i :: above)

theorem Climbs.unique
    {start : Option t.Pos} {above other : List t.Pos}
    (h : Climbs t start above) (hother : Climbs t start other) :
    above = other := by
  induction h generalizing other with
  | done =>
      cases hother
      rfl
  | next i _ ih =>
      cases hother with
      | next _ hrest => rw [ih hrest]

theorem climbs_lineage (i : t.Pos) : Climbs t (some i) (t.lineage i) := by
  induction i using parent_induction with
  | _ i ih =>
      apply Climbs.next
      cases hparent : t.parent? i with
      | none =>
          rw [ancestors_eq_nil hparent]
          exact .done
      | some p =>
          rw [ancestors_eq_cons hparent]
          exact ih p hparent

/-- The loop ends, and it can end in one way only. -/
theorem climbs_parent?_iff
    {i : t.Pos} {above : List t.Pos} :
    Climbs t (t.parent? i) above ↔ above = t.ancestors i := by
  have hclimbs : Climbs t (t.parent? i) (t.ancestors i) := by
    cases climbs_lineage i with
    | next _ hrest => exact hrest
  constructor
  · intro h
    exact h.unique hclimbs
  · intro heq
    rw [heq]
    exact hclimbs

theorem descending_lineage (i : t.Pos) :
    (t.lineage i).Pairwise fun j k => k.val < j.val := by
  induction i using parent_induction with
  | _ i ih =>
      refine List.pairwise_cons.mpr ⟨fun j hj => lt_of_mem_ancestors hj, ?_⟩
      cases hparent : t.parent? i with
      | none =>
          rw [ancestors_eq_nil hparent]
          exact List.Pairwise.nil
      | some p =>
          rw [ancestors_eq_cons hparent]
          exact ih p hparent

theorem getLast?_lineage (i : t.Pos) : (t.lineage i).getLast? = some t.root := by
  induction i using parent_induction with
  | _ i ih =>
      by_cases hroot : i = t.root
      · rw [lineage, hroot, ancestors_eq_nil parent?_root]
        rfl
      · obtain ⟨p, hparent⟩ := exists_parent? hroot
        have hup := ih p hparent
        rw [lineage, ancestors_eq_cons hparent, List.getLast?_cons, hup]
        rfl

theorem getLast?_ancestors
    {i : t.Pos} (h : i ≠ t.root) : (t.ancestors i).getLast? = some t.root := by
  obtain ⟨p, hparent⟩ := exists_parent? h
  rw [ancestors_eq_cons hparent]
  exact getLast?_lineage p

/-! ## The first node of a kind -/

/-- Of the nodes with a property, `i` is the one that the walk comes to first. -/
def EarliestInWalk (t : Tree) (P : t.Pos → Prop) (i : t.Pos) : Prop :=
  P i ∧ ∀ j, P j → t.walk.idxOf i ≤ t.walk.idxOf j

theorem EarliestInWalk.unique
    {P : t.Pos → Prop} {i j : t.Pos}
    (hi : t.EarliestInWalk P i) (hj : t.EarliestInWalk P j) : i = j := by
  have hle := hi.2 j hj.1
  have hge := hj.2 i hi.1
  exact (List.idxOf_inj (mem_walk t i)).mp (Nat.le_antisymm hle hge)

/-- What a search of the walk finds stands before everything else that it could have found. -/
theorem earliestInWalk_of_find?
    {p : t.Pos → Bool} {i : t.Pos}
    (h : t.walk.find? p = some i) :
    t.EarliestInWalk (fun j => p j = true) i := by
  obtain ⟨hi, before, after, hwalk, hbefore⟩ := List.find?_eq_some_iff_append.mp h
  refine ⟨hi, ?_⟩
  intro j hj
  have hnodup := nodup_walk t
  rw [hwalk] at hnodup ⊢
  have hfresh : i ∉ before := by
    intro hmem
    exact (List.disjoint_of_nodup_append hnodup) hmem List.mem_cons_self
  have hlater : j ∉ before := by
    intro hmem
    have hnot := hbefore j hmem
    simp [hj] at hnot
  rw [List.idxOf_append_of_notMem hfresh, List.idxOf_append_of_notMem hlater,
    List.idxOf_cons_self]
  omega

/-- The nodes below a node are those of the walk that have it above them, in the order of the walk.
-/
theorem filter_walk_eq_descendants (i : t.Pos) :
    (t.walk.filter fun j => i ∈ t.ancestors j) = t.descendants i := by
  obtain ⟨before, after, hblock⟩ := exists_preorder_eq_append (root_mem_lineage i)
  rw [← walk_eq_preorder] at hblock
  -- The walk lists a node once, so none of those below `i` is outside of the block of `i`.
  have hnodup := nodup_walk t
  rw [hblock, List.nodup_append, List.nodup_append] at hnodup
  obtain ⟨⟨_, _, hfront⟩, _, hback⟩ := hnodup
  have hbelow {j : t.Pos} (habove : i ∈ t.ancestors j) : j ∈ t.preorder i :=
    mem_preorder_iff.mpr (List.mem_cons_of_mem j habove)
  have hbefore : (before.filter fun j => i ∈ t.ancestors j) = [] := by
    rw [List.filter_eq_nil_iff]
    intro j hj habove
    exact hfront j hj j (hbelow (of_decide_eq_true habove)) rfl
  have hafter : (after.filter fun j => i ∈ t.ancestors j) = [] := by
    rw [List.filter_eq_nil_iff]
    intro j hj habove
    exact hback j (List.mem_append_right before (hbelow (of_decide_eq_true habove))) j hj rfl
  have hself : i ∉ t.ancestors i := fun habove => Nat.lt_irrefl _ (lt_of_mem_ancestors habove)
  have hinside : ((t.descendants i).filter fun j => i ∈ t.ancestors j) = t.descendants i := by
    rw [List.filter_eq_self]
    intro j hj
    exact decide_eq_true (mem_descendants_iff.mp hj)
  rw [hblock, List.filter_append, List.filter_append, hbefore, hafter,
    preorder_eq_cons_descendants, List.filter_cons_of_neg (by simpa using hself), hinside,
    List.nil_append, List.append_nil]

theorem firstOfKind?_eq_find?_walk (kind : Kind) (i : t.Pos) :
    t.firstOfKind? kind i =
      t.walk.find? fun j => decide (t.kind j = kind ∧ i ∈ t.ancestors j) := by
  unfold firstOfKind?
  rw [← filter_walk_eq_descendants, List.find?_filter]
  congr 1
  funext j
  simp [and_comm]

theorem firstOfKind?_eq_none_iff
    {kind : Kind} {i : t.Pos} :
    t.firstOfKind? kind i = none ↔ ∀ j, t.kind j = kind → i ∉ t.ancestors j := by
  rw [firstOfKind?_eq_find?_walk, List.find?_eq_none]
  constructor
  · intro h j hkind habove
    have hnot := h j (mem_walk t j)
    simp [hkind, habove] at hnot
  · intro h j _
    simpa using h j

theorem firstOfKind?_eq_some_iff
    {kind : Kind} {i j : t.Pos} :
    t.firstOfKind? kind i = some j ↔
      t.EarliestInWalk (fun m => t.kind m = kind ∧ i ∈ t.ancestors m) j := by
  have hfound {m : t.Pos} (h : t.firstOfKind? kind i = some m) :
      t.EarliestInWalk (fun m => t.kind m = kind ∧ i ∈ t.ancestors m) m := by
    rw [firstOfKind?_eq_find?_walk] at h
    simpa only [decide_eq_true_eq] using earliestInWalk_of_find? h
  constructor
  · exact hfound
  · intro h
    cases hfirst : t.firstOfKind? kind i with
    | none => exact absurd h.1.2 (firstOfKind?_eq_none_iff.mp hfirst j h.1.1)
    | some m => rw [(hfound hfirst).unique h]

/-- Downward and upward links describe one tree: a node is below another exactly when that one is
among its ancestors.  Climbing ends, passes smaller and smaller indices, no place twice, and gets to
the root.  The first node of a kind below a node is the earliest of the walk with that kind and with
the node above it, and there is none exactly when no node of that kind has the node above it. -/
theorem links_describe_one_tree (t : Tree) :
    (∀ i j : t.Pos, j ∈ t.descendants i ↔ i ∈ t.ancestors j) ∧
      (∀ i : t.Pos,
        (∀ above, Climbs t (t.parent? i) above ↔ above = t.ancestors i) ∧
          (i :: t.ancestors i).Pairwise (fun j k => k.val < j.val) ∧
          (i ≠ t.root → (t.ancestors i).getLast? = some t.root) ∧
          (t.ancestors i).Nodup) ∧
      ∀ (kind : Kind) (i : t.Pos),
        (∀ j, t.firstOfKind? kind i = some j ↔
          t.EarliestInWalk (fun m => t.kind m = kind ∧ i ∈ t.ancestors m) j) ∧
        (t.firstOfKind? kind i = none ↔ ∀ j, ¬ (t.kind j = kind ∧ i ∈ t.ancestors j)) := by
  refine ⟨fun i j => mem_descendants_iff, ?_, ?_⟩
  · intro i
    have hdescending := descending_lineage i
    refine ⟨fun above => climbs_parent?_iff, hdescending, getLast?_ancestors, ?_⟩
    apply (List.pairwise_cons.mp hdescending).2.imp
    intro j k hlt heq
    rw [heq] at hlt
    exact Nat.lt_irrefl _ hlt
  · intro kind i
    refine ⟨fun j => firstOfKind?_eq_some_iff, ?_⟩
    simp only [not_and]
    exact firstOfKind?_eq_none_iff

end TreeLint.Tree

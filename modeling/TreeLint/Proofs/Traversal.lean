import Mathlib.Data.Fintype.Card
import Mathlib.Data.List.Nodup
import TreeLint.Tree.Walk

/-!
# Descendants and ancestors

The downward traversal keeps a stack of places and spends one unit of fuel a
place.  It visits the stack as the recursion `preorder` does, provided that the
fuel covers the nodes below the stack.  The fuel that `walk` and `descendants`
are given is the size of the tree, and it suffices because `preorder` never
lists a place twice.

That no place comes twice is read off the upward links: `j` is listed below `i`
exactly when `i` is in the lineage of `j`, and a lineage has only one node
below a given parent.
-/

namespace TreeLint.Tree

variable {t : Tree}

/-! ## Lineages -/

theorem ancestors_eq_nil
    {i : t.Pos} (h : t.parent? i = none) :
    t.ancestors i = [] := by
  rw [ancestors]
  split
  · rfl
  · next p hp => simp [h] at hp

theorem ancestors_eq_cons
    {i p : t.Pos} (h : t.parent? i = some p) :
    t.ancestors i = t.lineage p := by
  rw [ancestors]
  split
  · next hnone => simp [h] at hnone
  · next q hq =>
    have heq : p = q := by simpa [h] using hq
    subst heq
    rfl

theorem self_mem_lineage (i : t.Pos) : i ∈ t.lineage i :=
  List.mem_cons_self

theorem mem_lineage_iff
    {i j : t.Pos} : i ∈ t.lineage j ↔ i = j ∨ i ∈ t.ancestors j :=
  List.mem_cons

theorem mem_ancestors_iff
    {i j : t.Pos} :
    i ∈ t.ancestors j ↔ ∃ p, t.parent? j = some p ∧ i ∈ t.lineage p := by
  cases hparent : t.parent? j with
  | none => simp [ancestors_eq_nil hparent]
  | some p => simp [ancestors_eq_cons hparent]

/-- Induction along the parent links. -/
theorem parent_induction
    {motive : t.Pos → Prop}
    (step : ∀ i, (∀ p, t.parent? i = some p → motive p) → motive i) :
    ∀ i, motive i := by
  intro i
  induction hval : i.val using Nat.strong_induction_on generalizing i with
  | _ n ih =>
      apply step
      intro p hp
      have hlt := parent?_lt hp
      exact ih p.val (by omega) p rfl

theorem le_of_mem_lineage
    {i j : t.Pos} (h : i ∈ t.lineage j) : i.val ≤ j.val := by
  induction j using parent_induction with
  | _ j ih =>
      rcases mem_lineage_iff.mp h with heq | habove
      · rw [heq]
      · obtain ⟨p, hparent, hmem⟩ := mem_ancestors_iff.mp habove
        have hle := ih p hparent hmem
        have hlt := parent?_lt hparent
        omega

theorem lt_of_mem_ancestors
    {i j : t.Pos} (h : i ∈ t.ancestors j) : i.val < j.val := by
  obtain ⟨p, hparent, hmem⟩ := mem_ancestors_iff.mp h
  have hle := le_of_mem_lineage hmem
  have hlt := parent?_lt hparent
  omega

theorem mem_lineage_trans
    {i j k : t.Pos} (hij : i ∈ t.lineage j) (hjk : j ∈ t.lineage k) :
    i ∈ t.lineage k := by
  induction k using parent_induction with
  | _ k ih =>
      rcases mem_lineage_iff.mp hjk with heq | habove
      · rw [← heq]
        exact hij
      · obtain ⟨p, hparent, hmem⟩ := mem_ancestors_iff.mp habove
        have hup := ih p hparent hmem
        exact mem_lineage_iff.mpr
          (Or.inr (mem_ancestors_iff.mpr ⟨p, hparent, hup⟩))

/-- Two nodes of one lineage are comparable. -/
theorem mem_lineage_total
    {i j k : t.Pos} (hi : i ∈ t.lineage k) (hj : j ∈ t.lineage k) :
    i ∈ t.lineage j ∨ j ∈ t.lineage i := by
  induction k using parent_induction with
  | _ k ih =>
      rcases mem_lineage_iff.mp hi with heq | hiabove
      · exact Or.inr (heq ▸ hj)
      · rcases mem_lineage_iff.mp hj with heq | hjabove
        · exact Or.inl (heq ▸ hi)
        · obtain ⟨p, hp, himem⟩ := mem_ancestors_iff.mp hiabove
          obtain ⟨q, hq, hjmem⟩ := mem_ancestors_iff.mp hjabove
          have heq : p = q := by simpa [hp] using hq
          exact ih p hp himem (heq ▸ hjmem)

theorem parent?_root : t.parent? t.root = none := by
  cases hparent : t.parent? t.root with
  | none => rfl
  | some p =>
      have hlt := parent?_lt hparent
      simp [root] at hlt

theorem exists_parent?
    {i : t.Pos} (h : i ≠ t.root) : ∃ p, t.parent? i = some p := by
  have hpos : 0 < i.val := by
    apply Nat.pos_of_ne_zero
    intro hzero
    exact h (Fin.ext hzero)
  have hsome := t.linked.parent_isSome i.val i.isLt hpos
  obtain ⟨p, hp⟩ := Option.isSome_iff_exists.mp hsome
  exact ⟨⟨p, parent_bound hp⟩, parent?_eq_some_iff.mpr hp⟩

theorem root_mem_lineage (i : t.Pos) : t.root ∈ t.lineage i := by
  induction i using parent_induction with
  | _ i ih =>
      by_cases hroot : i = t.root
      · rw [hroot]
        exact self_mem_lineage t.root
      · obtain ⟨p, hparent⟩ := exists_parent? hroot
        have hup := ih p hparent
        exact mem_lineage_iff.mpr
          (Or.inr (mem_ancestors_iff.mpr ⟨p, hparent, hup⟩))

/-- A lineage meets the children of a node at most once. -/
theorem child_unique_in_lineage
    {i c d j : t.Pos} (hc : c ∈ t.children i) (hd : d ∈ t.children i)
    (hcj : c ∈ t.lineage j) (hdj : d ∈ t.lineage j) : c = d := by
  have hparentC := mem_children_iff.mp hc
  have hparentD := mem_children_iff.mp hd
  have hlow : ∀ {a b : t.Pos}, t.parent? a = some i →
      t.parent? b = some i → a ∈ t.lineage b → a = b := by
    intro a b ha hb hmem
    rcases mem_lineage_iff.mp hmem with heq | habove
    · exact heq
    · rw [ancestors_eq_cons hb] at habove
      have hle := le_of_mem_lineage habove
      have hlt := parent?_lt ha
      omega
  rcases mem_lineage_total hcj hdj with hcd | hdc
  · exact hlow hparentC hparentD hcd
  · exact (hlow hparentD hparentC hdc).symm

theorem map_val_children (i : t.Pos) :
    (t.children i).map Fin.val = (t.node i).children := by
  unfold children
  rw [List.map_pmap]
  simp

theorem nodup_children (i : t.Pos) : (t.children i).Nodup := by
  have hpair : (t.children i).Pairwise (fun a b => a.val < b.val) := by
    unfold children
    rw [List.pairwise_pmap]
    apply (t.linked.ascending i.val i.isLt).imp
    intro a b hab _ _
    exact hab
  apply hpair.imp
  intro a b hlt heq
  rw [heq] at hlt
  exact Nat.lt_irrefl _ hlt

/-! ## The recursive order -/

theorem preorder_eq (i : t.Pos) :
    t.preorder i = i :: (t.children i).flatMap t.preorder := by
  rw [preorder]
  congr 1
  rw [List.flatMap_def, List.flatMap_def]
  exact congrArg List.flatten List.attach_map_val

/-- Induction from the children to a node. -/
theorem children_induction
    {motive : t.Pos → Prop}
    (step : ∀ i, (∀ c ∈ t.children i, motive c) → motive i) :
    ∀ i, motive i := by
  intro i
  induction hval : t.size - i.val using Nat.strong_induction_on
    generalizing i with
  | _ n ih =>
      apply step
      intro c hc
      have hlt := lt_of_mem_children hc
      exact ih (t.size - c.val) (by omega) c rfl

theorem mem_preorder_of_mem_children
    {i p c : t.Pos} (hp : p ∈ t.preorder i) (hc : c ∈ t.children p) :
    c ∈ t.preorder i := by
  induction i using children_induction with
  | _ i ih =>
      rw [preorder_eq] at hp ⊢
      apply List.mem_cons_of_mem
      rcases List.mem_cons.mp hp with heq | hbelow
      · subst heq
        refine List.mem_flatMap.mpr ⟨c, hc, ?_⟩
        rw [preorder_eq]
        exact List.mem_cons_self
      · obtain ⟨d, hd, hmem⟩ := List.mem_flatMap.mp hbelow
        exact List.mem_flatMap.mpr ⟨d, hd, ih d hd hmem⟩

/-- A node is listed below `i` exactly when `i` is in its lineage. -/
theorem mem_preorder_iff
    {i j : t.Pos} : j ∈ t.preorder i ↔ i ∈ t.lineage j := by
  constructor
  · intro h
    induction i using children_induction with
    | _ i ih =>
        rw [preorder_eq] at h
        rcases List.mem_cons.mp h with heq | hbelow
        · rw [heq]
          exact self_mem_lineage i
        · obtain ⟨c, hc, hmem⟩ := List.mem_flatMap.mp hbelow
          have hup := ih c hc hmem
          have hchild : i ∈ t.lineage c := by
            rw [mem_lineage_iff, ancestors_eq_cons (mem_children_iff.mp hc)]
            exact Or.inr (self_mem_lineage i)
          exact mem_lineage_trans hchild hup
  · intro h
    induction j using parent_induction with
    | _ j ih =>
        by_cases heq : i = j
        · rw [heq, preorder_eq]
          exact List.mem_cons_self
        · have habove := (mem_lineage_iff.mp h).resolve_left heq
          obtain ⟨p, hparent, hmem⟩ := mem_ancestors_iff.mp habove
          have hp := ih p hparent hmem
          exact mem_preorder_of_mem_children hp (mem_children_iff.mpr hparent)

theorem nodup_preorder (i : t.Pos) : (t.preorder i).Nodup := by
  induction i using children_induction with
  | _ i ih =>
      rw [preorder_eq, List.nodup_cons]
      constructor
      · intro hmem
        obtain ⟨c, hc, hbelow⟩ := List.mem_flatMap.mp hmem
        have hle := le_of_mem_lineage (mem_preorder_iff.mp hbelow)
        have hlt := lt_of_mem_children hc
        omega
      · rw [List.nodup_flatMap]
        refine ⟨ih, ?_⟩
        apply (nodup_children i).imp_of_mem
        intro c d hc hd hne j hjc hjd
        exact hne (child_unique_in_lineage hc hd
          (mem_preorder_iff.mp hjc) (mem_preorder_iff.mp hjd))

theorem length_preorder_le (i : t.Pos) : (t.preorder i).length ≤ t.size := by
  simpa using (nodup_preorder i).length_le_card

/-! ## The traversal with a stack -/

/-- One place off the stack, and its children on it. -/
theorem flatMap_preorder_cons (i : t.Pos) (stack : List t.Pos) :
    (i :: stack).flatMap t.preorder =
      i :: (t.children i ++ stack).flatMap t.preorder := by
  rw [List.flatMap_cons, preorder_eq, List.flatMap_append]
  rfl

theorem visit_eq_flatMap_preorder
    (fuel : Nat) (stack : List t.Pos)
    (hfuel : (stack.flatMap t.preorder).length ≤ fuel) :
    t.visit fuel stack = stack.flatMap t.preorder := by
  induction fuel generalizing stack with
  | zero =>
      have hnil : stack.flatMap t.preorder = [] :=
        List.length_eq_zero_iff.mp (Nat.le_zero.mp hfuel)
      rw [visit, hnil]
  | succ fuel ih =>
      cases stack with
      | nil => rfl
      | cons i stack =>
          rw [flatMap_preorder_cons, List.length_cons] at hfuel
          rw [visit, flatMap_preorder_cons, ih _ (by omega)]

theorem walk_eq_preorder : t.walk = t.preorder t.root := by
  unfold walk
  rw [visit_eq_flatMap_preorder]
  · simp
  · simpa using length_preorder_le t.root

theorem descendants_eq_flatMap (i : t.Pos) :
    t.descendants i = (t.children i).flatMap t.preorder := by
  unfold descendants
  apply visit_eq_flatMap_preorder
  have hlength := length_preorder_le i
  rw [preorder_eq, List.length_cons] at hlength
  omega

theorem preorder_eq_cons_descendants (i : t.Pos) :
    t.preorder i = i :: t.descendants i := by
  rw [preorder_eq, descendants_eq_flatMap]

theorem mem_descendants_iff
    {i j : t.Pos} : j ∈ t.descendants i ↔ i ∈ t.ancestors j := by
  have hiff := @mem_preorder_iff t i j
  rw [preorder_eq_cons_descendants, List.mem_cons, mem_lineage_iff] at hiff
  constructor
  · intro h
    rcases hiff.mp (Or.inr h) with heq | habove
    · have hnodup := nodup_preorder i
      rw [preorder_eq_cons_descendants] at hnodup
      rw [← heq] at h
      exact absurd h (List.nodup_cons.mp hnodup).1
    · exact habove
  · intro h
    rcases hiff.mpr (Or.inr h) with heq | hbelow
    · have hlt := lt_of_mem_ancestors h
      rw [heq] at hlt
      exact absurd hlt (Nat.lt_irrefl _)
    · exact hbelow

theorem mem_walk (t : Tree) (i : t.Pos) : i ∈ t.walk := by
  rw [walk_eq_preorder, mem_preorder_iff]
  exact root_mem_lineage i

theorem nodup_walk (t : Tree) : t.walk.Nodup := by
  rw [walk_eq_preorder]
  exact nodup_preorder t.root

end TreeLint.Tree

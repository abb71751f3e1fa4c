import TreeLint.Proofs.BuilderHistory
import TreeLint.Proofs.TextualTrees

/-!
# Trees that have grown

A tree grows when nodes are added below those that are there.  The old nodes keep
their places and all that they say.  New children come after the old ones, so the
first child of a node that has children stays the first, and a traversal visits
the old nodes in the old order, with new ones between them.
-/

namespace TreeLint

namespace Tree

variable {t t' : Tree}

/-- `t'` has the nodes of `t`, and perhaps more of them below these. -/
structure Grows (t t' : Tree) : Prop where
  size_le : t.size ≤ t'.size
  bare : ∀ i : t.Pos, (t'.node (i.castLE size_le)).bare = (t.node i).bare
  children : ∀ i : t.Pos, (t.node i).children <+: (t'.node (i.castLE size_le)).children

namespace Grows

/-- The same place in the grown tree. -/
def move (h : Grows t t') (i : t.Pos) : t'.Pos := i.castLE h.size_le

variable (h : Grows t t')
include h

theorem move_injective : Function.Injective h.move :=
  Fin.castLE_injective h.size_le

theorem exists_move_eq {j : t'.Pos} (hj : j.val < t.size) : ∃ i, h.move i = j :=
  ⟨⟨j.val, hj⟩, rfl⟩

/-! ## What a node says -/

theorem kind_move (i : t.Pos) : t'.kind (h.move i) = t.kind i := by
  have hbare := congrArg Node.kind (h.bare i)
  exact hbare

theorem image_move (i : t.Pos) : t'.image (h.move i) = t.image i := by
  have hbare := congrArg Node.image (h.bare i)
  exact hbare

theorem attribute?_move (name : String) (i : t.Pos) :
    t'.attribute? name (h.move i) = t.attribute? name i := by
  have hbare := congrArg (fun node => Fields.get? node.attributes name) (h.bare i)
  exact hbare

theorem flag_move (name : String) (absent : Bool) (i : t.Pos) :
    t'.flag name absent (h.move i) = t.flag name absent i := by
  unfold flag
  rw [h.attribute?_move]

theorem docComment_move (i : t.Pos) : t'.docComment (h.move i) = t.docComment i := by
  unfold docComment
  rw [h.attribute?_move]

/-! ## Links -/

theorem parent?_move (i : t.Pos) :
    t'.parent? (h.move i) = (t.parent? i).map h.move := by
  have hbare := congrArg Node.parent (h.bare i)
  have hparent : (t'.node (h.move i)).parent = (t.node i).parent := hbare
  apply Option.ext
  intro q
  rw [parent?_eq_some_iff, hparent, Option.map_eq_some_iff]
  constructor
  · intro hq
    exact ⟨⟨q.val, parent_bound hq⟩, parent?_eq_some_iff.mpr hq, rfl⟩
  · rintro ⟨p, hp, rfl⟩
    exact parent?_eq_some_iff.mp hp

theorem parent?_move_iff {i p : t.Pos} :
    t'.parent? (h.move i) = some (h.move p) ↔ t.parent? i = some p := by
  rw [h.parent?_move, ← Option.map_some, (Option.map_injective h.move_injective).eq_iff]

theorem exists_children_move (i : t.Pos) :
    ∃ new, t'.children (h.move i) = (t.children i).map h.move ++ new ∧
      ∀ c ∈ new, t.size ≤ c.val := by
  have hold : (t'.children (h.move i)).take (t.children i).length =
      (t.children i).map h.move := by
    have hprefix := List.prefix_iff_eq_take.mp (h.children i)
    have hlength := congrArg List.length (map_val_children i)
    rw [List.length_map] at hlength
    apply List.map_injective_iff.mpr Fin.val_injective
    rw [List.map_take, map_val_children, hlength, List.map_map]
    exact hprefix.symm.trans (map_val_children i).symm
  refine ⟨(t'.children (h.move i)).drop (t.children i).length, ?_, ?_⟩
  · rw [← hold, List.take_append_drop]
  · intro c hc
    by_contra hlt
    -- An old child stands in the old part of the list, and no child stands there twice.
    obtain ⟨c, rfl⟩ := h.exists_move_eq (Nat.lt_of_not_le hlt)
    have hparent := mem_children_iff.mp (List.mem_of_mem_drop hc)
    rw [h.parent?_move, Option.map_eq_some_iff] at hparent
    obtain ⟨p, hp, heq⟩ := hparent
    rw [h.move_injective heq] at hp
    have hmem : h.move c ∈ (t'.children (h.move i)).take (t.children i).length := by
      rw [hold]
      exact List.mem_map_of_mem (mem_children_iff.mpr hp)
    exact List.disjoint_take_drop (nodup_children _) le_rfl hmem hc

/-- A node with children keeps its first one. -/
theorem head?_children_move_iff
    {i c d : t.Pos} (hparent : t.parent? c = some i) :
    (t'.children (h.move i)).head? = some (h.move d) ↔ (t.children i).head? = some d := by
  obtain ⟨new, hchildren, _⟩ := h.exists_children_move i
  have hmem := mem_children_iff.mpr hparent
  obtain ⟨first, rest, hold⟩ := List.exists_cons_of_ne_nil (List.ne_nil_of_mem hmem)
  rw [hchildren, hold]
  simp [h.move_injective.eq_iff]

/-! ## Traversals -/

theorem filter_cons_move (i : t.Pos) (rest : List t'.Pos) :
    (h.move i :: rest).filter (fun j => j.val < t.size) =
      h.move i :: rest.filter fun j => j.val < t.size :=
  List.filter_cons_of_pos (decide_eq_true i.isLt)

omit h in
theorem filter_preorder_new
    {c : t'.Pos} (hc : t.size ≤ c.val) :
    (t'.preorder c).filter (fun j => j.val < t.size) = [] := by
  rw [List.filter_eq_nil_iff]
  intro j hj
  have hle := le_of_mem_lineage (mem_preorder_iff.mp hj)
  simp only [decide_eq_true_eq]
  omega

/-- The old nodes come in the old order. -/
theorem filter_preorder_move (i : t.Pos) :
    (t'.preorder (h.move i)).filter (fun j => j.val < t.size) =
      (t.preorder i).map h.move := by
  induction i using children_induction with
  | _ i ih =>
      obtain ⟨new, hchildren, hnew⟩ := h.exists_children_move i
      have hbelow : (new.flatMap t'.preorder).filter (fun j => j.val < t.size) = [] := by
        rw [List.filter_flatMap, List.flatMap_eq_nil_iff]
        intro c hc
        exact filter_preorder_new (hnew c hc)
      rw [preorder_eq, h.filter_cons_move, hchildren, List.flatMap_append,
        List.filter_append, hbelow, List.append_nil, preorder_eq, List.map_cons,
        List.flatMap_map, List.filter_flatMap, List.map_flatMap]
      congr 1
      exact List.flatMap_congr ih

theorem filter_descendants_move (i : t.Pos) :
    (t'.descendants (h.move i)).filter (fun j => j.val < t.size) =
      (t.descendants i).map h.move := by
  have hpreorder := h.filter_preorder_move i
  rw [preorder_eq_cons_descendants, h.filter_cons_move, preorder_eq_cons_descendants,
    List.map_cons] at hpreorder
  exact (List.cons.inj hpreorder).2

theorem filter_descendantsOfKind_move (kind : Kind) (i : t.Pos) :
    (t'.descendantsOfKind kind (h.move i)).filter (fun j => j.val < t.size) =
      (t.descendantsOfKind kind i).map h.move := by
  have hkind : ((fun j => t'.kind j == kind) ∘ h.move) = fun j => t.kind j == kind := by
    funext j
    rw [Function.comp_apply, h.kind_move]
  unfold descendantsOfKind
  rw [List.filter_comm, h.filter_descendants_move, List.filter_map, hkind]

theorem descendantsOfKind_sublist (kind : Kind) (i : t.Pos) :
    ((t.descendantsOfKind kind i).map h.move).Sublist
      (t'.descendantsOfKind kind (h.move i)) := by
  rw [← h.filter_descendantsOfKind_move]
  exact List.filter_sublist

section

variable {kind : Kind} (hkind : ∀ j : t'.Pos, t.size ≤ j.val → t'.kind j ≠ kind)
include hkind

theorem descendantsOfKind_move (i : t.Pos) :
    t'.descendantsOfKind kind (h.move i) = (t.descendantsOfKind kind i).map h.move := by
  rw [← h.filter_descendantsOfKind_move, eq_comm, List.filter_eq_self]
  intro j hj
  rw [decide_eq_true_eq]
  by_contra hnew
  exact hkind j (Nat.le_of_not_lt hnew) (by simpa using (List.mem_filter.mp hj).2)

theorem firstOfKind?_move (i : t.Pos) :
    t'.firstOfKind? kind (h.move i) = (t.firstOfKind? kind i).map h.move := by
  have hfirst := congrArg List.head? (h.descendantsOfKind_move hkind i)
  simp only [descendantsOfKind, List.head?_map, List.head?_filter] at hfirst
  exact hfirst

end

/-! ## Variables -/

theorem indexedBy_move_iff {i p : t.Pos} :
    t'.IndexedBy (h.move i) (h.move p) ↔ t.IndexedBy i p := by
  unfold IndexedBy
  rw [h.parent?_move_iff, h.kind_move]
  refine and_congr_right fun hparent => and_congr_right fun _ => ?_
  exact h.head?_children_move_iff hparent

theorem indexEnd_move
    {v w : t.Pos} (hend : t.IndexEnd v w) : t'.IndexEnd (h.move v) (h.move w) where
  chain := hend.chain.lift h.move fun _ _ => h.indexedBy_move_iff.mpr
  last q hindexed := by
    -- What stands above an old node is old.
    have hparent := hindexed.1
    rw [h.parent?_move, Option.map_eq_some_iff] at hparent
    obtain ⟨p, _, rfl⟩ := hparent
    exact hend.last p (h.indexedBy_move_iff.mp hindexed)

theorem isRegularVariable_move (v : t.Pos) :
    t'.isRegularVariable (h.move v) = t.isRegularVariable v := by
  obtain ⟨w, hend⟩ := exists_indexEnd v
  have hend' := h.indexEnd_move hend
  by_cases haccess : ∃ access primary,
      t.parent? w = some access ∧
        t.kind access = .propertyPostfix ∧ t.parent? access = some primary
  · obtain ⟨access, primary, haccess, hkind, hprimary⟩ := haccess
    have haccess' := h.parent?_move_iff.mpr haccess
    have hkind' := (h.kind_move access).trans hkind
    have hprimary' := h.parent?_move_iff.mpr hprimary
    have hfirst := h.head?_children_move_iff (d := w) haccess
    rw [isRegularVariable_of_access hend haccess hkind hprimary,
      isRegularVariable_of_access hend' haccess' hkind' hprimary', h.parent?_move]
    cases t.parent? primary with
    | none => simp [hfirst, isStatic, h.flag_move]
    | some outer =>
        by_cases hmember : t.kind outer = .memberPrimaryPrefix
        · simp [Option.filter_some, hmember, h.kind_move, isStatic, h.flag_move]
        · simp [Option.filter_some, hmember, h.kind_move, isStatic, h.flag_move, hfirst]
  · have hnone : ∀ access primary, t.parent? w = some access →
        t.kind access = .propertyPostfix → t.parent? access ≠ some primary := by
      intro access primary hparent hkind hprimary
      exact haccess ⟨access, primary, hparent, hkind, hprimary⟩
    have hnone' : ∀ access primary, t'.parent? (h.move w) = some access →
        t'.kind access = .propertyPostfix → t'.parent? access ≠ some primary := by
      intro access' primary' hparent hkind hprimary
      rw [h.parent?_move, Option.map_eq_some_iff] at hparent
      obtain ⟨access, hparent, rfl⟩ := hparent
      rw [h.parent?_move, Option.map_eq_some_iff] at hprimary
      obtain ⟨primary, hprimary, rfl⟩ := hprimary
      exact hnone access primary hparent ((h.kind_move access).symm.trans hkind) hprimary
    rw [isRegularVariable_of_no_access hend hnone, isRegularVariable_of_no_access hend' hnone']

end Grows

/-! ## Adding a node -/

theorem bare_appendBelow_old
    {nodes : Array Node} {p : Nat} {entry : Entry} {i : Nat}
    (hi : i < nodes.size) (h : i < (appendBelow nodes p entry).size) :
    (appendBelow nodes p entry)[i].bare = nodes[i].bare := by
  simp only [appendBelow]
  rw [Array.getElem_push_lt (by simpa using hi), Array.getElem_modify]
  split
  · exact Node.bare_addChild _ _
  · rfl

theorem grows_extend
    {p : Nat} (hp : p < t.size) (entry : Entry) : Grows t (t.extend p hp entry) where
  size_le := by
    change t.nodes.size ≤ (appendBelow t.nodes p entry).size
    simp
  bare i := bare_appendBelow_old i.isLt _
  children i := by
    have hbound : i.val < (appendBelow t.nodes p entry).size := by
      rw [size_appendBelow]
      exact Nat.lt_succ_of_lt i.isLt
    change t.nodes[i].children <+: (appendBelow t.nodes p entry)[i.val].children
    rw [children_appendBelow_old i.isLt hbound]
    split
    · exact List.prefix_append _ _
    · exact List.prefix_rfl

theorem kind_extend_new
    {p : Nat} (hp : p < t.size) (entry : Entry) (j : (t.extend p hp entry).Pos)
    (hj : t.size ≤ j.val) : (t.extend p hp entry).kind j = entry.kind := by
  have hsize : (t.extend p hp entry).size = t.size + 1 := size_appendBelow _ _ _
  have hlast : j.val = (t.nodes.modify p (·.addChild t.nodes.size)).size := by
    rw [Array.size_modify]
    exact Nat.le_antisymm (Nat.le_of_lt_succ (j.isLt.trans_eq hsize)) hj
  have hnode : (t.extend p hp entry).node j = entry.toNode (some p) := by
    change (appendBelow t.nodes p entry)[j.val] = _
    simp only [appendBelow, hlast, Array.getElem_push_eq]
  rw [kind, hnode]
  rfl

end Tree

/-- A node that is added to a builder is a node more in its tree. -/
theorem Builder.exists_extend_of_add
    {b b' : Builder} {entry : Entry} {parent : Option Int} {t t' : Tree}
    (hadd : b.add entry parent = .ok b')
    (hbuild : b.build = .ok t) (hbuild' : b'.build = .ok t') :
    ∃ p hp, t' = t.extend p hp entry := by
  unfold Builder.build at hbuild
  split at hbuild
  · next hpos =>
    cases hbuild
    unfold Builder.add at hadd
    cases parent with
    | none =>
        have hempty : b.nodes.isEmpty = false := by
          simpa using Nat.ne_of_gt hpos
        simp [hempty] at hadd
    | some p =>
        simp only at hadd
        split at hadd
        · next hbound =>
          cases hadd
          unfold Builder.build at hbuild'
          split at hbuild'
          · cases hbuild'
            exact ⟨p.toNat, hbound.2, rfl⟩
          · cases hbuild'
        · cases hadd
  · cases hbuild

end TreeLint

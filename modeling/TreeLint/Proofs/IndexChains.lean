import Mathlib.Data.List.Chain
import TreeLint.Proofs.TextualTrees

/-!
# The climb out of index expressions

The climb is a loop that goes from a node to the index expression above it, as
long as the node is the first child there.  `Strips` is this loop with no bound
on its rounds; it has two exits, and a step to a neighbour that is missing would
leave it stuck.

The rounds of the loop are the links of a chain: it goes on from `i` to `p`
exactly when `t.IndexedBy i p`.  A node has one parent and an expression has one
first child, so chains neither fork nor join.  The loop therefore passes the only
chain from its start that nothing continues, and two nodes come to the same end
exactly when one chain holds both.
-/

namespace TreeLint.Tree

variable {t : Tree}

/-! ## Links -/

theorem rightUnique_indexedBy : Relator.RightUnique t.IndexedBy := by
  intro i p q hp hq
  exact Option.some.inj (hp.1.symm.trans hq.1)

theorem leftUnique_indexedBy : Relator.LeftUnique t.IndexedBy := by
  intro i j p hi hj
  exact Option.some.inj (hi.2.2.symm.trans hj.2.2)

theorem child_zero_eq_ok_iff
    {p first : t.Pos} :
    t.child p 0 = .ok first ↔ (t.children p).head? = some first := by
  unfold child
  cases t.children p with
  | nil => simp
  | cons c rest => simp

/-- The tests of a round: they let the loop go on from `i` to `p` exactly along a link. -/
theorem indexedBy_iff
    {i p : t.Pos} :
    t.IndexedBy i p ↔
      t.isWrapped i = .ok true ∧ t.parent i = .ok p ∧ t.child p 0 = .ok i := by
  rw [isWrapped_eq, child_zero_eq_ok_iff]
  constructor
  · rintro ⟨hparent, hindex, hfirst⟩
    refine ⟨?_, parent_eq_ok hparent, hfirst⟩
    rw [hparent, Option.any_some, hindex]
  · rintro ⟨hwrapped, -, hfirst⟩
    have hparent : t.parent? i = some p := mem_children_iff.mp (List.mem_of_mem_head? hfirst)
    rw [hparent, Option.any_some] at hwrapped
    exact ⟨hparent, Except.ok.inj hwrapped, hfirst⟩

theorem mem_lineage_of_indexed
    {i r : t.Pos} (h : Relation.ReflTransGen t.IndexedBy i r) : r ∈ t.lineage i := by
  induction h using Relation.ReflTransGen.head_induction_on with
  | refl => exact self_mem_lineage r
  | head hstep _ ih =>
      apply List.mem_cons_of_mem
      rw [ancestors_eq_cons hstep.1]
      exact ih

/-! ## Chains that nothing continues -/

/-- A chain of links from `i` to `r` that ends there because no link leads on. -/
structure FullChain (t : Tree) (i : t.Pos) (chain : List t.Pos) (r : t.Pos) : Prop where
  starts : chain.head? = some i
  linked : chain.IsChain t.IndexedBy
  ends : chain.getLast? = some r
  full : ∀ p, ¬ t.IndexedBy r p

theorem fullChain_singleton
    {i : t.Pos} (h : ∀ p, ¬ t.IndexedBy i p) : t.FullChain i [i] i where
  starts := rfl
  linked := .singleton i
  ends := rfl
  full := h

theorem FullChain.cons
    {i p r : t.Pos} {chain : List t.Pos}
    (hfull : t.FullChain p chain r) (hstep : t.IndexedBy i p) :
    t.FullChain i (i :: chain) r where
  starts := rfl
  linked := by
    apply hfull.linked.cons
    intro q hq
    rw [hfull.starts, Option.mem_some_iff] at hq
    exact hq ▸ hstep
  ends := by rw [List.getLast?_cons, hfull.ends, Option.getD_some]
  full := hfull.full

theorem FullChain.indexEnd
    {i r : t.Pos} {chain : List t.Pos}
    (hfull : t.FullChain i chain r) : t.IndexEnd i r := by
  obtain ⟨rest, rfl⟩ := List.head?_eq_some_iff.mp hfull.starts
  have hends := hfull.ends
  rw [List.getLast?_eq_some_getLast (List.cons_ne_nil i rest)] at hends
  exact ⟨List.relationReflTransGen_of_exists_isChain_cons rest hfull.linked
    (Option.some.inj hends), hfull.full⟩

/-- Every chain from the start of a full one is a beginning of it. -/
theorem FullChain.prefix_of_isChain
    {i r : t.Pos} {chain other : List t.Pos}
    (hfull : t.FullChain i chain r)
    (hstarts : other.head? = some i)
    (hlinked : other.IsChain t.IndexedBy) :
    other <+: chain := by
  obtain ⟨hhead, hchain, hends, hlast⟩ := hfull
  -- Both lists are followed link by link, and the full one does not end first.
  induction chain generalizing i other with
  | nil => simp at hhead
  | cons a rest ih =>
      obtain rfl : a = i := by simpa using hhead
      obtain ⟨tail, rfl⟩ := List.head?_eq_some_iff.mp hstarts
      rw [List.cons_prefix_cons]
      refine ⟨rfl, ?_⟩
      cases tail with
      | nil => exact List.nil_prefix
      | cons q tail =>
          obtain ⟨hstep, htail⟩ := List.isChain_cons_cons.mp hlinked
          cases rest with
          | nil =>
              obtain rfl : a = r := by simpa using hends
              exact absurd hstep (hlast q)
          | cons p rest =>
              obtain ⟨hnext, hrest⟩ := List.isChain_cons_cons.mp hchain
              obtain rfl : p = q := rightUnique_indexedBy hnext hstep
              rw [List.getLast?_cons_cons] at hends
              exact ih rfl htail rfl hrest hends

theorem FullChain.unique
    {i r r' : t.Pos} {chain chain' : List t.Pos}
    (h : t.FullChain i chain r) (h' : t.FullChain i chain' r') :
    chain = chain' ∧ r = r' := by
  have hle := h'.prefix_of_isChain h.starts h.linked
  have hge := h.prefix_of_isChain h'.starts h'.linked
  exact ⟨hle.eq_of_length_le hge.length_le, h.indexEnd.unique h'.indexEnd⟩

/-! ## The loop -/

/-- The loop of the climb: from a node, the nodes that it comes to and the one that it ends with.
It is over when the node is not right below an index expression, and also when it is, but behind
the first child. -/
inductive Strips (t : Tree) : t.Pos → List t.Pos → t.Pos → Prop where
  | outside {i : t.Pos}
      (hwrapped : t.isWrapped i = .ok false) :
      Strips t i [i] i
  | behind {i p first : t.Pos}
      (hwrapped : t.isWrapped i = .ok true)
      (hparent : t.parent i = .ok p)
      (hfirst : t.child p 0 = .ok first)
      (hne : first ≠ i) :
      Strips t i [i] i
  | next {i p r : t.Pos} {passed : List t.Pos}
      (hwrapped : t.isWrapped i = .ok true)
      (hparent : t.parent i = .ok p)
      (hfirst : t.child p 0 = .ok i)
      (hrest : Strips t p passed r) :
      Strips t i (i :: passed) r

theorem strips_of_not_indexedBy
    {i : t.Pos} (h : ∀ p, ¬ t.IndexedBy i p) : Strips t i [i] i := by
  cases hwrapped : (t.parent? i).any fun p => (t.kind p).isIndex with
  | false => exact .outside (by rw [isWrapped_eq, hwrapped])
  | true =>
      obtain ⟨p, hparent, -⟩ := (Option.any_eq_true _ _).mp hwrapped
      obtain ⟨first, hfirst, -⟩ := exists_child_zero hparent
      have hwrapped' : t.isWrapped i = .ok true := by rw [isWrapped_eq, hwrapped]
      refine .behind hwrapped' (parent_eq_ok hparent) hfirst ?_
      rintro rfl
      exact h p (indexedBy_iff.mpr ⟨hwrapped', parent_eq_ok hparent, hfirst⟩)

theorem exists_strips (i : t.Pos) : ∃ passed r, Strips t i passed r := by
  -- The loop goes on along a link only, and a link leads to a parent.
  induction i using parent_induction with
  | _ i ih =>
      by_cases hstep : ∃ p, t.IndexedBy i p
      · obtain ⟨p, hp⟩ := hstep
        obtain ⟨passed, r, hrest⟩ := ih p hp.1
        obtain ⟨hwrapped, hparent, hfirst⟩ := indexedBy_iff.mp hp
        exact ⟨i :: passed, r, .next hwrapped hparent hfirst hrest⟩
      · exact ⟨[i], i, strips_of_not_indexedBy (not_exists.mp hstep)⟩

/-- What the loop has passed when it is over is a full chain, whichever exit it took. -/
theorem Strips.fullChain
    {i r : t.Pos} {passed : List t.Pos}
    (h : Strips t i passed r) : t.FullChain i passed r := by
  induction h with
  | outside hwrapped =>
      apply fullChain_singleton
      intro p hp
      simp [(indexedBy_iff.mp hp).1] at hwrapped
  | behind hwrapped hparent hfirst hne =>
      apply fullChain_singleton
      intro q hq
      obtain ⟨-, hparent', hfirst'⟩ := indexedBy_iff.mp hq
      obtain rfl := Except.ok.inj (hparent.symm.trans hparent')
      exact hne (Except.ok.inj (hfirst.symm.trans hfirst'))
  | next hwrapped hparent hfirst _ ih =>
      exact ih.cons (indexedBy_iff.mpr ⟨hwrapped, hparent, hfirst⟩)

/-! ## Chains that two nodes share -/

theorem stripIndex_eq_of_isChain
    {i j : t.Pos} {shared : List t.Pos}
    (hlinked : shared.IsChain t.IndexedBy)
    (hi : i ∈ shared) (hj : j ∈ shared) :
    t.stripIndex i = t.stripIndex j := by
  -- A link keeps the end, so every node of the chain has the end of the first one.
  cases shared with
  | nil => cases hi
  | cons a rest =>
      have hsame : ∀ k ∈ a :: rest, t.stripIndex k = t.stripIndex a := by
        apply hlinked.induction
        · intro k p hstep hk
          rw [← stripIndex_of_indexedBy hstep, hk]
        · intro _
          rfl
      rw [hsame i hi, hsame j hj]

theorem exists_shared_of_indexed
    {i j : t.Pos} (h : Relation.ReflTransGen t.IndexedBy i j) :
    ∃ shared : List t.Pos, shared.IsChain t.IndexedBy ∧ i ∈ shared ∧ j ∈ shared := by
  obtain ⟨rest, hlinked, hlast⟩ := List.exists_isChain_cons_of_relationReflTransGen h
  refine ⟨i :: rest, hlinked, List.mem_cons_self, ?_⟩
  rw [← hlast]
  exact List.getLast_mem _

theorem IndexEnd.indexed_or_indexed
    {i j r : t.Pos} (hi : t.IndexEnd i r) (hj : t.IndexEnd j r) :
    Relation.ReflTransGen t.IndexedBy i j ∨ Relation.ReflTransGen t.IndexedBy j i := by
  -- Downwards from `r` the links are unique too, so the longer way comes through the other node.
  have htotal := Relation.ReflTransGen.total_of_right_unique leftUnique_indexedBy.flip
    hi.chain.swap hj.chain.swap
  exact htotal.symm.imp Relation.reflTransGen_swap.mp Relation.reflTransGen_swap.mp

theorem IndexEnd.stripIndex_eq_iff
    {i j r : t.Pos} (hi : t.IndexEnd i r) :
    t.stripIndex j = .ok r ↔
      ∃ shared : List t.Pos, shared.IsChain t.IndexedBy ∧ i ∈ shared ∧ j ∈ shared := by
  constructor
  · intro hstrip
    obtain ⟨r', hj⟩ := exists_indexEnd j
    obtain rfl : r' = r := Except.ok.inj (hj.stripIndex_eq.symm.trans hstrip)
    rcases hi.indexed_or_indexed hj with hij | hji
    · exact exists_shared_of_indexed hij
    · obtain ⟨shared, hlinked, hmem, hmem'⟩ := exists_shared_of_indexed hji
      exact ⟨shared, hlinked, hmem', hmem⟩
  · rintro ⟨shared, hlinked, hmem, hmem'⟩
    rw [stripIndex_eq_of_isChain hlinked hmem' hmem, hi.stripIndex_eq]

/-- The climb out of index expressions ends, and without a missing neighbour: the loop has one run,
which passes a chain that has every chain from its start as a beginning, and the last node of this
longest chain is the answer.  It is the node itself or above it, it is its own answer, and it is the
answer for exactly the nodes that share a chain with the first one. -/
theorem stripIndex_ends_longest_chain (t : Tree) (i : t.Pos) :
    ∃ (chain : List t.Pos) (r : t.Pos),
      t.stripIndex i = .ok r ∧
        (∀ passed last, Strips t i passed last ↔ passed = chain ∧ last = r) ∧
        chain.head? = some i ∧
        chain.IsChain t.IndexedBy ∧
        chain.getLast? = some r ∧
        (∀ other : List t.Pos, other.head? = some i → other.IsChain t.IndexedBy →
          other <+: chain) ∧
        (r = i ∨ r ∈ t.ancestors i) ∧
        t.stripIndex r = .ok r ∧
        ∀ j, t.stripIndex j = .ok r ↔
          ∃ shared : List t.Pos, shared.IsChain t.IndexedBy ∧ i ∈ shared ∧ j ∈ shared := by
  obtain ⟨chain, r, hrun⟩ := exists_strips i
  have hfull := hrun.fullChain
  have hend := hfull.indexEnd
  refine ⟨chain, r, hend.stripIndex_eq, ?_, hfull.starts, hfull.linked, hfull.ends, ?_,
    mem_lineage_iff.mp (mem_lineage_of_indexed hend.chain),
    stripIndex_of_not_indexedBy hfull.full, fun j => hend.stripIndex_eq_iff⟩
  · intro passed last
    constructor
    · intro h
      exact h.fullChain.unique hfull
    · rintro ⟨rfl, rfl⟩
      exact hrun
  · intro other hstarts hlinked
    exact hfull.prefix_of_isChain hstarts hlinked

/-- An index expression in an index expression, with a variable in front and one in the brackets. -/
def sampleIndexing : Tree :=
  (((single "a.php" { kind := .stringIndexExpression }).extend 0
    (by decide) { kind := .arrayIndexExpression }).extend 1
    (by decide) { kind := .variableUse, image := .str "$a" }).extend 1
    (by decide) { kind := .variableUse, image := .str "$b" }

example :
    sampleIndexing.stripIndex ⟨2, by decide⟩ = .ok ⟨0, by decide⟩ ∧
      sampleIndexing.stripIndex ⟨3, by decide⟩ = .ok ⟨3, by decide⟩ := by
  decide +kernel

end TreeLint.Tree

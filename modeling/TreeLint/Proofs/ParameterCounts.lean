import TreeLint.Proofs.CheckOutcome

/-!
# Reported and counted parameters

A callable counts the parameters in the first list among its children.  The check
reads the first list that a traversal of everything below the callable meets.
Where that list is a child of the callable, both are the same list, and only
counted parameters are reported.  Where it is not, the check reports parameters
that the callable does not count: those of a closure in the body of a callable
that comes without a list, for instance.
-/

namespace TreeLint

namespace Tree

variable {t : Tree}

/-- The first node of a kind below `i` is the first one of that kind in the subtree of a child, and
there is none in the subtrees before. -/
theorem exists_child_of_firstOfKind?
    {kind : Kind} {i first : t.Pos} (h : t.firstOfKind? kind i = some first) :
    ∃ before c after, t.children i = before ++ c :: after ∧
      (∀ b ∈ before, t.kind b ≠ kind) ∧
      (t.preorder c).find? (fun j => t.kind j == kind) = some first := by
  unfold firstOfKind? at h
  rw [descendants_eq_flatMap, List.find?_flatMap, List.findSome?_eq_some_iff] at h
  obtain ⟨before, c, after, hchildren, hfirst, hbefore⟩ := h
  refine ⟨before, c, after, hchildren, ?_, hfirst⟩
  intro b hb
  have hself : b ∈ t.preorder b := mem_preorder_iff.mpr (self_mem_lineage b)
  simpa using List.find?_eq_none.mp (hbefore b hb) b hself

/-- A child of the kind that is above the first such node is that node. -/
theorem eq_of_firstOfKind?
    {kind : Kind} {i c first : t.Pos}
    (h : t.firstOfKind? kind i = some first)
    (hc : c ∈ t.children i)
    (hkind : t.kind c = kind)
    (habove : c ∈ t.lineage first) :
    c = first := by
  obtain ⟨before, d, after, hchildren, _, hfirst⟩ := exists_child_of_firstOfKind? h
  have hd : d ∈ t.children i := by simp [hchildren]
  have hmem := mem_preorder_iff.mp (List.mem_of_find?_eq_some hfirst)
  obtain rfl := child_unique_in_lineage hc hd habove hmem
  simpa [preorder_eq, hkind] using hfirst

/-- If the first node of a kind below `i` is a child, it is the first child of that kind. -/
theorem find?_children_of_firstOfKind?
    {kind : Kind} {i first : t.Pos}
    (h : t.firstOfKind? kind i = some first)
    (hparent : t.parent? first = some i) :
    (t.children i).find? (fun c => t.kind c == kind) = some first := by
  obtain ⟨before, c, after, hchildren, hbefore, hfirst⟩ := exists_child_of_firstOfKind? h
  have hc : c ∈ t.children i := by simp [hchildren]
  have habove := mem_preorder_iff.mp (List.mem_of_find?_eq_some hfirst)
  obtain rfl := child_unique_in_lineage hc (mem_children_iff.mpr hparent) habove
    (self_mem_lineage first)
  have hkind : (t.kind c == kind) = true := by
    simpa using List.find?_some hfirst
  have hnone : before.find? (fun c => t.kind c == kind) = none := by
    rw [List.find?_eq_none]
    intro b hb
    simpa using hbefore b hb
  rw [hchildren, List.find?_append, hnone, Option.none_or, List.find?_cons, hkind]

end Tree

namespace UnusedParameter

open TreeLint.Tree

/-! ## Scans only strike out -/

section Drops

variable {t : Tree} {ε : Type}

/-- A pass ends with part of the pending parameters, if it does not fail. -/
abbrev Drops (pending : Pending t) : Except ε (Pending t) → Prop :=
  Ends (fun left => left.Sublist pending) fun _ => True

theorem Drops.ends
    {pending : Pending t} {pass : Except ε (Pending t)} (h : Drops pending pass)
    {P : Pending t → Prop} (hpart : ∀ left, left.Sublist pending → P left) :
    Ends P (fun _ => True) pass := by
  cases pass with
  | error error => trivial
  | ok left => exact hpart left h

theorem Drops.foldlM
    {α : Type} {step : Pending t → α → Except ε (Pending t)}
    (hround : ∀ pending x, Drops pending (step pending x)) (items : List α)
    {pending start : Pending t} (hstart : start.Sublist pending) :
    Drops pending (items.foldlM step start) := by
  refine Ends.foldlM hstart fun left hleft x _ => ?_
  exact (hround left x).ends fun next hnext => hnext.trans hleft

theorem discard_eq_ok
    {pending left : Pending t} {name : Value} (h : pending.discard name = .ok left) :
    left = pending.filter fun entry => !entry.1.same name := by
  unfold Pending.discard at h
  split at h
  · next hempty =>
    cases h
    rw [List.isEmpty_iff.mp hempty]
    rfl
  · unfold Image.key at h
    split at h
    · cases h
      rfl
    · cases h

theorem drops_discard (pending : Pending t) (name : Value) :
    Drops pending (pending.discard name) := by
  cases hleft : pending.discard name with
  | error fault => trivial
  | ok left =>
      rw [discard_eq_ok hleft]
      exact List.filter_sublist

theorem drops_strikeVariable (pending : Pending t) (v : t.Pos) :
    Drops pending (strikeVariable t pending v) := by
  unfold strikeVariable
  split
  · trivial
  · exact List.Sublist.refl pending
  · exact (drops_discard pending _).mapError fun _ _ => trivial

theorem drops_strikeJoined (c : t.Pos) (pending : Pending t) (e : t.Pos) :
    Drops pending (strikeJoined t c pending e) := by
  unfold strikeJoined
  split
  · exact drops_discard pending _
  · trivial

theorem drops_strikeLiteral (pending : Pending t) (l : t.Pos) :
    Drops pending (strikeLiteral t pending l) := by
  unfold strikeLiteral
  split
  · exact drops_discard pending _
  · trivial

theorem drops_strikeCompound (pending : Pending t) (c : t.Pos) :
    Drops pending ((t.descendantsOfKind .expression c).foldlM (strikeJoined t c) pending) :=
  Drops.foldlM (drops_strikeJoined c) _ (List.Sublist.refl pending)

theorem drops_strikeCall (pending : Pending t) (call : t.Pos) :
    Drops pending (strikeCall t pending call) := by
  unfold strikeCall
  split
  · next all compact _ _ =>
    have hstart : (if all then [] else pending).Sublist pending := by
      split
      · exact List.nil_sublist pending
      · exact List.Sublist.refl pending
    simp only
    split
    · exact Drops.foldlM drops_strikeLiteral _ hstart
    · exact hstart
  · trivial
  · trivial

end Drops

/-! ## What is reported was declared -/

variable {t : Tree}

theorem declarators_of_none
    {i : t.Pos} (h : t.firstOfKind? .formalParameters i = none) : declarators t i = [] := by
  unfold declarators
  rw [preorder_eq_cons_descendants, List.tail_cons]
  unfold firstOfKind? at h
  rw [h]

theorem declarators_of_some
    {i list : t.Pos} (h : t.firstOfKind? .formalParameters i = some list) :
    declarators t i = t.descendantsOfKind .variableDeclarator list := by
  unfold declarators
  rw [preorder_eq_cons_descendants, List.tail_cons]
  unfold firstOfKind? at h
  rw [h]
  simp only
  rw [preorder_eq_cons_descendants, List.tail_cons]
  rfl

theorem ends_foldlM_add
    (ds : List t.Pos) {seen : List t.Pos} {pending : Pending t}
    (hpending : (pending.map Prod.snd).Sublist seen) :
    Ends (fun next => (next.map Prod.snd).Sublist (seen ++ ds)) (fun _ => True)
      (ds.foldlM Pending.add pending) := by
  induction ds generalizing seen pending with
  | nil =>
      rw [List.append_nil]
      exact hpending
  | cons d ds ih =>
      have hadd : Ends (fun next => (next.map Prod.snd).Sublist (seen ++ [d])) (fun _ => True)
          (pending.add d) := by
        unfold Pending.add Image.key
        split
        · simp only [Except.map]
          split
          · exact hpending.trans (List.sublist_append_left seen [d])
          · have hnew := hpending.append (List.Sublist.refl [d])
            simpa [Ends] using hnew
        · trivial
      rw [List.foldlM_cons, List.append_cons]
      exact hadd.bind fun next hnext => ih hnext

theorem ends_declared (i : t.Pos) :
    Ends (fun pending => (pending.map Prod.snd).Sublist (declarators t i)) (fun _ => True)
      (declared t i) := by
  unfold declared
  cases hlist : t.firstOfKind? .formalParameters i with
  | none => exact List.nil_sublist _
  | some list =>
      rw [declarators_of_some hlist]
      have hempty : (([] : Pending t).map Prod.snd).Sublist [] := List.Sublist.refl []
      exact ends_foldlM_add _ hempty

theorem ends_remaining_sublist (i : t.Pos) :
    Ends (fun left => (left.map Prod.snd).Sublist (declarators t i)) (fun _ => True)
      (remaining t i) := by
  unfold remaining
  refine ((ends_declared i).mapError fun _ _ => trivial).bind fun pending hpending => ?_
  have hkept : ∀ left : Pending t, left.Sublist pending →
      (left.map Prod.snd).Sublist (declarators t i) := by
    intro left hleft
    exact (hleft.map Prod.snd).trans hpending
  have hvariables := Drops.foldlM drops_strikeVariable
    (t.descendantsOfKind .variableUse i) (List.Sublist.refl pending)
  refine Ends.bind hvariables fun left hleft => ?_
  have hcompounds := Drops.foldlM drops_strikeCompound
    (t.descendantsOfKind .compoundVariable i) hleft
  refine (hcompounds.mapError fun _ _ => trivial).bind fun left hleft => ?_
  have hcalls := Drops.foldlM drops_strikeCall (t.descendantsOfKind .functionPostfix i) hleft
  exact (hcalls.ends hkept).mapError fun _ _ => trivial

/-- The scans keep the order of the declarators. -/
theorem ends_reported_sublist (i : t.Pos) :
    Ends (fun ds => ds.Sublist (declarators t i)) (fun _ => True) (reported t i) := by
  unfold reported
  split
  · exact List.nil_sublist _
  · split
    · exact List.nil_sublist _
    · exact (ends_remaining_sublist i).map fun _ hpending => hpending
    · trivial

/-! ## Counting -/

/-- The parameters that a callable counts. -/
def counted (t : Tree) (i : t.Pos) : List t.Pos :=
  match (t.children i).find? fun c => t.kind c == .formalParameters with
  | some list => t.descendantsOfKind .variableDeclarator list
  | none => []

theorem parameterCount_eq_length (i : t.Pos) :
    t.parameterCount i = (counted t i).length := by
  unfold parameterCount counted
  cases (t.children i).find? fun c => t.kind c == .formalParameters with
  | none => rfl
  | some list => rfl

/-- The first parameter list below a node is a child of it. -/
def FirstListIsChild (t : Tree) (i : t.Pos) : Prop :=
  ∃ list, t.firstOfKind? .formalParameters i = some list ∧ t.parent? list = some i

theorem exists_list_of_mem_declarators
    {i d : t.Pos} (h : d ∈ declarators t i) :
    ∃ list, t.firstOfKind? .formalParameters i = some list ∧ list ∈ t.ancestors d := by
  cases hlist : t.firstOfKind? .formalParameters i with
  | none =>
      rw [declarators_of_none hlist] at h
      cases h
  | some list =>
      rw [declarators_of_some hlist] at h
      exact ⟨list, rfl, (mem_descendantsOfKind_iff.mp h).1⟩

theorem exists_list_of_mem_counted
    {i d : t.Pos} (h : d ∈ counted t i) :
    ∃ list ∈ t.children i, t.kind list = .formalParameters ∧ list ∈ t.ancestors d := by
  unfold counted at h
  split at h
  · next list hlist =>
    have hkind : t.kind list = .formalParameters := by simpa using List.find?_some hlist
    exact ⟨list, List.mem_of_find?_eq_some hlist, hkind, (mem_descendantsOfKind_iff.mp h).1⟩
  · cases h

theorem declarators_eq_counted
    {i : t.Pos} (h : FirstListIsChild t i) : declarators t i = counted t i := by
  obtain ⟨list, hfirst, hparent⟩ := h
  unfold counted
  rw [declarators_of_some hfirst, find?_children_of_firstOfKind? hfirst hparent]

/-- A declarator below the first list is counted only if that list is a child. -/
theorem firstListIsChild_of_mem
    {i d : t.Pos} (hdeclared : d ∈ declarators t i) (hcounted : d ∈ counted t i) :
    FirstListIsChild t i := by
  obtain ⟨first, hfirst, habove⟩ := exists_list_of_mem_declarators hdeclared
  obtain ⟨list, hchild, hkind, hlistAbove⟩ := exists_list_of_mem_counted hcounted
  have hparent := mem_children_iff.mp hchild
  -- Both lists are above the declarator, so one of them is above the other.
  rcases mem_lineage_total (mem_lineage_iff.mpr (Or.inr hlistAbove))
    (mem_lineage_iff.mpr (Or.inr habove)) with hup | hdown
  · obtain rfl := eq_of_firstOfKind? hfirst hchild hkind hup
    exact ⟨list, hfirst, hparent⟩
  · rcases mem_lineage_iff.mp hdown with rfl | hover
    · exact ⟨first, hfirst, hparent⟩
    · rw [ancestors_eq_cons hparent] at hover
      have hle := le_of_mem_lineage hover
      have hlt := lt_of_mem_ancestors (mem_descendants_iff.mp (List.mem_of_find?_eq_some hfirst))
      omega

/-- The check reports parameters from the first list below a node.  They are among those that the
node counts exactly if this list is a child of it; then there are no more of them than the node
counts. -/
theorem reported_counted_iff_first_list_child
    {t : Tree} {i : t.Pos} {found : List Violation}
    (hcheck : check t i = .ok found) :
    ∃ ds : List t.Pos, found = ds.map (violationAt t) ∧
      ds.Sublist (declarators t i) ∧
      (∀ d ∈ ds, d ∈ counted t i ↔ FirstListIsChild t i) ∧
      (FirstListIsChild t i → found.length ≤ t.parameterCount i) := by
  obtain ⟨ds, hds, rfl⟩ := exists_eq_map_violationAt hcheck
  have hreported := ends_reported_sublist i
  rw [hds] at hreported
  refine ⟨ds, rfl, hreported, ?_, ?_⟩
  · intro d hd
    have hdeclared := List.Sublist.subset hreported hd
    constructor
    · intro hcounted
      exact firstListIsChild_of_mem hdeclared hcounted
    · intro hchild
      rwa [← declarators_eq_counted hchild]
  · intro hchild
    rw [parameterCount_eq_length, ← declarators_eq_counted hchild, List.length_map]
    exact List.Sublist.length_le hreported

/-- A function without a list of its own, with a closure that has the parameter `$x`. -/
def sampleClosure : Tree :=
  (((single "a.php" { kind := .function, image := .str "f" }).extend 0
    Nat.zero_lt_one { kind := .closure }).extend 1
    (by decide) { kind := .formalParameters }).extend 2
    (by decide) { kind := .variableDeclarator, image := .str "$x" }

theorem reported_counted_iff_first_list_child_sample :
    check sampleClosure sampleClosure.root = .ok [violationAt sampleClosure ⟨3, by decide⟩] ∧
      sampleClosure.parameterCount sampleClosure.root = 0 ∧
      ¬ FirstListIsChild sampleClosure sampleClosure.root := by
  have hcheck : check sampleClosure sampleClosure.root =
      .ok [violationAt sampleClosure ⟨3, by decide⟩] := by
    have hreported : reported sampleClosure sampleClosure.root = .ok [⟨3, by decide⟩] := rfl
    rw [check_eq, hreported]
    rfl
  refine ⟨hcheck, rfl, ?_⟩
  intro hchild
  obtain ⟨_, _, _, _, hbound⟩ := reported_counted_iff_first_list_child hcheck
  exact absurd (hbound hchild) (by decide)

end UnusedParameter

end TreeLint

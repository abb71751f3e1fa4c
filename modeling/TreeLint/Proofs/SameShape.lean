import TreeLint.Proofs.UnusedParameters

/-!
# Trees of the same shape

Two trees have the same shape when they have the same links and the same kinds.
A place in one of them is then a place in the other, and travelling, up or down,
goes through the same places in both.

The rule about parameters looks at little more than the shape: at the names of
the nodes, at which functions are called, and at which accesses are static.  Where
two trees of one shape agree on that, the same declarators remain unused.
-/

namespace TreeLint.Tree

variable {t t' : Tree}

structure SameShape (t t' : Tree) : Prop where
  size : t.size = t'.size
  kind : ∀ i : t.Pos, t'.kind (i.cast size) = t.kind i
  parent : ∀ i : t.Pos, (t'.node (i.cast size)).parent = (t.node i).parent
  children : ∀ i : t.Pos, (t'.node (i.cast size)).children = (t.node i).children

namespace SameShape

/-- The same place in the other tree. -/
def move (h : SameShape t t') (i : t.Pos) : t'.Pos := i.cast h.size

variable (h : SameShape t t')
include h

theorem move_injective : Function.Injective h.move :=
  Fin.cast_injective h.size

theorem exists_move_eq (j : t'.Pos) : ∃ i, h.move i = j :=
  ⟨j.cast h.size.symm, rfl⟩

theorem symm : SameShape t' t where
  size := h.size.symm
  kind j := (h.kind (j.cast h.size.symm)).symm
  parent j := (h.parent (j.cast h.size.symm)).symm
  children j := (h.children (j.cast h.size.symm)).symm

theorem kind_move (i : t.Pos) : t'.kind (h.move i) = t.kind i := h.kind i

theorem root_move : h.move t.root = t'.root := rfl

/-! ## Travelling -/

theorem parent?_move (i : t.Pos) :
    t'.parent? (h.move i) = (t.parent? i).map h.move := by
  apply Option.ext
  intro q
  obtain ⟨p, rfl⟩ := h.exists_move_eq q
  rw [parent?_eq_some_iff, Option.map_eq_some_iff]
  have hparent : (t'.node (h.move i)).parent = (t.node i).parent := h.parent i
  rw [hparent]
  constructor
  · intro hp
    exact ⟨p, parent?_eq_some_iff.mpr hp, rfl⟩
  · rintro ⟨p', hp', heq⟩
    rw [← h.move_injective heq]
    exact parent?_eq_some_iff.mp hp'

theorem children_move (i : t.Pos) :
    t'.children (h.move i) = (t.children i).map h.move := by
  apply List.map_injective_iff.mpr Fin.val_injective
  have hchildren : (t'.node (h.move i)).children = (t.node i).children := h.children i
  rw [map_val_children, hchildren, ← map_val_children, List.map_map]
  rfl

theorem visit_move (fuel : Nat) (stack : List t.Pos) :
    t'.visit fuel (stack.map h.move) = (t.visit fuel stack).map h.move := by
  induction fuel generalizing stack with
  | zero => rfl
  | succ fuel ih =>
      cases stack with
      | nil => rfl
      | cons i stack =>
          rw [visit, List.map_cons, List.map_cons, ← ih, List.map_append, ← h.children_move]
          rfl

theorem walk_move : t'.walk = t.walk.map h.move := by
  unfold walk
  rw [← h.visit_move, List.map_singleton, h.root_move, h.size]

theorem descendants_move (i : t.Pos) :
    t'.descendants (h.move i) = (t.descendants i).map h.move := by
  unfold descendants
  rw [← h.visit_move, h.children_move, h.size]

theorem descendantsOfKind_move (kind : Kind) (i : t.Pos) :
    t'.descendantsOfKind kind (h.move i) =
      (t.descendantsOfKind kind i).map h.move := by
  unfold descendantsOfKind
  rw [h.descendants_move, List.filter_map]
  congr 2
  funext j
  simp only [Function.comp, h.kind_move]

theorem firstOfKind?_move (kind : Kind) (i : t.Pos) :
    t'.firstOfKind? kind (h.move i) = (t.firstOfKind? kind i).map h.move := by
  unfold firstOfKind?
  rw [h.descendants_move, List.find?_map]
  congr 2
  funext j
  simp only [Function.comp, h.kind_move]

theorem lineage_move (i : t.Pos) :
    t'.lineage (h.move i) = (t.lineage i).map h.move := by
  induction i using parent_induction with
  | _ i ih =>
      have hparent := h.parent?_move i
      unfold lineage
      cases habove : t.parent? i with
      | none =>
          rw [habove] at hparent
          rw [ancestors_eq_nil habove, ancestors_eq_nil hparent]
          rfl
      | some p =>
          rw [habove] at hparent
          rw [ancestors_eq_cons habove, ancestors_eq_cons hparent, ih p habove]
          rfl

end SameShape

/-! ## Variables -/

/-- Trees of the same shape with the same names, calls and static accesses. -/
structure SameCode (t t' : Tree) : Prop extends SameShape t t' where
  image : ∀ i : t.Pos, t.kind i ≠ .functionPostfix →
    t'.image (i.cast size) = t.image i
  calls : ∀ (i : t.Pos) (name : String), t.kind i = .functionPostfix →
    t'.namesFunction name (i.cast size) = t.namesFunction name i
  static : ∀ i : t.Pos, t'.isStatic (i.cast size) = t.isStatic i

theorem IndexedBy.move
    {i p : t.Pos} (hindexed : t.IndexedBy i p) (h : SameShape t t') :
    t'.IndexedBy (h.move i) (h.move p) := by
  obtain ⟨hparent, hindex, hhead⟩ := hindexed
  refine ⟨?_, ?_, ?_⟩
  · rw [h.parent?_move, hparent]
    rfl
  · rw [h.kind_move]
    exact hindex
  · rw [h.children_move, List.head?_map, hhead]
    rfl

theorem IndexEnd.move
    {v w : t.Pos} (hend : t.IndexEnd v w) (h : SameShape t t') :
    t'.IndexEnd (h.move v) (h.move w) where
  chain := hend.chain.lift h.move fun _ _ hindexed => hindexed.move h
  last := by
    intro q hindexed
    obtain ⟨p, rfl⟩ := h.exists_move_eq q
    -- One more step in the other tree would be one in this tree, too.
    exact hend.last p (hindexed.move h.symm)

namespace SameCode

theorem symm (h : SameCode t t') : SameCode t' t where
  toSameShape := h.toSameShape.symm
  image j hkind :=
    (h.image (j.cast h.size.symm) fun heq => hkind ((h.kind _).trans heq)).symm
  calls j name hkind :=
    (h.calls (j.cast h.size.symm) name ((h.kind _).symm.trans hkind)).symm
  static j := (h.static (j.cast h.size.symm)).symm

variable (h : SameCode t t')
include h

theorem image_move
    {i : t.Pos} {kind : Kind} (hkind : t.kind i = kind) (hother : kind ≠ .functionPostfix) :
    t'.image (h.move i) = t.image i :=
  h.image i (hkind ▸ hother)

theorem namesClass_move
    {v : t.Pos} (hclass : t.NamesClass v) : t'.NamesClass (h.move v) := by
  obtain ⟨w, access, primary, hend, haccess, hkind, hprimary, hstatic⟩ := hclass
  refine ⟨h.move w, h.move access, h.move primary, hend.move h.toSameShape, ?_, ?_, ?_, ?_⟩
  · rw [h.parent?_move, haccess]
    rfl
  · rw [h.kind_move]
    exact hkind
  · rw [h.parent?_move, hprimary]
    rfl
  · rw [h.parent?_move, h.children_move, List.head?_map]
    rcases hstatic with ⟨outer, houter, hmember, hstatic⟩ | ⟨hnone, hhead, hstatic⟩
    · refine Or.inl ⟨h.move outer, ?_, ?_, ?_⟩
      · rw [houter]
        rfl
      · rw [h.kind_move]
        exact hmember
      · exact (h.static outer).trans hstatic
    · refine Or.inr ⟨?_, ?_, ?_⟩
      · intro outer' houter'
        obtain ⟨outer, houter, rfl⟩ := Option.map_eq_some_iff.mp houter'
        rw [h.kind_move]
        exact hnone outer houter
      · rw [hhead]
        rfl
      · exact (h.static primary).trans hstatic

theorem isRegularVariable_move (v : t.Pos) :
    t'.isRegularVariable (h.move v) = t.isRegularVariable v := by
  obtain ⟨regular, hregular, hclass⟩ := exists_isRegularVariable v
  obtain ⟨regular', hregular', hclass'⟩ := exists_isRegularVariable (h.move v)
  have hiff : t'.NamesClass (h.move v) ↔ t.NamesClass v :=
    ⟨fun hmoved => h.symm.namesClass_move hmoved, h.namesClass_move⟩
  have heq : regular' = regular := by
    rw [Bool.eq_iff_iff, hclass, hclass', hiff]
  rw [hregular, hregular', heq]

end SameCode

end TreeLint.Tree

namespace TreeLint.UnusedParameter

open TreeLint.Tree

/-! ## Scans side by side

Each scan of one tree is the same scan of the other, with the places moved. -/

section Moving

variable {ε α β α' β' : Type}

theorem bind_map
    {x : Except ε α} {g : α → α'} {k : β → β'}
    {next : α → Except ε β} {next' : α' → Except ε β'}
    (hnext : ∀ a, next' (g a) = (next a).map k) :
    (x.map g >>= next') = (x >>= next).map k := by
  cases x with
  | error error => rfl
  | ok a => exact hnext a

theorem mapError_map
    {ε' : Type} (x : Except ε α) (g : α → α') (wrap : ε → ε') :
    (x.map g).mapError wrap = (x.mapError wrap).map g := by
  cases x <;> rfl

theorem foldlM_map
    {f : β → α → Except ε β} {f' : β' → α' → Except ε β'}
    {g : β → β'} {move : α → α'} {items : List α}
    (hround : ∀ b, ∀ x ∈ items, f' (g b) (move x) = (f b x).map g) (b : β) :
    (items.map move).foldlM f' (g b) = (items.foldlM f b).map g := by
  induction items generalizing b with
  | nil => rfl
  | cons x items ih =>
      rw [List.map_cons, List.foldlM_cons, List.foldlM_cons, hround b x List.mem_cons_self]
      exact bind_map fun c => ih (fun b y hy => hround b y (List.mem_cons_of_mem x hy)) c

end Moving

variable {t t' : Tree}

def movePending (h : SameShape t t') (pending : Pending t) : Pending t' :=
  pending.map fun entry => (entry.1, h.move entry.2)

theorem discard_move (h : SameShape t t') (pending : Pending t) (name : Value) :
    (movePending h pending).discard name =
      (pending.discard name).map (movePending h) := by
  unfold Pending.discard movePending
  rw [List.isEmpty_map]
  split
  · rfl
  · cases Image.key name with
    | error fault => rfl
    | ok key =>
        simp only [Except.map, List.filter_map]
        rfl

variable (h : SameCode t t')

theorem add_move
    {d : t.Pos} (hkind : t.kind d = .variableDeclarator) (pending : Pending t) :
    (movePending h.toSameShape pending).add (h.move d) =
      (pending.add d).map (movePending h.toSameShape) := by
  unfold Pending.add
  rw [h.image_move hkind (by decide)]
  cases Image.key (t.image d) with
  | error fault => rfl
  | ok name =>
      simp only [Except.map, movePending, List.any_map, Function.comp_def]
      split
      · rfl
      · simp

theorem declared_move (i : t.Pos) :
    declared t' (h.move i) = (declared t i).map (movePending h.toSameShape) := by
  unfold declared
  rw [h.firstOfKind?_move]
  cases t.firstOfKind? .formalParameters i with
  | none => rfl
  | some list =>
      simp only [Option.map_some]
      rw [h.descendantsOfKind_move]
      have hround (pending : Pending t) :
          ∀ d ∈ t.descendantsOfKind .variableDeclarator list,
            (movePending h.toSameShape pending).add (h.move d) =
              (pending.add d).map (movePending h.toSameShape) :=
        fun d hd => add_move h (mem_descendantsOfKind_iff.mp hd).2 pending
      exact foldlM_map hround []

theorem strikeVariables_move (i : t.Pos) (pending : Pending t) :
    strikeVariables t' (h.move i) (movePending h.toSameShape pending) =
      (strikeVariables t i pending).map (movePending h.toSameShape) := by
  unfold strikeVariables
  rw [h.descendantsOfKind_move]
  refine foldlM_map (fun pending v hv => ?_) pending
  have hkind := (mem_descendantsOfKind_iff.mp hv).2
  unfold strikeVariable
  rw [h.isRegularVariable_move, h.image_move hkind (by decide), discard_move, mapError_map]
  cases t.isRegularVariable v with
  | error error => rfl
  | ok regular => cases regular <;> rfl

theorem strikeCompounds_move (i : t.Pos) (pending : Pending t) :
    strikeCompounds t' (h.move i) (movePending h.toSameShape pending) =
      (strikeCompounds t i pending).map (movePending h.toSameShape) := by
  unfold strikeCompounds
  rw [h.descendantsOfKind_move]
  refine foldlM_map (fun pending c hc => ?_) pending
  have hcompound := (mem_descendantsOfKind_iff.mp hc).2
  rw [h.descendantsOfKind_move]
  refine foldlM_map (fun pending e he => ?_) pending
  have hexpression := (mem_descendantsOfKind_iff.mp he).2
  unfold strikeJoined
  rw [h.image_move hcompound (by decide), h.image_move hexpression (by decide)]
  cases Image.join (t.image c) (t.image e) with
  | error fault => rfl
  | ok name => exact discard_move h.toSameShape pending name

theorem strikeLiteral_move
    {l : t.Pos} (hkind : t.kind l = .literal) (pending : Pending t) :
    strikeLiteral t' (movePending h.toSameShape pending) (h.move l) =
      (strikeLiteral t pending l).map (movePending h.toSameShape) := by
  unfold strikeLiteral
  rw [h.image_move hkind (by decide)]
  cases Image.text .trim (t.image l) with
  | error fault => rfl
  | ok literal => exact discard_move h.toSameShape pending _

theorem strikeCall_move
    {call : t.Pos} (hkind : t.kind call = .functionPostfix) (pending : Pending t) :
    strikeCall t' (movePending h.toSameShape pending) (h.move call) =
      (strikeCall t pending call).map (movePending h.toSameShape) := by
  have hcalls (name : String) :
      t'.namesFunction name (h.move call) = t.namesFunction name call :=
    h.calls call name hkind
  have hliterals (pending : Pending t) :
      (t'.descendantsOfKind .literal (h.move call)).foldlM (strikeLiteral t')
          (movePending h.toSameShape pending) =
        ((t.descendantsOfKind .literal call).foldlM (strikeLiteral t) pending).map
          (movePending h.toSameShape) := by
    rw [h.descendantsOfKind_move]
    refine foldlM_map (fun pending l hl => ?_) pending
    exact strikeLiteral_move h (mem_descendantsOfKind_iff.mp hl).2 pending
  unfold strikeCall
  rw [hcalls, hcalls]
  cases t.namesFunction "func_get_args" call with
  | error fault => rfl
  | ok all =>
      cases t.namesFunction "compact" call with
      | error fault => rfl
      | ok compact =>
          have hkept : (if all then [] else movePending h.toSameShape pending) =
              movePending h.toSameShape (if all then [] else pending) := by
            cases all <;> rfl
          simp only [hkept]
          cases compact with
          | false => rfl
          | true => exact hliterals _

theorem strikeCalls_move (i : t.Pos) (pending : Pending t) :
    strikeCalls t' (h.move i) (movePending h.toSameShape pending) =
      (strikeCalls t i pending).map (movePending h.toSameShape) := by
  unfold strikeCalls
  rw [h.descendantsOfKind_move]
  refine foldlM_map (fun pending call hcall => ?_) pending
  exact strikeCall_move h (mem_descendantsOfKind_iff.mp hcall).2 pending

theorem remaining_move (i : t.Pos) :
    remaining t' (h.move i) = (remaining t i).map (movePending h.toSameShape) := by
  unfold remaining
  rw [declared_move h, mapError_map]
  refine bind_map fun pending => ?_
  rw [strikeVariables_move h]
  refine bind_map fun pending => ?_
  rw [strikeCompounds_move h, mapError_map]
  refine bind_map fun pending => ?_
  rw [strikeCalls_move h, mapError_map]

/-- The same declarators remain unused in both trees. -/
theorem unused_move (i : t.Pos) :
    unused t' (h.move i) = (unused t i).map fun found => found.map h.move := by
  unfold unused
  rw [remaining_move h]
  cases remaining t i with
  | error fault => rfl
  | ok pending => simp [Except.map, movePending]

theorem reported_move
    {i : t.Pos} (hexempt : isExempt t' (h.move i) = isExempt t i) :
    reported t' (h.move i) = (reported t i).map fun found => found.map h.move := by
  unfold reported
  rw [h.kind_move, hexempt, unused_move h]
  split
  · rfl
  · split <;> rfl

end TreeLint.UnusedParameter

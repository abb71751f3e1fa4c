import Mathlib.Logic.Relation
import TreeLint.Proofs.Traversal
import TreeLint.Rule.Variables

/-!
# What counts as the use of a variable

The checks on variables are stated here without their loops.  Climbing out of
index expressions ends at the last node of a chain, in which every node is the
first child of the index expression above it.  A variable is used for its value
unless the end of its chain is the receiver of a static property access, which
names a class.

Images are texts throughout: `Textual` is what every dump guarantees.
-/

namespace TreeLint.Tree

variable {t : Tree}

/-! ## Images that are texts -/

def Textual (t : Tree) : Prop := ∀ i, ∃ s, t.image i = .str s

/-- The image of a node as a text. -/
def name (t : Tree) (i : t.Pos) : String :=
  match t.image i with
  | .str s => s
  | _ => ""

theorem Textual.image_eq
    (htext : t.Textual) (i : t.Pos) : t.image i = .str (t.name i) := by
  obtain ⟨s, hs⟩ := htext i
  simp [name, hs]

/-! ## Chains of index expressions -/

/-- `p` is an index expression whose first child is `i`. -/
def IndexedBy (t : Tree) (i p : t.Pos) : Prop :=
  t.parent? i = some p ∧ (t.kind p).isIndex = true ∧
    (t.children p).head? = some i

/-- `w` is the last node of the chain of index expressions above `v`. -/
structure IndexEnd (t : Tree) (v w : t.Pos) : Prop where
  chain : Relation.ReflTransGen t.IndexedBy v w
  last : ∀ p, ¬ t.IndexedBy w p

/-! ## Steps to neighbours

A step fails only where there is nothing to step to.  The parent of a node has a first child, since
it has the node among its children. -/

theorem ok_bind
    {ε α β : Type} (a : α) (f : α → Except ε β) : (Except.ok a >>= f) = f a :=
  rfl

theorem parent_eq_ok
    {i p : t.Pos} (h : t.parent? i = some p) : t.parent i = .ok p := by
  simp [parent, h]

theorem hasParent_eq_true
    {i p : t.Pos} (h : t.parent? i = some p) : t.hasParent i = true := by
  simp [hasParent, h]

theorem hasParent_eq_false
    {i : t.Pos} (h : t.parent? i = none) : t.hasParent i = false := by
  simp [hasParent, h]

theorem exists_child_zero
    {i p : t.Pos} (h : t.parent? i = some p) :
    ∃ first, t.child p 0 = .ok first ∧ (t.children p).head? = some first := by
  have hmem := mem_children_iff.mpr h
  cases hchildren : t.children p with
  | nil => simp [hchildren] at hmem
  | cons first rest => exact ⟨first, by simp [child, hchildren], rfl⟩

theorem isWrapped_eq (i : t.Pos) :
    t.isWrapped i = .ok ((t.parent? i).any fun p => (t.kind p).isIndex) := by
  unfold isWrapped
  cases hparent : t.parent? i with
  | none =>
      rw [hasParent_eq_false hparent]
      rfl
  | some p =>
      rw [hasParent_eq_true hparent, parent_eq_ok hparent]
      rfl

theorem memberAround?_eq (i : t.Pos) :
    t.memberAround? i =
      .ok ((t.parent? i).filter fun p => t.kind p == .memberPrimaryPrefix) := by
  unfold memberAround?
  cases hparent : t.parent? i with
  | none =>
      rw [hasParent_eq_false hparent]
      rfl
  | some p =>
      rw [hasParent_eq_true hparent, parent_eq_ok hparent]
      rfl

theorem stripIndex_of_indexedBy
    {i p : t.Pos} (h : t.IndexedBy i p) :
    t.stripIndex i = t.stripIndex p := by
  obtain ⟨hparent, hindex, hhead⟩ := h
  obtain ⟨first, hfirst, hhead'⟩ := exists_child_zero hparent
  have heq : first = i := by simpa [hhead] using hhead'.symm
  rw [stripIndex, isWrapped_eq]
  simp only [hparent, Option.any_some, hindex]
  split
  · next error hfail => simp [parent_eq_ok hparent] at hfail
  · next q hq =>
    have hpq : p = q := by simpa [parent_eq_ok hparent] using hq
    subst hpq
    simp only [hfirst, heq, if_true]

theorem stripIndex_of_not_indexedBy
    {i : t.Pos} (h : ∀ p, ¬ t.IndexedBy i p) : t.stripIndex i = .ok i := by
  rw [stripIndex, isWrapped_eq]
  cases hparent : t.parent? i with
  | none => rfl
  | some p =>
      simp only [Option.any_some]
      cases hindex : (t.kind p).isIndex with
      | false => rfl
      | true =>
          obtain ⟨first, hfirst, hhead⟩ := exists_child_zero hparent
          have hne : first ≠ i := by
            intro heq
            exact h p ⟨hparent, hindex, heq ▸ hhead⟩
          simp only
          split
          · next error hfail => simp [parent_eq_ok hparent] at hfail
          · next q hq =>
            have hpq : p = q := by simpa [parent_eq_ok hparent] using hq
            subst hpq
            simp only [hfirst, if_neg hne]

theorem exists_indexEnd (v : t.Pos) : ∃ w, t.IndexEnd v w := by
  induction v using parent_induction with
  | _ v ih =>
      by_cases hstep : ∃ p, t.IndexedBy v p
      · obtain ⟨p, hp⟩ := hstep
        obtain ⟨w, hend⟩ := ih p hp.1
        exact ⟨w, Relation.ReflTransGen.head hp hend.chain, hend.last⟩
      · have hnone : ∀ p, ¬ t.IndexedBy v p := by
          intro p hp
          exact hstep ⟨p, hp⟩
        exact ⟨v, Relation.ReflTransGen.refl, hnone⟩

theorem IndexEnd.stripIndex_eq
    {v w : t.Pos} (h : t.IndexEnd v w) : t.stripIndex v = .ok w := by
  obtain ⟨hchain, hlast⟩ := h
  induction hchain using Relation.ReflTransGen.head_induction_on with
  | refl => exact stripIndex_of_not_indexedBy hlast
  | head hstep _ ih => rw [stripIndex_of_indexedBy hstep, ih]

theorem IndexEnd.unique
    {v w w' : t.Pos} (h : t.IndexEnd v w) (h' : t.IndexEnd v w') : w = w' := by
  have heq := h.stripIndex_eq.symm.trans h'.stripIndex_eq
  exact Except.ok.inj heq

/-! ## Receivers of static property accesses -/

/-- A variable that stands for the class of a static property.  When the access is itself part of a
member access, the outer one decides. -/
def NamesClass (t : Tree) (v : t.Pos) : Prop :=
  ∃ w access primary,
    t.IndexEnd v w ∧ t.parent? w = some access ∧
      t.kind access = .propertyPostfix ∧ t.parent? access = some primary ∧
      ((∃ outer, t.parent? primary = some outer ∧
          t.kind outer = .memberPrimaryPrefix ∧ t.isStatic outer = true) ∨
        ((∀ outer, t.parent? primary = some outer →
            t.kind outer ≠ .memberPrimaryPrefix) ∧
          (t.children access).head? = some w ∧ t.isStatic primary = true))

theorem namesClass_iff
    {v w access primary : t.Pos}
    (hend : t.IndexEnd v w)
    (haccess : t.parent? w = some access)
    (hkind : t.kind access = .propertyPostfix)
    (hprimary : t.parent? access = some primary) :
    t.NamesClass v ↔
      (∃ outer, t.parent? primary = some outer ∧
          t.kind outer = .memberPrimaryPrefix ∧ t.isStatic outer = true) ∨
        ((∀ outer, t.parent? primary = some outer →
            t.kind outer ≠ .memberPrimaryPrefix) ∧
          (t.children access).head? = some w ∧
          t.isStatic primary = true) := by
  constructor
  · rintro ⟨w', access', primary', hend', hparent, _, habove, hstatic⟩
    have hw := hend.unique hend'
    subst hw
    have haccessEq : access = access' := by simpa [haccess] using hparent
    subst haccessEq
    have hprimaryEq : primary = primary' := by simpa [hprimary] using habove
    subst hprimaryEq
    exact hstatic
  · intro hstatic
    exact ⟨w, access, primary, hend, haccess, hkind, hprimary, hstatic⟩

theorem isRegularVariable_of_no_access
    {v w : t.Pos}
    (hend : t.IndexEnd v w)
    (h : ∀ access primary, t.parent? w = some access →
      t.kind access = .propertyPostfix → t.parent? access ≠ some primary) :
    t.isRegularVariable v = .ok true := by
  simp only [isRegularVariable, hend.stripIndex_eq, ok_bind]
  cases haccess : t.parent? w with
  | none =>
      rw [hasParent_eq_false haccess]
      rfl
  | some access =>
      simp only [hasParent_eq_true haccess, parent_eq_ok haccess, ok_bind]
      by_cases hkind : t.kind access = .propertyPostfix
      · cases hprimary : t.parent? access with
        | none =>
            rw [hkind, hasParent_eq_false hprimary]
            rfl
        | some primary => exact absurd hprimary (h access primary haccess hkind)
      · have hother : (t.kind access != .propertyPostfix) = true := by simpa using hkind
        rw [if_pos hother]
        rfl

theorem isRegularVariable_of_access
    {v w access primary : t.Pos}
    (hend : t.IndexEnd v w)
    (haccess : t.parent? w = some access)
    (hkind : t.kind access = .propertyPostfix)
    (hprimary : t.parent? access = some primary) :
    t.isRegularVariable v =
      .ok (((t.parent? primary).filter fun p => t.kind p == .memberPrimaryPrefix).elim
        (decide ((t.children access).head? ≠ some w) || !t.isStatic primary)
        fun outer => !t.isStatic outer) := by
  obtain ⟨first, hfirst, hhead⟩ := exists_child_zero haccess
  have hne : (first != w) = decide ((t.children access).head? ≠ some w) := by
    rw [hhead]
    by_cases heq : first = w
    · simp [heq]
    · simp [heq]
  simp only [isRegularVariable, hend.stripIndex_eq, ok_bind, hasParent_eq_true haccess,
    parent_eq_ok haccess, hkind, hasParent_eq_true hprimary, parent_eq_ok hprimary,
    memberAround?_eq, hfirst, hne]
  cases (t.parent? primary).filter fun p => t.kind p == .memberPrimaryPrefix with
  | none => rfl
  | some outer => rfl

/-- Whether a variable is regular is always answered, and rightly. -/
theorem exists_isRegularVariable (v : t.Pos) :
    ∃ answer, t.isRegularVariable v = .ok answer ∧
      (answer = true ↔ ¬ t.NamesClass v) := by
  obtain ⟨w, hend⟩ := exists_indexEnd v
  by_cases haccess : ∃ access primary,
      t.parent? w = some access ∧
        t.kind access = .propertyPostfix ∧ t.parent? access = some primary
  · obtain ⟨access, primary, haccess, hkind, hprimary⟩ := haccess
    refine ⟨_, isRegularVariable_of_access hend haccess hkind hprimary, ?_⟩
    rw [namesClass_iff hend haccess hkind hprimary]
    cases houter : (t.parent? primary).filter
        (fun p => t.kind p == .memberPrimaryPrefix) with
    | none =>
        have hnone : ∀ outer, t.parent? primary = some outer →
            t.kind outer ≠ .memberPrimaryPrefix := by
          intro outer hparent heq
          simp [hparent, heq] at houter
        have hno : ¬ ∃ outer, t.parent? primary = some outer ∧
            t.kind outer = .memberPrimaryPrefix ∧ t.isStatic outer = true := by
          rintro ⟨outer, hparent, heq, _⟩
          exact hnone outer hparent heq
        simp only [Option.elim_none, hno, false_or, iff_true_intro hnone, true_and]
        by_cases hfirst : (t.children access).head? = some w
        · simp [hfirst]
        · simp [hfirst]
    | some outer =>
        obtain ⟨hparent, hmember⟩ := Option.filter_eq_some_iff.mp houter
        have hkindOuter : t.kind outer = .memberPrimaryPrefix := by
          simpa using hmember
        simp [hparent, hkindOuter]
  · have hnone : ∀ access primary, t.parent? w = some access →
        t.kind access = .propertyPostfix → t.parent? access ≠ some primary := by
      intro access primary hparent hkind hprimary
      exact haccess ⟨access, primary, hparent, hkind, hprimary⟩
    refine ⟨true, isRegularVariable_of_no_access hend hnone, ?_⟩
    simp only [true_iff]
    rintro ⟨w', access, primary, hend', hparent, hkind, hprimary, _⟩
    rw [hend'.unique hend] at hparent
    exact hnone access primary hparent hkind hprimary

/-! ## Called functions -/

/-- The last segment of a qualified name is the name of the function, in any case. -/
def Calls (t : Tree) (function : String) (call : t.Pos) : Prop :=
  Text.lower (String.ofList (Text.lastSegment '\\'
    (Text.trim (· == '\\') (t.name call).toList))) = Text.lower function

instance (function : String) (call : t.Pos) : Decidable (t.Calls function call) :=
  inferInstanceAs (Decidable (_ = _))

theorem Textual.namesFunction_eq
    (htext : t.Textual) (function : String) (call : t.Pos) :
    t.namesFunction function call = .ok (decide (t.Calls function call)) := by
  unfold namesFunction
  rw [htext.image_eq call, Image.text_str]
  rfl

end TreeLint.Tree

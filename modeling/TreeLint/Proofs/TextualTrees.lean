import TreeLint.Proofs.VariableUse
import TreeLint.Proofs.WritableValues
import TreeLint.Tree.Builder

/-!
# Trees that can be read

The images of a tree are texts when every node was added with a text, and the comments of its
declarations can be read when no value that stands for one has an integer with too many digits in
it.  Both are facts about single nodes.  A tree grows by one node at a time, and a step gives a
child to a node that is there and changes nothing else about it, so that such a fact about every
node is kept.
-/

namespace TreeLint

/-! ## Facts about every node -/

section Nodes

variable {P : Node → Prop}

theorem forall_mem_appendBelow
    (hchild : ∀ node i, P node → P (node.addChild i))
    {nodes : Array Node} {p : Nat} {entry : Entry}
    (hnodes : ∀ node ∈ nodes, P node) (hentry : P (entry.toNode (some p))) :
    ∀ node ∈ appendBelow nodes p entry, P node := by
  intro node hnode
  unfold appendBelow at hnode
  rcases Array.mem_push.mp hnode with hold | rfl
  · obtain ⟨i, hi, rfl⟩ := Array.mem_iff_getElem.mp hold
    rw [Array.getElem_modify]
    split
    · exact hchild _ _ (hnodes _ (Array.getElem_mem _))
    · exact hnodes _ (Array.getElem_mem _)
  · exact hentry

theorem Builder.forall_mem_add
    (hchild : ∀ node i, P node → P (node.addChild i))
    {b b' : Builder} {entry : Entry} {parent : Option Int}
    (hb : ∀ node ∈ b.nodes, P node) (hentry : ∀ p, P (entry.toNode p))
    (hadd : b.add entry parent = .ok b') : ∀ node ∈ b'.nodes, P node := by
  unfold Builder.add at hadd
  cases parent with
  | none =>
      simp only at hadd
      split at hadd
      · cases hadd
        simpa using hentry none
      · cases hadd
  | some p =>
      simp only at hadd
      split at hadd
      · cases hadd
        exact forall_mem_appendBelow hchild hb (hentry _)
      · cases hadd

end Nodes

namespace Tree

/-! ## Trees whose images are texts -/

/-- The tree with a single node. -/
def single (file : String) (entry : Entry) : Tree where
  file := file
  nodes := #[entry.toNode none]
  nonempty := by simp
  linked := linked_root entry

/-- The tree with one more node, below the one at an index. -/
def extend (t : Tree) (p : Nat) (h : p < t.size) (entry : Entry) : Tree where
  file := t.file
  nodes := appendBelow t.nodes p entry
  nonempty := by simp
  linked := t.linked.appendBelow h entry

theorem textual_iff_forall_mem (t : Tree) :
    t.Textual ↔ ∀ node ∈ t.nodes, ∃ s, node.image = .str s := by
  constructor
  · intro h node hmem
    obtain ⟨i, hi, rfl⟩ := Array.mem_iff_getElem.mp hmem
    exact h ⟨i, hi⟩
  · exact fun h i => h _ (Array.getElem_mem i.isLt)

theorem textual_single
    {file : String} {entry : Entry} (hentry : ∃ s, entry.image = .str s) :
    (single file entry).Textual := by
  rw [textual_iff_forall_mem]
  intro node hnode
  obtain rfl : node = entry.toNode none := by simpa [single] using hnode
  exact hentry

theorem Textual.extend
    {t : Tree} (h : t.Textual) {p : Nat} (hp : p < t.size)
    {entry : Entry} (hentry : ∃ s, entry.image = .str s) :
    (t.extend p hp entry).Textual := by
  rw [textual_iff_forall_mem] at h ⊢
  exact forall_mem_appendBelow (fun _ _ himage => himage) h hentry

/-! ## Trees whose comments can be read -/

/-- The comment of every declaration can be read. -/
def Readable (t : Tree) : Prop :=
  ∀ d, (t.kind d).isDeclaration = true → ∃ comment, t.docComment d = .ok comment

variable {t : Tree}

theorem Readable.exists_docComment_of_method
    (h : t.Readable) {i : t.Pos} (hmethod : t.kind i = .method) :
    ∃ comment, t.docComment i = .ok comment :=
  h i (by rw [hmethod]; rfl)

/-- A comment can be read when the value that stands for it can be written out. -/
theorem isOk_docComment (d : t.Pos) :
    (t.docComment d).isOk = ((t.attribute? "docComment" d).map Value.isWritable).getD true := by
  unfold docComment
  cases t.attribute? "docComment" d with
  | none => rfl
  | some v =>
      cases htruthy : v.truthy with
      | true => simp [htruthy, Value.isOk_shown]
      | false =>
          simp only [htruthy, Option.map_some, Option.getD_some,
            Value.isWritable_of_truthy_eq_false htruthy]
          rfl

theorem exists_docComment_iff (d : t.Pos) :
    (∃ comment, t.docComment d = .ok comment) ↔ (t.docComment d).isOk = true := by
  cases t.docComment d with
  | error fault => simp [Except.isOk, Except.toBool]
  | ok comment => simp [Except.isOk, Except.toBool]

theorem readable_of_forall_isOk (h : ∀ d, (t.docComment d).isOk = true) : t.Readable :=
  fun d _ => (exists_docComment_iff d).mpr (h d)

/-- A tree can be read exactly when no comment of a declaration has an integer in it that is too
long. -/
theorem readable_iff_isWritable :
    t.Readable ↔ ∀ d, (t.kind d).isDeclaration = true →
      ∀ v, t.attribute? "docComment" d = some v → v.isWritable = true := by
  refine forall_congr' fun d => imp_congr_right fun _ => ?_
  rw [exists_docComment_iff, isOk_docComment]
  cases t.attribute? "docComment" d <;> simp

end Tree

end TreeLint

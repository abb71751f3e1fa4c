import Mathlib.Data.List.Forall2
import TreeLint.Dump.Load
import TreeLint.Proofs.TextualTrees

/-!
# Dumps are numbered in pre-order

A document has a tree of nodes in it, its `Outline`, and `slots` numbers this
tree by recursion: a node comes first, then its subtrees one after the other,
so that a subtree is a block of consecutive indices.  Loading takes the nodes
from a worklist instead.  The worklist does all that a task stands for before it
turns to the next one, so that a task adds the block of its subtree at the end
of the array and changes nothing else than the list of children of the node it
goes below.

The walk through the loaded tree then visits the blocks in order, which is to
say all indices in ascending order.
-/

namespace TreeLint.Dump

/-! ## The nodes of a document -/

/-- The tree of the nodes of a document, each with its fields. -/
inductive Outline where
  | node (fields : Fields) (children : List Outline)

def fieldsOf : Value → Fields
  | .table fields => fields
  | _ => []

/-- The nodes right below a node of a document. -/
def childNodes (v : Value) : List Value :=
  match Fields.get? (fieldsOf v) "children" with
  | some (.list children) => children
  | _ => []

theorem sizeOf_lt_of_mem_childNodes
    {v c : Value} (h : c ∈ childNodes v) : sizeOf c < sizeOf v := by
  unfold childNodes at h
  split at h
  · next children hget =>
    have hmem := List.sizeOf_lt_of_mem h
    have hfield := sizeOf_get?_lt hget
    rw [Value.list.sizeOf_spec] at hfield
    cases v with
    | table fields =>
        rw [Value.table.sizeOf_spec]
        simp only [fieldsOf] at hfield
        omega
    | _ => simp [fieldsOf, Fields.get?] at hget
  · simp at h

def outlineOf (v : Value) : Outline :=
  .node (fieldsOf v) ((childNodes v).attach.map fun c => outlineOf c.1)
termination_by sizeOf v
decreasing_by exact sizeOf_lt_of_mem_childNodes c.2

theorem outlineOf_eq (v : Value) :
    outlineOf v = .node (fieldsOf v) ((childNodes v).map outlineOf) := by
  rw [outlineOf, List.attach_map_val]

/-! ## The numbering by recursion -/

mutual

/-- The number of nodes of a tree. -/
def Outline.count : Outline → Nat
  | .node _ children => countAll children + 1

def countAll : List Outline → Nat
  | [] => 0
  | o :: rest => o.count + countAll rest

end

/-- The indices of some trees that stand one after the other from `index` on. -/
def starts (index : Nat) : List Outline → List Nat
  | [] => []
  | o :: rest => index :: starts (index + o.count) rest

/-- A numbered node: its fields and its links. -/
structure Slot where
  fields : Fields
  parent : Option Nat
  children : List Nat

mutual

/-- The nodes of a tree in pre-order, the first of them at `index`. -/
def slots (parent : Option Nat) (index : Nat) : Outline → List Slot
  | .node fields children =>
    ⟨fields, parent, starts (index + 1) children⟩ ::
      slotsBelow index (index + 1) children

/-- The nodes of some trees below `parent`, the first of them at `index`. -/
def slotsBelow (parent index : Nat) : List Outline → List Slot
  | [] => []
  | o :: rest =>
    slots (some parent) index o ++ slotsBelow parent (index + o.count) rest

end

/-- A field that is there and not null. -/
def given? (fields : Fields) (name : String) : Option Value :=
  (Fields.get? fields name).filter fun v => !v.isNull

/-- A node of the array holds what the document says, and the links of its slot. -/
structure Slot.Describes (slot : Slot) (node : Node) : Prop where
  kind : ∃ tag, Fields.get? slot.fields "kind" = some tag ∧
    tag.shown = .ok node.kind.tag
  image : ∃ text, ((given? slot.fields "image").map Value.shown).getD (.ok "") = .ok text ∧
    node.image = .str text
  beginLine : node.beginLine.toValue =
    (Fields.get? slot.fields "beginLine").getD (.int 0)
  endLine : node.endLine.toValue =
    (Fields.get? slot.fields "endLine").getD node.beginLine.toValue
  attributes : node.attributes =
    ["abstract", "static", "declaration", "docComment"].filterMap fun name =>
      (given? slot.fields name).map fun v => (name, v)
  parent : node.parent = slot.parent
  children : node.children = slot.children

mutual

theorem length_slots
    (parent : Option Nat) (index : Nat) (o : Outline) :
    (slots parent index o).length = o.count := by
  cases o with
  | node fields children =>
      rw [slots, Outline.count, List.length_cons, length_slotsBelow]

theorem length_slotsBelow
    (parent index : Nat) (children : List Outline) :
    (slotsBelow parent index children).length = countAll children := by
  cases children with
  | nil => rfl
  | cons o rest =>
      rw [slotsBelow, countAll, List.length_append, length_slots,
        length_slotsBelow]

end

/-! ## What a document node says -/

theorem kindOf_eq_ok
    {fields : Fields} {kind : Kind} (h : kindOf fields = .ok kind) :
    ∃ tag, Fields.get? fields "kind" = some tag ∧ tag.shown = .ok kind.tag := by
  unfold kindOf at h
  simp only at h
  cases htag : Fields.get? fields "kind" with
  | none =>
      have hnone : Kind.ofTag? "None" = none := by decide
      simp [htag, Value.shown, Value.inner, hnone] at h
  | some tag =>
      rw [htag, Option.getD_some] at h
      split at h
      · cases h
      · next text hshown =>
        split at h
        · next found hfound =>
          cases h
          have htagged := List.find?_some hfound
          exact ⟨tag, rfl, hshown.trans (congrArg Except.ok (eq_of_beq htagged).symm)⟩
        · cases h

theorem Line.toValue_of_ofValue?
    {v : Value} {line : Line} (h : Line.ofValue? v = some line) :
    line.toValue = v := by
  have hline : Line.ofValue v = line := by simp [Line.ofValue, h]
  rw [← hline]
  exact Line.toValue_ofValue v

theorem linesOf_eq_ok
    {kind : Kind} {fields : Fields} {beginLine endLine : Line}
    (h : linesOf kind fields = .ok (beginLine, endLine)) :
    beginLine.toValue = (Fields.get? fields "beginLine").getD (.int 0) ∧
      endLine.toValue =
        (Fields.get? fields "endLine").getD beginLine.toValue := by
  unfold linesOf at h
  simp only at h
  split at h
  · next first last hfirst hlast =>
    cases h
    have hbegin := Line.toValue_of_ofValue? hfirst
    have hend := Line.toValue_of_ofValue? hlast
    rw [hbegin]
    exact ⟨rfl, hend⟩
  · cases h

theorem given?_eq (fields : Fields) (name : String) :
    given? fields name =
      match Fields.get? fields name with
      | none | some .null => none
      | some v => some v := by
  unfold given?
  cases Fields.get? fields name with
  | none => rfl
  | some v => cases v <;> rfl

theorem forall₂_of_mapM_eq_ok
    {ε α β : Type} {f : α → Except ε β} {items : List α} {result : List β}
    (h : items.mapM f = .ok result) : List.Forall₂ (fun x y => f x = .ok y) items result := by
  induction items generalizing result with
  | nil =>
      cases h
      exact .nil
  | cons x items ih =>
      rw [List.mapM_cons] at h
      cases hx : f x with
      | error fault =>
          rw [hx] at h
          cases h
      | ok y =>
          cases hrest : items.mapM f with
          | error fault =>
              rw [hx, hrest] at h
              cases h
          | ok ys =>
              rw [hx, hrest] at h
              cases h
              exact .cons hx (ih hrest)

theorem eq_map_of_mapM_eq_ok
    {ε α β : Type} {f : α → Except ε β} {g : α → β}
    (hf : ∀ x y, f x = .ok y → y = g x)
    {items : List α} {result : List β} (h : items.mapM f = .ok result) :
    result = items.map g := by
  have hpairs := forall₂_of_mapM_eq_ok h
  clear h
  induction hpairs with
  | nil => rfl
  | cons hx _ ih => rw [List.map_cons, ← hf _ _ hx, ← ih]

theorem attributesOf_eq_ok
    {kind : Kind} {fields attributes : Fields}
    (h : attributesOf kind fields = .ok attributes) :
    attributes =
      ["abstract", "static", "declaration", "docComment"].filterMap fun name =>
        (given? fields name).map fun v => (name, v) := by
  have hgiven : (givenAttributes fields).map
        (fun given => (given.1, given.2.2)) =
      (attributeTypes.map Prod.fst).filterMap fun name =>
        (given? fields name).map fun v => (name, v) := by
    unfold givenAttributes
    rw [List.map_filterMap, List.filterMap_map]
    apply List.filterMap_congr
    rintro ⟨name, type⟩ _
    simp only [Function.comp, given?_eq]
    cases Fields.get? fields name with
    | none => rfl
    | some v => cases v <;> rfl
  have haccepted : attributes = (givenAttributes fields).map
      fun given => (given.1, given.2.2) := by
    apply eq_map_of_mapM_eq_ok _ h
    rintro ⟨name, type, v⟩ field hfield
    simp only at hfield
    split at hfield
    · cases hfield
      rfl
    · cases hfield
  rw [haccepted, hgiven]
  rfl

theorem imageOf_eq (fields : Fields) :
    imageOf fields =
      (((given? fields "image").map Value.shown).getD (.ok "")).mapError
        fun _ => SchemaFault.unwritable := by
  unfold imageOf
  rw [given?_eq]
  cases Fields.get? fields "image" with
  | none => rfl
  | some v => cases v <;> rfl

theorem imageOf_eq_ok
    {fields : Fields} {text : String} (h : imageOf fields = .ok text) :
    ((given? fields "image").map Value.shown).getD (.ok "") = .ok text := by
  rw [imageOf_eq] at h
  cases hshown : ((given? fields "image").map Value.shown).getD (.ok "") with
  | error fault =>
      rw [hshown] at h
      cases h
  | ok shown =>
      rw [hshown] at h
      cases h
      rfl

theorem entryOf_eq_ok
    {fields : Fields} {entry : Entry} (h : entryOf fields = .ok entry) :
    ∃ kind beginLine endLine attributes image,
      kindOf fields = .ok kind ∧ linesOf kind fields = .ok (beginLine, endLine) ∧
        attributesOf kind fields = .ok attributes ∧ imageOf fields = .ok image ∧
        entry = ⟨kind, .str image, beginLine, some endLine, attributes⟩ := by
  unfold entryOf at h
  cases hkind : kindOf fields with
  | error fault =>
      rw [hkind] at h
      cases h
  | ok kind =>
      cases hlines : linesOf kind fields with
      | error fault =>
          simp only [bind, Except.bind, hkind, hlines] at h
          cases h
      | ok lines =>
          cases hattributes : attributesOf kind fields with
          | error fault =>
              simp only [bind, Except.bind, hkind, hlines, hattributes] at h
              cases h
          | ok attributes =>
              cases himage : imageOf fields with
              | error fault =>
                  simp only [bind, Except.bind, hkind, hlines, hattributes, himage] at h
                  cases h
              | ok image =>
                  simp only [bind, Except.bind, hkind, hlines, hattributes, himage, pure,
                    Except.pure] at h
                  cases h
                  exact ⟨kind, lines.1, lines.2, attributes, image, rfl, hlines, hattributes, rfl,
                    rfl⟩

/-- The entry of a document node, with any links, is described by the slot with these links. -/
theorem entryOf_describes
    {fields : Fields} {entry : Entry} (h : entryOf fields = .ok entry)
    (parent : Option Nat) (children : List Nat) :
    (Slot.mk fields parent children).Describes
      { entry.toNode parent with children := children } := by
  obtain ⟨kind, beginLine, endLine, attributes, image, hkind, hlines, hattributes, himage, rfl⟩ :=
    entryOf_eq_ok h
  obtain ⟨hbegin, hend⟩ := linesOf_eq_ok hlines
  constructor
  · exact kindOf_eq_ok hkind
  · exact ⟨image, imageOf_eq_ok himage, rfl⟩
  · exact hbegin
  · exact hend
  · exact attributesOf_eq_ok hattributes
  · rfl
  · rfl

/-! ## One task of the worklist -/

/-- The nodes after some indices have joined the children of one of them. -/
def adopt (parent : Option Nat) (indices : List Nat) (nodes : List Node) : List Node :=
  match parent with
  | none => nodes
  | some p =>
    nodes.modify p fun node => { node with children := node.children ++ indices }

theorem adopt_nil (p : Nat) (nodes : List Node) :
    adopt (some p) [] nodes = nodes := by
  unfold adopt
  simp only [List.append_nil]
  exact List.modify_id p nodes

theorem adopt_adopt
    (p : Nat) (first second : List Nat) (nodes : List Node) :
    adopt (some p) second (adopt (some p) first nodes) =
      adopt (some p) (first ++ second) nodes := by
  unfold adopt
  simp only [List.modify_modify_eq]
  congr 1
  funext node
  simp

theorem adopt_append
    {p : Nat} (indices : List Nat) {nodes : List Node} (later : List Node)
    (hp : p < nodes.length) :
    adopt (some p) indices (nodes ++ later) =
      adopt (some p) indices nodes ++ later := by
  unfold adopt
  simp only
  induction nodes generalizing p with
  | nil => simp at hp
  | cons node nodes ih =>
      cases p with
      | zero => simp
      | succ p =>
          simp only [List.cons_append, List.modify_succ_cons]
          rw [ih (by simpa using hp)]

theorem adopt_last
    (indices : List Nat) (nodes : List Node) (last : Node)
    (hlast : last.children = []) :
    adopt (some nodes.length) indices (nodes ++ [last]) =
      nodes ++ [{ last with children := indices }] := by
  unfold adopt
  simp only
  induction nodes with
  | nil => simp [hlast]
  | cons node nodes ih =>
      simp only [List.length_cons, List.cons_append, List.modify_succ_cons]
      rw [ih]

@[simp] theorem length_adopt
    (parent : Option Nat) (indices : List Nat) (nodes : List Node) :
    (adopt parent indices nodes).length = nodes.length := by
  cases parent <;> simp [adopt]

theorem add_eq_ok
    {b b' : Builder} {entry : Entry} {parent : Option Nat}
    (h : b.add entry (parent.map Int.ofNat) = .ok b') :
    (∀ p, parent = some p → p < b.size) ∧
      b'.nodes.toList =
        adopt parent [b.size] b.nodes.toList ++ [entry.toNode parent] := by
  unfold Builder.add at h
  cases parent with
  | none =>
      simp only [Option.map_none] at h
      split at h
      · next hempty =>
        cases h
        have hnil : b.nodes = #[] := Array.isEmpty_iff.mp hempty
        refine ⟨by simp, ?_⟩
        simp [adopt, hnil]
      · cases h
  | some p =>
      simp only [Option.map_some] at h
      split at h
      · next hbound =>
        cases h
        refine ⟨?_, ?_⟩
        · intro q hq
          cases hq
          exact hbound.2
        · simp [adopt, appendBelow, Builder.size]
          rfl
      · cases h

theorem addAll_table
    {b b₁ : Builder} {fields : Fields} {parent : Option Nat} {entry : Entry}
    {children : List Value}
    (hentry : entryOf fields = .ok entry)
    (hadd : b.add entry (parent.map Int.ofNat) = .ok b₁)
    (hchildren : childrenOf b.size fields = .ok children)
    (rest : List Task) :
    addAll b ((.table fields, parent) :: rest) =
      addAll b₁ (children.map (·, some b.size) ++ rest) := by
  rw [addAll.eq_def]
  simp only [hentry, hadd]
  split
  · next fault hfault => simp [hchildren] at hfault
  · next found hfound =>
    have heq : children = found := by simpa [hchildren] using hfound
    rw [heq]

theorem childrenOf_eq_ok
    {index : Nat} {fields : Fields} {children : List Value}
    (h : childrenOf index fields = .ok children) :
    children = childNodes (.table fields) := by
  unfold childrenOf at h
  simp only [childNodes, fieldsOf]
  split at h
  · next hnone =>
    cases h
    rw [hnone]
  · next found hfound =>
    cases h
    rw [hfound]
  · cases h

/-- What a successful run does with its first task. -/
theorem addAll_cons_eq_ok
    {b b' : Builder} {v : Value} {parent : Option Nat} {rest : List Task}
    (h : addAll b ((v, parent) :: rest) = .ok b') :
    ∃ fields entry b₁, v = .table fields ∧ entryOf fields = .ok entry ∧
      b.add entry (parent.map Int.ofNat) = .ok b₁ ∧
      childrenOf b.size fields = .ok (childNodes v) ∧
      ∀ rest', addAll b ((v, parent) :: rest') =
        addAll b₁ ((childNodes v).map (·, some b.size) ++ rest') := by
  cases v with
  | table fields =>
      cases hentry : entryOf fields with
      | error fault =>
          rw [addAll.eq_def] at h
          simp [hentry] at h
      | ok entry =>
          cases hadd : b.add entry (parent.map Int.ofNat) with
          | error error =>
              rw [addAll.eq_def] at h
              simp [hentry, hadd] at h
          | ok b₁ =>
              cases hchildren : childrenOf b.size fields with
              | error fault =>
                  rw [addAll.eq_def] at h
                  simp only [hentry, hadd] at h
                  split at h
                  · cases h
                  · next found hfound => simp [hchildren] at hfound
              | ok children =>
                  have heq := childrenOf_eq_ok hchildren
                  rw [heq] at hchildren
                  exact ⟨fields, entry, b₁, rfl, hentry, hadd, hchildren,
                    addAll_table hentry hadd hchildren⟩
  | _ =>
      rw [addAll.eq_def] at h
      cases h

/-- A run does everything that its first tasks stand for before the others. -/
theorem addAll_append_eq_ok
    (tasks rest : List Task) {b b' : Builder}
    (h : addAll b (tasks ++ rest) = .ok b') :
    ∃ b₁, addAll b tasks = .ok b₁ ∧ addAll b₁ rest = .ok b' := by
  induction hsize : workSize tasks using Nat.strong_induction_on
    generalizing b tasks with
  | _ n ih =>
      cases tasks with
      | nil => exact ⟨b, by rw [addAll], h⟩
      | cons task tasks =>
          obtain ⟨v, parent⟩ := task
          rw [List.cons_append] at h
          obtain ⟨fields, entry, b₁, rfl, _, _, hchildren, hstep⟩ :=
            addAll_cons_eq_ok h
          have hlt := workSize_childrenOf_lt hchildren tasks
          rw [hstep, ← List.append_assoc] at h
          rw [hstep]
          exact ih _ (lt_of_lt_of_eq hlt hsize) _ h rfl

/-! ## The block of a subtree -/

/-- The nodes of `b'` are those of `b`, with some indices joining the children of one of them, and
after them a block of new nodes. -/
def AddsBlock (b b' : Builder) (parent : Option Nat) (indices : List Nat)
    (block : List Slot) : Prop :=
  ∃ new, b'.nodes.toList = adopt parent indices b.nodes.toList ++ new ∧
    List.Forall₂ Slot.Describes block new

theorem AddsBlock.size_eq
    {b b' : Builder} {parent : Option Nat} {indices : List Nat}
    {block : List Slot} (h : AddsBlock b b' parent indices block) :
    b'.size = b.size + block.length := by
  obtain ⟨new, hnodes, hblock⟩ := h
  have hlength := congrArg List.length hnodes
  simp only [List.length_append, length_adopt, Array.length_toList] at hlength
  rw [hblock.length_eq]
  exact hlength

/-- The children of a node add their blocks one after the other. -/
theorem addAll_children
    {p : Nat} {children : List Value}
    (hchild : ∀ c ∈ children, ∀ b b' : Builder,
      addAll b [(c, some p)] = .ok b' →
        AddsBlock b b' (some p) [b.size] (slots (some p) b.size (outlineOf c)))
    {b b' : Builder} (hp : p < b.size)
    (h : addAll b (children.map (·, some p)) = .ok b') :
    AddsBlock b b' (some p) (starts b.size (children.map outlineOf))
      (slotsBelow p b.size (children.map outlineOf)) := by
  induction children generalizing b with
  | nil =>
      rw [List.map_nil, addAll] at h
      cases h
      refine ⟨[], ?_, List.Forall₂.nil⟩
      rw [List.map_nil, starts, adopt_nil, List.append_nil]
  | cons c children ih =>
      obtain ⟨b₁, hfirst, hrest⟩ :=
        addAll_append_eq_ok [(c, some p)] (children.map (·, some p)) h
      have hblock := hchild c List.mem_cons_self b b₁ hfirst
      have hsize : b₁.size = b.size + (outlineOf c).count := by
        rw [hblock.size_eq, length_slots]
      have hblocks := ih
        (fun c' hc' => hchild c' (List.mem_cons_of_mem c hc')) (by omega) hrest
      obtain ⟨new, hnodes, hdescribes⟩ := hblock
      obtain ⟨news, hnodes', hdescribes'⟩ := hblocks
      have hbound : p < (adopt (some p) [b.size] b.nodes.toList).length := by
        rw [length_adopt, Array.length_toList]
        exact hp
      rw [hsize] at hnodes' hdescribes'
      refine ⟨new ++ news, ?_, ?_⟩
      · rw [hnodes', hnodes, adopt_append _ _ hbound, adopt_adopt,
          List.append_assoc]
        rfl
      · rw [List.map_cons, slotsBelow]
        exact List.rel_append hdescribes hdescribes'

/-- A task adds the block of its subtree. -/
theorem addAll_singleton
    (v : Value) {b b' : Builder} {parent : Option Nat}
    (h : addAll b [(v, parent)] = .ok b') :
    AddsBlock b b' parent [b.size] (slots parent b.size (outlineOf v)) := by
  induction hv : sizeOf v using Nat.strong_induction_on
    generalizing v b b' parent with
  | _ n ih =>
      obtain ⟨fields, entry, b₁, rfl, hentry, hadd, _, hstep⟩ :=
        addAll_cons_eq_ok h
      rw [hstep, List.append_nil] at h
      obtain ⟨_, hnodes⟩ := add_eq_ok hadd
      have hsize : b₁.size = b.size + 1 := by
        have hlength := congrArg List.length hnodes
        simpa [Builder.size] using hlength
      have hchild : ∀ c ∈ childNodes (.table fields), ∀ b₂ b₃ : Builder,
          addAll b₂ [(c, some b.size)] = .ok b₃ →
            AddsBlock b₂ b₃ (some b.size) [b₂.size]
              (slots (some b.size) b₂.size (outlineOf c)) := by
        intro c hc b₂ b₃ hrun
        have hlt := sizeOf_lt_of_mem_childNodes hc
        exact ih (sizeOf c) (by omega) c hrun rfl
      obtain ⟨new, hnodes', hdescribes⟩ :=
        addAll_children hchild (by omega) h
      have hlast : b.size = (adopt parent [b.size] b.nodes.toList).length := by
        simp [Builder.size]
      rw [hsize] at hnodes' hdescribes
      refine ⟨{ entry.toNode parent with
        children := starts (b.size + 1)
          ((childNodes (.table fields)).map outlineOf) } :: new, ?_, ?_⟩
      · rw [hnodes', hnodes]
        nth_rewrite 1 [hlast]
        rw [adopt_last _ _ _ rfl, List.append_assoc]
        rfl
      · rw [outlineOf_eq, slots]
        exact List.Forall₂.cons (entryOf_describes hentry _ _) hdescribes

/-! ## The walk through a numbered tree -/

/-- A block of slots stands in the array from `index` on. -/
def HoldsAt (t : Tree) (index : Nat) (block : List Slot) : Prop :=
  ∀ k slot, block[k]? = some slot →
    ∃ h : index + k < t.size, slot.Describes (t.node ⟨index + k, h⟩)

theorem holdsAt_zero
    {t : Tree} {block : List Slot}
    (h : List.Forall₂ Slot.Describes block t.nodes.toList) :
    HoldsAt t 0 block := by
  intro k slot hslot
  obtain ⟨hk, hget⟩ := List.getElem?_eq_some_iff.mp hslot
  have hbound : k < t.nodes.toList.length := by
    rw [← h.length_eq]
    exact hk
  have hdescribes := h.get hk hbound
  simp only [List.get_eq_getElem, hget, Array.getElem_toList] at hdescribes
  simp only [Nat.zero_add]
  exact ⟨hbound, hdescribes⟩

theorem HoldsAt.of_cons
    {t : Tree} {index : Nat} {slot : Slot} {block : List Slot}
    (h : HoldsAt t index (slot :: block)) : HoldsAt t (index + 1) block := by
  intro k slot' hslot
  obtain ⟨hbound, hdescribes⟩ := h (k + 1) slot' hslot
  have hindex : index + (k + 1) = index + 1 + k := by omega
  simp only [hindex] at hbound hdescribes
  exact ⟨hbound, hdescribes⟩

theorem HoldsAt.of_append_left
    {t : Tree} {index : Nat} {first second : List Slot}
    (h : HoldsAt t index (first ++ second)) : HoldsAt t index first := by
  intro k slot hslot
  apply h k slot
  rw [List.getElem?_append_left]
  · exact hslot
  · exact (List.getElem?_eq_some_iff.mp hslot).1

theorem HoldsAt.of_append_right
    {t : Tree} {index : Nat} {first second : List Slot}
    (h : HoldsAt t index (first ++ second)) :
    HoldsAt t (index + first.length) second := by
  intro k slot hslot
  have hget : (first ++ second)[first.length + k]? = some slot := by
    rw [List.getElem?_append_right (by omega)]
    simpa using hslot
  obtain ⟨hbound, hdescribes⟩ := h (first.length + k) slot hget
  have hindex : index + (first.length + k) = index + first.length + k := by omega
  simp only [hindex] at hbound hdescribes
  exact ⟨hbound, hdescribes⟩

mutual

theorem preorder_of_holdsAt
    {t : Tree} (parent : Option Nat) (i : t.Pos) (o : Outline)
    (h : HoldsAt t i.val (slots parent i.val o)) :
    (t.preorder i).map Fin.val = List.range' i.val o.count := by
  cases o with
  | node fields children =>
      rw [slots] at h
      obtain ⟨_, hself⟩ := h 0 _ rfl
      have hchildren : (t.children i).map Fin.val =
          starts (i.val + 1) children := by
        rw [Tree.map_val_children]
        exact hself.children
      rw [Tree.preorder_eq, List.map_cons, Outline.count, List.range'_succ,
        flatMap_preorder_of_holdsAt children hchildren h.of_cons]

theorem flatMap_preorder_of_holdsAt
    {t : Tree} {parent index : Nat} (children : List Outline)
    {nodes : List t.Pos} (hnodes : nodes.map Fin.val = starts index children)
    (h : HoldsAt t index (slotsBelow parent index children)) :
    (nodes.flatMap t.preorder).map Fin.val =
      List.range' index (countAll children) := by
  cases children with
  | nil =>
      have hnil : nodes = [] := by simpa [starts] using hnodes
      rw [hnil]
      rfl
  | cons o rest =>
      cases nodes with
      | nil => simp [starts] at hnodes
      | cons i nodes =>
          rw [List.map_cons, starts, List.cons.injEq] at hnodes
          obtain ⟨hindex, htail⟩ := hnodes
          subst hindex
          rw [slotsBelow] at h
          have hright := h.of_append_right
          rw [length_slots] at hright
          rw [List.flatMap_cons, List.map_append, countAll,
            preorder_of_holdsAt _ i o h.of_append_left,
            flatMap_preorder_of_holdsAt rest htail hright]
          exact List.range'_append_1

end

theorem walk_eq_range_of_slots
    {t : Tree} {o : Outline}
    (h : List.Forall₂ Slot.Describes (slots none 0 o) t.nodes.toList) :
    t.walk.map Fin.val = List.range t.size := by
  have hcount : o.count = t.size := by
    rw [← length_slots none 0, h.length_eq, Array.length_toList]
  rw [Tree.walk_eq_preorder, preorder_of_holdsAt none t.root o (holdsAt_zero h),
    hcount, List.range_eq_range']
  rfl

/-! ## Loaded dumps -/

theorem headerOf_eq_ok
    {path file : String} {document root : Value}
    (h : headerOf path document = .ok (file, root)) :
    ∃ fields, document = .table fields ∧
      Fields.get? fields "root" = some root := by
  unfold headerOf at h
  split at h
  · next fields =>
    refine ⟨fields, rfl, ?_⟩
    split at h
    · next root' hroot =>
      split at h
      · split at h
        · cases h
        · cases h
          exact hroot
      · cases h
    · cases h
  · cases h

theorem ofDocument_describes
    {path : String} {document : Value} {tree : Tree}
    (h : ofDocument path document = .ok tree) :
    ∃ fields root, document = .table fields ∧
      Fields.get? fields "root" = some root ∧
      List.Forall₂ Slot.Describes (slots none 0 (outlineOf root))
        tree.nodes.toList := by
  unfold ofDocument at h
  cases hheader : headerOf path document with
  | error fault =>
      rw [hheader] at h
      cases h
  | ok header =>
      obtain ⟨file, root⟩ := header
      obtain ⟨fields, hdocument, hroot⟩ := headerOf_eq_ok hheader
      simp only [hheader] at h
      split at h
      · cases h
      · next b hrun =>
        split at h
        · cases h
        · next built hbuild =>
          cases h
          obtain ⟨new, hnodes, hdescribes⟩ := addAll_singleton root hrun
          have htree : tree.nodes = b.nodes := by
            unfold Builder.build at hbuild
            split at hbuild
            · cases hbuild
              rfl
            · cases hbuild
          have hnew : tree.nodes.toList = new := by
            rw [htree, hnodes]
            rfl
          refine ⟨fields, root, hdocument, hroot, ?_⟩
          rw [hnew]
          exact hdescribes

theorem ofDocument_textual
    {path : String} {document : Value} {tree : Tree}
    (h : ofDocument path document = .ok tree) : tree.Textual := by
  obtain ⟨_, root, _, _, hdescribes⟩ := ofDocument_describes h
  intro i
  have hbound : i.val < (slots none 0 (outlineOf root)).length := by
    rw [hdescribes.length_eq]
    exact i.isLt
  have hnode := hdescribes.get hbound i.isLt
  obtain ⟨text, -, himage⟩ := hnode.image
  exact ⟨text, himage⟩

/-! ## Facts about every loaded node -/

/-- What holds of a node as it is made from its table, and is kept when the node gets a child, holds
of all nodes. -/
theorem forall_mem_addAll
    {P : Node → Prop} {Q : Value → Prop}
    (hchild : ∀ node i, P node → P (node.addChild i))
    (hbelow : ∀ v, Q v → ∀ c ∈ childNodes v, Q c)
    (hentry : ∀ fields entry, Q (.table fields) → entryOf fields = .ok entry →
      ∀ p, P (entry.toNode p))
    {b b' : Builder} {tasks : List Task}
    (htasks : ∀ task ∈ tasks, Q task.1) (hb : ∀ node ∈ b.nodes, P node)
    (h : addAll b tasks = .ok b') : ∀ node ∈ b'.nodes, P node := by
  fun_induction addAll b tasks with
  | case1 b =>
      cases h
      exact hb
  | case5 b fields parent rest entry hmade next hadd children hchildren ih =>
      obtain ⟨hfields, hrest⟩ := List.forall_mem_cons.mp htasks
      apply ih _ _ h
      · intro task htask
        rcases List.mem_append.mp htask with hnew | hlater
        · obtain ⟨v, hv, rfl⟩ := List.mem_map.mp hnew
          exact hbelow _ hfields v (childrenOf_eq_ok hchildren ▸ hv)
        · exact hrest task hlater
      · exact Builder.forall_mem_add hchild hb (hentry _ _ hfields hmade) hadd
  | _ => cases h

theorem forall_node_of_ofDocument
    {P : Node → Prop} {Q : Value → Prop}
    (hchild : ∀ node i, P node → P (node.addChild i))
    (hbelow : ∀ v, Q v → ∀ c ∈ childNodes v, Q c)
    (hentry : ∀ fields entry, Q (.table fields) → entryOf fields = .ok entry →
      ∀ p, P (entry.toNode p))
    {path : String} {document : Value} {t : Tree}
    (hroot : ∀ fields root, document = .table fields → Fields.get? fields "root" = some root →
      Q root)
    (h : ofDocument path document = .ok t) (i : t.Pos) : P (t.node i) := by
  unfold ofDocument at h
  cases hheader : headerOf path document with
  | error fault =>
      rw [hheader] at h
      cases h
  | ok header =>
      obtain ⟨file, root⟩ := header
      obtain ⟨fields, hdocument, hget⟩ := headerOf_eq_ok hheader
      simp only [hheader] at h
      split at h
      · cases h
      · next b hrun =>
        have hnodes := forall_mem_addAll hchild hbelow hentry
          (List.forall_mem_singleton.mpr (hroot fields root hdocument hget))
          (by simp [Builder.start]) hrun
        split at h
        · cases h
        · next built hbuild =>
          cases h
          unfold Builder.build at hbuild
          split at hbuild
          · cases hbuild
            exact hnodes _ (Array.getElem_mem i.isLt)
          · cases hbuild

theorem isWritable_of_accepts
    {type : AttributeType} {v : Value} (h : type.accepts v = true) : v.isWritable = true := by
  cases type <;> cases v <;> first | rfl | cases h

theorem writable_of_attributesOf
    {kind : Kind} {fields attributes : Fields} (h : attributesOf kind fields = .ok attributes) :
    ∀ field ∈ attributes, field.2.isWritable = true := by
  have htaken := forall₂_of_mapM_eq_ok h
  clear h
  generalize givenAttributes fields = given at htaken
  induction htaken with
  | nil => simp
  | cons hfield _ ih =>
      simp only at hfield
      split at hfield
      · next haccepts =>
        cases hfield
        exact List.forall_mem_cons.mpr ⟨isWritable_of_accepts haccepts, ih⟩
      · cases hfield

/-- The attributes of a loaded node are flags and texts, so all comments can be read. -/
theorem ofDocument_readable
    {path : String} {document : Value} {t : Tree}
    (h : ofDocument path document = .ok t) : t.Readable := by
  have hnodes := forall_node_of_ofDocument
    (P := fun node => ∀ field ∈ node.attributes, field.2.isWritable = true) (Q := fun _ => True)
    (fun _ _ hnode => hnode) (fun _ _ _ _ => trivial)
    (by
      intro fields entry _ hentry p
      obtain ⟨kind, _, _, attributes, _, _, _, hattributes, _, rfl⟩ := entryOf_eq_ok hentry
      exact writable_of_attributesOf hattributes)
    (fun _ _ _ _ => trivial) h
  rw [Tree.readable_iff_isWritable]
  intro d _ v hv
  obtain ⟨field, hfind, rfl⟩ := Option.map_eq_some_iff.mp hv
  exact hnodes d field (List.mem_of_find?_eq_some hfind)

/-! ## The numbering of a loaded dump -/

/-- A document that is accepted becomes the tree of its nodes, numbered in
pre-order.  Slot by slot the array has the data of the document and the links of
the numbering, and the walk through it visits the indices in ascending order. -/
theorem ofDocument_numbers_preorder
    {path : String} {document : Value} {tree : Tree}
    (h : ofDocument path document = .ok tree) :
    ∃ fields root, document = .table fields ∧
      Fields.get? fields "root" = some root ∧
      List.Forall₂ Slot.Describes (slots none 0 (outlineOf root))
        tree.nodes.toList ∧
      tree.walk.map Fin.val = List.range tree.size := by
  obtain ⟨fields, root, hdocument, hroot, hdescribes⟩ := ofDocument_describes h
  exact ⟨fields, root, hdocument, hroot, hdescribes,
    walk_eq_range_of_slots hdescribes⟩

/-- Three levels, with an image that is null, one that is a number, and one that is missing. -/
def sampleDocument : Value :=
  .table [("file", .str "a.php"),
    ("root", .table [("kind", .str "function"), ("image", .null),
      ("beginLine", .int 2),
      ("children", .list [
        .table [("kind", .str "scope"), ("static", .bool true),
          ("children", .list [.table [("kind", .str "literal"), ("image", .int 7)]])],
        .table [("kind", .str "variable"), ("image", .str "$a")]])])]

theorem ofDocument_numbers_preorder_sample :
    ∃ tree, ofDocument "a.json" sampleDocument = .ok tree ∧
      ∃ fields root, sampleDocument = .table fields ∧
        Fields.get? fields "root" = some root ∧
        List.Forall₂ Slot.Describes (slots none 0 (outlineOf root))
          tree.nodes.toList ∧
        tree.walk.map Fin.val = List.range tree.size := by
  have hok : (ofDocument "a.json" sampleDocument).isOk = true := by
    decide +kernel
  cases h : ofDocument "a.json" sampleDocument with
  | error error =>
      rw [h] at hok
      cases hok
  | ok tree => exact ⟨tree, rfl, ofDocument_numbers_preorder h⟩

end TreeLint.Dump

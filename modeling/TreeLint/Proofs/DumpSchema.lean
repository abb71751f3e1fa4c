import TreeLint.Proofs.BuilderHistory
import TreeLint.Proofs.DumpNumbering
import TreeLint.Proofs.ShortIntegers

/-!
# The schema of dumps

A document is refused exactly when it breaks the schema of dumps, and the error
that is reported is that of the first fault.  The faults of the header come before
those of the nodes.  The nodes are taken in pre-order, which is what the worklist
does: a run past nodes that are in order adds them and leaves the worklist with
the nodes that come after them.  The faults of one node come in a fixed order.

No index of a node that is still to be added can be out of range, so the builder
refuses nothing.  A kind or an image is written out as a text whatever it is, and
in a document with short integers this never fails.
-/

namespace TreeLint

/-! ## Texts that name a kind -/

/-- All tags start with a small letter. -/
theorem Kind.isLower_tag (kind : Kind) : kind.tag.toList.head?.any Char.isLower = true := by
  cases kind <;> rfl

theorem Kind.ne_tag_of_head
    {s : String} (hs : s.toList.head?.any Char.isLower = false) (kind : Kind) :
    s ≠ kind.tag := by
  rintro rfl
  simp [kind.isLower_tag] at hs

theorem Kind.ne_tag_of_ofTag?
    {s : String} (hs : Kind.ofTag? s = none) (kind : Kind) : s ≠ kind.tag := by
  rintro rfl
  simp [kind.ofTag?_tag] at hs

theorem any_isLower_of_isDigit
    {c : Option Char} (h : c.any Char.isDigit = true) : c.any Char.isLower = false := by
  cases c with
  | none => rfl
  | some c =>
      delta Char.isDigit Char.isLower at *
      simp only [Option.any_some, Bool.and_eq_true, decide_eq_true_eq,
        UInt32.le_iff_toNat_le] at h ⊢
      simp at h ⊢
      omega

theorem Decimal.isDigit_write (layout : Decimal.Layout) (s : Decimal.Scientific) :
    (layout.write s).toList.head?.any Char.isDigit = true := by
  obtain ⟨c, ds, hcons, hc⟩ := Json.exists_toDigits_eq_cons s.digits
  unfold Decimal.Layout.write
  rw [hcons]
  simp only
  split
  · cases ds with
    | nil => simpa using hc
    | cons d ds => simpa using hc
  · split
    · simpa using hc
    · split
      · next hleading =>
        have hpos : ∃ k, (s.exponent + ((c :: ds).length : Int) - 1 + 1).toNat = k + 1 := by
          refine ⟨(s.exponent + ((c :: ds).length : Int) - 1).toNat, ?_⟩
          omega
        obtain ⟨k, hk⟩ := hpos
        rw [hk]
        simpa using hc
      · simp

/-- Only a text is shown as a tag. -/
theorem Json.Short.inner_ne_tag
    {digits : Nat} {v : Value} (hv : Json.Short digits v) (hstr : ∀ s, v ≠ .str s)
    {text : String} (htext : v.inner = .ok text) (kind : Kind) : text ≠ kind.tag := by
  cases hv with
  | null =>
      cases htext
      exact Kind.ne_tag_of_head rfl kind
  | bool b => cases b <;> cases htext <;> exact Kind.ne_tag_of_head rfl kind
  | int n _ =>
      obtain ⟨c, more, hcons, hc⟩ := Json.exists_toString_eq_cons n
      rw [Value.inner, Text.written] at htext
      split at htext
      · cases htext
        apply Kind.ne_tag_of_head
        rw [hcons]
        rcases hc with rfl | hdigit
        · rfl
        · exact any_isLower_of_isDigit hdigit
      · cases htext
  | float x =>
      cases htext
      cases x with
      | nan => exact Kind.ne_tag_of_ofTag? (by decide) kind
      | infinite negative => cases negative <;> exact Kind.ne_tag_of_ofTag? (by decide) kind
      | finite negative m e =>
          apply Kind.ne_tag_of_head
          have hwrite := Decimal.isDigit_write Decimal.standard (Decimal.shortest m e)
          cases negative with
          | true => simp [Binary64.text]
          | false => simpa [Binary64.text] using any_isLower_of_isDigit hwrite
  | str s => exact absurd rfl (hstr s)
  | list items _ =>
      rw [Value.inner] at htext
      cases hinner : Value.innerItems items with
      | error fault =>
          rw [hinner] at htext
          cases htext
      | ok texts =>
          rw [hinner] at htext
          cases htext
          apply Kind.ne_tag_of_head
          simp
  | table fields _ =>
      rw [Value.inner] at htext
      cases hinner : Value.innerFields fields with
      | error fault =>
          rw [hinner] at htext
          cases htext
      | ok texts =>
          rw [hinner] at htext
          cases htext
          apply Kind.ne_tag_of_head
          simp

namespace Dump

/-! ## The schema -/

/-- The nodes of a document from `v` on, in pre-order. -/
def nodesOf (v : Value) : List Value :=
  v :: (childNodes v).attach.flatMap fun c => nodesOf c.1
termination_by sizeOf v
decreasing_by exact sizeOf_lt_of_mem_childNodes c.2

theorem nodesOf_eq (v : Value) : nodesOf v = v :: (childNodes v).flatMap nodesOf := by
  rw [nodesOf]
  congr 1
  rw [List.flatMap_def, List.flatMap_def]
  exact congrArg List.flatten List.attach_map_val

def HasKind (fields : Fields) (kind : Kind) : Prop :=
  Fields.get? fields "kind" = some (.str kind.tag)

/-- The lines that are there are integers or truth values. -/
def LinesFit (fields : Fields) : Prop :=
  ∀ name ∈ ["beginLine", "endLine"], ∀ v, Fields.get? fields name = some v →
    (∃ n, v = .int n) ∨ ∃ b, v = .bool b

/-- The attributes of a node, in the order in which they are looked at. -/
def attributeNames : List String := ["abstract", "static", "declaration", "docComment"]

def typeOf (name : String) : AttributeType := if name = "docComment" then .text else .flag

/-- An attribute is missing or null, or it is of its type. -/
def AttributeFits (fields : Fields) (name : String) : Prop :=
  ∀ v, given? fields name = some v → (typeOf name).accepts v = true

def ChildrenFit (fields : Fields) : Prop :=
  ∀ v, Fields.get? fields "children" = some v → ∃ items, v = .list items

/-- A node is as the schema wants it, whatever its children are. -/
inductive NodeFits : Value → Prop where
  | intro {fields : Fields} {kind : Kind}
      (hkind : HasKind fields kind)
      (hlines : LinesFit fields)
      (hattributes : ∀ name ∈ attributeNames, AttributeFits fields name)
      (hchildren : ChildrenFit fields) : NodeFits (.table fields)

/-- The first thing that is wrong with a node, when it is the one at `index`. -/
inductive NodeFault (index : Nat) : Value → SchemaFault → Prop where
  | notATable {v : Value} (h : ∀ fields, v ≠ .table fields) :
      NodeFault index v (.notATable v.typeName)
  | unknownKind {fields : Fields} (h : ∀ kind, ¬ HasKind fields kind) :
      NodeFault index (.table fields)
        (.unknownKind ((Fields.get? fields "kind").getD .null))
  | badLines {fields : Fields} {kind : Kind} (hkind : HasKind fields kind)
      (h : ¬ LinesFit fields) :
      NodeFault index (.table fields) (.badLines kind)
  | badAttribute {fields : Fields} {kind : Kind} {name : String} {v : Value}
      {before after : List String} (hkind : HasKind fields kind) (hlines : LinesFit fields)
      (hnames : attributeNames = before ++ name :: after)
      (hbefore : ∀ other ∈ before, AttributeFits fields other)
      (hgiven : given? fields name = some v) (h : (typeOf name).accepts v = false) :
      NodeFault index (.table fields)
        (.badAttribute name kind (typeOf name).name v.typeName)
  | badChildren {fields : Fields} {kind : Kind} (hkind : HasKind fields kind)
      (hlines : LinesFit fields)
      (hattributes : ∀ name ∈ attributeNames, AttributeFits fields name)
      (h : ¬ ChildrenFit fields) :
      NodeFault index (.table fields) (.badChildren index)

/-- A document has a root and the path of a unit, which is `path` if it does not give one. -/
def HasHeader (path : String) (document : Value) (file : String) (root : Fields) : Prop :=
  ∃ fields, document = .table fields ∧
    Fields.get? fields "root" = some (.table root) ∧
    (Fields.get? fields "file").getD (.str path) = .str file ∧ file ≠ ""

/-- A document is as the schema wants it. -/
def FitsSchema (path : String) (document : Value) : Prop :=
  ∃ file root, HasHeader path document file root ∧ ∀ v ∈ nodesOf (.table root), NodeFits v

def HasRoot (document : Value) : Prop :=
  ∃ fields root, document = .table fields ∧ Fields.get? fields "root" = some (.table root)

/-- The error that a document is refused with. -/
inductive Refused (path : String) (document : Value) : LoadError → Prop where
  | noRoot (h : ¬ HasRoot document) : Refused path document ⟨path, .schema .noRoot⟩
  | badFile (hroot : HasRoot document)
      (h : ∀ file root, ¬ HasHeader path document file root) :
      Refused path document ⟨path, .schema .badFile⟩
  | badNode {file : String} {root : Fields} {v : Value} {before after : List Value}
      {fault : SchemaFault}
      (hheader : HasHeader path document file root)
      (hnodes : nodesOf (.table root) = before ++ v :: after)
      (hbefore : ∀ u ∈ before, NodeFits u)
      (hfault : NodeFault before.length v fault) :
      Refused path document ⟨file, .schema fault⟩

/-! ## One node -/

/-- An attribute that is there and not null. -/
def candidate? (fields : Fields) (name : String) : Option (String × AttributeType × Value) :=
  (given? fields name).map fun v => (name, typeOf name, v)

def take (kind : Kind) : String × AttributeType × Value → Except SchemaFault (String × Value)
  | (name, type, v) =>
    if type.accepts v then .ok (name, v)
    else .error (.badAttribute name kind type.name v.typeName)

section Node

variable {fields : Fields} {kind : Kind}

theorem kindOf_of_hasKind (h : HasKind fields kind) : kindOf fields = .ok kind := by
  unfold HasKind at h
  simp [kindOf, h, Value.shown, Kind.ofTag?_tag]

theorem kindOf_of_unknown
    (hshort : Json.Short Text.maxDigits (.table fields))
    (h : ∀ kind, ¬ HasKind fields kind) :
    kindOf fields = .error (.unknownKind ((Fields.get? fields "kind").getD .null)) := by
  obtain ⟨text, htext⟩ :=
    Value.exists_shown (v := (Fields.get? fields "kind").getD .null)
      (hshort.getD .null "kind").isWritable
  cases hkind : kindOf fields with
  | error fault =>
      simp only [kindOf, htext] at hkind
      split at hkind
      · cases hkind
      · cases hkind
        rfl
  | ok kind =>
      obtain ⟨tag, hget, hshown⟩ := kindOf_eq_ok hkind
      -- The tag is compared as it is shown, and nothing but a text is shown as a tag.
      cases tag with
      | str s =>
          cases hshown
          exact absurd hget (h kind)
      | _ =>
          refine absurd rfl ((hshort.get? hget).inner_ne_tag ?_ hshown kind)
          intro s hs
          cases hs

theorem exists_ofValue?_iff
    {v : Value} :
    (∃ line, Line.ofValue? v = some line) ↔ (∃ n, v = .int n) ∨ ∃ b, v = .bool b := by
  cases v <;> simp [Line.ofValue?]

theorem linesOf_of_fit (kind : Kind) (h : LinesFit fields) :
    ∃ lines, linesOf kind fields = .ok lines := by
  have hbegin : ∃ line, Line.ofValue? ((Fields.get? fields "beginLine").getD (.int 0)) =
      some line := by
    cases hget : Fields.get? fields "beginLine" with
    | none => exact ⟨_, rfl⟩
    | some v => exact exists_ofValue?_iff.mpr (h "beginLine" (by simp) v hget)
  have hend : ∃ line, Line.ofValue? ((Fields.get? fields "endLine").getD
      ((Fields.get? fields "beginLine").getD (.int 0))) = some line := by
    cases hget : Fields.get? fields "endLine" with
    | none => exact hbegin
    | some v => exact exists_ofValue?_iff.mpr (h "endLine" (by simp) v hget)
  obtain ⟨first, hfirst⟩ := hbegin
  obtain ⟨last, hlast⟩ := hend
  exact ⟨(first, last), by simp [linesOf, hfirst, hlast]⟩

theorem linesOf_of_not_fit (h : ¬ LinesFit fields) :
    linesOf kind fields = .error (.badLines kind) := by
  cases hlines : linesOf kind fields with
  | error fault =>
      unfold linesOf at hlines
      simp only at hlines
      split at hlines
      · cases hlines
      · exact hlines.symm
  | ok lines =>
      exfalso
      apply h
      unfold linesOf at hlines
      simp only at hlines
      split at hlines
      · next first last hfirst hlast =>
        intro name hname v hget
        apply exists_ofValue?_iff.mp
        rcases List.mem_pair.mp hname with rfl | rfl
        · exact ⟨first, by simpa [hget] using hfirst⟩
        · exact ⟨last, by simpa [hget] using hlast⟩
      · cases hlines

theorem attributesOf_eq (kind : Kind) (fields : Fields) :
    attributesOf kind fields =
      (attributeNames.filterMap (candidate? fields)).mapM (take kind) := by
  have htypes : attributeTypes = attributeNames.map fun name => (name, typeOf name) := rfl
  have hgiven : givenAttributes fields = attributeNames.filterMap (candidate? fields) := by
    unfold givenAttributes
    rw [htypes, List.filterMap_map]
    apply List.filterMap_congr
    intro name _
    simp only [Function.comp, candidate?, given?_eq]
    cases Fields.get? fields name with
    | none => rfl
    | some v => cases v <;> rfl
  rw [← hgiven]
  rfl

/-- Attributes that fit are taken, and then those after them. -/
theorem mapM_take_append
    (kind : Kind) {before : List String} (h : ∀ name ∈ before, AttributeFits fields name)
    (after : List String) :
    ∃ taken, ((before ++ after).filterMap (candidate? fields)).mapM (take kind) =
      ((after.filterMap (candidate? fields)).mapM (take kind)).map (taken ++ ·) := by
  induction before with
  | nil =>
      refine ⟨[], ?_⟩
      rw [List.nil_append]
      cases (after.filterMap (candidate? fields)).mapM (take kind) <;> rfl
  | cons name before ih =>
      obtain ⟨hname, hbefore⟩ := List.forall_mem_cons.mp h
      obtain ⟨taken, htaken⟩ := ih hbefore
      rw [List.cons_append]
      cases hgiven : given? fields name with
      | none =>
          refine ⟨taken, ?_⟩
          rw [List.filterMap_cons_none (by simp [candidate?, hgiven]), htaken]
      | some v =>
          refine ⟨(name, v) :: taken, ?_⟩
          have htake : take kind (name, typeOf name, v) = .ok (name, v) :=
            if_pos (hname v hgiven)
          rw [List.filterMap_cons_some (b := (name, typeOf name, v))
            (by simp [candidate?, hgiven]), List.mapM_cons, htake, htaken]
          cases (after.filterMap (candidate? fields)).mapM (take kind) <;> rfl

theorem attributesOf_of_fit
    (kind : Kind) (h : ∀ name ∈ attributeNames, AttributeFits fields name) :
    ∃ attributes, attributesOf kind fields = .ok attributes := by
  obtain ⟨taken, htaken⟩ := mapM_take_append kind h []
  rw [List.append_nil] at htaken
  rw [attributesOf_eq, htaken]
  exact ⟨_, rfl⟩

theorem attributesOf_of_bad
    {name : String} {v : Value} {before after : List String}
    (hnames : attributeNames = before ++ name :: after)
    (hbefore : ∀ other ∈ before, AttributeFits fields other)
    (hgiven : given? fields name = some v) (h : (typeOf name).accepts v = false) :
    attributesOf kind fields =
      .error (.badAttribute name kind (typeOf name).name v.typeName) := by
  have htake : take kind (name, typeOf name, v) =
      .error (.badAttribute name kind (typeOf name).name v.typeName) := by
    simp [take, h]
  obtain ⟨taken, htaken⟩ := mapM_take_append kind hbefore (name :: after)
  rw [attributesOf_eq, hnames, htaken,
    List.filterMap_cons_some (b := (name, typeOf name, v)) (by simp [candidate?, hgiven]),
    List.mapM_cons, htake]
  rfl

theorem childrenOf_of_fit (h : ChildrenFit fields) (index : Nat) :
    childrenOf index fields = .ok (childNodes (.table fields)) := by
  cases hchildren : childrenOf index fields with
  | ok children => rw [childrenOf_eq_ok hchildren]
  | error fault =>
      unfold childrenOf at hchildren
      split at hchildren
      · cases hchildren
      · cases hchildren
      · next v hlist hget =>
        obtain ⟨items, rfl⟩ := h v hget
        exact absurd rfl (hlist items)

theorem childrenOf_of_not_fit (h : ¬ ChildrenFit fields) (index : Nat) :
    childrenOf index fields = .error (.badChildren index) := by
  unfold childrenOf
  split
  · next hget => exact absurd (fun v hv => by simp [hget] at hv) h
  · next items hget =>
    exact absurd (fun v hv => ⟨items, by simpa [hget] using hv.symm⟩) h
  · rfl

theorem exists_imageOf (hshort : Json.Short Text.maxDigits (.table fields)) :
    ∃ text, imageOf fields = .ok text := by
  unfold imageOf
  split
  · exact ⟨_, rfl⟩
  · exact ⟨_, rfl⟩
  · next v _ hget =>
    obtain ⟨text, htext⟩ := Value.exists_shown (hshort.get? hget).isWritable
    exact ⟨text, by rw [htext]; rfl⟩

theorem entryOf_of_fit
    (hshort : Json.Short Text.maxDigits (.table fields))
    (hkind : HasKind fields kind) (hlines : LinesFit fields)
    (hattributes : ∀ name ∈ attributeNames, AttributeFits fields name) :
    ∃ entry, entryOf fields = .ok entry := by
  obtain ⟨lines, hlines⟩ := linesOf_of_fit kind hlines
  obtain ⟨attributes, hattributes⟩ := attributesOf_of_fit kind hattributes
  obtain ⟨text, himage⟩ := exists_imageOf hshort
  unfold entryOf
  rw [kindOf_of_hasKind hkind]
  simp only [bind, Except.bind, hlines, hattributes, himage]
  exact ⟨_, rfl⟩

/-- Either everything in a list has a property, or there is a first thing that has not. -/
theorem forall_or_first_not
    {α : Type} (P : α → Prop) (items : List α) :
    (∀ x ∈ items, P x) ∨
      ∃ before x after, items = before ++ x :: after ∧ (∀ y ∈ before, P y) ∧ ¬ P x := by
  induction items with
  | nil => exact Or.inl (by simp)
  | cons x items ih =>
      by_cases hx : P x
      · rcases ih with hall | ⟨before, y, after, rfl, hbefore, hy⟩
        · exact Or.inl (List.forall_mem_cons.mpr ⟨hx, hall⟩)
        · exact Or.inr ⟨x :: before, y, after, rfl, List.forall_mem_cons.mpr ⟨hx, hbefore⟩, hy⟩
      · exact Or.inr ⟨[], x, items, rfl, by simp, hx⟩

/-- A node that is not in order has a first fault. -/
theorem nodeFits_or_fault (index : Nat) (v : Value) :
    NodeFits v ∨ ∃ fault, NodeFault index v fault := by
  by_cases htable : ∃ fields, v = .table fields
  · obtain ⟨fields, rfl⟩ := htable
    by_cases hkind : ∃ kind, HasKind fields kind
    · obtain ⟨kind, hkind⟩ := hkind
      by_cases hlines : LinesFit fields
      · rcases forall_or_first_not (AttributeFits fields) attributeNames with hfit | hbad
        · by_cases hchildren : ChildrenFit fields
          · exact Or.inl (.intro hkind hlines hfit hchildren)
          · exact Or.inr ⟨_, .badChildren hkind hlines hfit hchildren⟩
        · obtain ⟨before, name, after, hnames, hbefore, hbad⟩ := hbad
          simp only [AttributeFits, not_forall, Bool.not_eq_true] at hbad
          obtain ⟨v, hgiven, hrefused⟩ := hbad
          exact Or.inr ⟨_, .badAttribute hkind hlines hnames hbefore hgiven hrefused⟩
      · exact Or.inr ⟨_, .badLines hkind hlines⟩
    · exact Or.inr ⟨_, .unknownKind fun kind h => hkind ⟨kind, h⟩⟩
  · exact Or.inr ⟨_, .notATable fun fields h => htable ⟨fields, h⟩⟩

end Node

/-! ## The worklist -/

/-- The nodes that a worklist stands for. -/
def pendingNodes (tasks : List Task) : List Value := tasks.flatMap fun task => nodesOf task.1

/-- Every task goes below a node that is there, or it is the root and the only one. -/
def Ready (b : Builder) (tasks : List Task) : Prop :=
  (b.size = 0 ∧ ∃ v, tasks = [(v, none)]) ∨ ∀ task ∈ tasks, ∃ p < b.size, task.2 = some p

theorem Ready.fits
    {b : Builder} {v : Value} {parent : Option Nat} {rest : List Task}
    (h : Ready b ((v, parent) :: rest)) (entry : Entry) :
    (Builder.Call.mk entry (parent.map Int.ofNat)).Fits b.size := by
  rcases h with ⟨hempty, _, hroot⟩ | hbelow
  · cases hroot
    exact hempty
  · obtain ⟨p, hp, hparent⟩ := hbelow _ List.mem_cons_self
    obtain rfl : parent = some p := hparent
    exact ⟨Int.natCast_nonneg p, Int.ofNat_lt.mpr hp⟩

theorem exists_add_of_ready
    {b : Builder} {v : Value} {parent : Option Nat} {rest : List Task}
    (h : Ready b ((v, parent) :: rest)) (entry : Entry) :
    ∃ b', b.add entry (parent.map Int.ofNat) = .ok b' ∧ b'.size = b.size + 1 := by
  obtain ⟨b', hadd, _, hrecords⟩ := Builder.add_of_fits (h.fits entry)
  refine ⟨b', hadd, ?_⟩
  rw [← Builder.length_records, hrecords, List.length_append, Builder.length_records]
  rfl

/-- A node that is in order is added, and its children are next. -/
theorem addAll_of_nodeFits
    {b : Builder} {v : Value} {parent : Option Nat} {rest : List Task}
    (hshort : Json.Short Text.maxDigits v)
    (hready : Ready b ((v, parent) :: rest)) (hv : NodeFits v) :
    ∃ b' tasks, addAll b ((v, parent) :: rest) = addAll b' tasks ∧
      pendingNodes tasks = (childNodes v).flatMap nodesOf ++ pendingNodes rest ∧
      b'.size = b.size + 1 ∧ Ready b' tasks := by
  cases hv with
  | @intro fields kind hkind hlines hattributes hchildren =>
      obtain ⟨entry, hentry⟩ := entryOf_of_fit hshort hkind hlines hattributes
      obtain ⟨b', hadd, hsize⟩ := exists_add_of_ready hready entry
      have hlist := childrenOf_of_fit hchildren b.size
      refine ⟨b', _, addAll_table hentry hadd hlist rest, ?_, hsize, Or.inr ?_⟩
      · simp [pendingNodes, List.flatMap_map]
      · intro task htask
        rw [hsize]
        rcases List.mem_append.mp htask with hchild | hlater
        · obtain ⟨c, _, rfl⟩ := List.mem_map.mp hchild
          exact ⟨b.size, Nat.lt_succ_self _, rfl⟩
        · rcases hready with ⟨_, _, hroot⟩ | hbelow
          · cases hroot
            cases hlater
          · obtain ⟨p, hp, hparent⟩ := hbelow task (List.mem_cons_of_mem _ hlater)
            exact ⟨p, Nat.lt_succ_of_lt hp, hparent⟩

theorem addAll_of_entry_error
    {b : Builder} {fields : Fields} {parent : Option Nat} {rest : List Task}
    {fault : SchemaFault} (h : entryOf fields = .error fault) :
    addAll b ((.table fields, parent) :: rest) = .error fault := by
  rw [addAll.eq_def]
  simp only [h]

theorem addAll_of_nodeFault
    {b : Builder} {v : Value} {parent : Option Nat} {rest : List Task}
    {fault : SchemaFault}
    (hshort : Json.Short Text.maxDigits v)
    (hready : Ready b ((v, parent) :: rest))
    (hfault : NodeFault b.size v fault) :
    addAll b ((v, parent) :: rest) = .error fault := by
  cases hfault with
  | notATable hv =>
      rw [addAll.eq_def]
      cases v with
      | table fields => exact absurd rfl (hv fields)
      | _ => rfl
  | unknownKind h =>
      apply addAll_of_entry_error
      unfold entryOf
      rw [kindOf_of_unknown hshort h]
      rfl
  | badLines hkind h =>
      apply addAll_of_entry_error
      unfold entryOf
      rw [kindOf_of_hasKind hkind]
      simp only [bind, Except.bind, linesOf_of_not_fit h]
  | @badAttribute _ kind _ _ _ _ hkind hlines hnames hbefore hgiven h =>
      apply addAll_of_entry_error
      obtain ⟨lines, hlines⟩ := linesOf_of_fit kind hlines
      unfold entryOf
      rw [kindOf_of_hasKind hkind]
      simp only [bind, Except.bind, hlines, attributesOf_of_bad hnames hbefore hgiven h]
  | badChildren hkind hlines hattributes h =>
      obtain ⟨entry, hentry⟩ := entryOf_of_fit hshort hkind hlines hattributes
      obtain ⟨b', hadd, _⟩ := exists_add_of_ready hready entry
      rw [addAll.eq_def]
      simp only [hentry, hadd]
      split
      · next hchildren =>
        rw [childrenOf_of_not_fit h] at hchildren
        cases hchildren
        rfl
      · next hchildren => simp [childrenOf_of_not_fit h] at hchildren

/-- The first node of a worklist is that of its first task. -/
theorem exists_task_of_pendingNodes
    {tasks : List Task} {v : Value} {later : List Value}
    (h : pendingNodes tasks = v :: later) :
    ∃ parent rest, tasks = (v, parent) :: rest ∧
      (childNodes v).flatMap nodesOf ++ pendingNodes rest = later := by
  cases tasks with
  | nil => cases h
  | cons task rest =>
      obtain ⟨u, parent⟩ := task
      rw [pendingNodes, List.flatMap_cons, nodesOf_eq, List.cons_append, List.cons.injEq] at h
      obtain ⟨rfl, hlater⟩ := h
      exact ⟨parent, rest, rfl, hlater⟩

/-- A run past nodes that are in order adds them and leaves those that come after them. -/
theorem addAll_past
    {before later : List Value} (hbefore : ∀ u ∈ before, NodeFits u)
    (hshort : ∀ u ∈ before, Json.Short Text.maxDigits u)
    {b : Builder} {tasks : List Task} (hready : Ready b tasks)
    (hnodes : pendingNodes tasks = before ++ later) :
    ∃ b' tasks', addAll b tasks = addAll b' tasks' ∧ pendingNodes tasks' = later ∧
      b'.size = b.size + before.length ∧ Ready b' tasks' := by
  -- The induction is on the nodes that are passed: one step takes one of them, however deep it is.
  induction before generalizing b tasks with
  | nil => exact ⟨b, tasks, rfl, hnodes, rfl, hready⟩
  | cons u before ih =>
      obtain ⟨hu, hbefore⟩ := List.forall_mem_cons.mp hbefore
      obtain ⟨hshortu, hshort⟩ := List.forall_mem_cons.mp hshort
      obtain ⟨parent, rest, rfl, hrest⟩ := exists_task_of_pendingNodes hnodes
      obtain ⟨b₁, tasks₁, hstep, hnodes₁, hsize₁, hready₁⟩ := 
        addAll_of_nodeFits hshortu hready hu
      obtain ⟨b', tasks', hrun, hlater, hsize, hready'⟩ :=
        ih hbefore hshort hready₁ (hnodes₁.trans hrest)
      refine ⟨b', tasks', hstep.trans hrun, hlater, ?_, hready'⟩
      rw [hsize, hsize₁, List.length_cons]
      omega

theorem addAll_of_all_fit
    {b : Builder} {tasks : List Task} (hready : Ready b tasks)
    (h : ∀ v ∈ pendingNodes tasks, NodeFits v)
    (hshort : ∀ v ∈ pendingNodes tasks, Json.Short Text.maxDigits v) :
    ∃ b', addAll b tasks = .ok b' ∧ b'.size = b.size + (pendingNodes tasks).length := by
  obtain ⟨b', tasks', hrun, hdone, hsize, _⟩ :=
    addAll_past h hshort hready (List.append_nil _).symm
  cases tasks' with
  | nil =>
      rw [addAll] at hrun
      exact ⟨b', hrun, hsize⟩
  | cons task rest =>
      rw [pendingNodes, List.flatMap_cons, nodesOf_eq] at hdone
      cases hdone

/-- The error of a run is that of the first node that is not in order. -/
theorem addAll_of_first_fault
    {b : Builder} {tasks : List Task} {v : Value} {before after : List Value}
    {fault : SchemaFault}
    (hready : Ready b tasks)
    (hnodes : pendingNodes tasks = before ++ v :: after)
    (hbefore : ∀ u ∈ before, NodeFits u)
    (hshort : ∀ u ∈ pendingNodes tasks, Json.Short Text.maxDigits u)
    (hfault : NodeFault (b.size + before.length) v fault) :
    addAll b tasks = .error fault := by
  rw [hnodes] at hshort
  obtain ⟨hshortBefore, hshortRest⟩ := List.forall_mem_append.mp hshort
  obtain ⟨b', tasks', hrun, hrest, hsize, hready'⟩ :=
    addAll_past hbefore hshortBefore hready hnodes
  obtain ⟨parent, rest, rfl, _⟩ := exists_task_of_pendingNodes hrest
  rw [← hsize] at hfault
  rw [hrun]
  exact addAll_of_nodeFault (hshortRest v List.mem_cons_self) hready' hfault

/-! ## Documents -/

section Documents

variable {path : String} {document : Value}

theorem headerOf_of_hasHeader
    {file : String} {root : Fields} (h : HasHeader path document file root) :
    headerOf path document = .ok (file, .table root) := by
  obtain ⟨fields, rfl, hroot, hfile, hne⟩ := h
  simp [headerOf, hroot, hfile, hne]

theorem headerOf_of_no_root (h : ¬ HasRoot document) :
    headerOf path document = .error .noRoot := by
  unfold headerOf
  split
  · next fields =>
    split
    · next root hroot => exact absurd ⟨fields, root, rfl, hroot⟩ h
    · rfl
  · rfl

theorem headerOf_of_bad_file
    (hroot : HasRoot document) (h : ∀ file root, ¬ HasHeader path document file root) :
    headerOf path document = .error .badFile := by
  obtain ⟨fields, root, rfl, hroot⟩ := hroot
  simp only [headerOf, hroot]
  split
  · next file hfile =>
    split
    · rfl
    · next hne => exact absurd ⟨fields, rfl, hroot, hfile, by simpa using hne⟩ (h file root)
  · rfl

theorem ready_start (file : String) (root : Value) :
    Ready (Builder.start file) [(root, none)] :=
  Or.inl ⟨rfl, root, rfl⟩

theorem pendingNodes_singleton (root : Value) (parent : Option Nat) :
    pendingNodes [(root, parent)] = nodesOf root := by
  simp [pendingNodes]

theorem short_of_mem_childNodes
    {digits : Nat} {v c : Value} (hv : Json.Short digits v) (hc : c ∈ childNodes v) :
    Json.Short digits c := by
  unfold childNodes at hc
  cases hv with
  | table fields hfields =>
      simp only [fieldsOf] at hc
      split at hc
      · next children hget =>
        cases (Json.Short.table fields hfields).get? hget with
        | list _ hitems => exact hitems c hc
      · cases hc
  | _ => cases hc

theorem short_of_mem_nodesOf
    {digits : Nat} {v u : Value} (hv : Json.Short digits v) (hu : u ∈ nodesOf v) :
    Json.Short digits u := by
  induction hsize : sizeOf v using Nat.strong_induction_on generalizing v with
  | _ n ih =>
      rw [nodesOf_eq] at hu
      rcases List.mem_cons.mp hu with rfl | hbelow
      · exact hv
      · obtain ⟨c, hc, hmem⟩ := List.mem_flatMap.mp hbelow
        have hlt := sizeOf_lt_of_mem_childNodes hc
        exact ih (sizeOf c) (by omega) (short_of_mem_childNodes hv hc) hmem rfl

theorem HasHeader.short_root
    {digits : Nat} {file : String} {root : Fields}
    (h : HasHeader path document file root) (hshort : Json.Short digits document) :
    Json.Short digits (.table root) := by
  obtain ⟨fields, rfl, hroot, _, _⟩ := h
  exact hshort.get? hroot

/-- All the nodes of a document have short integers when the document has. -/
theorem HasHeader.short_pendingNodes
    {file : String} {root : Fields}
    (h : HasHeader path document file root) (hshort : Json.Short Text.maxDigits document) :
    ∀ u ∈ pendingNodes [(.table root, none)], Json.Short Text.maxDigits u := by
  rw [pendingNodes_singleton]
  exact fun u hu => short_of_mem_nodesOf (h.short_root hshort) hu

theorem ofDocument_of_fits
    (hshort : Json.Short Text.maxDigits document) (h : FitsSchema path document) :
    ∃ tree, ofDocument path document = .ok tree := by
  obtain ⟨file, root, hheader, hnodes⟩ := h
  rw [← pendingNodes_singleton _ none] at hnodes
  obtain ⟨b, hrun, hsize⟩ := addAll_of_all_fit (ready_start file (.table root)) hnodes
    (hheader.short_pendingNodes hshort)
  have hpos : 0 < b.nodes.size := by
    rw [pendingNodes_singleton, nodesOf_eq, List.length_cons] at hsize
    change 0 < b.size
    omega
  unfold ofDocument
  simp only [headerOf_of_hasHeader hheader, hrun, Builder.build, dif_pos hpos]
  exact ⟨_, rfl⟩

theorem NodeFault.ofFault
    {index : Nat} {v : Value} {fault : SchemaFault} (h : NodeFault index v fault)
    (file : String) : LoadFailure.ofFault file fault = .refused ⟨file, .schema fault⟩ := by
  cases h <;> rfl

theorem ofDocument_of_refused
    (hshort : Json.Short Text.maxDigits document)
    {error : LoadError} (h : Refused path document error) :
    ofDocument path document = .error (.refused error) := by
  unfold ofDocument
  cases h with
  | noRoot h =>
      rw [headerOf_of_no_root h]
      rfl
  | badFile hroot h =>
      rw [headerOf_of_bad_file hroot h]
      rfl
  | @badNode file root v before after fault hheader hnodes hbefore hfault =>
      have hfault' : NodeFault ((Builder.start file).size + before.length) v fault := by
        rw [show (Builder.start file).size = 0 from rfl, Nat.zero_add]
        exact hfault
      rw [← pendingNodes_singleton _ none] at hnodes
      simp only [headerOf_of_hasHeader hheader,
        addAll_of_first_fault (ready_start file _) hnodes hbefore
          (hheader.short_pendingNodes hshort) hfault',
        hfault.ofFault]

theorem fits_or_refused (path : String) (document : Value) :
    FitsSchema path document ∨ ∃ error, Refused path document error := by
  by_cases hroot : HasRoot document
  · by_cases hheader : ∃ file root, HasHeader path document file root
    · obtain ⟨file, root, hheader⟩ := hheader
      rcases forall_or_first_not NodeFits (nodesOf (.table root)) with hfit | hbad
      · exact Or.inl ⟨file, root, hheader, hfit⟩
      · obtain ⟨before, v, after, hnodes, hbefore, hv⟩ := hbad
        obtain ⟨fault, hfault⟩ := (nodeFits_or_fault before.length v).resolve_left hv
        exact Or.inr ⟨_, .badNode hheader hnodes hbefore hfault⟩
    · exact Or.inr ⟨_, .badFile hroot fun file root h => hheader ⟨file, root, h⟩⟩
  · exact Or.inr ⟨_, .noRoot hroot⟩

/-- Nothing else comes of a document with short integers. -/
theorem ofDocument_ok_or_refused
    (hshort : Json.Short Text.maxDigits document) :
    (∃ tree, ofDocument path document = .ok tree) ∨
      ∃ error, ofDocument path document = .error (.refused error) := by
  rcases fits_or_refused path document with hfits | ⟨error, herror⟩
  · exact Or.inl (ofDocument_of_fits hshort hfits)
  · exact Or.inr ⟨error, ofDocument_of_refused hshort herror⟩

/-- A document is refused exactly when it breaks the schema, with the error of its first fault, and
nothing else is wrong with it. -/
theorem ofDocument_refuses_first_fault
    {path : String} {document : Value}
    (hshort : Json.Short Text.maxDigits document) :
    ((∃ failure, ofDocument path document = .error failure) ↔ ¬ FitsSchema path document) ∧
      ∀ failure, ofDocument path document = .error failure ↔
        ∃ error, failure = .refused error ∧ Refused path document error := by
  constructor
  · constructor
    · rintro ⟨failure, hfailure⟩ hfits
      obtain ⟨tree, htree⟩ := ofDocument_of_fits hshort hfits
      rw [htree] at hfailure
      cases hfailure
    · intro hbreaks
      obtain ⟨error, herror⟩ := (fits_or_refused path document).resolve_left hbreaks
      exact ⟨.refused error, ofDocument_of_refused hshort herror⟩
  · intro failure
    constructor
    · intro hfailure
      rcases fits_or_refused path document with hfits | ⟨first, hfirst⟩
      · obtain ⟨tree, htree⟩ := ofDocument_of_fits hshort hfits
        rw [htree] at hfailure
        cases hfailure
      · rw [ofDocument_of_refused hshort hfirst] at hfailure
        cases hfailure
        exact ⟨first, rfl, hfirst⟩
    · rintro ⟨error, rfl, herror⟩
      exact ofDocument_of_refused hshort herror

end Documents

/-- A scope with a bad attribute and a bad list of children. -/
def sampleScope : Value :=
  .table [("kind", .str "scope"), ("abstract", .null), ("static", .int 1), ("children", .null)]

/-- A function with this scope below it, and after it with a node that is no table. -/
def sampleRoot : Fields :=
  [("kind", .str "function"), ("beginLine", .bool true),
    ("children", .list [sampleScope, .int 7])]

def sampleFaulty : Value :=
  .table [("root", .table sampleRoot), ("file", .str "a.php")]

theorem ofDocument_refuses_first_fault_sample :
    Json.Short Text.maxDigits sampleFaulty ∧
      ofDocument "a.json" sampleFaulty =
        .error (.refused ⟨"a.php", .schema (.badAttribute "static" .scope "bool" "int")⟩) := by
  have hscope : Json.Short Text.maxDigits sampleScope := by
    refine .table _ ?_
    simp only [List.forall_mem_cons]
    exact ⟨.str _, .null, .int 1 (by decide), .null, by simp⟩
  have hroot : Json.Short Text.maxDigits (.table sampleRoot) := by
    refine .table _ ?_
    simp only [sampleRoot, List.forall_mem_cons]
    refine ⟨.str _, .bool _, .list _ ?_, by simp⟩
    simp only [List.forall_mem_cons]
    exact ⟨hscope, .int 7 (by decide), by simp⟩
  have hshort : Json.Short Text.maxDigits sampleFaulty := by
    refine .table _ ?_
    simp only [List.forall_mem_cons]
    exact ⟨hroot, .str _, by simp⟩
  refine ⟨hshort, ((ofDocument_refuses_first_fault hshort).2 _).mpr ?_⟩
  have hnodes : nodesOf (.table sampleRoot) = [.table sampleRoot] ++ sampleScope :: [.int 7] := by
    have hscopeNodes : nodesOf sampleScope = [sampleScope] := by
      rw [nodesOf_eq]
      rfl
    have hnumberNodes : nodesOf (.int 7) = [.int 7] := by
      rw [nodesOf_eq]
      rfl
    have hchildren : childNodes (.table sampleRoot) = [sampleScope, .int 7] := rfl
    rw [nodesOf_eq, hchildren]
    simp [hscopeNodes, hnumberNodes]
  have hfits : NodeFits (.table sampleRoot) := by
    have hkind : HasKind sampleRoot .function := rfl
    refine .intro hkind ?_ ?_ ?_
    · intro name hname v hget
      rcases List.mem_pair.mp hname with rfl | rfl
      · cases hget
        exact Or.inr ⟨true, rfl⟩
      · cases hget
    · intro name hname v hgiven
      simp only [attributeNames, List.mem_cons, List.not_mem_nil, or_false] at hname
      rcases hname with rfl | rfl | rfl | rfl <;> cases hgiven
    · intro v hget
      cases hget
      exact ⟨_, rfl⟩
  have hfault : NodeFault 1 sampleScope (.badAttribute "static" .scope "bool" "int") := by
    have hkind : HasKind (fieldsOf sampleScope) .scope := rfl
    have hnames : attributeNames = ["abstract"] ++ "static" :: ["declaration", "docComment"] := rfl
    refine .badAttribute hkind ?_ hnames ?_ rfl rfl
    · intro name hname v hget
      rcases List.mem_pair.mp hname with rfl | rfl <;> cases hget
    · intro name hname v hgiven
      rw [List.mem_singleton.mp hname] at hgiven
      cases hgiven
  exact ⟨_, rfl, .badNode ⟨_, rfl, rfl, rfl, by decide⟩ hnodes (by simpa using hfits) hfault⟩

end Dump

end TreeLint

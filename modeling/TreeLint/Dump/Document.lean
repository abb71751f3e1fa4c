import TreeLint.Tree.Builder

/-!
# Tree dumps as documents

A dump is a document with the path of the analysed unit and its root node.  A node is a table with a
kind and, where needed, an image, lines, a few attributes and a list of children.  The nodes are
taken from the document in pre-order, from a worklist, and the first fault met ends the reading.

Faults of a node are looked for in a fixed order: it has to be a table, then come the kind, the
lines, the attributes, and last the list of children.  A kind or an image that is no text is
written out as one, which fails on an integer with too many digits; no document that was read from
a text has one.
-/

namespace TreeLint.Dump

/-- What is wrong with a document. -/
inductive SchemaFault where
  | noRoot
  | badFile
  | notATable (typeName : String)
  | unknownKind (tag : Value)
  | badLines (kind : Kind)
  | badAttribute (name : String) (kind : Kind) (wanted got : String)
  | badChildren (index : Nat)
  /-- A kind or an image that cannot be written out as a text. -/
  | unwritable
  /-- A child before its parent, which a worklist never holds. -/
  | misplaced (error : BuildError)
  deriving Repr

def SchemaFault.message : SchemaFault → String
  | .noRoot => "Tree dump must be an object with a 'root' node."
  | .badFile => "'file' must be a non-empty string."
  | .notATable typeName => "Tree node must be an object, got " ++ typeName ++ "."
  | .unknownKind tag =>
    match tag.inner with
    | .ok text => "Unknown node kind " ++ text ++ "."
    | .error fault => fault.message
  | .badLines kind => "Line numbers of " ++ kind.tag ++ " node must be integers."
  | .badAttribute name kind wanted got =>
    "'" ++ name ++ "' of " ++ kind.tag ++ " node must be " ++ wanted ++ ", got " ++ got ++ "."
  | .badChildren index => "'children' of node " ++ toString index ++ " must be a list."
  | .unwritable => Text.Unwritable.tooManyDigits.message
  | .misplaced error => error.message

/-- The types that an attribute of a node can be asked to have. -/
inductive AttributeType where
  | flag
  | text
  deriving DecidableEq, Repr

def AttributeType.name : AttributeType → String
  | .flag => "bool"
  | .text => "str"

def AttributeType.accepts : AttributeType → Value → Bool
  | .flag, .bool _ => true
  | .text, .str _ => true
  | _, _ => false

/-- The attributes that are taken from a node, with their types. -/
def attributeTypes : List (String × AttributeType) :=
  [("abstract", .flag), ("static", .flag), ("declaration", .flag), ("docComment", .text)]

def kindOf (fields : Fields) : Except SchemaFault Kind :=
  let tag := (fields.get? "kind").getD .null
  match tag.shown with
  | .error _ => .error .unwritable
  | .ok text =>
    match Kind.ofTag? text with
    | some kind => .ok kind
    | none => .error (.unknownKind tag)

def linesOf (kind : Kind) (fields : Fields) : Except SchemaFault (Line × Line) :=
  let first := (fields.get? "beginLine").getD (.int 0)
  let last := (fields.get? "endLine").getD first
  match Line.ofValue? first, Line.ofValue? last with
  | some beginLine, some endLine => .ok (beginLine, endLine)
  | _, _ => .error (.badLines kind)

/-- The attributes that are there and not null. -/
def givenAttributes (fields : Fields) : List (String × AttributeType × Value) :=
  attributeTypes.filterMap fun (name, type) =>
    match fields.get? name with
    | none | some .null => none
    | some v => some (name, type, v)

def attributesOf (kind : Kind) (fields : Fields) : Except SchemaFault Fields :=
  (givenAttributes fields).mapM fun (name, type, v) =>
    if type.accepts v then .ok (name, v)
    else .error (.badAttribute name kind type.name v.typeName)

def imageOf (fields : Fields) : Except SchemaFault String :=
  match fields.get? "image" with
  | none | some .null => .ok ""
  | some v => v.shown.mapError fun _ => .unwritable

/-- The node that a table describes, without its place in the tree. -/
def entryOf (fields : Fields) : Except SchemaFault Entry := do
  let kind ← kindOf fields
  let (beginLine, endLine) ← linesOf kind fields
  let attributes ← attributesOf kind fields
  let image ← imageOf fields
  return ⟨kind, .str image, beginLine, some endLine, attributes⟩

/-- The children of the node that was added at `index`. -/
def childrenOf (index : Nat) (fields : Fields) : Except SchemaFault (List Value) :=
  match fields.get? "children" with
  | none => .ok []
  | some (.list children) => .ok children
  | some _ => .error (.badChildren index)

/-! ## The worklist -/

/-- A document node still to be added, and the index of the node it goes below. -/
abbrev Task := Value × Option Nat

noncomputable def workSize : List Task → Nat
  | [] => 0
  | task :: rest => sizeOf task.1 + workSize rest

theorem workSize_append (tasks rest : List Task) :
    workSize (tasks ++ rest) = workSize tasks + workSize rest := by
  induction tasks with
  | nil => simp [workSize]
  | cons task tasks ih =>
    rw [List.cons_append, workSize, workSize, ih]
    omega

theorem sizeOf_get?_lt {fields : Fields} {name : String} {v : Value}
    (h : fields.get? name = some v) : sizeOf v < sizeOf fields := by
  obtain ⟨field, hfind, rfl⟩ := Option.map_eq_some_iff.1 h
  have hmem := List.mem_of_find?_eq_some hfind
  have hlist := List.sizeOf_lt_of_mem hmem
  have hpair : sizeOf field.2 < sizeOf field := by
    obtain ⟨name, v⟩ := field
    change sizeOf v < sizeOf (name, v)
    rw [Prod.mk.sizeOf_spec]
    omega
  omega

theorem workSize_children_le (children : List Value) (index : Option Nat) :
    workSize (children.map (·, index)) ≤ sizeOf children := by
  induction children with
  | nil => simp [workSize]
  | cons v rest ih =>
    rw [List.map_cons, workSize, List.cons.sizeOf_spec]
    change sizeOf v + workSize (rest.map (·, index)) ≤ 1 + sizeOf v + sizeOf rest
    omega

theorem workSize_childrenOf_lt {index : Nat} {fields : Fields} {children : List Value}
    (h : childrenOf index fields = .ok children) (rest : List Task) :
    workSize (children.map (·, some index) ++ rest)
      < workSize ((Value.table fields, none) :: rest) := by
  have hsplit := workSize_append (children.map (·, some index)) rest
  have hle := workSize_children_le children (some index)
  have hcons : workSize ((Value.table fields, none) :: rest)
      = 1 + sizeOf fields + workSize rest := by
    rw [workSize, Value.table.sizeOf_spec]
  have hlt : sizeOf children < 1 + sizeOf fields := by
    unfold childrenOf at h
    split at h
    · cases h
      rw [List.nil.sizeOf_spec]
      cases fields with
      | nil => rw [List.nil.sizeOf_spec]; omega
      | cons field fields => rw [List.cons.sizeOf_spec]; omega
    · next found hget =>
      cases h
      have hvalue := sizeOf_get?_lt hget
      rw [Value.list.sizeOf_spec] at hvalue
      omega
    · cases h
  omega

/-- Adds the nodes of a worklist and everything below them. -/
def addAll (b : Builder) (tasks : List Task) : Except SchemaFault Builder :=
  match tasks with
  | [] => .ok b
  | (.table fields, parent) :: rest =>
    match entryOf fields with
    | .error fault => .error fault
    | .ok entry =>
      match b.add entry (parent.map Int.ofNat) with
      | .error error => .error (.misplaced error)
      | .ok b' =>
        match _h : childrenOf b.size fields with
        | .error fault => .error fault
        | .ok children => addAll b' (children.map (·, some b.size) ++ rest)
  | (v, _) :: _ => .error (.notATable v.typeName)
termination_by workSize tasks
decreasing_by
  exact workSize_childrenOf_lt _h rest

/-- The path and the root of a document. -/
def headerOf (path : String) (document : Value) : Except SchemaFault (String × Value) :=
  match document with
  | .table fields =>
    match Fields.get? fields "root" with
    | some (.table root) =>
      match (Fields.get? fields "file").getD (.str path) with
      | .str file => if file.isEmpty then .error .badFile else .ok (file, .table root)
      | _ => .error .badFile
    | _ => .error .noRoot
  | _ => .error .noRoot

end TreeLint.Dump

import TreeLint.Proofs.CheckOutcome
import TreeLint.Proofs.SameShape

/-!
# Silencing the rule about parameters with a comment

The comment of a declaration is read twice: it may silence rules in the subtree of
the declaration, and it may exempt a method from the rule about parameters.  A
violation can also lie in that subtree although the rule was tried outside of it,
on a callable whose first parameter list is inside.  All the same, a comment that
silences the rule takes away the violations in the subtree and no others.
-/

namespace TreeLint

/-! ## Replacing a comment -/

namespace Fields

theorem get?_cons (name other : String) (v : Value) (fields : Fields) :
    get? ((other, v) :: fields) name = if other = name then some v else fields.get? name := by
  unfold get?
  by_cases h : other = name
  · rw [List.find?_cons_of_pos (by simpa using h), if_pos h]
    rfl
  · rw [List.find?_cons_of_neg (by simpa using h), if_neg h]

theorem get?_set (name other : String) (v : Value) (fields : Fields) :
    get? (set name v fields) other = if name = other then some v else fields.get? other := by
  induction fields with
  | nil => exact get?_cons other name v []
  | cons field fields ih =>
      obtain ⟨first, old⟩ := field
      unfold set
      by_cases hfirst : first = name
      · subst hfirst
        rw [if_pos rfl, get?_cons, get?_cons]
        split <;> rfl
      · rw [if_neg hfirst, get?_cons, get?_cons, ih]
        by_cases hname : name = other
        · subst hname
          rw [if_neg hfirst, if_pos rfl, if_pos rfl]
        · rw [if_neg hname, if_neg hname]

end Fields

/-- Arrays with the same links describe the same rooted tree. -/
theorem Linked.congr
    {nodes nodes' : Array Node} (linked : Linked nodes) (hsize : nodes'.size = nodes.size)
    (hparent : ∀ i (h : i < nodes.size) (h' : i < nodes'.size),
      nodes'[i].parent = nodes[i].parent)
    (hchildren : ∀ i (h : i < nodes.size) (h' : i < nodes'.size),
      nodes'[i].children = nodes[i].children) :
    Linked nodes' where
  parent_isSome i h hpos := by
    rw [hparent i (hsize ▸ h) h]
    exact linked.parent_isSome i (hsize ▸ h) hpos
  parent_lt i h p hp := by
    rw [hparent i (hsize ▸ h) h] at hp
    exact linked.parent_lt i (hsize ▸ h) p hp
  mem_children p h j := by
    rw [hchildren p (hsize ▸ h) h, linked.mem_children p (hsize ▸ h) j]
    constructor
    · rintro ⟨hj, hp⟩
      exact ⟨hsize ▸ hj, (hparent j hj _).trans hp⟩
    · rintro ⟨hj, hp⟩
      exact ⟨hsize ▸ hj, (hparent j _ hj).symm.trans hp⟩
  ascending p h := by
    rw [hchildren p (hsize ▸ h) h]
    exact linked.ascending p (hsize ▸ h)

def Node.recomment (node : Node) (comment : String) : Node :=
  { node with attributes := Fields.set "docComment" (.str comment) node.attributes }

namespace Tree

variable {t : Tree}

/-- The tree with another comment in front of the declaration `d`. -/
def recomment (t : Tree) (d : t.Pos) (comment : String) : Tree where
  file := t.file
  nodes := t.nodes.modify d fun node => node.recomment comment
  nonempty := by simpa using t.nonempty
  linked := by
    refine t.linked.congr (by simp) ?_ ?_ <;>
    · intro i h h'
      rw [Array.getElem_modify]
      split <;> rfl

theorem size_recomment (d : t.Pos) (comment : String) :
    t.size = (t.recomment d comment).size :=
  Array.size_modify.symm

theorem node_recomment (d i : t.Pos) (comment : String) :
    (t.recomment d comment).node (i.cast (size_recomment d comment)) =
      if d = i then (t.node i).recomment comment else t.node i := by
  simp only [node, recomment, Fin.getElem_fin, Array.getElem_modify, Fin.ext_iff]
  rfl

theorem attribute?_recomment (d i : t.Pos) (comment name : String) :
    (t.recomment d comment).attribute? name (i.cast (size_recomment d comment)) =
      if d = i ∧ "docComment" = name then some (.str comment) else t.attribute? name i := by
  unfold attribute?
  rw [node_recomment]
  by_cases hi : d = i
  · rw [if_pos hi, Node.recomment, Fields.get?_set]
    simp only [hi, true_and]
  · rw [if_neg hi, if_neg fun h => hi h.1]

theorem image_recomment (d i : t.Pos) (comment : String) :
    (t.recomment d comment).image (i.cast (size_recomment d comment)) = t.image i := by
  unfold image
  rw [node_recomment]
  split <;> rfl

theorem sameCode_recomment (d : t.Pos) (comment : String) :
    SameCode t (t.recomment d comment) := by
  refine ⟨⟨size_recomment d comment, ?_, ?_, ?_⟩, ?_, ?_, ?_⟩
  · intro i
    unfold kind
    rw [node_recomment]
    split <;> rfl
  · intro i
    rw [node_recomment]
    split <;> rfl
  · intro i
    rw [node_recomment]
    split <;> rfl
  · intro i _
    exact image_recomment d i comment
  · intro i name _
    unfold namesFunction
    rw [image_recomment]
  · intro i
    unfold isStatic flag
    rw [attribute?_recomment, if_neg fun h => absurd h.2 (by decide)]

abbrev kept (d : t.Pos) (comment : String) : t.Pos → (t.recomment d comment).Pos :=
  (sameCode_recomment d comment).move

theorem node_kept_of_ne
    {d i : t.Pos} (comment : String) (hne : d ≠ i) :
    (t.recomment d comment).node (kept d comment i) = t.node i :=
  (node_recomment d i comment).trans (if_neg hne)

theorem docComment_kept_self (d : t.Pos) (comment : String) :
    (t.recomment d comment).docComment (kept d comment d) = .ok comment := by
  have hattribute :
      (t.recomment d comment).attribute? "docComment" (kept d comment d) = some (.str comment) :=
    (attribute?_recomment d d comment "docComment").trans (if_pos ⟨rfl, rfl⟩)
  unfold docComment
  rw [hattribute]
  by_cases hempty : comment = ""
  · subst hempty
    rfl
  · simp [Value.truthy, hempty]

theorem image_kept (d i : t.Pos) (comment : String) :
    (t.recomment d comment).image (kept d comment i) = t.image i :=
  image_recomment d i comment

/-- The new comment can be read, and the others are as they were. -/
theorem Readable.recomment
    (hread : t.Readable) (d : t.Pos) (comment : String) : (t.recomment d comment).Readable := by
  intro e' hkind
  obtain ⟨e, rfl⟩ := (sameCode_recomment d comment).exists_move_eq e'
  by_cases hde : d = e
  · subst hde
    exact ⟨comment, docComment_kept_self d comment⟩
  · have hnode := node_kept_of_ne comment hde
    unfold kind at hkind
    unfold docComment attribute?
    rw [hnode] at hkind ⊢
    exact hread e hkind

theorem not_mem_lineage_iff {d i : t.Pos} :
    d ∉ t.lineage i ↔ i ≠ d ∧ i ∉ t.descendants d := by
  rw [mem_lineage_iff, mem_descendants_iff, not_or, ne_comm]

end Tree

/-! ## Suppression after the edit -/

namespace Suppression

open TreeLint.Tree

variable {t : Tree} {d : t.Pos} {comment rule : String}

theorem silences_kept_iff
    {e : t.Pos} (hne : d ≠ e) :
    Silences (t.recomment d comment) rule (kept d comment e) ↔ Silences t rule e := by
  have hnode := node_kept_of_ne comment hne
  unfold Silences docComment attribute? kind
  rw [hnode]

/-- The comment takes the rule away from the subtree of its declaration. -/
theorem suppressed_kept_iff
    (hkind : (t.kind d).isDeclaration = true)
    (hcomment : ∃ directive ∈ Directive.parse comment, directive.suppresses rule = true)
    (i : t.Pos) :
    Suppressed (t.recomment d comment) rule (kept d comment i) ↔
      d ∈ t.lineage i ∨ Suppressed t rule i := by
  have hself : Silences (t.recomment d comment) rule (kept d comment d) := by
    refine ⟨?_, ?_⟩
    · rw [(sameCode_recomment d comment).kind_move]
      exact hkind
    · exact ⟨comment, docComment_kept_self d comment, hcomment⟩
  unfold Suppressed
  rw [(sameCode_recomment d comment).lineage_move]
  constructor
  · rintro ⟨e', he', hsilences⟩
    obtain ⟨e, he, rfl⟩ := List.mem_map.mp he'
    by_cases hde : d = e
    · exact Or.inl (hde ▸ he)
    · exact Or.inr ⟨e, he, (silences_kept_iff hde).mp hsilences⟩
  · rintro (hd | ⟨e, he, hsilences⟩)
    · exact ⟨kept d comment d, List.mem_map_of_mem hd, hself⟩
    · refine ⟨kept d comment e, List.mem_map_of_mem he, ?_⟩
      by_cases hde : d = e
      · exact hde ▸ hself
      · exact (silences_kept_iff hde).mpr hsilences

end Suppression

/-! ## The run after the edit -/

namespace Dispatch

def Record.violation? : Record → Option Violation
  | .violation v => some v
  | .error _ => none

theorem violations_ofEvents (events : List Event) :
    (Batch.ofEvents events).violations = (records events).filterMap Record.violation? := by
  unfold records
  rw [List.filterMap_filterMap]
  refine List.filterMap_congr fun event _ => ?_
  cases event <;> rfl

theorem violations_run
    {rules : List Rule} {t : Tree} {events : List Event} (h : run rules t = .ok events) :
    (Batch.ofEvents events).violations =
      t.walk.flatMap fun i =>
        rules.flatMap fun rule => (contribution t i rule).filterMap Record.violation? := by
  rw [violations_ofEvents, records_eq_flatMap h, List.filterMap_flatMap]
  simp only [List.filterMap_flatMap]

/-- The violations of a pair are those that its check found and that are not suppressed. -/
theorem violations_contribution (t : Tree) (i : t.Pos) (rule : Rule) :
    (contribution t i rule).filterMap Record.violation? =
      if t.kind i ∉ rule.kinds ∨ Suppression.Suppressed t rule.name i then []
      else
        match rule.check t i with
        | .error _ => []
        | .ok found => found.filter fun v => ¬ Suppression.Suppressed v.tree rule.name v.node := by
  unfold contribution
  split
  · rfl
  · cases rule.check t i with
    | error fault =>
        simp only
        cases fault.message <;> rfl
    | ok found =>
        simp only [List.filterMap_map]
        exact List.filterMap_some

/-- A violation of a run was found by a rule that is not silenced where it was found. -/
theorem mem_violations_run
    {rules : List Rule} {t : Tree} {events : List Event} {v : Violation}
    (h : run rules t = .ok events) (hv : v ∈ (Batch.ofEvents events).violations) :
    ∃ rule ∈ rules, ∃ i found,
      rule.check t i = .ok found ∧ v ∈ found ∧
        ¬ Suppression.Suppressed v.tree rule.name v.node := by
  rw [violations_run h] at hv
  obtain ⟨i, _, hnode⟩ := List.mem_flatMap.mp hv
  obtain ⟨rule, hrule, hpair⟩ := List.mem_flatMap.mp hnode
  refine ⟨rule, hrule, i, ?_⟩
  rw [violations_contribution] at hpair
  split at hpair
  · cases hpair
  · cases hcheck : rule.check t i with
    | error fault => simp [hcheck] at hpair
    | ok found =>
        rw [hcheck] at hpair
        obtain ⟨hmem, hfree⟩ := List.mem_filter.mp hpair
        exact ⟨found, rfl, hmem, by simpa using hfree⟩

end Dispatch

namespace UnusedParameter

open TreeLint.Tree TreeLint.Suppression

variable {t : Tree}

/-- The declarators on which trying the rule at a node gives violations that are kept. -/
def flagged (t : Tree) (i : t.Pos) : List t.Pos :=
  if t.kind i ∉ rule.kinds ∨ Suppressed t rule.name i then []
  else
    match reported t i with
    | .error _ => []
    | .ok found =>
      if found.all fun x => (t.image x).isWritable then
        found.filter fun x => ¬ Suppressed t rule.name x
      else []

theorem violations_contribution_eq (i : t.Pos) :
    (Dispatch.contribution t i rule).filterMap Dispatch.Record.violation? =
      (flagged t i).map (violationAt t) := by
  rw [Dispatch.violations_contribution]
  unfold flagged
  split
  · rfl
  · have hcheck : rule.check t i = check t i := rfl
    rw [hcheck, check_eq]
    cases reported t i with
    | error fault => rfl
    | ok found =>
        simp only [Except.bind]
        cases found.all fun x => (t.image x).isWritable with
        | false => rfl
        | true => exact List.filter_map

theorem violations_eq_map_flagged
    {events : List Event} (h : Dispatch.run [rule] t = .ok events) :
    (Batch.ofEvents events).violations = (t.walk.flatMap (flagged t)).map (violationAt t) := by
  rw [Dispatch.violations_run h, List.map_flatMap]
  refine List.flatMap_congr fun i _ => ?_
  rw [List.flatMap_singleton]
  exact violations_contribution_eq i

theorem mem_ancestors_of_mem_flagged
    {i x : t.Pos} (hx : x ∈ flagged t i) : i ∈ t.ancestors x := by
  have hends := ends_reported i
  unfold flagged at hx
  split at hx
  · cases hx
  · cases hreported : reported t i with
    | error fault =>
        rw [hreported] at hx
        cases hx
    | ok found =>
        rw [hreported] at hx hends
        simp only at hx
        split at hx
        · exact hends x (List.mem_filter.mp hx).1
        · cases hx

section Edit

variable {d : t.Pos} {comment : String}

theorem reported_kept
    {i : t.Pos} (hne : d ≠ i) :
    reported (t.recomment d comment) (kept d comment i) =
      (reported t i).map fun found => found.map (kept d comment) := by
  have hnode := node_kept_of_ne comment hne
  have hexempt : isExempt (t.recomment d comment) (kept d comment i) = isExempt t i := by
    unfold isExempt isAbstract isOwnDeclaration flag docComment attribute? kind image
    rw [hnode]
  exact reported_move (sameCode_recomment d comment) hexempt

variable (hkind : (t.kind d).isDeclaration = true)
  (hcomment : ∃ directive ∈ Directive.parse comment,
    directive.suppresses rule.name = true)
include hkind hcomment

theorem flagged_kept (i : t.Pos) :
    flagged (t.recomment d comment) (kept d comment i) =
      ((flagged t i).filter fun x => d ∉ t.lineage x).map (kept d comment) := by
  have hsuppressed := suppressed_kept_iff hkind hcomment
  by_cases hd : d ∈ t.lineage i
  · -- The rule is not tried here any more, and all that it found here was below `d`.
    have hinside : (flagged t i).filter (fun x => d ∉ t.lineage x) = [] := by
      rw [List.filter_eq_nil_iff]
      intro x hx
      have hbelow := mem_lineage_iff.mpr (Or.inr (mem_ancestors_of_mem_flagged hx))
      simpa using mem_lineage_trans hd hbelow
    rw [hinside, flagged, if_pos (Or.inr ((hsuppressed i).mpr (Or.inl hd)))]
    rfl
  · have hne : d ≠ i := fun heq => hd (heq ▸ self_mem_lineage d)
    have hhere : Suppressed (t.recomment d comment) rule.name (kept d comment i) ↔
        Suppressed t rule.name i := by
      rw [hsuppressed, or_iff_right hd]
    unfold flagged
    rw [(sameCode_recomment d comment).kind_move, reported_kept hne]
    simp only [hhere]
    split
    · rfl
    · cases reported t i with
      | error fault => rfl
      | ok found =>
          simp only [Except.map, List.all_map, Function.comp_def, image_kept]
          split
          · simp only [List.filter_map, List.filter_filter]
            congr 1
            refine List.filter_congr fun x _ => ?_
            rw [Bool.eq_iff_iff]
            simp [Function.comp, hsuppressed]
          · rfl

end Edit

/-- Let the comments of a tree be such that they can be read, and let the comment of a declaration
be replaced by one that silences the rule about parameters.  Then a run gives the same violations
as before, in the same order, except for those on the declaration itself and on the nodes below it.
-/
theorem recomment_drops_subtree
    (t : Tree) (d : t.Pos) (comment : String)
    (hread : t.Readable)
    (hkind : (t.kind d).isDeclaration = true)
    (hcomment : ∃ directive ∈ Directive.parse comment, directive.suppresses rule.name = true) :
    ∃ before after,
      Dispatch.run [rule] t = .ok before ∧
        Dispatch.run [rule] (t.recomment d comment) = .ok after ∧
        ∃ found : List t.Pos,
          (Batch.ofEvents before).violations = found.map (violationAt t) ∧
            (Batch.ofEvents after).violations =
              (found.filter fun x => x ≠ d ∧ x ∉ t.descendants d).map fun x =>
                violationAt (t.recomment d comment) (x.cast (size_recomment d comment)) := by
  have hrule : ∀ r ∈ [rule], r ∈ Catalog.rules := fun _ hr => hr
  obtain ⟨before, hbefore⟩ := Dispatch.exists_run (Catalog.legible hrule hread)
  obtain ⟨after, hafter⟩ :=
    Dispatch.exists_run (Catalog.legible hrule (hread.recomment d comment))
  refine ⟨before, after, hbefore, hafter, t.walk.flatMap (flagged t),
    violations_eq_map_flagged hbefore, ?_⟩
  have hfound : (t.recomment d comment).walk.flatMap (flagged (t.recomment d comment)) =
      ((t.walk.flatMap (flagged t)).filter fun x => d ∉ t.lineage x).map (kept d comment) := by
    rw [(sameCode_recomment d comment).walk_move, List.flatMap_map, List.filter_flatMap,
      List.map_flatMap]
    exact List.flatMap_congr fun i _ => flagged_kept hkind hcomment i
  rw [violations_eq_map_flagged hafter, hfound, List.map_map]
  simp only [not_mem_lineage_iff]
  rfl

/-- A function around a method, which holds the first parameter list of both, and a second list. -/
def sampleNested : Tree :=
  ((((((Tree.single "nested.php" { kind := .function, image := .str "f" }).extend 0
    (by decide) { kind := .method, image := .str "m" }).extend 1
    (by decide) { kind := .formalParameters }).extend 2
    (by decide) { kind := .variableDeclarator, image := .str "$x" }).extend 0
    (by decide) { kind := .function, image := .str "g" }).extend 4
    (by decide) { kind := .formalParameters }).extend 5
    (by decide) { kind := .variableDeclarator, image := .str "$y" }

def sampleMethod : sampleNested.Pos := ⟨1, by decide⟩

def sampleComment : String := "@SuppressWarnings(\"UnusedFormalParameter\")"

/-- The numbers of the nodes with violations, in order. -/
def places (events : List Event) : List Nat :=
  (Batch.ofEvents events).violations.map fun v => v.node.val

theorem recomment_drops_subtree_sample :
    sampleNested.Readable ∧
      (sampleNested.kind sampleMethod).isDeclaration = true ∧
      (∃ directive ∈ Directive.parse sampleComment, directive.suppresses rule.name = true) ∧
      ∃ before after,
        Dispatch.run [rule] sampleNested = .ok before ∧
          Dispatch.run [rule] (sampleNested.recomment sampleMethod sampleComment) = .ok after ∧
          places before = [3, 3, 6] ∧ places after = [6] := by
  have hread : sampleNested.Readable := readable_of_forall_isOk (by decide +kernel)
  have hkind : (sampleNested.kind sampleMethod).isDeclaration = true := by decide
  have hcomment :
      ∃ directive ∈ Directive.parse sampleComment, directive.suppresses rule.name = true := by
    decide +kernel
  obtain ⟨before, after, hbefore, hafter, found, hfound, hleft⟩ :=
    recomment_drops_subtree sampleNested sampleMethod sampleComment hread hkind hcomment
  have hplaces : places before = [3, 3, 6] := by
    unfold places
    rw [violations_eq_map_flagged hbefore, List.map_map]
    decide +kernel
  refine ⟨hread, hkind, hcomment, before, after, hbefore, hafter, hplaces, ?_⟩
  have hfound' : found = [⟨3, by decide⟩, ⟨3, by decide⟩, ⟨6, by decide⟩] := by
    apply List.map_injective_iff.mpr Fin.val_injective
    rw [places, hfound, List.map_map] at hplaces
    exact hplaces
  rw [places, hleft, hfound']
  decide +kernel

end UnusedParameter

end TreeLint

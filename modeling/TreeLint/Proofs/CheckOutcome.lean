import TreeLint.Catalog
import TreeLint.Proofs.DispatchRun
import TreeLint.Proofs.UnusedParameters
import TreeLint.Report.Basic

/-!
# How a check ends

The check of a callable goes through several scans, each of which can fail.  What
a scan can do is said once and for all trees: it ends with declarators that lie
below the callable, or it fails on an image that is no text.  A step to a parent
or to a first child never fails, since it is taken only from a node that has a
parent, and a parent has its children.

So no check depends on its tree being complete: a variable at the root, an access
without anything around it, and an index expression at the root are all answered.
What a check does depend on are the values in its tree: an image that is no text
can make it fail, and so can an integer that is too long to be written out, in a
comment or in the name of a parameter.
-/

namespace TreeLint

/-- A computation ends with a result that `P` holds of, or with an error that `F` holds of. -/
def Ends {ε α : Type} (P : α → Prop) (F : ε → Prop) : Except ε α → Prop
  | .ok a => P a
  | .error error => F error

section Ends

variable {ε α β : Type} {P : α → Prop} {Q : β → Prop} {F : ε → Prop}

theorem Ends.bind
    {x : Except ε α} {next : α → Except ε β}
    (hx : Ends P F x) (hnext : ∀ a, P a → Ends Q F (next a)) :
    Ends Q F (x >>= next) := by
  cases x with
  | ok a => exact hnext a hx
  | error error => exact hx

theorem Ends.map
    {x : Except ε α} {f : α → β}
    (hx : Ends P F x) (hf : ∀ a, P a → Q (f a)) :
    Ends Q F (x.map f) := by
  cases x with
  | ok a => exact hf a hx
  | error error => exact hx

theorem Ends.mapError
    {ε' : Type} {F' : ε' → Prop} {x : Except ε α} {wrap : ε → ε'}
    (hx : Ends P F x) (hwrap : ∀ error, F error → F' (wrap error)) :
    Ends P F' (x.mapError wrap) := by
  cases x with
  | ok a => exact hx
  | error error => exact hwrap error hx

theorem Ends.weaken
    {G : ε → Prop} {x : Except ε α} (hx : Ends P F x) (h : ∀ error, F error → G error) :
    Ends P G x := by
  cases x with
  | ok a => exact hx
  | error error => exact h error hx

theorem Ends.of_error
    {x : Except ε α} {error : ε} (hx : Ends P F x) (herror : x = .error error) :
    F error := by
  rw [herror] at hx
  exact hx

/-- What every round of a loop keeps holds after the loop. -/
theorem Ends.foldlM
    {f : α → β → Except ε α} {items : List β} {a : α}
    (ha : P a) (hround : ∀ a, P a → ∀ x ∈ items, Ends P F (f a x)) :
    Ends P F (items.foldlM f a) := by
  induction items generalizing a with
  | nil => exact ha
  | cons x items ih =>
      rw [List.foldlM_cons]
      refine (hround a ha x List.mem_cons_self).bind fun b hb => ?_
      exact ih hb fun c hc y hy => hround c hc y (List.mem_cons_of_mem x hy)

end Ends

theorem Tree.mem_ancestors_trans
    {t : Tree} {i j k : t.Pos}
    (hij : i ∈ t.ancestors j) (hjk : j ∈ t.ancestors k) :
    i ∈ t.ancestors k := by
  obtain ⟨p, hparent, hmem⟩ := Tree.mem_ancestors_iff.mp hjk
  have hup := Tree.mem_lineage_trans (Tree.mem_lineage_iff.mpr (Or.inr hij)) hmem
  exact Tree.mem_ancestors_iff.mpr ⟨p, hparent, hup⟩

/-- The check failed on an image, and on nothing else. -/
def Fault.IsImage (fault : Fault) : Prop := ∃ image, fault = .image image

/-- The check failed on a value in the tree: on an image, or on an integer that is too long to be
written out, be it in a comment or in the name that a message is about. -/
def Fault.IsValue (fault : Fault) : Prop :=
  fault.IsImage ∨ fault = .unwritable ∨ fault = .template .unwritable

theorem Fault.IsValue.exists_message
    {fault : Fault} (h : fault.IsValue) : ∃ text, fault.message = .ok text := by
  rcases h with ⟨image, rfl⟩ | rfl | rfl <;> exact ⟨_, rfl⟩

namespace UnusedParameter

open TreeLint.Tree

variable {t : Tree}

/-! ## The scans -/

/-- The pending parameters are declared below a callable. -/
def Below (t : Tree) (i : t.Pos) (pending : Pending t) : Prop :=
  ∀ entry ∈ pending, i ∈ t.ancestors entry.2

/-- A scan ends with parameters declared below `i`, if it does not fail on an image. -/
abbrev EndsBelow (t : Tree) (i : t.Pos) : Except ImageFault (Pending t) → Prop :=
  Ends (Below t i) fun _ => True

theorem endsBelow_of_key
    {i : t.Pos} {name : Value} {change : Value → Pending t}
    (h : Below t i (change name)) :
    EndsBelow t i ((Image.key name).map change) := by
  unfold Image.key
  split
  · exact h
  · trivial

theorem endsBelow_add
    {i d : t.Pos} {pending : Pending t}
    (hpending : Below t i pending) (hd : i ∈ t.ancestors d) :
    EndsBelow t i (pending.add d) := by
  apply endsBelow_of_key
  intro entry hentry
  split at hentry
  · exact hpending entry hentry
  · rcases List.mem_append.mp hentry with hold | hnew
    · exact hpending entry hold
    · rw [List.mem_singleton.mp hnew]
      exact hd

theorem endsBelow_discard
    {i : t.Pos} {pending : Pending t}
    (hpending : Below t i pending) (name : Value) :
    EndsBelow t i (pending.discard name) := by
  unfold Pending.discard
  split
  · exact hpending
  · apply endsBelow_of_key
    intro entry hentry
    exact hpending entry (List.mem_filter.mp hentry).1

theorem endsBelow_declared (i : t.Pos) : EndsBelow t i (declared t i) := by
  unfold declared
  split
  · intro entry hentry
    cases hentry
  · next list hlist =>
    have hbelow := mem_descendants_iff.mp (List.mem_of_find?_eq_some hlist)
    refine Ends.foldlM (fun entry hentry => by cases hentry) ?_
    intro pending hpending d hd
    have hinside := (mem_descendantsOfKind_iff.mp hd).1
    exact endsBelow_add hpending (mem_ancestors_trans hbelow hinside)

theorem endsBelow_strikeCompounds
    {i : t.Pos} {pending : Pending t} (hpending : Below t i pending) :
    EndsBelow t i (strikeCompounds t i pending) := by
  refine Ends.foldlM hpending fun pending hpending c _ => ?_
  refine Ends.foldlM hpending fun pending hpending e _ => ?_
  unfold strikeJoined
  split
  · exact endsBelow_discard hpending _
  · trivial

theorem endsBelow_strikeCall
    {i : t.Pos} {pending : Pending t} (hpending : Below t i pending) (call : t.Pos) :
    EndsBelow t i (strikeCall t pending call) := by
  unfold strikeCall
  split
  · next all compact _ _ =>
    have hkept : Below t i (if all then [] else pending) := by
      split
      · intro entry hentry
        cases hentry
      · exact hpending
    simp only
    split
    · refine Ends.foldlM hkept fun pending hpending l _ => ?_
      unfold strikeLiteral
      split
      · exact endsBelow_discard hpending _
      · trivial
    · exact hkept
  · trivial
  · trivial

theorem endsBelow_strikeCalls
    {i : t.Pos} {pending : Pending t} (hpending : Below t i pending) :
    EndsBelow t i (strikeCalls t i pending) :=
  Ends.foldlM hpending fun _ hpending call _ => endsBelow_strikeCall hpending call

theorem EndsBelow.image
    {i : t.Pos} {pass : Except ImageFault (Pending t)} (h : EndsBelow t i pass) :
    Ends (Below t i) Fault.IsImage (pass.mapError .image) :=
  Ends.mapError h fun image _ => ⟨image, rfl⟩

theorem ends_strikeVariables
    {i : t.Pos} {pending : Pending t} (hpending : Below t i pending) :
    Ends (Below t i) Fault.IsImage (strikeVariables t i pending) := by
  refine Ends.foldlM hpending fun pending hpending v _ => ?_
  -- Whether a variable is regular is answered at every node of every tree.
  obtain ⟨regular, hregular, _⟩ := exists_isRegularVariable v
  unfold strikeVariable
  rw [hregular]
  cases regular with
  | false => exact hpending
  | true => exact EndsBelow.image (endsBelow_discard hpending _)

theorem ends_remaining (i : t.Pos) :
    Ends (Below t i) Fault.IsImage (remaining t i) := by
  unfold remaining
  refine (EndsBelow.image (endsBelow_declared i)).bind fun _ hdeclared => ?_
  refine (ends_strikeVariables hdeclared).bind fun _ hvariables => ?_
  refine (EndsBelow.image (endsBelow_strikeCompounds hvariables)).bind fun _ hcompounds => ?_
  exact EndsBelow.image (endsBelow_strikeCalls hcompounds)

/-! ## The check -/

theorem ends_isExempt (i : t.Pos) :
    Ends (fun _ => True) Fault.IsValue (isExempt t i) := by
  unfold isExempt
  split
  · trivial
  split
  · trivial
  split
  · exact Or.inl ⟨_, rfl⟩
  split
  · trivial
  split
  · exact Or.inr (Or.inl rfl)
  · trivial

/-- What is reported at a node lies below it. -/
theorem ends_reported (i : t.Pos) :
    Ends (fun found => ∀ d ∈ found, i ∈ t.ancestors d) Fault.IsValue (reported t i) := by
  have hnone : ∀ d ∈ ([] : List t.Pos), i ∈ t.ancestors d := fun d hd => by cases hd
  unfold reported
  split
  · exact hnone
  · split
    · exact hnone
    · refine ((ends_remaining i).weaken fun _ h => Or.inl h).map fun pending hpending d hd => ?_
      obtain ⟨entry, hentry, rfl⟩ := List.mem_map.mp hd
      exact hpending entry hentry
    · next fault hfault => exact (ends_isExempt i).of_error hfault

theorem ends_check (i : t.Pos) :
    Ends (fun _ => True) Fault.IsValue (check t i) := by
  rw [check_eq]
  refine (ends_reported i).bind fun found _ => ?_
  split
  · trivial
  · exact Or.inr (Or.inr rfl)

end UnusedParameter

namespace Tree

variable {t : Tree}

end Tree

/-! ## Runs of the built-in rules -/

namespace Catalog

theorem exists_eq_violationAt
    {rule : Rule} {t : Tree} {i : t.Pos} {found : List Violation} {v : Violation}
    (hrule : rule ∈ rules)
    (hcheck : rule.check t i = .ok found)
    (hv : v ∈ found) :
    ∃ d, v = UnusedParameter.violationAt t d := by
  rw [List.mem_singleton.mp hrule] at hcheck
  obtain ⟨ds, -, rfl⟩ := UnusedParameter.exists_eq_map_violationAt hcheck
  obtain ⟨d, -, rfl⟩ := List.mem_map.mp hv
  exact ⟨d, rfl⟩

theorem exists_check_eq_ok
    {t : Tree} {rule : Rule}
    (hrule : rule ∈ rules) (htext : t.Textual) (hread : t.Readable) (i : t.Pos) :
    ∃ found, rule.check t i = .ok found := by
  rw [List.mem_singleton.mp hrule]
  exact UnusedParameter.exists_check_eq_ok htext hread.exists_docComment_of_method

/-- A run of built-in rules reaches its end on every tree whose comments can be read. -/
theorem legible
    {t : Tree} {chosen : List Rule} (hchosen : ∀ rule ∈ chosen, rule ∈ rules)
    (hread : t.Readable) : Dispatch.Legible chosen t where
  comments := hread
  violations := by
    intro rule hrule i found hcheck v hv
    obtain ⟨d, rfl⟩ := exists_eq_violationAt (hchosen rule hrule) hcheck hv
    exact hread
  faults := by
    intro rule hrule i fault hcheck
    rw [List.mem_singleton.mp (hchosen rule hrule)] at hcheck
    exact ((UnusedParameter.ends_check i).of_error hcheck).exists_message

end Catalog

namespace Dispatch

def Record.error? : Record → Option ProcessingError
  | .violation _ => none
  | .error found => some found

theorem errors_ofEvents (events : List Event) :
    (Batch.ofEvents events).errors = (records events).filterMap Record.error? := by
  unfold records
  rw [List.filterMap_filterMap]
  refine List.filterMap_congr fun event _ => ?_
  cases event <;> rfl

/-- Rules that do not break down leave no error behind. -/
theorem errors_run
    {rules : List Rule} {t : Tree} {events : List Event}
    (h : ∀ rule ∈ rules, ∀ i, ∃ found, rule.check t i = .ok found)
    (hrun : run rules t = .ok events) :
    (Batch.ofEvents events).errors = [] := by
  rw [errors_ofEvents, records_eq_flatMap hrun, List.filterMap_eq_nil_iff]
  intro record hrecord
  obtain ⟨i, _, hnode⟩ := List.mem_flatMap.mp hrecord
  obtain ⟨rule, hrule, hpair⟩ := List.mem_flatMap.mp hnode
  obtain ⟨found, hcheck⟩ := h rule hrule i
  unfold contribution at hpair
  rw [hcheck] at hpair
  split at hpair
  · cases hpair
  · obtain ⟨v, _, rfl⟩ := List.mem_map.mp hpair
    rfl

end Dispatch

end TreeLint

import Mathlib.Data.List.FinRange
import Mathlib.Data.List.Nodup
import TreeLint.Tree.Builder

/-!
# Histories of a builder

A builder is given one call after the other, good ones and bad ones in any
order.  A call that is refused leaves nothing behind, so that a history is worth
what its accepted calls are worth: they are the nodes, in the order of the
calls, each below the node that its call asked for.

The links of the finished tree agree after every history, since a builder
carries that fact from call to call.
-/

namespace TreeLint

/-- A node without the links to its children. -/
def Node.bare (node : Node) : Node := { node with children := [] }

theorem Node.bare_addChild (node : Node) (index : Nat) :
    (node.addChild index).bare = node.bare := rfl

theorem Entry.bare_toNode (entry : Entry) (parent : Option Nat) :
    (entry.toNode parent).bare = entry.toNode parent := rfl

theorem map_bare_modify (nodes : Array Node) (p index : Nat) :
    (nodes.modify p (·.addChild index)).toList.map Node.bare =
      nodes.toList.map Node.bare := by
  apply List.ext_getElem
  · simp
  · intro i hleft hright
    have hi : i < nodes.size := by simpa using hright
    simp only [List.getElem_map, Array.getElem_toList]
    rw [Array.getElem_modify]
    split
    · exact Node.bare_addChild _ _
    · rfl

namespace Builder

/-- A node to be added and the index of the node it is to go below. -/
structure Call where
  entry : Entry
  parent : Option Int

/-- Whether a call is good when `n` nodes are there: the first one is the root,
and every other one goes below a node that is there. -/
def Call.Fits (n : Nat) (call : Call) : Prop :=
  match call.parent with
  | none => n = 0
  | some p => 0 ≤ p ∧ p < n

/-- The node of a call, before it has children. -/
def Call.node (call : Call) : Node :=
  call.entry.toNode (call.parent.map Int.toNat)

/-- What a call leaves behind: the error when it is refused, and the builder. -/
def attempt (b : Builder) (call : Call) : Option BuildError × Builder :=
  match b.add call.entry call.parent with
  | .ok b' => (none, b')
  | .error error => (some error, b)

/-- The builder after some calls. -/
def attempts (b : Builder) : List Call → Builder
  | [] => b
  | call :: calls => attempts (b.attempt call).2 calls

/-- The calls that are not refused. -/
def accepted (b : Builder) : List Call → List Call
  | [] => []
  | call :: calls =>
    match b.attempt call with
    | (none, b') => call :: accepted b' calls
    | (some _, b') => accepted b' calls

/-- The nodes so far, without the links to their children. -/
def records (b : Builder) : List Node := b.nodes.toList.map Node.bare

theorem length_records (b : Builder) : b.records.length = b.size := by
  simp [records, size]

/-! ## One call -/

/-- A good call adds its node, and nothing but a link to the others. -/
theorem add_of_fits
    {b : Builder} {call : Call}
    (hfits : call.Fits b.size) :
    ∃ b', b.add call.entry call.parent = .ok b' ∧ b'.file = b.file ∧
      b'.records = b.records ++ [call.node] := by
  obtain ⟨entry, parent⟩ := call
  unfold Builder.add Call.node
  cases parent with
  | none =>
      have hnil : b.nodes = #[] := Array.size_eq_zero_iff.mp hfits
      simp [hnil, records, Entry.bare_toNode]
  | some p =>
      obtain ⟨hpos, hlt⟩ : 0 ≤ p ∧ p < b.size := hfits
      have hbound : 0 ≤ p ∧ p.toNat < b.nodes.size := by
        unfold size at hlt
        omega
      simp only [dif_pos hbound]
      refine ⟨_, rfl, rfl, ?_⟩
      simp only [records, appendBelow, Array.toList_push, List.map_append,
        map_bare_modify]
      rfl

theorem add_of_not_fits
    {b : Builder} {call : Call}
    (hfits : ¬ call.Fits b.size) :
    ∃ error, b.add call.entry call.parent = .error error := by
  obtain ⟨entry, parent⟩ := call
  unfold Builder.add
  cases parent with
  | none =>
      have hsize : b.nodes.size ≠ 0 := hfits
      have hempty : ¬ b.nodes.isEmpty = true := by
        simpa using hsize
      exact ⟨_, if_neg hempty⟩
  | some p =>
      have hbound : ¬ (0 ≤ p ∧ p.toNat < b.nodes.size) := by
        intro h
        apply hfits
        change 0 ≤ p ∧ p < (b.nodes.size : Int)
        omega
      exact ⟨_, dif_neg hbound⟩

/-- What a call can do. -/
theorem attempt_cases (b : Builder) (call : Call) :
    (call.Fits b.size ∧ ∃ b', b.attempt call = (none, b') ∧ b'.file = b.file ∧
        b'.records = b.records ++ [call.node]) ∨
      (¬ call.Fits b.size ∧ ∃ error, b.attempt call = (some error, b)) := by
  unfold attempt
  by_cases hfits : call.Fits b.size
  · obtain ⟨b', hadd, hfile, hrecords⟩ := add_of_fits hfits
    rw [hadd]
    exact Or.inl ⟨hfits, b', rfl, hfile, hrecords⟩
  · obtain ⟨error, hadd⟩ := add_of_not_fits hfits
    rw [hadd]
    exact Or.inr ⟨hfits, error, rfl⟩

theorem attempt_eq_none_iff (b : Builder) (call : Call) :
    (b.attempt call).1 = none ↔ call.Fits b.size := by
  rcases attempt_cases b call with ⟨hfits, b', hattempt, _, _⟩ | ⟨hfits, error, hattempt⟩
  · simp [hattempt, hfits]
  · simp [hattempt, hfits]

theorem attempt_refused
    {b : Builder} {call : Call} {error : BuildError}
    (h : (b.attempt call).1 = some error) :
    (b.attempt call).2 = b := by
  rcases attempt_cases b call with ⟨_, b', hattempt, _, _⟩ | ⟨_, error, hattempt⟩
  · simp [hattempt] at h
  · rw [hattempt]

/-! ## Many calls -/

/-- A history adds the nodes of its accepted calls, in their order. -/
theorem records_attempts (b : Builder) (calls : List Call) :
    (b.attempts calls).file = b.file ∧
      (b.attempts calls).records =
        b.records ++ (b.accepted calls).map Call.node := by
  induction calls generalizing b with
  | nil => exact ⟨rfl, (List.append_nil _).symm⟩
  | cons call calls ih =>
      rw [attempts, accepted]
      rcases attempt_cases b call with ⟨_, b', hattempt, hfile, hrecords⟩ | ⟨_, error, hattempt⟩
      · obtain ⟨hfile', hrecords'⟩ := ih b'
        simp only [hattempt]
        rw [hfile', hrecords', hfile, hrecords, List.map_cons, List.append_assoc]
        exact ⟨rfl, rfl⟩
      · simp only [hattempt]
        exact ih b

/-- The refused calls of a history can be left out. -/
theorem attempts_accepted (b : Builder) (calls : List Call) :
    b.attempts (b.accepted calls) = b.attempts calls := by
  induction calls generalizing b with
  | nil => rfl
  | cons call calls ih =>
      rw [accepted, attempts]
      rcases attempt_cases b call with ⟨_, b', hattempt, _, _⟩ | ⟨_, error, hattempt⟩
      · simp only [hattempt]
        rw [attempts, hattempt]
        exact ih b'
      · simp only [hattempt]
        exact ih b

theorem size_attempts_start (file : String) (calls : List Call) :
    ((start file).attempts calls).size = ((start file).accepted calls).length := by
  have hrecords := (records_attempts (start file) calls).2
  rw [← length_records, hrecords]
  simp [records, start]

end Builder

/-! ## The finished tree -/

namespace Tree

/-- The links of a tree agree: the first node alone has no parent, every other
one has a parent before it, the children of a node are those that have it as
their parent, in ascending order, and every node but the first is a child once. -/
structure LinksAgree (t : Tree) : Prop where
  root_only : ∀ i : t.Pos, (t.node i).parent = none ↔ i.val = 0
  parent_before : ∀ i : t.Pos, 0 < i.val →
    ∃ p, (t.node i).parent = some p ∧ p < i.val
  mem_children : ∀ (p : t.Pos) (j : Nat),
    j ∈ (t.node p).children ↔ ∃ h : j < t.size, (t.node ⟨j, h⟩).parent = some p.val
  ascending : ∀ p : t.Pos, (t.node p).children.Pairwise (· < ·)
  child_once : ∀ i : t.Pos,
    ((List.finRange t.size).flatMap fun p => (t.node p).children).count i.val =
      if i.val = 0 then 0 else 1

variable (t : Tree)

theorem parent_eq_none_iff (i : t.Pos) : (t.node i).parent = none ↔ i.val = 0 := by
  constructor
  · intro hnone
    by_contra hne
    have hsome := t.linked.parent_isSome i.val i.isLt (Nat.pos_of_ne_zero hne)
    change (t.node i).parent.isSome at hsome
    simp [hnone] at hsome
  · intro hzero
    cases hparent : (t.node i).parent with
    | none => rfl
    | some p =>
        have hlt := t.linked.parent_lt i.val i.isLt p hparent
        omega

/-- No index stands in the lists of two nodes, or twice in one. -/
theorem nodup_flatMap_children :
    ((List.finRange t.size).flatMap fun p => (t.node p).children).Nodup := by
  rw [List.nodup_flatMap]
  constructor
  · intro p _
    apply (t.linked.ascending p.val p.isLt).imp
    intro a b hlt
    exact Nat.ne_of_lt hlt
  · apply (List.nodup_finRange t.size).imp
    intro p q hne j hjp hjq
    obtain ⟨hj, hparentp⟩ := (t.linked.mem_children p.val p.isLt j).mp hjp
    obtain ⟨_, hparentq⟩ := (t.linked.mem_children q.val q.isLt j).mp hjq
    rw [hparentp] at hparentq
    exact hne (Fin.ext (Option.some.inj hparentq))

theorem mem_flatMap_children_iff (i : t.Pos) :
    i.val ∈ (List.finRange t.size).flatMap (fun p => (t.node p).children) ↔
      i.val ≠ 0 := by
  rw [List.mem_flatMap, Ne, ← parent_eq_none_iff]
  constructor
  · rintro ⟨p, _, hmem⟩ hnone
    obtain ⟨_, hparent⟩ := (t.linked.mem_children p.val p.isLt i.val).mp hmem
    change (t.node i).parent = some p.val at hparent
    simp [hnone] at hparent
  · intro hsome
    obtain ⟨p, hparent⟩ := Option.ne_none_iff_exists'.mp hsome
    refine ⟨⟨p, parent_bound hparent⟩, List.mem_finRange _, ?_⟩
    exact (t.linked.mem_children p (parent_bound hparent) i.val).mpr ⟨i.isLt, hparent⟩

theorem linksAgree : t.LinksAgree where
  root_only := t.parent_eq_none_iff
  parent_before i hpos := by
    have hsome : (t.node i).parent ≠ none := by
      rw [Ne, parent_eq_none_iff]
      omega
    obtain ⟨p, hparent⟩ := Option.ne_none_iff_exists'.mp hsome
    exact ⟨p, hparent, t.linked.parent_lt i.val i.isLt p hparent⟩
  mem_children p j := t.linked.mem_children p.val p.isLt j
  ascending p := t.linked.ascending p.val p.isLt
  child_once i := by
    split
    · next hzero =>
      apply List.count_eq_zero_of_not_mem
      intro hmem
      exact (t.mem_flatMap_children_iff i).mp hmem hzero
    · next hne =>
      exact List.count_eq_one_of_mem t.nodup_flatMap_children
        ((t.mem_flatMap_children_iff i).mpr hne)

end Tree

namespace Builder

theorem build_of_pos
    {b : Builder} (h : 0 < b.size) :
    ∃ t, b.build = .ok t ∧ t.file = b.file ∧ t.nodes = b.nodes :=
  ⟨_, dif_pos h, rfl, rfl⟩

/-- A call is refused unless it fits, and a refused call changes nothing.  Once
a call was accepted there is a tree, whose nodes are those of the accepted calls
and whose links agree. -/
theorem attempts_build_accepted_calls (file : String) (calls : List Call) :
    (∀ call, (((start file).attempts calls).attempt call).1 = none ↔
        call.Fits ((start file).accepted calls).length) ∧
      (∀ call error, (((start file).attempts calls).attempt call).1 = some error →
        (((start file).attempts calls).attempt call).2 = (start file).attempts calls) ∧
      (start file).attempts ((start file).accepted calls) =
        (start file).attempts calls ∧
      ((start file).accepted calls ≠ [] →
        ∃ t, ((start file).attempts calls).build = .ok t ∧ t.file = file ∧
          t.size = ((start file).accepted calls).length ∧
          t.nodes.toList.map Node.bare = ((start file).accepted calls).map Call.node ∧
          t.LinksAgree) := by
  have hsize := size_attempts_start file calls
  refine ⟨?_, fun _ _ => attempt_refused, attempts_accepted _ calls, ?_⟩
  · intro call
    rw [attempt_eq_none_iff, hsize]
  · intro hsome
    have hpos : 0 < ((start file).attempts calls).size := by
      rw [hsize]
      exact List.length_pos_of_ne_nil hsome
    obtain ⟨hfile, hrecords⟩ := records_attempts (start file) calls
    obtain ⟨t, hbuild, htfile, hnodes⟩ := build_of_pos hpos
    refine ⟨t, hbuild, htfile.trans hfile, ?_, ?_, t.linksAgree⟩
    · rw [← hsize, Tree.size, hnodes]
      rfl
    · rw [hnodes]
      exact hrecords

/-- Seven calls of which the first, fourth, sixth and seventh are good.  The last
two do not come in pre-order. -/
def sampleCalls : List Call :=
  [⟨{ kind := .function }, none⟩, ⟨{ kind := .method }, none⟩,
    ⟨{ kind := .literal }, some (-1)⟩, ⟨{ kind := .scope }, some 0⟩,
    ⟨{ kind := .literal }, some 2⟩, ⟨{ kind := .formalParameters }, some 0⟩,
    ⟨{ kind := .literal }, some 1⟩]

theorem attempts_build_accepted_calls_sample :
    ((start "a.php").accepted sampleCalls).length = 4 ∧
      ∃ t, ((start "a.php").attempts sampleCalls).build = .ok t ∧ t.size = 4 ∧
        t.LinksAgree := by
  have hlength : ((start "a.php").accepted sampleCalls).length = 4 := by decide
  have hsome : (start "a.php").accepted sampleCalls ≠ [] := by
    intro hnil
    rw [hnil] at hlength
    cases hlength
  obtain ⟨_, _, _, hbuild⟩ := attempts_build_accepted_calls "a.php" sampleCalls
  obtain ⟨t, ht, _, hsize, _, hlinks⟩ := hbuild hsome
  exact ⟨hlength, t, ht, hsize.trans hlength, hlinks⟩

end Builder

end TreeLint

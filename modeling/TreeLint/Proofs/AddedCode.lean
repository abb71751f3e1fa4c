import TreeLint.Proofs.GrownTrees
import TreeLint.Proofs.ParameterCounts
import TreeLint.Proofs.SameShape

/-!
# Code that is added

The check of a callable is run on a tree and on a grown one, side by side.  When
no parameter list and no declarator is new, both start with the same pending
parameters.  A scan of the grown tree meets the nodes that the other scan meets,
in the same order, and strikes out the same names at them; at a new node it can
only strike out more.  So what remains in the grown tree is part of what remains
in the other one.
-/

namespace TreeLint

/-! ## Two computations side by side -/

/-- When both computations end well, their results are related. -/
def Paired {ε α α' : Type} (R : α' → α → Prop) (x' : Except ε α') (x : Except ε α) : Prop :=
  ∀ a' a, x' = .ok a' → x = .ok a → R a' a

section Paired

variable {ε α α' β β' : Type} {R : α' → α → Prop} {S : β' → β → Prop}

theorem paired_ok {a' : α'} {a : α} (h : R a' a) :
    Paired R (Except.ok a' : Except ε α') (.ok a) := by
  intro b' b hb' hb
  cases hb'
  cases hb
  exact h

theorem paired_error (error : ε) (x : Except ε α) : Paired R (.error error) x := by
  intro a' a ha'
  cases ha'

theorem Paired.bind
    {x' : Except ε α'} {x : Except ε α} {next' : α' → Except ε β'} {next : α → Except ε β}
    (hx : Paired R x' x) (hnext : ∀ a' a, R a' a → Paired S (next' a') (next a)) :
    Paired S (x' >>= next') (x >>= next) := by
  intro b' b hb' hb
  cases x' with
  | error error => cases hb'
  | ok a' =>
      cases x with
      | error error => cases hb
      | ok a => exact hnext a' a (hx a' a rfl rfl) b' b hb' hb

theorem Paired.map
    {x' : Except ε α'} {x : Except ε α} {f' : α' → β'} {f : α → β}
    (hx : Paired R x' x) (hf : ∀ a' a, R a' a → S (f' a') (f a)) :
    Paired S (x'.map f') (x.map f) := by
  intro b' b hb' hb
  cases x' with
  | error error => cases hb'
  | ok a' =>
      cases x with
      | error error => cases hb
      | ok a =>
          cases hb'
          cases hb
          exact hf a' a (hx a' a rfl rfl)

theorem Paired.mapError
    {ε' : Type} {x' : Except ε α'} {x : Except ε α}
    (hx : Paired R x' x) (wrap : ε → ε') :
    Paired R (x'.mapError wrap) (x.mapError wrap) := by
  intro a' a ha' ha
  cases x' with
  | error error => cases ha'
  | ok b' =>
      cases x with
      | error error => cases ha
      | ok b =>
          cases ha'
          cases ha
          exact hx a' a rfl rfl

/-- A loop over more items stays related if each item that both loops have keeps the relation, and
so does every further item on its own. -/
theorem Paired.foldlM
    {γ γ' : Type} {f' : α' → γ' → Except ε α'} {f : α → γ → Except ε α}
    {move : γ → γ'} {items : List γ} {items' : List γ'}
    (hitems : (items.map move).Sublist items')
    (hboth : ∀ a' a x, R a' a → Paired R (f' a' (move x)) (f a x))
    (hmore : ∀ a' a y, R a' a → Ends (R · a) (fun _ => True) (f' a' y))
    {a' : α'} {a : α} (ha : R a' a) :
    Paired R (items'.foldlM f' a') (items.foldlM f a) := by
  -- The induction is on how the one list lies in the other: an item is met by both or by one.
  generalize hmoved : items.map move = moved at hitems
  induction hitems generalizing items a' a with
  | slnil =>
      rw [List.map_eq_nil_iff] at hmoved
      rw [hmoved]
      exact paired_ok ha
  | cons y _ ih =>
      rw [List.foldlM_cons]
      have hy := hmore a' a y ha
      cases hstep : f' a' y with
      | error error => exact paired_error error _
      | ok b' =>
          rw [hstep] at hy
          exact ih hy hmoved
  | cons_cons y _ ih =>
      obtain ⟨x, rest, rfl, rfl, hrest⟩ := List.map_eq_cons_iff.mp hmoved
      rw [List.foldlM_cons, List.foldlM_cons]
      exact (hboth a' a x ha).bind fun b' b hb => ih hb hrest

end Paired

namespace UnusedParameter

open TreeLint.Tree

/-! ## Scans of a tree and of a grown one -/

section Growth

variable {t t' : Tree} (h : Grows t t')

def moveEntry (entry : Value × t.Pos) : Value × t'.Pos := (entry.1, h.move entry.2)

/-- What is pending in the grown tree is part of what is pending in the tree. -/
def Within (pending' : Pending t') (pending : Pending t) : Prop :=
  pending'.Sublist (pending.map (moveEntry h))

variable {h}

theorem Within.drops
    {ε : Type} {pending' : Pending t'} {pending : Pending t}
    (hwithin : Within h pending' pending) {pass : Except ε (Pending t')}
    (hpass : Drops pending' pass) :
    Ends (Within h · pending) (fun _ => True) pass :=
  hpass.ends fun _ hleft => List.Sublist.trans hleft hwithin

theorem Within.discard
    {pending' : Pending t'} {pending : Pending t}
    (hwithin : Within h pending' pending) (name : Value) :
    Paired (Within h) (pending'.discard name) (pending.discard name) := by
  intro left' left hleft' hleft
  have hsame : (fun entry => !entry.1.same name) ∘ moveEntry h =
      fun entry => !entry.1.same name := rfl
  rw [discard_eq_ok hleft', discard_eq_ok hleft, Within, ← hsame, ← List.filter_map]
  exact List.Sublist.filter _ hwithin

theorem paired_strikeVariables
    (i : t.Pos) {pending' : Pending t'} {pending : Pending t}
    (hwithin : Within h pending' pending) :
    Paired (Within h) (strikeVariables t' (h.move i) pending') (strikeVariables t i pending) := by
  refine Paired.foldlM (h.descendantsOfKind_sublist _ i) ?_ ?_ hwithin
  · intro pending' pending v hwithin
    unfold strikeVariable
    rw [h.isRegularVariable_move, h.image_move]
    split
    · exact paired_error _ _
    · exact paired_ok hwithin
    · exact (hwithin.discard _).mapError _
  · intro pending' pending v hwithin
    exact hwithin.drops (drops_strikeVariable pending' v)

theorem paired_strikeCompounds
    (i : t.Pos) {pending' : Pending t'} {pending : Pending t}
    (hwithin : Within h pending' pending) :
    Paired (Within h) (strikeCompounds t' (h.move i) pending') (strikeCompounds t i pending) := by
  refine Paired.foldlM (h.descendantsOfKind_sublist _ i) ?_ ?_ hwithin
  · intro pending' pending c hwithin
    refine Paired.foldlM (h.descendantsOfKind_sublist _ c) ?_ ?_ hwithin
    · intro pending' pending e hwithin
      unfold strikeJoined
      rw [h.image_move, h.image_move]
      split
      · exact hwithin.discard _
      · exact paired_error _ _
    · intro pending' pending e hwithin
      exact hwithin.drops (drops_strikeJoined _ pending' e)
  · intro pending' pending c hwithin
    exact hwithin.drops (drops_strikeCompound pending' c)

theorem paired_strikeCall
    (call : t.Pos) {pending' : Pending t'} {pending : Pending t}
    (hwithin : Within h pending' pending) :
    Paired (Within h) (strikeCall t' pending' (h.move call)) (strikeCall t pending call) := by
  have hcalls (name : String) :
      t'.namesFunction name (h.move call) = t.namesFunction name call := by
    unfold namesFunction
    rw [h.image_move]
  unfold strikeCall
  rw [hcalls, hcalls]
  split
  · next all compact _ _ =>
    have hstart : Within h (if all then [] else pending') (if all then [] else pending) := by
      split
      · exact List.nil_sublist _
      · exact hwithin
    simp only
    split
    · refine Paired.foldlM (h.descendantsOfKind_sublist _ call) ?_ ?_ hstart
      · intro pending' pending l hwithin
        unfold strikeLiteral
        rw [h.image_move]
        split
        · exact hwithin.discard _
        · exact paired_error _ _
      · intro pending' pending l hwithin
        exact hwithin.drops (drops_strikeLiteral pending' l)
    · exact paired_ok hstart
  · exact paired_error _ _
  · exact paired_error _ _

theorem paired_strikeCalls
    (i : t.Pos) {pending' : Pending t'} {pending : Pending t}
    (hwithin : Within h pending' pending) :
    Paired (Within h) (strikeCalls t' (h.move i) pending') (strikeCalls t i pending) := by
  refine Paired.foldlM (h.descendantsOfKind_sublist _ i) ?_ ?_ hwithin
  · intro pending' pending call hwithin
    exact paired_strikeCall call hwithin
  · intro pending' pending call hwithin
    exact hwithin.drops (drops_strikeCall pending' call)

theorem add_moveEntry (pending : Pending t) (d : t.Pos) :
    Pending.add (pending.map (moveEntry h)) (h.move d) =
      (pending.add d).map (List.map (moveEntry h)) := by
  unfold Pending.add
  rw [h.image_move]
  cases Image.key (t.image d) with
  | error fault => rfl
  | ok name =>
      simp only [Except.map, List.any_map, Function.comp_def, moveEntry]
      split
      · rfl
      · simp [moveEntry]

variable (hkinds : ∀ j : t'.Pos, t.size ≤ j.val →
  t'.kind j ≠ .formalParameters ∧ t'.kind j ≠ .variableDeclarator)
include hkinds

theorem paired_declared (i : t.Pos) :
    Paired (Within h) (declared t' (h.move i)) (declared t i) := by
  unfold declared
  rw [h.firstOfKind?_move fun j hj => (hkinds j hj).1]
  cases t.firstOfKind? .formalParameters i with
  | none => exact paired_ok (List.Sublist.refl [])
  | some list =>
      intro found' found hfound' hfound
      have hmoved :
          ((t.descendantsOfKind .variableDeclarator list).map h.move).foldlM Pending.add [] =
            ((t.descendantsOfKind .variableDeclarator list).foldlM Pending.add []).map
              (List.map (moveEntry h)) :=
        foldlM_map (g := List.map (moveEntry h)) (fun pending d _ => add_moveEntry pending d) []
      simp only [Option.map_some] at hfound hfound'
      rw [h.descendantsOfKind_move fun j hj => (hkinds j hj).2, hmoved, hfound] at hfound'
      cases hfound'
      exact List.Sublist.refl _

theorem paired_remaining (i : t.Pos) :
    Paired (Within h) (remaining t' (h.move i)) (remaining t i) := by
  unfold remaining
  refine ((paired_declared hkinds i).mapError _).bind fun _ _ hdeclared => ?_
  refine (paired_strikeVariables i hdeclared).bind fun _ _ hvariables => ?_
  refine ((paired_strikeCompounds i hvariables).mapError _).bind fun _ _ hcompounds => ?_
  exact (paired_strikeCalls i hcompounds).mapError _

theorem paired_reported (i : t.Pos) :
    Paired (fun found' found => found'.Sublist (found.map h.move))
      (reported t' (h.move i)) (reported t i) := by
  have hexempt : isExempt t' (h.move i) = isExempt t i := by
    unfold isExempt isAbstract isOwnDeclaration
    rw [h.kind_move, h.image_move, h.flag_move, h.flag_move, h.docComment_move]
  unfold reported
  rw [h.kind_move, hexempt]
  split
  · exact paired_ok (List.Sublist.refl [])
  · split
    · exact paired_ok (List.Sublist.refl [])
    · refine (paired_remaining hkinds i).map fun pending' pending hwithin => ?_
      have hfound := List.Sublist.map Prod.snd hwithin
      simpa [moveEntry, Function.comp_def] using hfound
    · exact paired_error _ _

end Growth

/-! ## Findings -/

/-- The numbers of the nodes that a check reports, in order. -/
def nodeNumbers (found : List Violation) : List Nat := found.map fun v => v.node.val

theorem nodeNumbers_map_violationAt {t : Tree} (ds : List t.Pos) :
    nodeNumbers (ds.map (violationAt t)) = ds.map Fin.val := by
  simp [nodeNumbers, violationAt, Function.comp_def]

theorem paired_check
    {t t' : Tree} {h : Grows t t'}
    (hkinds : ∀ j : t'.Pos, t.size ≤ j.val →
      t'.kind j ≠ .formalParameters ∧ t'.kind j ≠ .variableDeclarator)
    (i : t.Pos) :
    Paired (fun found' found => (nodeNumbers found').Sublist (nodeNumbers found))
      (check t' (h.move i)) (check t i) := by
  intro found' found hfound' hfound
  obtain ⟨ds', hds', rfl⟩ := exists_eq_map_violationAt hfound'
  obtain ⟨ds, hds, rfl⟩ := exists_eq_map_violationAt hfound
  have hnumbers := List.Sublist.map Fin.val (paired_reported hkinds i ds' ds hds' hds)
  rw [nodeNumbers_map_violationAt, nodeNumbers_map_violationAt]
  simpa [Grows.move, Function.comp_def] using hnumbers

/-- Adding a node that declares nothing creates no finding: a node that could be checked before is
reported at no new place and in no new order.  With texts for images, both checks do answer, unless
the node is a method whose comment cannot be read. -/
theorem added_code_narrows_findings
    {b b' : Builder} {entry : Entry} {parent : Option Int} {t t' : Tree}
    (hadd : b.add entry parent = .ok b')
    (hbuild : b.build = .ok t)
    (hbuild' : b'.build = .ok t')
    (hlist : entry.kind ≠ .formalParameters)
    (hdeclarator : entry.kind ≠ .variableDeclarator)
    (i : t.Pos) :
    ∃ i' : t'.Pos, i'.val = i.val ∧
      (∀ found found', check t i = .ok found → check t' i' = .ok found' →
        (nodeNumbers found').Sublist (nodeNumbers found)) ∧
      (t.Textual → (∃ s, entry.image = .str s) →
        (t.kind i = .method → ∃ comment, t.docComment i = .ok comment) →
        ∃ found found', check t i = .ok found ∧ check t' i' = .ok found') := by
  obtain ⟨p, hp, rfl⟩ := Builder.exists_extend_of_add hadd hbuild hbuild'
  have hgrows := grows_extend hp entry
  refine ⟨hgrows.move i, rfl, ?_, ?_⟩
  · intro found found' hfound hfound'
    refine paired_check (h := hgrows) ?_ i found' found hfound' hfound
    intro j hj
    rw [kind_extend_new hp entry j hj]
    exact ⟨hlist, hdeclarator⟩
  · intro htext himage hcomment
    have hcomment' : (t.extend p hp entry).kind (hgrows.move i) = .method →
        ∃ comment, (t.extend p hp entry).docComment (hgrows.move i) = .ok comment := by
      rw [hgrows.kind_move, hgrows.docComment_move]
      exact hcomment
    obtain ⟨found, hfound⟩ := exists_check_eq_ok htext hcomment
    obtain ⟨found', hfound'⟩ := exists_check_eq_ok (htext.extend hp himage) hcomment'
    exact ⟨found, found', hfound, hfound'⟩

/-- A function with the parameters `$a` and `$b`. -/
def sampleSignature : Tree :=
  (((single "a.php" { kind := .function, image := .str "f" }).extend 0
    Nat.zero_lt_one { kind := .formalParameters }).extend 1
    (by decide) { kind := .variableDeclarator, image := .str "$a" }).extend 1
    (by decide) { kind := .variableDeclarator, image := .str "$b" }

/-- The same function with a use of `$a`. -/
def sampleBody : Tree :=
  sampleSignature.extend 0 (by decide) { kind := .variableUse, image := .str "$a" }

theorem added_code_narrows_findings_sample :
    ∃ i' : sampleBody.Pos, i'.val = 0 ∧
      ∃ found found', check sampleSignature sampleSignature.root = .ok found ∧
        check sampleBody i' = .ok found' ∧
          nodeNumbers found = [2, 3] ∧ (nodeNumbers found').Sublist [2, 3] := by
  have htext : sampleSignature.Textual := by
    unfold sampleSignature
    repeat apply Textual.extend
    · exact textual_single ⟨_, rfl⟩
    all_goals exact ⟨_, rfl⟩
  have hbuild : Builder.build ⟨"a.php", sampleSignature.nodes, sampleSignature.linked⟩ =
      .ok sampleSignature := rfl
  have hbuild' : Builder.build ⟨"a.php", sampleBody.nodes, sampleBody.linked⟩ =
      .ok sampleBody := rfl
  have hadd : Builder.add ⟨"a.php", sampleSignature.nodes, sampleSignature.linked⟩
      { kind := .variableUse, image := .str "$a" } (some 0) =
      .ok ⟨"a.php", sampleBody.nodes, sampleBody.linked⟩ := rfl
  obtain ⟨i', hi', hnarrows, hanswers⟩ :=
    added_code_narrows_findings hadd hbuild hbuild' (by decide) (by decide) sampleSignature.root
  obtain ⟨found, found', hfound, hfound'⟩ := hanswers htext ⟨_, rfl⟩ nofun
  have hnumbers : nodeNumbers found = [2, 3] := by
    have hreported : reported sampleSignature sampleSignature.root =
        .ok [⟨2, by decide⟩, ⟨3, by decide⟩] := rfl
    obtain ⟨ds, hds, rfl⟩ := exists_eq_map_violationAt hfound
    rw [hreported] at hds
    cases hds
    exact nodeNumbers_map_violationAt _
  have hsublist := hnarrows found found' hfound hfound'
  rw [hnumbers] at hsublist
  exact ⟨i', hi', found, found', hfound, hfound', hnumbers, hsublist⟩

end UnusedParameter

end TreeLint

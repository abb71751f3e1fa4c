import Mathlib.Data.List.Basic
import TreeLint.Proofs.TextualTrees
import TreeLint.Proofs.WritableValues
import TreeLint.Rule.UnusedParameter

/-!
# The parameters that are reported

The check fills a list of pending parameters in one traversal and empties it in
three others.  Each of these scans strikes out names one at a time, and what a
name is struck out by does not depend on the names that are still pending.  So a
scan is a filter: `Strikes` says by which set of used names.  The scans compose
to one filter by the union of their sets, and what remains are the first
declarators of the names outside it.

The names are texts, so that no step can break down; whether a method is exempt can
also depend on its comment, which then has to be one that can be read.
-/

namespace TreeLint.UnusedParameter

open TreeLint.Tree

variable {t : Tree}

/-! ## Declared and used names -/

/-- The declarators of a callable, in pre-order: those below the first parameter list below it. -/
def declarators (t : Tree) (i : t.Pos) : List t.Pos :=
  match (t.preorder i).tail.find? fun j => t.kind j == .formalParameters with
  | none => []
  | some list =>
    (t.preorder list).tail.filter fun j => t.kind j == .variableDeclarator

/-- The ways in which the nodes below a callable use a name. -/
inductive Uses (t : Tree) (i : t.Pos) (name : String) : Prop
  | variableUse (v : t.Pos) (below : i ∈ t.ancestors v)
      (kind : t.kind v = .variableUse) (regular : ¬ t.NamesClass v)
      (eq : t.name v = name)
  | compound (c e : t.Pos) (below : i ∈ t.ancestors c)
      (kind : t.kind c = .compoundVariable) (inside : c ∈ t.ancestors e)
      (expression : t.kind e = .expression)
      (eq : t.name c ++ t.name e = name)
  | compact (call l : t.Pos) (below : i ∈ t.ancestors call)
      (kind : t.kind call = .functionPostfix) (calls : t.Calls "compact" call)
      (inside : call ∈ t.ancestors l) (literal : t.kind l = .literal)
      (eq : "$" ++ String.ofList (Text.trim (fun c => c == '\x22' || c == '\x27')
        (t.name l).toList) = name)
  | allArguments (call : t.Pos) (below : i ∈ t.ancestors call)
      (kind : t.kind call = .functionPostfix)
      (calls : t.Calls "func_get_args" call)

/-- The violation that is reported at a declarator. -/
def finding (t : Tree) (d : t.Pos) : Violation where
  rule := info
  tree := t
  node := d
  description := "Avoid unused parameters such as '" ++ t.name d ++ "'."
  scopes := Scopes.around t d
  arguments := [t.image d]

/-! ## Pending declarators -/

/-- The pending parameters with the given declarators. -/
def pendingOf (t : Tree) (ds : List t.Pos) : Pending t :=
  ds.map fun d => (t.image d, d)

theorem declarators_pendingOf (ds : List t.Pos) :
    (pendingOf t ds).map Prod.snd = ds := by
  simp [pendingOf, Function.comp_def]

theorem mem_descendantsOfKind_iff
    {kind : Kind} {i j : t.Pos} :
    j ∈ t.descendantsOfKind kind i ↔ i ∈ t.ancestors j ∧ t.kind j = kind := by
  simp [descendantsOfKind, mem_descendants_iff]

attribute [local instance] Classical.propDecidable

variable {ε : Type}

/-- A pass over the pending parameters strikes out the names in `used` and no others. -/
def Strikes (t : Tree) (pass : Pending t → Except ε (Pending t))
    (used : String → Prop) : Prop :=
  ∀ ds, pass (pendingOf t ds) =
    .ok (pendingOf t (ds.filter fun d => ¬ used (t.name d)))

theorem Strikes.congr
    {pass : Pending t → Except ε (Pending t)}
    {used used' : String → Prop}
    (h : Strikes t pass used) (heq : ∀ name, used name ↔ used' name) :
    Strikes t pass used' := by
  have hfun : used = used' := funext fun name => propext (heq name)
  rw [← hfun]
  exact h

theorem strikes_nothing :
    Strikes t (Except.ok : _ → Except ε _) fun _ => False := by
  intro ds
  simp

theorem strikes_everything :
    Strikes t (fun _ => (.ok [] : Except ε _)) fun _ => True := by
  intro ds
  simp [pendingOf]

theorem Strikes.mapError
    {ε' : Type} {pass : Pending t → Except ε (Pending t)} {used : String → Prop}
    (h : Strikes t pass used) (wrap : ε → ε') :
    Strikes t (fun pending => (pass pending).mapError wrap) used := by
  intro ds
  simp only [h ds]
  rfl

theorem Strikes.comp
    {first second : Pending t → Except ε (Pending t)}
    {used used' : String → Prop}
    (hfirst : Strikes t first used) (hsecond : Strikes t second used') :
    Strikes t (fun pending => first pending >>= second)
      (fun name => used name ∨ used' name) := by
  intro ds
  have hstep : (Except.ok (pendingOf t (ds.filter fun d => ¬ used (t.name d))) >>=
      second) = second (pendingOf t (ds.filter fun d => ¬ used (t.name d))) :=
    rfl
  simp only
  rw [hfirst ds, hstep, hsecond, List.filter_filter]
  congr 3
  funext d
  by_cases hused : used (t.name d)
  · simp [hused]
  · simp [hused]

/-- A loop strikes out what one of its rounds does. -/
theorem Strikes.foldlM
    {α : Type} {step : Pending t → α → Except ε (Pending t)}
    {used : α → String → Prop} (items : List α)
    (h : ∀ x ∈ items, Strikes t (fun pending => step pending x) (used x)) :
    Strikes t (fun pending => items.foldlM step pending)
      (fun name => ∃ x ∈ items, used x name) := by
  induction items with
  | nil =>
      apply strikes_nothing.congr
      simp
  | cons x rest ih =>
      have hhead := h x List.mem_cons_self
      have htail := ih fun y hy => h y (List.mem_cons_of_mem x hy)
      have hcomp := hhead.comp htail
      have hfold : (fun pending => (x :: rest).foldlM step pending) =
          fun pending => step pending x >>= fun p => rest.foldlM step p := by
        funext pending
        exact List.foldlM_cons
      rw [hfold]
      apply hcomp.congr
      simp

theorem strikes_discard
    (htext : t.Textual) (name : String) :
    Strikes t (fun pending => pending.discard (.str name)) (· = name) := by
  intro ds
  cases ds with
  | nil => rfl
  | cons d ds =>
      have hnonempty : (pendingOf t (d :: ds)).isEmpty = false := rfl
      simp only [Pending.discard, hnonempty, Image.key_str, Bool.false_eq_true,
        if_false, Except.map]
      congr 1
      unfold pendingOf
      rw [List.filter_map]
      congr 2
      funext d'
      simp only [Function.comp, htext.image_eq d', Value.same_str]
      by_cases heq : t.name d' = name
      · simp [heq]
      · simp [heq]

/-! ## The three scans -/

theorem strikes_variables
    (htext : t.Textual) (i : t.Pos) :
    Strikes t (strikeVariables t i)
      (fun name => ∃ v ∈ t.descendantsOfKind .variableUse i,
        ¬ t.NamesClass v ∧ t.name v = name) := by
  apply Strikes.foldlM
  intro v _
  obtain ⟨regular, hregular, hclass⟩ := exists_isRegularVariable v
  unfold strikeVariable
  cases regular with
  | true =>
      simp only [hregular, htext.image_eq v]
      apply ((strikes_discard htext (t.name v)).mapError Fault.image).congr
      intro name
      simp [hclass.mp rfl, eq_comm]
  | false =>
      simp only [hregular]
      apply strikes_nothing.congr
      simpa using hclass

theorem strikes_joined
    (htext : t.Textual) (c e : t.Pos) :
    Strikes t (fun pending => strikeJoined t c pending e)
      (t.name c ++ t.name e = ·) := by
  unfold strikeJoined
  rw [htext.image_eq c, htext.image_eq e, Image.join_str]
  apply (strikes_discard htext (t.name c ++ t.name e)).congr
  intro name
  exact eq_comm

theorem strikes_compounds
    (htext : t.Textual) (i : t.Pos) :
    Strikes t (strikeCompounds t i)
      (fun name => ∃ c ∈ t.descendantsOfKind .compoundVariable i,
        ∃ e ∈ t.descendantsOfKind .expression c,
          t.name c ++ t.name e = name) := by
  apply Strikes.foldlM
  intro c _
  apply Strikes.foldlM
  intro e _
  exact strikes_joined htext c e

theorem strikes_literal
    (htext : t.Textual) (l : t.Pos) :
    Strikes t (fun pending => strikeLiteral t pending l)
      (compactName (t.name l) = ·) := by
  unfold strikeLiteral
  rw [htext.image_eq l, Image.text_str]
  apply (strikes_discard htext (compactName (t.name l))).congr
  intro name
  exact eq_comm

/-- A call strikes out everything when it fetches all arguments, and otherwise the names that are
handed to `compact`. -/
theorem strikes_call
    (htext : t.Textual) (call : t.Pos) :
    Strikes t (fun pending => strikeCall t pending call)
      (fun name => t.Calls "func_get_args" call ∨
        (t.Calls "compact" call ∧ ∃ l ∈ t.descendantsOfKind .literal call,
          compactName (t.name l) = name)) := by
  have hliterals : Strikes t
      (fun pending => (t.descendantsOfKind .literal call).foldlM (strikeLiteral t) pending)
      (fun name => ∃ l ∈ t.descendantsOfKind .literal call,
        compactName (t.name l) = name) := by
    apply Strikes.foldlM
    intro l _
    exact strikes_literal htext l
  unfold strikeCall
  rw [htext.namesFunction_eq, htext.namesFunction_eq]
  by_cases hall : t.Calls "func_get_args" call
  · by_cases hcompact : t.Calls "compact" call
    · simp only [hall, hcompact, decide_true, if_true]
      apply (strikes_everything.comp hliterals).congr
      simp
    · simp only [hall, hcompact, decide_true, decide_false, if_true,
        Bool.false_eq_true, if_false]
      apply strikes_everything.congr
      simp
  · by_cases hcompact : t.Calls "compact" call
    · simp only [hall, hcompact, decide_true, decide_false, if_true,
        Bool.false_eq_true, if_false]
      apply hliterals.congr
      simp
    · simp only [hall, hcompact, decide_false, Bool.false_eq_true, if_false]
      apply strikes_nothing.congr
      simp

theorem strikes_calls
    (htext : t.Textual) (i : t.Pos) :
    Strikes t (strikeCalls t i)
      (fun name => ∃ call ∈ t.descendantsOfKind .functionPostfix i,
        t.Calls "func_get_args" call ∨
          (t.Calls "compact" call ∧ ∃ l ∈ t.descendantsOfKind .literal call,
            compactName (t.name l) = name)) := by
  apply Strikes.foldlM
  intro call _
  exact strikes_call htext call

/-- The three scans together strike out the used names. -/
theorem strikes_used
    (htext : t.Textual) (i : t.Pos) :
    Strikes t
      (fun pending => strikeVariables t i pending >>= fun pending =>
        (strikeCompounds t i pending).mapError Fault.image >>= fun pending =>
          (strikeCalls t i pending).mapError Fault.image)
      (Uses t i) := by
  apply ((strikes_variables htext i).comp
    (((strikes_compounds htext i).mapError _).comp
      ((strikes_calls htext i).mapError _))).congr
  intro name
  simp only [mem_descendantsOfKind_iff]
  constructor
  · rintro (⟨v, ⟨hbelow, hkind⟩, hregular, heq⟩ |
      ⟨c, ⟨hbelow, hkind⟩, e, ⟨hinside, hexpression⟩, heq⟩ |
      ⟨call, ⟨hbelow, hkind⟩, hcalls | ⟨hcalls, l, ⟨hinside, hliteral⟩, heq⟩⟩)
    · exact .variableUse v hbelow hkind hregular heq
    · exact .compound c e hbelow hkind hinside hexpression heq
    · exact .allArguments call hbelow hkind hcalls
    · exact .compact call l hbelow hkind hcalls hinside hliteral heq
  · intro huses
    cases huses with
    | variableUse v hbelow hkind hregular heq =>
        exact Or.inl ⟨v, ⟨hbelow, hkind⟩, hregular, heq⟩
    | compound c e hbelow hkind hinside hexpression heq =>
        exact Or.inr (Or.inl
          ⟨c, ⟨hbelow, hkind⟩, e, ⟨hinside, hexpression⟩, heq⟩)
    | compact call l hbelow hkind hcalls hinside hliteral heq =>
        exact Or.inr (Or.inr
          ⟨call, ⟨hbelow, hkind⟩, Or.inr ⟨hcalls, l, ⟨hinside, hliteral⟩, heq⟩⟩)
    | allArguments call hbelow hkind hcalls =>
        exact Or.inr (Or.inr ⟨call, ⟨hbelow, hkind⟩, Or.inl hcalls⟩)

/-! ## First declarators -/

/-- `ds` keeps of `seen` the first declarator of every name, in order. -/
structure FirstDeclarators (t : Tree) (seen ds : List t.Pos) : Prop where
  sublist : ds.Sublist seen
  names_nodup : (ds.map t.name).Nodup
  covers : ∀ d ∈ seen, t.name d ∈ ds.map t.name
  first : ∀ d ∈ ds, ∃ before after,
    seen = before ++ d :: after ∧ ∀ b ∈ before, t.name b ≠ t.name d

theorem firstDeclarators_nil : FirstDeclarators t [] [] where
  sublist := List.Sublist.refl []
  names_nodup := List.nodup_nil
  covers := by simp
  first := by simp

theorem FirstDeclarators.skip
    {seen ds : List t.Pos} (h : FirstDeclarators t seen ds)
    {d : t.Pos} (hname : t.name d ∈ ds.map t.name) :
    FirstDeclarators t (seen ++ [d]) ds where
  sublist := h.sublist.trans (List.sublist_append_left seen [d])
  names_nodup := h.names_nodup
  covers := by
    intro d' hmem
    rcases List.mem_append.mp hmem with hold | hnew
    · exact h.covers d' hold
    · rw [List.mem_singleton.mp hnew]
      exact hname
  first := by
    intro d' hmem
    obtain ⟨before, after, hseen, hbefore⟩ := h.first d' hmem
    refine ⟨before, after ++ [d], ?_, hbefore⟩
    rw [hseen, List.append_assoc, List.cons_append]

theorem FirstDeclarators.push
    {seen ds : List t.Pos} (h : FirstDeclarators t seen ds)
    {d : t.Pos} (hname : t.name d ∉ ds.map t.name) :
    FirstDeclarators t (seen ++ [d]) (ds ++ [d]) where
  sublist := h.sublist.append (List.Sublist.refl [d])
  names_nodup := by
    rw [List.map_append, List.nodup_append]
    refine ⟨h.names_nodup, by simp, ?_⟩
    intro name hold name' hnew heq
    rw [List.map_singleton, List.mem_singleton] at hnew
    rw [heq, hnew] at hold
    exact hname hold
  covers := by
    intro d' hmem
    rw [List.map_append, List.mem_append]
    rcases List.mem_append.mp hmem with hold | hnew
    · exact Or.inl (h.covers d' hold)
    · rw [List.mem_singleton.mp hnew]
      exact Or.inr (by simp)
  first := by
    intro d' hmem
    rcases List.mem_append.mp hmem with hold | hnew
    · obtain ⟨before, after, hseen, hbefore⟩ := h.first d' hold
      refine ⟨before, after ++ [d], ?_, hbefore⟩
      rw [hseen, List.append_assoc, List.cons_append]
    · rw [List.mem_singleton.mp hnew]
      refine ⟨seen, [], rfl, ?_⟩
      intro b hb heq
      apply hname
      rw [← heq]
      exact h.covers b hb

theorem add_pendingOf
    (htext : t.Textual) (ds : List t.Pos) (d : t.Pos) :
    Pending.add (pendingOf t ds) d =
      .ok (pendingOf t
        (if t.name d ∈ ds.map t.name then ds else ds ++ [d])) := by
  have hany : ((pendingOf t ds).any fun entry => entry.1.same (.str (t.name d))) =
      decide (t.name d ∈ ds.map t.name) := by
    unfold pendingOf
    induction ds with
    | nil => rfl
    | cons d' ds ih =>
        simp only [List.map_cons, List.any_cons, ih, htext.image_eq d',
          Value.same_str, List.mem_cons]
        by_cases heq : t.name d' = t.name d
        · simp [heq]
        · simp [heq, Ne.symm heq]
  simp only [Pending.add, htext.image_eq d, Image.key_str, Except.map, hany]
  by_cases hmem : t.name d ∈ ds.map t.name
  · simp only [hmem, decide_true, if_true]
  · simp [hmem, pendingOf, htext.image_eq d]

theorem foldlM_add
    (htext : t.Textual) (todo seen ds : List t.Pos)
    (h : FirstDeclarators t seen ds) :
    ∃ ds', todo.foldlM Pending.add (pendingOf t ds) = .ok (pendingOf t ds') ∧
      FirstDeclarators t (seen ++ todo) ds' := by
  induction todo generalizing seen ds with
  | nil => exact ⟨ds, rfl, by simpa using h⟩
  | cons d todo ih =>
      have hassoc : seen ++ d :: todo = (seen ++ [d]) ++ todo := by simp
      rw [List.foldlM_cons, add_pendingOf htext, hassoc]
      by_cases hmem : t.name d ∈ ds.map t.name
      · rw [if_pos hmem]
        exact ih (seen ++ [d]) ds (h.skip hmem)
      · rw [if_neg hmem]
        exact ih (seen ++ [d]) (ds ++ [d]) (h.push hmem)

theorem declared_eq
    (htext : t.Textual) (i : t.Pos) :
    ∃ ds, declared t i = .ok (pendingOf t ds) ∧
      FirstDeclarators t (declarators t i) ds := by
  have hfirst : (t.preorder i).tail.find? (fun j => t.kind j == .formalParameters) =
      t.firstOfKind? .formalParameters i := by
    rw [preorder_eq_cons_descendants]
    rfl
  unfold declared declarators
  rw [hfirst]
  cases hlist : t.firstOfKind? .formalParameters i with
  | none => exact ⟨[], rfl, firstDeclarators_nil⟩
  | some list =>
      have hbelow : (t.preorder list).tail.filter
          (fun j => t.kind j == .variableDeclarator) =
            t.descendantsOfKind .variableDeclarator list := by
        rw [preorder_eq_cons_descendants]
        rfl
      simp only
      rw [hbelow]
      exact foldlM_add htext
        (t.descendantsOfKind .variableDeclarator list) [] [] firstDeclarators_nil

theorem remaining_eq
    (htext : t.Textual) (i : t.Pos) :
    ∃ ds, remaining t i =
        .ok (pendingOf t (ds.filter fun d => ¬ Uses t i (t.name d))) ∧
      FirstDeclarators t (declarators t i) ds := by
  obtain ⟨ds, hdeclared, hfirst⟩ := declared_eq htext i
  refine ⟨ds, ?_, hfirst⟩
  unfold remaining
  rw [hdeclared]
  exact strikes_used htext i ds

/-! ## The report -/

theorem renderFrom_plain
    (arguments : List (Except Text.Unwritable String)) (numbering : Text.Template.Numbering)
    (done plain rest : List Char)
    (hplain : plain.all fun c =>
      c != Text.Template.openBrace && c != Text.Template.closeBrace) :
    Text.Template.renderFrom arguments numbering none done (plain ++ rest) =
      Text.Template.renderFrom arguments numbering none
        (plain.reverse ++ done) rest := by
  induction plain generalizing done with
  | nil => rfl
  | cons c plain ih =>
      simp only [List.all_cons, Bool.and_eq_true, bne_iff_ne] at hplain
      obtain ⟨⟨hopen, hclose⟩, hrest⟩ := hplain
      have htail := ih (c :: done) hrest
      rw [List.cons_append, Text.Template.renderFrom.eq_def]
      simp only [hopen, hclose, if_false]
      rw [htail]
      simp

/-- The message is made from the one argument that it has a field for. -/
theorem render_message (argument : Except Text.Unwritable String) :
    Text.Template.render info.message [argument] =
      match argument with
      | .ok name => .ok ("Avoid unused parameters such as '" ++ name ++ "'.")
      | .error _ => .error .unwritable := by
  have hmessage : info.message.toList =
      "Avoid unused parameters such as '".toList ++
        '\x7b' :: '0' :: '\x7d' :: ("'.".toList ++ []) := by decide
  have hfield : ∀ done rest,
      Text.Template.renderFrom [argument] .open none done
          ('\x7b' :: '0' :: '\x7d' :: rest) =
        match argument with
        | .ok name =>
          Text.Template.renderFrom [argument] .manual none (name.toList.reverse ++ done) rest
        | .error _ => .error .unwritable := by
    intro done rest
    cases argument <;> rfl
  unfold Text.Template.render
  rw [hmessage, renderFrom_plain _ _ _ _ _ (by decide), hfield]
  cases argument with
  | error fault => rfl
  | ok name =>
      simp only
      rw [renderFrom_plain _ _ _ _ _ (by decide)]
      simp only [Text.Template.renderFrom, Option.isSome_none, Bool.false_eq_true,
        if_false, Except.map, List.reverse_append, List.reverse_reverse,
        List.append_nil, String.ofList_append, String.ofList_toList]

/-- The violation at a declarator, whatever its image is. -/
def violationAt (t : Tree) (d : t.Pos) : Violation where
  rule := info
  tree := t
  node := d
  description := "Avoid unused parameters such as '" ++ (t.image d).shown.toOption.getD "" ++ "'."
  scopes := Scopes.around t d
  arguments := [t.image d]

theorem make_eq (d : t.Pos) :
    Violation.make info t d [t.image d] =
      if (t.image d).isWritable then .ok (violationAt t d)
      else .error (.template .unwritable) := by
  unfold Violation.make violationAt
  rw [List.map_singleton, render_message, ← Value.isOk_shown]
  cases (t.image d).shown <;> rfl

theorem mapM_ite
    {ε α β : Type} (test : α → Bool) (f : α → β) (error : ε) (items : List α) :
    items.mapM (fun x => if test x then Except.ok (f x) else .error error) =
      if items.all test then .ok (items.map f) else .error error := by
  induction items with
  | nil => rfl
  | cons x items ih =>
      rw [List.mapM_cons, ih, List.all_cons]
      cases test x with
      | false => rfl
      | true => cases items.all test <;> rfl

/-- A check turns what is reported into violations, if all of their names can be written out. -/
theorem check_eq (i : t.Pos) :
    check t i =
      (reported t i).bind fun found =>
        if found.all fun d => (t.image d).isWritable then .ok (found.map (violationAt t))
        else .error (.template .unwritable) := by
  unfold check
  cases reported t i with
  | error fault => rfl
  | ok found =>
      simp only [make_eq]
      exact mapM_ite _ _ _ found

theorem exists_eq_map_violationAt
    {i : t.Pos} {found : List Violation} (hcheck : check t i = .ok found) :
    ∃ ds, reported t i = .ok ds ∧ found = ds.map (violationAt t) := by
  rw [check_eq] at hcheck
  cases hreported : reported t i with
  | error fault =>
      rw [hreported] at hcheck
      cases hcheck
  | ok ds =>
      rw [hreported] at hcheck
      simp only [Except.bind] at hcheck
      split at hcheck
      · cases hcheck
        exact ⟨ds, rfl, rfl⟩
      · cases hcheck

theorem violationAt_eq_finding (htext : t.Textual) (d : t.Pos) : violationAt t d = finding t d := by
  unfold violationAt finding Tree.name
  rw [htext.image_eq d]
  rfl

theorem check_eq_map_finding
    {i : t.Pos} {found : List t.Pos}
    (htext : t.Textual)
    (hreported : reported t i = .ok found) :
    check t i = .ok (found.map (finding t)) := by
  have hwritable : (found.all fun d => (t.image d).isWritable) = true := by
    rw [List.all_eq_true]
    intro d _
    rw [htext.image_eq d]
    rfl
  rw [check_eq, hreported, ← funext (violationAt_eq_finding htext)]
  exact if_pos hwritable

theorem exists_isExempt_eq_ok
    {i : t.Pos} (htext : t.Textual)
    (hcomment : t.kind i = .method → ∃ comment, t.docComment i = .ok comment) :
    ∃ answer, isExempt t i = .ok answer := by
  unfold isExempt
  rw [htext.image_eq i, Image.text_str]
  by_cases hmethod : t.kind i = .method
  · obtain ⟨comment, hcomment⟩ := hcomment hmethod
    simp only [hmethod, hcomment]
    split
    · exact ⟨_, rfl⟩
    · split
      · exact ⟨_, rfl⟩
      · split <;> exact ⟨_, rfl⟩
  · exact ⟨false, by simp [hmethod]⟩

/-- On a tree whose images are texts the check does not break down, unless it is that of a method
whose comment cannot be read. -/
theorem exists_check_eq_ok
    {i : t.Pos} (htext : t.Textual)
    (hcomment : t.kind i = .method → ∃ comment, t.docComment i = .ok comment) :
    ∃ found, check t i = .ok found := by
  have hreported : ∃ ds, reported t i = .ok ds := by
    obtain ⟨answer, hexempt⟩ := exists_isExempt_eq_ok htext hcomment
    obtain ⟨ds, hremaining, _⟩ := remaining_eq htext i
    unfold reported unused
    rw [hexempt, hremaining]
    split
    · exact ⟨_, rfl⟩
    · cases answer with
      | true => exact ⟨_, rfl⟩
      | false => exact ⟨_, rfl⟩
  obtain ⟨ds, hds⟩ := hreported
  exact ⟨_, check_eq_map_finding htext hds⟩

/-- The check of a callable reports, once and at its first declarator, every declared name that
nothing below the callable uses, in the order of the declarators. -/
theorem check_reports_unused_names
    (t : Tree) (htext : t.Textual) (i : t.Pos)
    (hcallable : (t.kind i).isCallable = true)
    (hexempt : isExempt t i = .ok false) :
    ∃ found : List t.Pos,
      check t i = .ok (found.map (finding t)) ∧
      found.Sublist (declarators t i) ∧
      (found.map t.name).Nodup ∧
      (∀ name, name ∈ found.map t.name ↔
        name ∈ (declarators t i).map t.name ∧ ¬ Uses t i name) ∧
      ∀ d ∈ found, ∃ before after,
        declarators t i = before ++ d :: after ∧
          ∀ b ∈ before, t.name b ≠ t.name d := by
  obtain ⟨ds, hremaining, hfirst⟩ := remaining_eq htext i
  refine ⟨ds.filter fun d => ¬ Uses t i (t.name d), ?_, ?_, ?_, ?_, ?_⟩
  · have hreported : reported t i =
        .ok (ds.filter fun d => ¬ Uses t i (t.name d)) := by
      unfold reported unused
      rw [hcallable, hexempt, hremaining]
      simp only [Bool.not_true, Bool.false_eq_true, if_false, Except.map,
        declarators_pendingOf]
    exact check_eq_map_finding htext hreported
  · exact List.filter_sublist.trans hfirst.sublist
  · exact hfirst.names_nodup.sublist (List.filter_sublist.map t.name)
  · intro name
    constructor
    · intro hmem
      obtain ⟨d, hd, rfl⟩ := List.mem_map.mp hmem
      obtain ⟨hds, hunused⟩ := List.mem_filter.mp hd
      exact ⟨List.mem_map_of_mem (hfirst.sublist.subset hds), by simpa using hunused⟩
    · rintro ⟨hdeclared, hunused⟩
      obtain ⟨d, hd, rfl⟩ := List.mem_map.mp hdeclared
      obtain ⟨d', hd', hname⟩ := List.mem_map.mp (hfirst.covers d hd)
      refine List.mem_map.mpr ⟨d', List.mem_filter.mpr ⟨hd', ?_⟩, hname⟩
      simpa [hname] using hunused
  · intro d hd
    exact hfirst.first d (List.mem_filter.mp hd).1

/-- A function that declares `$a` twice, reads `$b`, and hands `$c` to `compact`. -/
def sampleFunction : Tree :=
  (((((((((single "a.php" { kind := .function, image := .str "f" }).extend 0
    (by decide) { kind := .formalParameters }).extend 1
    (by decide) { kind := .variableDeclarator, image := .str "$a" }).extend 1
    (by decide) { kind := .variableDeclarator, image := .str "$b" }).extend 1
    (by decide) { kind := .variableDeclarator, image := .str "$a" }).extend 1
    (by decide) { kind := .variableDeclarator, image := .str "$c" }).extend 0
    (by decide) { kind := .variableUse, image := .str "$b" }).extend 0
    (by decide) { kind := .functionPostfix, image := .str "\\App\\Compact" }).extend 7
    (by decide) { kind := .literal, image := .str "'c'" })

theorem textual_sampleFunction : sampleFunction.Textual := by
  unfold sampleFunction
  repeat apply Textual.extend
  · exact textual_single ⟨_, rfl⟩
  all_goals exact ⟨_, rfl⟩

theorem check_reports_unused_names_sample :
    sampleFunction.Textual ∧
      (sampleFunction.kind sampleFunction.root).isCallable = true ∧
      isExempt sampleFunction sampleFunction.root = .ok false ∧
      ∃ found : List sampleFunction.Pos,
        check sampleFunction sampleFunction.root =
            .ok (found.map (finding sampleFunction)) ∧
          ∀ name, name ∈ found.map sampleFunction.name ↔
            name ∈ (declarators sampleFunction sampleFunction.root).map
                sampleFunction.name ∧
              ¬ Uses sampleFunction sampleFunction.root name := by
  have hcallable : (sampleFunction.kind sampleFunction.root).isCallable = true := by
    decide
  have hexempt : isExempt sampleFunction sampleFunction.root = .ok false := by
    rfl
  obtain ⟨found, hcheck, _, _, hnames, _⟩ :=
    check_reports_unused_names sampleFunction textual_sampleFunction
      sampleFunction.root hcallable hexempt
  exact ⟨textual_sampleFunction, hcallable, hexempt, found, hcheck, hnames⟩

end TreeLint.UnusedParameter

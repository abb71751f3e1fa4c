import Mathlib.Data.List.Basic
import TreeLint.Dispatch
import TreeLint.Proofs.TextualTrees
import TreeLint.Rule.Scripted

/-!
# What a run hands over

A run threads a memo of parsed comments through all pairs of a node and a rule.
Every memo carries the proof that it is right, so no answer depends on it: the
lineage of the node is searched for the first declaration that silences the rule,
and the search ends early only at a comment that cannot be read.  Without the memo
the pairs have nothing in common, and a run that reaches its end is the
concatenation of what they contribute one by one.
-/

namespace TreeLint

/-! ## Searches that can fail -/

/-- How a search for the first item that passes a test ends, when the test itself can fail. -/
inductive Search {ε α : Type} (test : α → Except ε Bool) :
    List α → Except ε (Option α) → Prop where
  | found {before after : List α} {x : α}
      (hbefore : ∀ y ∈ before, test y = .ok false) (hx : test x = .ok true) :
      Search test (before ++ x :: after) (.ok (some x))
  | nothing {items : List α} (hitems : ∀ y ∈ items, test y = .ok false) :
      Search test items (.ok none)
  | failed {before after : List α} {x : α} {fault : ε}
      (hbefore : ∀ y ∈ before, test y = .ok false) (hx : test x = .error fault) :
      Search test (before ++ x :: after) (.error fault)

theorem Search.cons
    {ε α : Type} {test : α → Except ε Bool} {items : List α} {answer : Except ε (Option α)} {x : α}
    (hx : test x = .ok false) (h : Search test items answer) : Search test (x :: items) answer := by
  cases h with
  | found hbefore hfound => exact .found (List.forall_mem_cons.mpr ⟨hx, hbefore⟩) hfound
  | nothing hitems => exact .nothing (List.forall_mem_cons.mpr ⟨hx, hitems⟩)
  | failed hbefore hfailed => exact .failed (List.forall_mem_cons.mpr ⟨hx, hbefore⟩) hfailed

theorem search_findM?
    {ε α : Type} (test : α → Except ε Bool) (items : List α) :
    Search test items (items.findM? test) := by
  induction items with
  | nil => exact .nothing (by simp)
  | cons x items ih =>
      rw [List.findM?]
      cases hx : test x with
      | error fault => exact @Search.failed ε α test [] items x fault (by simp) hx
      | ok passed =>
          cases passed with
          | true => exact @Search.found ε α test [] items x (by simp) hx
          | false => exact ih.cons hx

/-! ## Suppression without a memo -/

namespace Suppression

variable {t : Tree}

/-- `d` is a declaration whose comment silences the rule. -/
def Silences (t : Tree) (rule : String) (d : t.Pos) : Prop :=
  (t.kind d).isDeclaration = true ∧
    ∃ comment, t.docComment d = .ok comment ∧
      ∃ directive ∈ Directive.parse comment, directive.suppresses rule = true

/-- `d` is a declaration whose comment cannot be read. -/
def Unreadable (t : Tree) (d : t.Pos) : Prop :=
  (t.kind d).isDeclaration = true ∧ ∃ fault, t.docComment d = .error fault

/-- The node or one of its ancestors silences the rule. -/
def Suppressed (t : Tree) (rule : String) (i : t.Pos) : Prop :=
  ∃ d ∈ t.lineage i, Silences t rule d

/-- What the comment of a node, if it is a declaration, says about a rule. -/
def verdict (t : Tree) (rule : String) (d : t.Pos) : Except Text.Unwritable Bool :=
  if (t.kind d).isDeclaration then
    (t.directives d).map fun found => found.any (·.suppresses rule)
  else .ok false

/-- The three verdicts and what they mean. -/
theorem verdict_cases (t : Tree) (rule : String) (d : t.Pos) :
    (verdict t rule d = .ok true ∧ Silences t rule d ∧ ¬ Unreadable t d) ∨
      (verdict t rule d = .ok false ∧ ¬ Silences t rule d ∧ ¬ Unreadable t d) ∨
      ∃ fault, verdict t rule d = .error fault ∧ ¬ Silences t rule d ∧ Unreadable t d := by
  unfold verdict Silences Unreadable Tree.directives
  by_cases hkind : (t.kind d).isDeclaration = true
  · cases hcomment : t.docComment d with
    | error fault =>
        refine Or.inr (Or.inr ⟨fault, ?_, ?_, hkind, fault, rfl⟩)
        · simp [hkind, Except.map]
        · simp
    | ok comment =>
        have hreadable : ¬ ((t.kind d).isDeclaration = true ∧
            ∃ fault, (.ok comment : Except Text.Unwritable String) = .error fault) := by simp
        cases hany : (Directive.parse comment).any (·.suppresses rule) with
        | true =>
            refine Or.inl ⟨?_, ⟨hkind, comment, rfl, List.any_eq_true.mp hany⟩, hreadable⟩
            simp [hkind, Except.map, hany]
        | false =>
            refine Or.inr (Or.inl ⟨?_, ?_, hreadable⟩)
            · simp [hkind, Except.map, hany]
            · rintro ⟨_, _, heq, hsilences⟩
              cases heq
              rw [List.any_eq_true.mpr hsilences] at hany
              cases hany
  · refine Or.inr (Or.inl ⟨?_, fun h => hkind h.1, fun h => hkind h.1⟩)
    simp [hkind]

theorem verdict_eq_ok_true_iff {rule : String} {d : t.Pos} :
    verdict t rule d = .ok true ↔ Silences t rule d := by
  rcases verdict_cases t rule d with ⟨h, hs, -⟩ | ⟨h, hs, -⟩ | ⟨fault, h, hs, -⟩ <;>
    simp [h, hs]

theorem verdict_eq_ok_false_iff {rule : String} {d : t.Pos} :
    verdict t rule d = .ok false ↔ ¬ Silences t rule d ∧ ¬ Unreadable t d := by
  rcases verdict_cases t rule d with ⟨h, hs, hu⟩ | ⟨h, hs, hu⟩ | ⟨fault, h, hs, hu⟩ <;>
    simp [h, hs, hu]

theorem unreadable_of_verdict
    {rule : String} {d : t.Pos} {fault : Text.Unwritable} (h : verdict t rule d = .error fault) :
    Unreadable t d := by
  rcases verdict_cases t rule d with ⟨hok, -⟩ | ⟨hok, -⟩ | ⟨_, -, -, hu⟩
  · rw [hok] at h
    cases h
  · rw [hok] at h
    cases h
  · exact hu

instance (rule : String) (d : t.Pos) : Decidable (Silences t rule d) :=
  decidable_of_iff (verdict t rule d = .ok true) verdict_eq_ok_true_iff

instance (rule : String) (i : t.Pos) : Decidable (Suppressed t rule i) :=
  inferInstanceAs (Decidable (∃ d ∈ t.lineage i, _))

theorem not_unreadable_of_readable
    (h : t.Readable) (d : t.Pos) : ¬ Unreadable t d := by
  rintro ⟨hkind, fault, hfault⟩
  obtain ⟨comment, hcomment⟩ := h d hkind
  rw [hcomment] at hfault
  cases hfault

theorem silencedBy_fst
    (rule : String) (memo : Memo) (i : t.Pos) :
    (silencedBy t rule memo i).1 = verdict t rule i := by
  unfold silencedBy verdict
  by_cases hkind : (t.kind i).isDeclaration = true
  · simp only [hkind, if_true, Memo.directives_fst]
  · simp [hkind]

theorem verdict_of_not_declaration
    {rule : String} {d : t.Pos} (h : ¬ (t.kind d).isDeclaration = true) :
    verdict t rule d = .ok false := if_neg h

theorem findM?_cons_of_false
    {ε α : Type} {test : α → Except ε Bool} {x : α} {items : List α} (h : test x = .ok false) :
    (x :: items).findM? test = items.findM? test := by
  rw [List.findM?, h]
  rfl

/-- The nodes that are passed over on the way to the next declaration silence nothing. -/
theorem findM?_ancestors
    (rule : String) (i : t.Pos) :
    (t.ancestors i).findM? (verdict t rule) =
      match t.enclosing? Kind.isDeclaration i with
      | none => .ok none
      | some around => (t.lineage around).findM? (verdict t rule) := by
  fun_induction Tree.enclosing? t Kind.isDeclaration i with
  | case1 i hparent =>
      rw [Tree.ancestors_eq_nil hparent]
      rfl
  | case2 i above hparent hkind =>
      rw [Tree.ancestors_eq_cons hparent]
  | case3 i above hparent hkind ih =>
      rw [Tree.ancestors_eq_cons hparent, Tree.lineage,
        findM?_cons_of_false (verdict_of_not_declaration hkind), ih]

theorem outward_fst
    (rule : String) (memo : Memo) (d : t.Pos) :
    (outward t rule memo d).1 = (t.lineage d).findM? (verdict t rule) := by
  fun_induction outward t rule memo d with
  | case1 memo d fault memo' hpair =>
      have hverdict := silencedBy_fst rule memo d
      rw [hpair] at hverdict
      rw [Tree.lineage, List.findM?, ← hverdict]
      rfl
  | case2 memo d memo' hpair =>
      have hverdict := silencedBy_fst rule memo d
      rw [hpair] at hverdict
      rw [Tree.lineage, List.findM?, ← hverdict]
      rfl
  | case3 memo d memo' hpair hnone =>
      have hverdict := silencedBy_fst rule memo d
      rw [hpair] at hverdict
      rw [Tree.lineage, findM?_cons_of_false hverdict.symm, findM?_ancestors, hnone]
  | case4 memo d memo' hpair around haround ih =>
      have hverdict := silencedBy_fst rule memo d
      rw [hpair] at hverdict
      rw [Tree.lineage, findM?_cons_of_false hverdict.symm, findM?_ancestors, haround, ih]

/-- The suppressor is what a search through the lineage finds, whatever the memo. -/
theorem suppressor_fst
    (rule : String) (memo : Memo) (i : t.Pos) :
    (suppressor t rule memo i).1 = (t.lineage i).findM? (verdict t rule) := by
  unfold suppressor nearest?
  by_cases hkind : (t.kind i).isDeclaration = true
  · rw [if_pos hkind]
    exact outward_fst rule memo i
  · rw [if_neg hkind, Tree.lineage,
      findM?_cons_of_false (verdict_of_not_declaration hkind), findM?_ancestors]
    cases t.enclosing? Kind.isDeclaration i with
    | none => rfl
    | some around => exact outward_fst rule memo around

theorem search_suppressor (rule : String) (memo : Memo) (i : t.Pos) :
    Search (verdict t rule) (t.lineage i) (suppressor t rule memo i).1 := by
  rw [suppressor_fst]
  exact search_findM? _ _

theorem suppressed_of_suppressor
    {rule : String} {memo : Memo} {i d : t.Pos}
    (h : (suppressor t rule memo i).1 = .ok (some d)) : Suppressed t rule i := by
  have hsearch := search_suppressor rule memo i
  rw [h] at hsearch
  generalize hlineage : t.lineage i = nodes at hsearch
  cases hsearch with
  | found _ hd =>
      exact ⟨d, by rw [hlineage]; simp, verdict_eq_ok_true_iff.mp hd⟩

theorem not_suppressed_of_suppressor
    {rule : String} {memo : Memo} {i : t.Pos}
    (h : (suppressor t rule memo i).1 = .ok none) : ¬ Suppressed t rule i := by
  have hsearch := search_suppressor rule memo i
  rw [h] at hsearch
  rintro ⟨d, hd, hsilences⟩
  generalize t.lineage i = nodes at hsearch hd
  cases hsearch with
  | nothing hall => exact (verdict_eq_ok_false_iff.mp (hall d hd)).1 hsilences

/-- There is an answer when every comment on the way to the root can be read. -/
theorem exists_suppressor
    {i : t.Pos} (hread : ∀ d ∈ t.lineage i, ¬ Unreadable t d) (rule : String) (memo : Memo) :
    ∃ answer, (suppressor t rule memo i).1 = .ok answer := by
  have hsearch := search_suppressor rule memo i
  generalize hanswer : (suppressor t rule memo i).1 = answer at hsearch
  generalize hlineage : t.lineage i = nodes at hsearch hread
  cases hsearch with
  | found _ _ => exact ⟨_, rfl⟩
  | nothing _ => exact ⟨_, rfl⟩
  | failed _ hx => exact absurd (unreadable_of_verdict hx) (hread _ (by simp))

end Suppression

/-! ## The pairs of a run -/

namespace Dispatch

open Suppression

/-- What a run hands over, one at a time. -/
inductive Record where
  | violation (v : Violation)
  | error (error : ProcessingError)

/-- The record of an event; a suppressed pair leaves none. -/
def record? : Event → Option Record
  | .found v => some (.violation v)
  | .failed error _ => some (.error error)
  | .suppressed _ _ => none

/-- Everything that events hand over, in order. -/
def records (events : List Event) : List Record := events.filterMap record?

/-- What trying one rule on one node contributes, on its own. -/
def contribution (t : Tree) (i : t.Pos) (rule : Rule) : List Record :=
  if t.kind i ∉ rule.kinds ∨ Suppressed t rule.name i then []
  else
    match rule.check t i with
    | .error fault =>
      match fault.message with
      | .ok text => [.error ⟨t.file, rule.name ++ ": " ++ fault.kindName ++ ": " ++ text⟩]
      | .error _ => []
    | .ok violations =>
      (violations.filter fun v => ¬ Suppressed v.tree rule.name v.node).map
        .violation

/-- Nothing ends a run early: the comments of the tree can be read, every violation that a check
finds is on a tree whose comments can be read, and every error that a check raises has a text. -/
structure Legible (rules : List Rule) (t : Tree) : Prop where
  comments : t.Readable
  violations : ∀ rule ∈ rules, ∀ i found, rule.check t i = .ok found →
    ∀ v ∈ found, v.tree.Readable
  faults : ∀ rule ∈ rules, ∀ i fault, rule.check t i = .error fault →
    ∃ text, fault.message = .ok text

variable {t : Tree}

theorem keep_eq_ok
    {rule : String} {memo memo' : Memo} {violations : List Violation} {events : List Event}
    (h : keep rule memo violations = .ok (events, memo')) :
    events = (violations.filter fun v => ¬ Suppressed v.tree rule v.node).map .found := by
  induction violations generalizing memo events with
  | nil =>
      cases h
      rfl
  | cons v violations ih =>
      unfold keep at h
      split at h
      · cases h
      · next d memo₁ hpair =>
        have hsuppressed := suppressed_of_suppressor (congrArg Prod.fst hpair)
        rw [ih h]
        simp [hsuppressed]
      · next memo₁ hpair =>
        have hfree := not_suppressed_of_suppressor (congrArg Prod.fst hpair)
        cases hrest : keep rule memo₁ violations with
        | error fault =>
            rw [hrest] at h
            cases h
        | ok rest =>
            rw [hrest] at h
            cases h
            simp [hfree, ih hrest]

theorem exists_keep
    {violations : List Violation} (hread : ∀ v ∈ violations, v.tree.Readable)
    (rule : String) (memo : Memo) : ∃ result, keep rule memo violations = .ok result := by
  induction violations generalizing memo with
  | nil => exact ⟨_, rfl⟩
  | cons v violations ih =>
      obtain ⟨hv, hrest⟩ := List.forall_mem_cons.mp hread
      obtain ⟨answer, hanswer⟩ :=
        exists_suppressor (i := v.node) (fun d _ => not_unreadable_of_readable hv d) rule memo
      unfold keep
      split
      · next hpair =>
        rw [hpair] at hanswer
        cases hanswer
      · exact ih hrest _
      · obtain ⟨result, hresult⟩ := ih hrest _
        rw [hresult]
        exact ⟨_, rfl⟩

theorem apply_records
    {memo memo' : Memo} {i : t.Pos} {rule : Rule} {events : List Event}
    (hkind : t.kind i ∈ rule.kinds) (h : apply t memo i rule = .ok (events, memo')) :
    records events = contribution t i rule := by
  unfold apply at h
  unfold contribution
  split at h
  · cases h
  · next d memo₁ hpair =>
    have hsuppressed := suppressed_of_suppressor (congrArg Prod.fst hpair)
    cases h
    simp [hsuppressed, records, record?]
  · next memo₁ hpair =>
    have hfree := not_suppressed_of_suppressor (congrArg Prod.fst hpair)
    simp only [hkind, not_true_eq_false, hfree, or_self, if_false]
    cases hcheck : rule.check t i with
    | error fault =>
        simp only [hcheck, failure] at h
        cases hmessage : fault.message with
        | error unwritable =>
            rw [hmessage] at h
            cases h
        | ok text =>
            rw [hmessage] at h
            cases h
            simp only [hmessage]
            rfl
    | ok violations =>
        simp only [hcheck] at h
        rw [keep_eq_ok h, records, List.filterMap_map]
        exact congrFun List.filterMap_eq_map' _

theorem exists_apply
    {rules : List Rule} {rule : Rule} (h : Legible rules t) (hrule : rule ∈ rules)
    (memo : Memo) (i : t.Pos) : ∃ result, apply t memo i rule = .ok result := by
  obtain ⟨answer, hanswer⟩ :=
    exists_suppressor (i := i) (fun d _ => not_unreadable_of_readable h.comments d) rule.name memo
  unfold apply
  split
  · next hpair =>
    rw [hpair] at hanswer
    cases hanswer
  · exact ⟨_, rfl⟩
  · split
    · next fault hcheck =>
      obtain ⟨text, htext⟩ := h.faults rule hrule i fault hcheck
      rw [failure, htext]
      exact ⟨_, rfl⟩
    · next found hcheck =>
      exact exists_keep (h.violations rule hrule i found hcheck) _ _

theorem applyAll_records
    {memo : Memo} {tried : List (t.Pos × Rule)} {events : List Event}
    (hkinds : ∀ pair ∈ tried, t.kind pair.1 ∈ pair.2.kinds)
    (h : applyAll t memo tried = .ok events) :
    records events = tried.flatMap fun pair => contribution t pair.1 pair.2 := by
  induction tried generalizing memo events with
  | nil =>
      cases h
      rfl
  | cons pair rest ih =>
      obtain ⟨i, rule⟩ := pair
      obtain ⟨hkind, hkinds⟩ := List.forall_mem_cons.mp hkinds
      unfold applyAll at h
      split at h
      · cases h
      · next first memo' happly =>
        cases hlater : applyAll t memo' rest with
        | error fault =>
            rw [hlater] at h
            cases h
        | ok later =>
            rw [hlater] at h
            cases h
            rw [List.flatMap_cons, ← ih hkinds hlater, ← apply_records hkind happly]
            exact List.filterMap_append

theorem exists_applyAll
    {rules : List Rule} {tried : List (t.Pos × Rule)} (h : Legible rules t)
    (hrules : ∀ pair ∈ tried, pair.2 ∈ rules) (memo : Memo) :
    ∃ events, applyAll t memo tried = .ok events := by
  induction tried generalizing memo with
  | nil => exact ⟨[], rfl⟩
  | cons pair rest ih =>
      obtain ⟨i, rule⟩ := pair
      obtain ⟨hrule, hrest⟩ := List.forall_mem_cons.mp hrules
      obtain ⟨⟨first, memo'⟩, happly⟩ := exists_apply h hrule memo i
      obtain ⟨later, hlater⟩ := ih hrest memo'
      simp only [applyAll, happly, hlater]
      exact ⟨_, rfl⟩

theorem mem_pairs_iff
    {rules : List Rule} {i : t.Pos} {rule : Rule} :
    (i, rule) ∈ pairs rules t ↔ rule ∈ rules ∧ t.kind i ∈ rule.kinds := by
  simp [pairs, Rule.appliesTo, Tree.mem_walk]

/-- A run that nothing ends early reaches its end. -/
theorem exists_run
    {rules : List Rule} (h : Legible rules t) : ∃ events, run rules t = .ok events :=
  exists_applyAll h (fun _ hpair => (mem_pairs_iff.mp hpair).1) Memo.empty

theorem contribution_of_not_applies
    {i : t.Pos} {rule : Rule} (h : t.kind i ∉ rule.kinds) :
    contribution t i rule = [] := by
  simp [contribution, h]

/-- The rules that do not apply to a node contribute nothing there. -/
theorem flatMap_contribution_filter
    (rules : List Rule) (i : t.Pos) :
    (rules.filter (·.appliesTo (t.kind i))).flatMap (contribution t i) =
      rules.flatMap (contribution t i) := by
  induction rules with
  | nil => rfl
  | cons rule rules ih =>
      by_cases happlies : t.kind i ∈ rule.kinds
      · have hfilter : rule.appliesTo (t.kind i) = true := by
          simpa [Rule.appliesTo] using happlies
        simp only [List.filter_cons, hfilter, if_true, List.flatMap_cons, ih]
      · have hfilter : ¬ rule.appliesTo (t.kind i) = true := by
          simpa [Rule.appliesTo] using happlies
        simp only [List.filter_cons, hfilter, Bool.false_eq_true, if_false, ih,
          List.flatMap_cons, contribution_of_not_applies happlies, List.nil_append]

theorem records_eq_flatMap
    {rules : List Rule} {events : List Event} (h : run rules t = .ok events) :
    records events =
      t.walk.flatMap fun i => rules.flatMap (contribution t i) := by
  have hkinds : ∀ pair ∈ pairs rules t, t.kind pair.1 ∈ pair.2.kinds :=
    fun _ hpair => (mem_pairs_iff.mp hpair).2
  rw [applyAll_records hkinds h]
  unfold pairs
  rw [List.flatMap_assoc]
  congr 1
  funext i
  rw [List.flatMap_map]
  exact flatMap_contribution_filter rules i

/-! ## Pairs do not influence each other -/

theorem contribution_congr
    {rule other : Rule} {i : t.Pos}
    (hinfo : other.toRuleInfo = rule.toRuleInfo)
    (hcheck : other.check t i = rule.check t i) :
    contribution t i other = contribution t i rule := by
  unfold contribution
  rw [hinfo, hcheck]

/-- Two lists of rules that differ in one rule, and there only at `i`, contribute the same at all
nodes other than `i`. -/
theorem flatMap_contribution_congr
    {before after : List Rule} {rule other : Rule} {i : t.Pos}
    (hinfo : other.toRuleInfo = rule.toRuleInfo)
    (hcheck : ∀ j, j ≠ i → other.check t j = rule.check t j)
    {nodes : List t.Pos} (hnodes : i ∉ nodes) :
    nodes.flatMap (fun j => (before ++ other :: after).flatMap (contribution t j)) =
      nodes.flatMap
        (fun j => (before ++ rule :: after).flatMap (contribution t j)) := by
  have hpoint : ∀ j ∈ nodes,
      (before ++ other :: after).flatMap (contribution t j) =
        (before ++ rule :: after).flatMap (contribution t j) := by
    intro j hj
    have hne : j ≠ i := by
      intro heq
      exact hnodes (heq ▸ hj)
    simp only [List.flatMap_append, List.flatMap_cons,
      contribution_congr hinfo (hcheck j hne)]
  exact List.flatMap_congr hpoint

/-- A run comes to its end when nothing ends it early, and it hands over the contributions of its
pairs, nodes in walk order and rules in their order.  So when one rule behaves differently at one
node, say because it breaks down there, all that changes is the contribution of that pair. -/
theorem run_hands_over_contributions
    (t : Tree) (rules : List Rule) :
    (Legible rules t → ∃ events, run rules t = .ok events) ∧
      (∀ events, run rules t = .ok events →
        records events = t.walk.flatMap (fun i => rules.flatMap (contribution t i))) ∧
      ∀ (before after : List Rule) (rule other : Rule) (i : t.Pos),
        other.toRuleInfo = rule.toRuleInfo →
        (∀ j, j ≠ i → other.check t j = rule.check t j) →
        ∃ earlier later,
          (∀ events, run (before ++ rule :: after) t = .ok events →
            records events = earlier ++ contribution t i rule ++ later) ∧
          ∀ events, run (before ++ other :: after) t = .ok events →
            records events = earlier ++ contribution t i other ++ later := by
  refine ⟨exists_run, fun events => records_eq_flatMap, ?_⟩
  intro before after rule other i hinfo hcheck
  obtain ⟨left, right, hwalk⟩ := List.append_of_mem (t.mem_walk i)
  have hnodup := t.nodup_walk
  rw [hwalk] at hnodup
  have hleft : i ∉ left := by
    intro hmem
    exact (List.disjoint_of_nodup_append hnodup) hmem List.mem_cons_self
  have hright : i ∉ right :=
    (List.nodup_cons.mp (List.nodup_append.mp hnodup).2.1).1
  let atNode := fun j => (before ++ rule :: after).flatMap (contribution t j)
  refine ⟨left.flatMap atNode ++ before.flatMap (contribution t i),
    after.flatMap (contribution t i) ++ right.flatMap atNode, ?_, ?_⟩
  · intro events hrun
    rw [records_eq_flatMap hrun, hwalk]
    simp [atNode]
  · intro events hrun
    rw [records_eq_flatMap hrun, hwalk, List.flatMap_append, List.flatMap_cons,
      flatMap_contribution_congr hinfo hcheck hleft,
      flatMap_contribution_congr hinfo hcheck hright]
    simp [atNode]

/-- A function below a unit. -/
def sampleUnit : Tree :=
  (Tree.single "a.php" { kind := .compilationUnit }).extend 0 (by decide)
    { kind := .function, image := .str "f" }

def flagRule : Rule :=
  Script.rule
    { info := { family := Script.family, name := "Flag", kinds := [.compilationUnit, .function] }
      probe := .flag }

/-- The same rule, but it answers nothing at the root. -/
def flagRuleBroken : Rule :=
  { flagRule with
    check := fun t i => if i = t.root then .error .noResult else flagRule.check t i }

theorem readable_sampleUnit : sampleUnit.Readable :=
  Tree.readable_of_forall_isOk (by decide +kernel)

theorem readable_of_flagRule
    {i : t.Pos} {found : List Violation} (ht : t.Readable)
    (h : flagRule.check t i = .ok found) : ∀ v ∈ found, v.tree.Readable := by
  change (Violation.make flagRule.toRuleInfo t i [t.image i]).map ([·]) = .ok found at h
  unfold Violation.make at h
  split at h
  · cases h
    simpa using ht
  · cases h

theorem exists_text_of_flagRule
    {i : t.Pos} {fault : Fault} (h : flagRule.check t i = .error fault) :
    ∃ text, fault.message = .ok text := by
  change (Violation.make flagRule.toRuleInfo t i [t.image i]).map ([·]) = .error fault at h
  unfold Violation.make at h
  split at h
  · cases h
  · cases h
    exact ⟨_, rfl⟩

theorem legible_flagRule : Legible [flagRule] sampleUnit where
  comments := readable_sampleUnit
  violations := by
    intro rule hrule i found hcheck
    rw [List.mem_singleton.mp hrule] at hcheck
    exact readable_of_flagRule readable_sampleUnit hcheck
  faults := by
    intro rule hrule i fault hcheck
    rw [List.mem_singleton.mp hrule] at hcheck
    exact exists_text_of_flagRule hcheck

theorem legible_flagRuleBroken : Legible [flagRuleBroken] sampleUnit where
  comments := readable_sampleUnit
  violations := by
    intro rule hrule i found hcheck
    rw [List.mem_singleton.mp hrule] at hcheck
    simp only [flagRuleBroken] at hcheck
    split at hcheck
    · cases hcheck
    · exact readable_of_flagRule readable_sampleUnit hcheck
  faults := by
    intro rule hrule i fault hcheck
    rw [List.mem_singleton.mp hrule] at hcheck
    simp only [flagRuleBroken] at hcheck
    split at hcheck
    · cases hcheck
      exact ⟨_, rfl⟩
    · exact exists_text_of_flagRule hcheck

theorem run_hands_over_contributions_sample :
    flagRuleBroken.toRuleInfo = flagRule.toRuleInfo ∧
      (∀ j, j ≠ sampleUnit.root →
        flagRuleBroken.check sampleUnit j = flagRule.check sampleUnit j) ∧
      ∃ events broken earlier later,
        run [flagRule] sampleUnit = .ok events ∧
          run [flagRuleBroken] sampleUnit = .ok broken ∧
          records events =
            sampleUnit.walk.flatMap (fun i => [flagRule].flatMap (contribution sampleUnit i)) ∧
          records events =
            earlier ++ contribution sampleUnit sampleUnit.root flagRule ++ later ∧
          records broken =
            earlier ++ contribution sampleUnit sampleUnit.root flagRuleBroken ++ later := by
  have hcheck : ∀ j, j ≠ sampleUnit.root →
      flagRuleBroken.check sampleUnit j = flagRule.check sampleUnit j := by
    intro j hj
    simp [flagRuleBroken, hj]
  obtain ⟨hends, hall, hone⟩ := run_hands_over_contributions sampleUnit [flagRule]
  obtain ⟨events, hevents⟩ := hends legible_flagRule
  obtain ⟨broken, hbroken⟩ :=
    (run_hands_over_contributions sampleUnit [flagRuleBroken]).1 legible_flagRuleBroken
  obtain ⟨earlier, later, hrule, hother⟩ :=
    hone [] [] flagRule flagRuleBroken sampleUnit.root rfl hcheck
  exact ⟨rfl, hcheck, events, broken, earlier, later, hevents, hbroken, hall events hevents,
    hrule events hevents, hother broken hbroken⟩

end Dispatch

end TreeLint

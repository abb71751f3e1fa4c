import TreeLint.Proofs.DispatchRun

/-!
# Answers of one memo to many queries

Queries for suppressors are put one after the other, about any rules and any
nodes of any trees, and the memo of parsed comments is handed on from each to the
next.  A memo keeps the directives of a declaration under its tree and its index,
so it can only hold what parsing that declaration gives, and an answer depends on
its query alone: it is the first silencing declaration on the way from the node
to the root, unless a comment on the way up to there cannot be read.  The way from
a node below passes through the node, which is why nothing below a suppressed node
is free of the rule.
-/

namespace TreeLint.Suppression

structure Query where
  tree : Tree
  rule : Rule
  node : tree.Pos

/-- The declaration that suppresses the rule of a query, if there is one, unless a comment cannot be
read. -/
abbrev Query.Answer (q : Query) := Except Text.Unwritable (Option q.tree.Pos)

/-- The answer to a query, and the memo after it. -/
def Query.ask (q : Query) (memo : Memo) : q.Answer × Memo :=
  suppressor q.tree q.rule.name memo q.node

/-- The answer that a query gets when nothing was asked before. -/
def Query.fresh (q : Query) : (q : Query) × q.Answer :=
  ⟨q, (q.ask Memo.empty).1⟩

/-- Queries with their answers, when they are put one after the other. -/
def answers (memo : Memo) : List Query → List ((q : Query) × q.Answer)
  | [] => []
  | q :: queries =>
    let (answer, memo) := q.ask memo
    ⟨q, answer⟩ :: answers memo queries

variable {t : Tree} {rule : String}

/-- The first declaration in the list of a node, its parent and so on to the root whose comment
silences the rule, or none when there is no such declaration.  A declaration whose comment cannot be
read ends the search when it comes first. -/
inductive Innermost (t : Tree) (rule : String) (i : t.Pos) :
    Except Text.Unwritable (Option t.Pos) → Prop where
  | found {inner outer : List t.Pos} {d : t.Pos}
      (hlineage : t.lineage i = inner ++ d :: outer)
      (hsilences : Silences t rule d)
      (hinner : ∀ e ∈ inner, ¬ Silences t rule e ∧ ¬ Unreadable t e) :
      Innermost t rule i (.ok (some d))
  | nothing (hsilent : ∀ e ∈ t.lineage i, ¬ Silences t rule e ∧ ¬ Unreadable t e) :
      Innermost t rule i (.ok none)
  | unreadable {inner outer : List t.Pos} {d : t.Pos} {fault : Text.Unwritable}
      (hlineage : t.lineage i = inner ++ d :: outer)
      (hunreadable : Unreadable t d)
      (hinner : ∀ e ∈ inner, ¬ Silences t rule e ∧ ¬ Unreadable t e) :
      Innermost t rule i (.error fault)

theorem innermost_suppressor (rule : String) (memo : Memo) (i : t.Pos) :
    Innermost t rule i (suppressor t rule memo i).1 := by
  have hsearch := search_suppressor rule memo i
  generalize (suppressor t rule memo i).1 = answer at hsearch ⊢
  generalize hlineage : t.lineage i = nodes at hsearch
  cases hsearch with
  | found hbefore hd =>
      exact .found hlineage (verdict_eq_ok_true_iff.mp hd) fun e he =>
        verdict_eq_ok_false_iff.mp (hbefore e he)
  | nothing hall =>
      exact .nothing fun e he => verdict_eq_ok_false_iff.mp (hall e (hlineage ▸ he))
  | failed hbefore hd =>
      exact .unreadable hlineage (unreadable_of_verdict hd) fun e he =>
        verdict_eq_ok_false_iff.mp (hbefore e he)

theorem Query.ask_fst (q : Query) (memo : Memo) :
    (q.ask memo).1 = (q.ask Memo.empty).1 := by
  unfold Query.ask
  rw [suppressor_fst, suppressor_fst]

theorem answers_eq_map_fresh (memo : Memo) (queries : List Query) :
    answers memo queries = queries.map Query.fresh := by
  induction queries generalizing memo with
  | nil => rfl
  | cons q queries ih =>
      change ⟨q, (q.ask memo).1⟩ :: answers (q.ask memo).2 queries = _
      rw [ih, Query.ask_fst q memo]
      rfl

/-- What suppresses a rule on a node does so for the nodes below, or something nearer to them does.
-/
theorem exists_suppressor_below
    {i d : t.Pos} (hi : (t.lineage i).findM? (verdict t rule) = .ok (some d)) (j : t.Pos)
    (hj : i ∈ t.lineage j)
    (hread : ∀ e ∈ t.lineage j, i ∈ t.ancestors e → ¬ Unreadable t e) :
    ∃ e, (t.lineage j).findM? (verdict t rule) = .ok (some e) := by
  -- Upwards from `j` the search either stops at a node on the way or comes to `i`.
  induction j using Tree.parent_induction with
  | _ j ih =>
      rcases Tree.mem_lineage_iff.mp hj with rfl | habove
      · exact ⟨d, hi⟩
      · obtain ⟨p, hparent, hmem⟩ := Tree.mem_ancestors_iff.mp habove
        have hreadj := hread j (Tree.self_mem_lineage j) habove
        rw [Tree.lineage, Tree.ancestors_eq_cons hparent]
        by_cases hsilences : Silences t rule j
        · refine ⟨j, ?_⟩
          rw [List.findM?, verdict_eq_ok_true_iff.mpr hsilences]
          rfl
        · rw [findM?_cons_of_false (verdict_eq_ok_false_iff.mpr ⟨hsilences, hreadj⟩)]
          refine ih p hparent hmem fun e he => hread e ?_
          rw [Tree.lineage, Tree.ancestors_eq_cons hparent]
          exact List.mem_cons_of_mem j he

/-- Queries put to one memo get the answers that they get when nothing was asked before, and each
answer is the innermost silencing declaration.  Below a suppressed node every node is suppressed,
unless there is a comment between the two that cannot be read. -/
theorem answers_ignore_history (queries : List Query) :
    answers Memo.empty queries = queries.map Query.fresh ∧
      (∀ answer ∈ answers Memo.empty queries,
        Innermost answer.1.tree answer.1.rule.name answer.1.node answer.2) ∧
      ∀ (t : Tree) (rule : Rule) (i j d : t.Pos) (memo memo' : Memo),
        (suppressor t rule.name memo i).1 = .ok (some d) →
        j ∈ t.descendants i →
        (∀ e ∈ t.lineage j, i ∈ t.ancestors e → ¬ Unreadable t e) →
        ∃ e, (suppressor t rule.name memo' j).1 = .ok (some e) := by
  refine ⟨answers_eq_map_fresh Memo.empty queries, ?_, ?_⟩
  · intro answer hanswer
    rw [answers_eq_map_fresh] at hanswer
    obtain ⟨q, _, rfl⟩ := List.mem_map.mp hanswer
    exact innermost_suppressor q.rule.name Memo.empty q.node
  · intro t rule i j d memo memo' hi hj hread
    rw [suppressor_fst] at hi ⊢
    refine exists_suppressor_below hi j ?_ hread
    rw [Tree.mem_lineage_iff]
    exact Or.inr (Tree.mem_descendants_iff.mp hj)

/-- A class with a comment, a method in it, and a variable in the method. -/
def commentedClass (comment : String) : Tree :=
  ((Tree.single "a.php"
    { kind := .classType, image := .str "C",
      attributes := [("docComment", .str comment)] }).extend 0
    (by simp [Tree.size, Tree.single]) { kind := .method, image := .str "m" }).extend 1
    (by simp [Tree.size, Tree.single, Tree.extend]) { kind := .variableUse, image := .str "$x" }

/-- The class silences all rules. -/
def sampleClass : Tree := commentedClass "@SuppressWarnings(PHPMD)"

/-- It silences none, and differs in nothing else. -/
def sampleOpenClass : Tree := commentedClass ""

def sampleVariable : sampleClass.Pos := ⟨2, by decide⟩

def sampleQuery (i : sampleClass.Pos) : Query := ⟨sampleClass, Dispatch.flagRule, i⟩

def sampleOpenQuery : Query := ⟨sampleOpenClass, Dispatch.flagRule, ⟨2, by decide⟩⟩

theorem answers_ignore_history_sample :
    answers Memo.empty [sampleQuery sampleVariable, sampleOpenQuery] =
        [⟨sampleQuery sampleVariable, .ok (some sampleClass.root)⟩, ⟨sampleOpenQuery, .ok none⟩] ∧
      (suppressor sampleClass "Flag" Memo.empty sampleClass.root).1 = .ok (some sampleClass.root) ∧
      sampleVariable ∈ sampleClass.descendants sampleClass.root ∧
      ∃ d, (suppressor sampleClass "Flag" Memo.empty sampleVariable).1 = .ok (some d) := by
  have hroot : (suppressor sampleClass "Flag" Memo.empty sampleClass.root).1 =
      .ok (some sampleClass.root) := by
    rw [suppressor_fst]
    decide +kernel
  have hbelow : sampleVariable ∈ sampleClass.descendants sampleClass.root := by decide
  have hread : sampleClass.Readable := Tree.readable_of_forall_isOk (by decide +kernel)
  have hclosed : (sampleQuery sampleVariable).fresh =
      ⟨sampleQuery sampleVariable, .ok (some sampleClass.root)⟩ := by
    unfold Query.fresh Query.ask
    rw [suppressor_fst]
    congr 1
    decide +kernel
  have hopen : sampleOpenQuery.fresh = ⟨sampleOpenQuery, .ok none⟩ := by
    unfold Query.fresh Query.ask
    rw [suppressor_fst]
    congr 1
    decide +kernel
  obtain ⟨hanswers, _, hinherit⟩ :=
    answers_ignore_history [sampleQuery sampleVariable, sampleOpenQuery]
  refine ⟨?_, hroot, hbelow,
    hinherit sampleClass Dispatch.flagRule _ _ _ Memo.empty Memo.empty hroot hbelow
      fun e _ _ => not_unreadable_of_readable hread e⟩
  rw [hanswers, List.map_cons, List.map_cons, List.map_nil, hclosed, hopen]

end TreeLint.Suppression

import Mathlib.Algebra.Order.Ring.Cast
import Mathlib.Algebra.Order.Ring.Rat
import Mathlib.Data.List.Perm.Basic
import Mathlib.Data.List.TakeWhile
import Mathlib.Data.Prod.Lex
import TreeLint.Proofs.ReportHistory
import TreeLint.Proofs.TextualTrees
import TreeLint.Report.LineFault

/-!
# The order of a report

A report files violations in tables and puts them in order when it is read.  The
tables remember the history well enough for that: a violation lies in the list
of its own file and line, and every such list is in the order of arrival.  So
what is read is the stable sort of the history by file and line.

A stable sort is known by its parts.  Two lists in ascending order of a key that
have the same members with each key, in the same order, are one list.
-/

namespace TreeLint

/-! ## Stable sorts -/

section StableSort

variable {α κ : Type} [LinearOrder κ] {key : α → κ}

theorem mem_of_filter_eq
    {xs ys : List α} {a : α}
    (hfilter : ∀ k, xs.filter (key · = k) = ys.filter (key · = k))
    (ha : a ∈ xs) : a ∈ ys := by
  have hmem : a ∈ xs.filter (key · = key a) := List.mem_filter.mpr ⟨ha, by simp⟩
  rw [hfilter] at hmem
  exact (List.mem_filter.mp hmem).1

theorem key_head_le
    {x a : α} {xs : List α}
    (hpair : (x :: xs).Pairwise fun a b => key a ≤ key b)
    (ha : a ∈ x :: xs) : key x ≤ key a := by
  rcases List.mem_cons.mp ha with heq | hlater
  · rw [heq]
  · exact (List.pairwise_cons.mp hpair).1 a hlater

/-- A list in ascending order is known by its members with each key. -/
theorem eq_of_filter_eq
    {xs ys : List α}
    (hxs : xs.Pairwise fun a b => key a ≤ key b)
    (hys : ys.Pairwise fun a b => key a ≤ key b)
    (hfilter : ∀ k, xs.filter (key · = k) = ys.filter (key · = k)) :
    xs = ys := by
  induction xs generalizing ys with
  | nil =>
      cases ys with
      | nil => rfl
      | cons y ys =>
          exact absurd (mem_of_filter_eq (fun k => (hfilter k).symm) List.mem_cons_self)
            List.not_mem_nil
  | cons x xs ih =>
      cases ys with
      | nil => exact absurd (mem_of_filter_eq hfilter List.mem_cons_self) List.not_mem_nil
      | cons y ys =>
          have hkey : key x = key y := by
            apply le_antisymm
            · exact key_head_le hxs
                (mem_of_filter_eq (fun k => (hfilter k).symm) List.mem_cons_self)
            · exact key_head_le hys (mem_of_filter_eq hfilter List.mem_cons_self)
          have hhead : x = y := by
            have heq := hfilter (key y)
            simp only [List.filter_cons, hkey, decide_true, if_true] at heq
            exact (List.cons.inj heq).1
          subst hhead
          have htail (k : κ) : xs.filter (key · = k) = ys.filter (key · = k) := by
            have heq := hfilter k
            simp only [List.filter_cons] at heq
            split at heq
            · exact (List.cons.inj heq).2
            · exact heq
          rw [ih (List.pairwise_cons.mp hxs).2 (List.pairwise_cons.mp hys).2 htail]

theorem mergeSort_key_trans (a b c : α)
    (hab : decide (key a ≤ key b) = true) (hbc : decide (key b ≤ key c) = true) :
    decide (key a ≤ key c) = true :=
  decide_eq_true (le_trans (of_decide_eq_true hab) (of_decide_eq_true hbc))

theorem mergeSort_key_total (a b : α) :
    (decide (key a ≤ key b) || decide (key b ≤ key a)) = true := by
  simpa using le_total (key a) (key b)

theorem pairwise_mergeSort_key (xs : List α) :
    (xs.mergeSort fun a b => decide (key a ≤ key b)).Pairwise
      fun a b => key a ≤ key b :=
  (List.pairwise_mergeSort mergeSort_key_trans mergeSort_key_total xs).imp
    of_decide_eq_true

/-- Members with one key keep their order. -/
theorem filter_mergeSort_key (xs : List α) (k : κ) :
    (xs.mergeSort fun a b => decide (key a ≤ key b)).filter (key · = k) =
      xs.filter (key · = k) := by
  have hpair : (xs.filter (key · = k)).Pairwise
      fun a b => decide (key a ≤ key b) = true := by
    apply List.pairwise_of_forall_mem_list
    intro a ha b hb
    have hka : key a = k := by simpa using (List.mem_filter.mp ha).2
    have hkb : key b = k := by simpa using (List.mem_filter.mp hb).2
    rw [hka, hkb]
    simp
  have hself : (xs.filter (key · = k)).filter (key · = k) = xs.filter (key · = k) :=
    List.filter_eq_self.mpr fun a ha => (List.mem_filter.mp ha).2
  have hsublist := (List.sublist_mergeSort mergeSort_key_trans mergeSort_key_total
    hpair List.filter_sublist).filter (key · = k)
  rw [hself] at hsublist
  exact (hsublist.eq_of_length ((List.mergeSort_perm xs _).filter _).length_eq.symm).symm

/-- What is in ascending order and has the members of a list with each key in
their order is the stable sort of that list. -/
theorem eq_mergeSort_of_filter_eq
    {xs ys : List α}
    (hxs : xs.Pairwise fun a b => key a ≤ key b)
    (hfilter : ∀ k, xs.filter (key · = k) = ys.filter (key · = k)) :
    xs = ys.mergeSort fun a b => decide (key a ≤ key b) := by
  apply eq_of_filter_eq hxs (pairwise_mergeSort_key ys)
  intro k
  rw [hfilter, filter_mergeSort_key]

end StableSort

/-! ## Lines in order -/

namespace Line

/-- The order of keys is that of their three parts, one after the other. -/
def Key.parts (k : Key) : ℕ ×ₗ ℚ ×ₗ String :=
  toLex (k.rank, toLex (k.amount, k.text))

theorem Key.lt_iff {a b : Key} : a < b ↔ a.parts < b.parts := by
  rw [Key.parts, Key.parts, Prod.Lex.toLex_lt_toLex, Prod.Lex.toLex_lt_toLex]
  rfl

theorem le_iff {a b : Line} : a.le b = true ↔ a.key.parts ≤ b.key.parts := by
  unfold le
  rw [Bool.not_eq_true', decide_eq_false_iff_not, Key.lt_iff, not_lt]

theorem le_trans {a b c : Line} (hab : a.le b = true) (hbc : b.le c = true) :
    a.le c = true :=
  le_iff.mpr ((le_iff.mp hab).trans (le_iff.mp hbc))

theorem le_total (a b : Line) : (a.le b || b.le a) = true := by
  rw [Bool.or_eq_true, le_iff, le_iff]
  exact LinearOrder.le_total _ _

/-- A line as a dump gives it. -/
inductive IsNumber : Line → Prop where
  | number (n : Int) : IsNumber (.number n)
  | flag (b : Bool) : IsNumber (.flag b)

/-- What a line counts as. -/
def ordinal : Line → Int
  | .number n => n
  | .flag b => if b then 1 else 0
  | .other _ => 0

theorem IsNumber.key_eq
    {line : Line} (h : line.IsNumber) :
    line.key = { rank := 1, amount := line.ordinal } := by
  cases h with
  | number n => rfl
  | flag b => cases b <;> rfl

theorem IsNumber.key_eq_iff
    {a b : Line} (ha : a.IsNumber) (hb : b.IsNumber) :
    a.key = b.key ↔ a.ordinal = b.ordinal := by
  rw [ha.key_eq, hb.key_eq]
  simp

theorem IsNumber.le_iff
    {a b : Line} (ha : a.IsNumber) (hb : b.IsNumber) :
    a.le b = true ↔ a.ordinal ≤ b.ordinal := by
  rw [Line.le_iff, ha.key_eq, hb.key_eq, Key.parts, Key.parts,
    Prod.Lex.toLex_le_toLex, Prod.Lex.toLex_le_toLex]
  simp [le_iff_lt_or_eq]

theorem IsNumber.isKey
    {line : Line} (h : line.IsNumber) : line.toValue.isKey = true := by
  cases h <;> rfl

end Line

namespace Report

/-! ## The tables remember the history -/

/-- Whether a violation is filed under a file and the key of a line. -/
def isAt (file : String) (key : Line.Key) (v : Violation) : Bool :=
  v.file = file ∧ v.beginLine.key = key

/-- The violations of a table, as they are filed. -/
def inTable (table : LineTable) : List Violation := table.flatMap Prod.snd

/-- The violations of a report, as they are filed. -/
def filedIn (files : List (String × LineTable)) : List Violation :=
  files.flatMap fun entry => inTable entry.2

/-- The lists of a table have lines of their own. -/
structure Keyed (table : LineTable) : Prop where
  distinct : table.Pairwise fun a b => a.1.key ≠ b.1.key
  own : ∀ bucket ∈ table, ∀ v ∈ bucket.2, v.beginLine.key = bucket.1.key

theorem keyed_nil : Keyed [] where
  distinct := List.Pairwise.nil
  own := by simp

theorem Keyed.tail
    {bucket : Line × List Violation} {table : LineTable}
    (h : Keyed (bucket :: table)) : Keyed table where
  distinct := (List.pairwise_cons.mp h.distinct).2
  own b hb := h.own b (List.mem_cons_of_mem _ hb)

/-- The other lists have no violation on the line of the first one. -/
theorem Keyed.key_ne
    {bucket : Line × List Violation} {table : LineTable} {v : Violation}
    (h : Keyed (bucket :: table)) (hv : v ∈ inTable table) :
    v.beginLine.key ≠ bucket.1.key := by
  obtain ⟨other, hother, hmem⟩ := List.mem_flatMap.mp hv
  rw [h.tail.own other hother v hmem]
  exact ((List.pairwise_cons.mp h.distinct).1 other hother).symm

theorem key_mem_fileLine
    {v : Violation} {table : LineTable} {bucket : Line × List Violation}
    (h : bucket ∈ fileLine v table) :
    bucket.1.key = v.beginLine.key ∨ ∃ old ∈ table, old.1 = bucket.1 := by
  induction table with
  | nil =>
      rw [List.mem_singleton.mp h]
      exact Or.inl rfl
  | cons first rest ih =>
      obtain ⟨line, found⟩ := first
      unfold fileLine at h
      by_cases hline : line.key = v.beginLine.key
      · rw [if_pos hline] at h
        rcases List.mem_cons.mp h with heq | hrest
        · rw [heq]
          exact Or.inl hline
        · exact Or.inr ⟨bucket, List.mem_cons_of_mem _ hrest, rfl⟩
      · rw [if_neg hline] at h
        rcases List.mem_cons.mp h with heq | hrest
        · exact Or.inr ⟨(line, found), List.mem_cons_self, by rw [heq]⟩
        · rcases ih hrest with hkey | ⟨old, hold, heq⟩
          · exact Or.inl hkey
          · exact Or.inr ⟨old, List.mem_cons_of_mem _ hold, heq⟩

theorem Keyed.fileLine
    {table : LineTable}
    (h : Keyed table) (v : Violation) : Keyed (fileLine v table) := by
  induction table with
  | nil =>
      refine ⟨List.pairwise_singleton _ _, ?_⟩
      intro bucket hbucket w hw
      rw [List.mem_singleton.mp hbucket] at hw ⊢
      rw [List.mem_singleton.mp hw]
  | cons first rest ih =>
      obtain ⟨line, found⟩ := first
      obtain ⟨hfirst, _⟩ := List.pairwise_cons.mp h.distinct
      unfold Report.fileLine
      by_cases hline : line.key = v.beginLine.key
      · rw [if_pos hline]
        refine ⟨List.pairwise_cons.mpr ⟨hfirst, h.tail.distinct⟩, ?_⟩
        refine List.forall_mem_cons.mpr ⟨?_, h.tail.own⟩
        intro w hw
        rcases List.mem_append.mp hw with hold | hnew
        · exact h.own _ List.mem_cons_self w hold
        · rw [List.mem_singleton.mp hnew]
          exact hline.symm
      · rw [if_neg hline]
        have hrest := ih h.tail
        refine ⟨List.pairwise_cons.mpr ⟨?_, hrest.distinct⟩, ?_⟩
        · intro bucket hbucket
          rcases key_mem_fileLine hbucket with hkey | ⟨old, hold, heq⟩
          · rw [hkey]
            exact hline
          · rw [← heq]
            exact hfirst old hold
        · exact List.forall_mem_cons.mpr ⟨h.own _ List.mem_cons_self, hrest.own⟩

/-- A violation may be listed before others that are filed elsewhere. -/
theorem filter_isAt_comm
    {file : String} {key : Line.Key} {v : Violation} {others : List Violation}
    (hothers : ∀ w ∈ others, ¬ (w.file = v.file ∧ w.beginLine.key = v.beginLine.key)) :
    [v].filter (isAt file key) ++ others.filter (isAt file key) =
      others.filter (isAt file key) ++ [v].filter (isAt file key) := by
  by_cases hv : isAt file key v = true
  · have hnone : others.filter (isAt file key) = [] := by
      rw [List.filter_eq_nil_iff]
      intro w hw hat
      simp only [isAt, decide_eq_true_eq] at hv hat
      exact hothers w hw ⟨hat.1.trans hv.1.symm, hat.2.trans hv.2.symm⟩
    rw [hnone, List.append_nil, List.nil_append]
  · have hnone : [v].filter (isAt file key) = [] := by simpa using hv
    rw [hnone, List.append_nil, List.nil_append]

theorem filter_inTable_fileLine
    {table : LineTable}
    (h : Keyed table) (v : Violation) (file : String) (key : Line.Key) :
    (inTable (fileLine v table)).filter (isAt file key) =
      (inTable table).filter (isAt file key) ++ [v].filter (isAt file key) := by
  induction table with
  | nil => rfl
  | cons first rest ih =>
      obtain ⟨line, found⟩ := first
      unfold fileLine
      by_cases hline : line.key = v.beginLine.key
      · rw [if_pos hline]
        have hcomm : [v].filter (isAt file key) ++ (inTable rest).filter (isAt file key) =
            (inTable rest).filter (isAt file key) ++ [v].filter (isAt file key) := by
          apply filter_isAt_comm
          rintro w hw ⟨_, hkey⟩
          exact h.key_ne hw (hkey.trans hline.symm)
        change (found ++ [v] ++ inTable rest).filter _ =
          (found ++ inTable rest).filter _ ++ _
        rw [List.filter_append, List.filter_append, List.filter_append,
          List.append_assoc, hcomm, List.append_assoc]
      · rw [if_neg hline]
        change (found ++ inTable (fileLine v rest)).filter _ =
          (found ++ inTable rest).filter _ ++ _
        rw [List.filter_append, List.filter_append, ih h.tail, List.append_assoc]

theorem filter_filedIn_alter
    {files : List (String × LineTable)}
    (hascending : Ordered.Ascending files)
    (hown : ∀ entry ∈ files, ∀ w ∈ inTable entry.2, w.file = entry.1)
    (hkeyed : ∀ entry ∈ files, Keyed entry.2)
    (v : Violation) (file : String) (key : Line.Key) :
    (filedIn (Ordered.alter v.file (fun found => fileLine v (found.getD [])) files)).filter
        (isAt file key) =
      (filedIn files).filter (isAt file key) ++ [v].filter (isAt file key) := by
  induction files with
  | nil => rfl
  | cons first rest ih =>
      obtain ⟨name, table⟩ := first
      obtain ⟨hfirst, hrest⟩ := List.pairwise_cons.mp hascending
      obtain ⟨hownFirst, hownRest⟩ := List.forall_mem_cons.mp hown
      obtain ⟨hkeyedFirst, hkeyedRest⟩ := List.forall_mem_cons.mp hkeyed
      have hlater (w : Violation) (hw : w ∈ filedIn rest) : name < w.file := by
        obtain ⟨entry, hentry, hmem⟩ := List.mem_flatMap.mp hw
        rw [hownRest entry hentry w hmem]
        exact hfirst entry hentry
      unfold Ordered.alter
      by_cases hlt : v.file < name
      · rw [if_pos hlt]
        change ([v] ++ filedIn ((name, table) :: rest)).filter _ = _
        rw [List.filter_append]
        apply filter_isAt_comm
        rintro w hw ⟨hfile, _⟩
        rcases List.mem_append.mp hw with hhere | hthere
        · rw [hownFirst w hhere] at hfile
          exact absurd hlt (hfile ▸ lt_irrefl _)
        · have hbehind := hlater w hthere
          rw [hfile] at hbehind
          exact lt_asymm hlt hbehind
      rw [if_neg hlt]
      by_cases heq : v.file = name
      · rw [if_pos heq]
        have hcomm : [v].filter (isAt file key) ++ (filedIn rest).filter (isAt file key) =
            (filedIn rest).filter (isAt file key) ++ [v].filter (isAt file key) := by
          apply filter_isAt_comm
          rintro w hw ⟨hfile, _⟩
          have hbehind := hlater w hw
          rw [hfile, heq] at hbehind
          exact lt_irrefl _ hbehind
        change (inTable (fileLine v table) ++ filedIn rest).filter _ =
          (inTable table ++ filedIn rest).filter _ ++ _
        rw [List.filter_append, List.filter_append,
          filter_inTable_fileLine hkeyedFirst, List.append_assoc, hcomm,
          List.append_assoc]
      · rw [if_neg heq]
        change (inTable table ++ filedIn _).filter _ =
          (inTable table ++ filedIn rest).filter _ ++ _
        rw [List.filter_append, List.filter_append, ih hrest hownRest hkeyedRest,
          List.append_assoc]

/-- A report that remembers a history: what was filed under a file and a line is
there, in the order in which it came. -/
structure Remembers (report : Report) (history : List Violation) : Prop where
  filed : Filed (fun _ => True) report
  keyed : ∀ entry ∈ report.files, Keyed entry.2
  recorded : ∀ file key,
    (filedIn report.files).filter (isAt file key) = history.filter (isAt file key)

theorem Filed.file_eq
    {P : Violation → Prop} {report : Report}
    (h : Filed P report) :
    ∀ entry ∈ report.files, ∀ v ∈ inTable entry.2, v.file = entry.1 := by
  intro entry hentry v hv
  obtain ⟨bucket, hbucket, hmem⟩ := List.mem_flatMap.mp hv
  exact ((h.buckets entry hentry bucket hbucket).own v hmem).1

theorem remembers_empty : Remembers {} [] where
  filed := filed_empty
  keyed := by simp
  recorded _ _ := rfl

theorem Remembers.add
    {report : Report} {history : List Violation}
    (h : report.Remembers history) (v : Violation) :
    (report.add v).Remembers (history ++ [v]) where
  filed := h.filed.add trivial
  keyed := by
    refine Ordered.forall_mem_alter ?_ (fun table htable => ?_) h.keyed
    · exact keyed_nil.fileLine v
    · exact htable.fileLine v
  recorded file key := by
    rw [List.filter_append, ← h.recorded]
    exact filter_filedIn_alter h.filed.ascending h.filed.file_eq h.keyed v file key

theorem Remembers.addError
    {report : Report} {history : List Violation}
    (h : report.Remembers history) (error : ProcessingError) :
    (report.addError error).Remembers history :=
  ⟨h.filed.addError error, h.keyed, h.recorded⟩

theorem Remembers.addAll
    {report : Report} {history : List Violation}
    (h : report.Remembers history) (violations : List Violation) :
    (violations.foldl Report.add report).Remembers (history ++ violations) := by
  induction violations generalizing report history with
  | nil =>
      rw [List.append_nil]
      exact h
  | cons v violations ih =>
      rw [List.append_cons]
      exact ih (h.add v)

theorem Remembers.apply
    {report : Report} {history : List Violation}
    (h : report.Remembers history) (step : Step) :
    (step.apply report).Remembers (history ++ step.violations) := by
  rw [Step.apply_eq]
  exact List.foldlRecOn (motive := fun later => later.Remembers (history ++ step.violations))
    step.errors Report.addError (h.addAll step.violations)
    fun _ hbefore error _ => hbefore.addError error

/-- A report remembers all that was ever added to it. -/
theorem remembers_after (steps : List Step) :
    (after steps).Remembers (addedViolations steps) := by
  have hrun {report : Report} {history : List Violation}
      (h : report.Remembers history) :
      (steps.foldl Step.apply report).Remembers (history ++ addedViolations steps) := by
    induction steps generalizing report history with
    | nil =>
        rw [addedViolations, List.flatMap_nil, List.append_nil]
        exact h
    | cons step steps ih =>
        rw [addedViolations, List.flatMap_cons, ← List.append_assoc]
        exact ih (h.apply step)
  exact hrun remembers_empty

/-! ## Reading a report -/

theorem inFile_perm_inTable (table : LineTable) :
    (inFile table).Perm (inTable table) :=
  (List.mergeSort_perm table _).flatMap_right Prod.snd

/-- Where at most one part is not empty, the order of the parts does not show. -/
theorem flatMap_eq_of_perm
    {α β : Type} {xs ys : List α} {parts : α → List β}
    (hperm : xs.Perm ys)
    (hone : xs.Pairwise fun a b => parts a = [] ∨ parts b = []) :
    xs.flatMap parts = ys.flatMap parts := by
  induction hperm with
  | nil => rfl
  | cons a _ ih =>
      rw [List.flatMap_cons, List.flatMap_cons, ih (List.pairwise_cons.mp hone).2]
  | swap a b rest =>
      simp only [List.flatMap_cons]
      rcases (List.pairwise_cons.mp hone).1 a List.mem_cons_self with hnil | hnil
      · rw [hnil, List.nil_append, List.nil_append]
      · rw [hnil, List.nil_append, List.nil_append]
  | trans hfirst _ ih₁ ih₂ =>
      exact (ih₁ hone).trans (ih₂ (hfirst.pairwise hone fun h => h.symm))

/-- Putting the lines of a table in order keeps each list as it is. -/
theorem Keyed.filter_inFile
    {table : LineTable}
    (h : Keyed table) (file : String) (key : Line.Key) :
    (inFile table).filter (isAt file key) = (inTable table).filter (isAt file key) := by
  rw [inFile, inTable, List.filter_flatMap, List.filter_flatMap]
  symm
  apply flatMap_eq_of_perm (List.mergeSort_perm table _).symm
  apply h.distinct.imp_of_mem
  intro a b ha hb hne
  have hnil (bucket : Line × List Violation) (hbucket : bucket ∈ table)
      (hkey : bucket.1.key ≠ key) : bucket.2.filter (isAt file key) = [] := by
    rw [List.filter_eq_nil_iff]
    intro v hv hat
    simp only [isAt, decide_eq_true_eq] at hat
    exact hkey ((h.own bucket hbucket v hv).symm.trans hat.2)
  by_cases hkey : a.1.key = key
  · exact Or.inr (hnil b hb fun hsame => hne (hkey.trans hsame.symm))
  · exact Or.inl (hnil a ha hkey)

theorem Remembers.filter_violations
    {report : Report} {history : List Violation}
    (h : report.Remembers history) (file : String) (key : Line.Key) :
    report.violations.filter (isAt file key) = history.filter (isAt file key) := by
  rw [← h.recorded, violations, filedIn, List.filter_flatMap, List.filter_flatMap]
  rw [List.flatMap_def, List.flatMap_def]
  congr 1
  apply List.map_congr_left
  intro entry hentry
  exact (h.keyed entry hentry).filter_inFile file key

/-- The violations of a file ascend by line. -/
theorem Keyed.ascending_inFile
    {table : LineTable} (h : Keyed table) :
    (inFile table).Pairwise fun v w => v.beginLine.key.parts ≤ w.beginLine.key.parts := by
  have hsorted : (table.mergeSort fun a b => a.1.le b.1).Pairwise
      fun a b => a.1.le b.1 = true := by
    apply List.pairwise_mergeSort
    · intro a b c
      exact Line.le_trans
    · intro a b
      exact Line.le_total a.1 b.1
  have hkey {bucket : Line × List Violation}
      (hbucket : bucket ∈ table.mergeSort fun a b => a.1.le b.1)
      {v : Violation} (hv : v ∈ bucket.2) : v.beginLine.key = bucket.1.key :=
    h.own bucket (List.mem_mergeSort.mp hbucket) v hv
  rw [inFile, List.pairwise_flatMap]
  constructor
  · intro bucket hbucket
    apply List.pairwise_of_forall_mem_list
    intro v hv w hw
    rw [hkey hbucket hv, hkey hbucket hw]
  · apply hsorted.imp_of_mem
    intro a b ha hb hle v hv w hw
    rw [hkey ha hv, hkey hb hw]
    exact Line.le_iff.mp hle

theorem Remembers.ascending_violations
    {report : Report} {history : List Violation}
    (h : report.Remembers history) :
    report.violations.Pairwise fun v w => v.file < w.file ∨
      v.file = w.file ∧ v.beginLine.key.parts ≤ w.beginLine.key.parts := by
  have hfile {entry : String × LineTable} (hentry : entry ∈ report.files)
      {v : Violation} (hv : v ∈ inFile entry.2) : v.file = entry.1 :=
    ((h.filed.bucket_inFile hentry).own v hv).1
  rw [violations, List.pairwise_flatMap]
  constructor
  · intro entry hentry
    apply (h.keyed entry hentry).ascending_inFile.imp_of_mem
    intro v w hv hw hle
    exact Or.inr ⟨(hfile hentry hv).trans (hfile hentry hw).symm, hle⟩
  · apply h.filed.ascending.imp_of_mem
    intro a b ha hb hlt v hv w hw
    rw [hfile ha hv, hfile hb hw]
    exact Or.inl hlt

theorem violations_perm_filedIn (report : Report) :
    report.violations.Perm (filedIn report.files) :=
  List.Perm.flatMap_left report.files fun entry _ => inFile_perm_inTable entry.2

theorem count_eq_length (report : Report) :
    report.count = report.violations.length :=
  (violations_perm_filedIn report).length_eq.symm

theorem Filed.isEmpty_iff
    {P : Violation → Prop} {report : Report}
    (h : Filed P report) :
    report.isEmpty = true ↔ report.violations = [] := by
  rw [isEmpty, List.isEmpty_iff, violations, List.flatMap_eq_nil_iff]
  constructor
  · intro hnil
    simp [hnil]
  · intro hall
    apply List.eq_nil_iff_forall_not_mem.mpr
    intro entry hentry
    exact (h.bucket_inFile hentry).some_found (hall entry hentry)

theorem Remembers.mem_history
    {report : Report} {history : List Violation} {v : Violation}
    (h : report.Remembers history) (hv : v ∈ filedIn report.files) : v ∈ history := by
  have hmem : v ∈ (filedIn report.files).filter (isAt v.file v.beginLine.key) :=
    List.mem_filter.mpr ⟨hv, by simp [isAt]⟩
  rw [h.recorded] at hmem
  exact (List.mem_filter.mp hmem).1

theorem firstDisorder?_eq_none
    {lines : List Line}
    (h : ∀ line ∈ lines, line.key.rank = 1) : firstDisorder? lines = none := by
  cases lines with
  | nil => rfl
  | cons first rest =>
      obtain ⟨hfirst, hrest⟩ := List.forall_mem_cons.mp h
      have hnil : rest.dropWhile first.isOrdered = [] := by
        rw [List.dropWhile_eq_nil_iff]
        intro line hline
        simp [Line.isOrdered, hfirst, hrest line hline]
      rw [firstDisorder?, hnil]

/-- Numbers have an order among them, so that a report of numbered lines can be
read. -/
theorem Remembers.disorder?_eq_none
    {report : Report} {history : List Violation}
    (h : report.Remembers history)
    (hnumbers : ∀ v ∈ history, v.beginLine.IsNumber) :
    report.disorder? = none := by
  rw [disorder?, List.findSome?_eq_none_iff]
  intro entry hentry
  apply firstDisorder?_eq_none
  intro line hline
  obtain ⟨bucket, hbucket, rfl⟩ := List.mem_map.mp hline
  obtain ⟨v, hv⟩ :=
    List.exists_mem_of_ne_nil _ (h.filed.buckets entry hentry bucket hbucket).some_found
  have hfiled : v ∈ filedIn report.files :=
    List.mem_flatMap.mpr ⟨entry, hentry, List.mem_flatMap.mpr ⟨bucket, hbucket, hv⟩⟩
  have hnumber := hnumbers v (h.mem_history hfiled)
  rw [← (h.keyed entry hentry).own bucket hbucket v hv, hnumber.key_eq]

end Report

/-! ## The order of a history -/

/-- What violations are put in order by: the file, and then the line. -/
def Violation.place (v : Violation) : String ×ₗ ℤ :=
  toLex (v.file, v.beginLine.ordinal)

namespace Report

/-- A list has the members of a history in ascending order of their places, and
those at one place in the order of the history. -/
structure StablySorts (sorted history : List Violation) : Prop where
  perm : sorted.Perm history
  ascending : sorted.Pairwise fun v w => v.place ≤ w.place
  stable : ∀ place, sorted.filter (·.place = place) = history.filter (·.place = place)

section Numbered

variable {report : Report} {history : List Violation}

/-- On numbered lines a place is a file and the key of a line. -/
theorem filter_place
    (hnumbers : ∀ v ∈ history, v.beginLine.IsNumber) (place : String ×ₗ ℤ) :
    history.filter (·.place = place) =
      history.filter (isAt (ofLex place).1 (Line.number (ofLex place).2).key) := by
  apply List.filter_congr
  intro v hv
  have hkey := (hnumbers v hv).key_eq_iff (Line.IsNumber.number (ofLex place).2)
  rw [isAt, decide_eq_decide, hkey]
  exact Prod.ext_iff

theorem Remembers.mem_violations
    (h : report.Remembers history) {v : Violation} (hv : v ∈ report.violations) :
    v ∈ history :=
  h.mem_history ((violations_perm_filedIn report).mem_iff.mp hv)

theorem Remembers.ascending_place
    (h : report.Remembers history)
    (hnumbers : ∀ v ∈ history, v.beginLine.IsNumber) :
    report.violations.Pairwise fun v w => v.place ≤ w.place := by
  apply h.ascending_violations.imp_of_mem
  intro v w hv hw hle
  have hv := hnumbers v (h.mem_violations hv)
  have hw := hnumbers w (h.mem_violations hw)
  rw [Violation.place, Violation.place, Prod.Lex.toLex_le_toLex, ← hv.le_iff hw,
    Line.le_iff]
  exact hle

theorem Remembers.filter_place_violations
    (h : report.Remembers history)
    (hnumbers : ∀ v ∈ history, v.beginLine.IsNumber) (place : String ×ₗ ℤ) :
    report.violations.filter (·.place = place) = history.filter (·.place = place) := by
  rw [filter_place hnumbers, ← h.filter_violations]
  exact filter_place (fun v hv => hnumbers v (h.mem_violations hv)) place

theorem Remembers.violations_eq_mergeSort
    (h : report.Remembers history)
    (hnumbers : ∀ v ∈ history, v.beginLine.IsNumber) :
    report.violations = history.mergeSort fun v w => decide (v.place ≤ w.place) :=
  eq_mergeSort_of_filter_eq (h.ascending_place hnumbers)
    (h.filter_place_violations hnumbers)

end Numbered

/-- After every history with numbered lines, no violation has been refused and
the report can be read.  It lists the stable sort of the violations by file and
line, counts them, is empty when there are none, and has the errors as they
came. -/
theorem after_lists_stable_sort
    (steps : List Step)
    (hsteps : ∀ v ∈ addedViolations steps, v.beginLine.IsNumber) :
    (∀ v ∈ addedViolations steps, refusal? v = none) ∧
      (after steps).disorder? = none ∧
      StablySorts (after steps).violations (addedViolations steps) ∧
      (after steps).violations =
        (addedViolations steps).mergeSort (fun v w => decide (v.place ≤ w.place)) ∧
      (after steps).count = (after steps).violations.length ∧
      ((after steps).isEmpty = true ↔ addedViolations steps = []) ∧
      (after steps).errors = addedErrors steps := by
  have hreport := remembers_after steps
  have hsorted := hreport.violations_eq_mergeSort hsteps
  have hperm : (after steps).violations.Perm (addedViolations steps) := by
    rw [hsorted]
    exact List.mergeSort_perm _ _
  refine ⟨?_, hreport.disorder?_eq_none hsteps, ?_, hsorted, count_eq_length _, ?_,
    errors_after steps⟩
  · intro v hv
    exact if_pos (hsteps v hv).isKey
  · exact ⟨hperm, hreport.ascending_place hsteps, hreport.filter_place_violations hsteps⟩
  · rw [hreport.filed.isEmpty_iff]
    constructor
    · intro hnil
      rw [hnil] at hperm
      exact hperm.symm.eq_nil
    · intro hnil
      rw [hnil] at hperm
      exact hperm.eq_nil

/-- A violation on a line of a file. -/
def violationOn (file : String) (line : Line) (description : String) : Violation where
  rule := { family := "Sample", name := "Rule" }
  tree := Tree.single file { kind := .variableUse, beginLine := line }
  node := Tree.root _
  description := description
  scopes := {}
  arguments := []

/-- Two files, of which one has violations on a numbered line and on a line that
is a truth value and counts the same. -/
def mixedSteps : List Step :=
  [.violation (violationOn "b.php" (.number 10) "last"), .error ⟨"c.php", "broken"⟩,
    .batch ⟨[violationOn "a.php" (.number 1) "first", violationOn "b.php" (.number 9) "third"],
      [⟨"d.php", "broken too"⟩]⟩,
    .violation (violationOn "a.php" (.flag true) "second")]

theorem after_lists_stable_sort_sample :
    (∀ v ∈ addedViolations mixedSteps, v.beginLine.IsNumber) ∧
      StablySorts (after mixedSteps).violations (addedViolations mixedSteps) ∧
      ((after mixedSteps).violations.filter
          fun v => v.place = toLex ("a.php", 1)).map Violation.description =
        ["first", "second"] ∧
      (after mixedSteps).count = 4 := by
  have hsteps : ∀ v ∈ addedViolations mixedSteps, v.beginLine.IsNumber := by
    intro v hv
    simp only [addedViolations, mixedSteps, List.flatMap_cons, List.flatMap_nil,
      Step.violations, List.cons_append, List.nil_append, List.append_nil,
      List.mem_cons, List.not_mem_nil, or_false] at hv
    rcases hv with rfl | rfl | rfl | rfl
    · exact .number 10
    · exact .number 1
    · exact .number 9
    · exact .flag true
  obtain ⟨_, _, hsorted, _, hcount, _⟩ := after_lists_stable_sort mixedSteps hsteps
  refine ⟨hsteps, hsorted, ?_, ?_⟩
  · rw [hsorted.stable]
    decide
  · rw [hcount, hsorted.perm.length_eq]
    rfl

end Report

end TreeLint

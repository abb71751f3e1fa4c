import Mathlib.Data.String.Basic
import TreeLint.Report.Basic

/-!
# Histories of a report

A report starts empty and only grows: by a violation, by an error, or by what a
unit contributed.  Whatever came in which order, the files ascend, no file and
no line is without violations, and every violation is filed under its own file.
-/

namespace TreeLint.Ordered

section Entries

variable {κ β : Type} [LT κ] [DecidableLT κ] [DecidableEq κ]

/-- What holds of the entries, and is kept by the change, holds afterwards. -/
theorem forall_mem_alter
    {P : κ × β → Prop} {k : κ} {f : Option β → β} {entries : List (κ × β)}
    (hnone : P (k, f none))
    (hsome : ∀ b, P (k, b) → P (k, f (some b)))
    (hentries : ∀ entry ∈ entries, P entry) :
    ∀ entry ∈ alter k f entries, P entry := by
  induction entries with
  | nil =>
      intro entry hentry
      rw [List.mem_singleton.mp hentry]
      exact hnone
  | cons first rest ih =>
      obtain ⟨k', b⟩ := first
      have hfirst := hentries (k', b) List.mem_cons_self
      have hrest : ∀ entry ∈ rest, P entry := fun entry hentry =>
        hentries entry (List.mem_cons_of_mem _ hentry)
      unfold alter
      by_cases hlt : k < k'
      · rw [if_pos hlt]
        exact List.forall_mem_cons.mpr ⟨hnone, hentries⟩
      rw [if_neg hlt]
      by_cases heq : k = k'
      · subst heq
        rw [if_pos rfl]
        exact List.forall_mem_cons.mpr ⟨hsome b hfirst, hrest⟩
      · rw [if_neg heq]
        exact List.forall_mem_cons.mpr ⟨hfirst, ih hrest⟩

end Entries

/-- The keys ascend. -/
def Ascending {β : Type} (entries : List (String × β)) : Prop :=
  entries.Pairwise fun a b => a.1 < b.1

theorem Ascending.alter
    {β : Type} {entries : List (String × β)}
    (hentries : Ascending entries)
    (k : String) (f : Option β → β) :
    Ascending (alter k f entries) := by
  induction entries with
  | nil => exact List.pairwise_singleton _ _
  | cons first rest ih =>
      obtain ⟨k', b⟩ := first
      obtain ⟨hfirst, hrest⟩ := List.pairwise_cons.mp hentries
      unfold Ordered.alter
      by_cases hlt : k < k'
      · rw [if_pos hlt]
        refine List.pairwise_cons.mpr ⟨?_, hentries⟩
        refine List.forall_mem_cons.mpr ⟨hlt, fun entry hentry => ?_⟩
        exact lt_trans hlt (hfirst entry hentry)
      rw [if_neg hlt]
      by_cases heq : k = k'
      · rw [if_pos heq]
        exact List.pairwise_cons.mpr ⟨hfirst, hrest⟩
      · rw [if_neg heq]
        have hbelow : k' < k := lt_of_le_of_ne (not_lt.mp hlt) (Ne.symm heq)
        refine List.pairwise_cons.mpr ⟨?_, ih hrest⟩
        exact forall_mem_alter hbelow (fun _ hk => hk) hfirst

end TreeLint.Ordered

namespace TreeLint.Report

/-! ## Growing a report -/

inductive Step where
  | violation (v : Violation)
  | error (e : ProcessingError)
  | batch (b : Batch)

/-- The report after one more step. -/
def Step.apply (report : Report) : Step → Report
  | .violation v => report.add v
  | .error e => report.addError e
  | .batch b => report.merge b

/-- The report after some steps, from an empty one. -/
def after (steps : List Step) : Report := steps.foldl Step.apply {}

def Step.violations : Step → List Violation
  | .violation v => [v]
  | .error _ => []
  | .batch b => b.violations

def Step.errors : Step → List ProcessingError
  | .violation _ => []
  | .error e => [e]
  | .batch b => b.errors

/-- The violations that were added, in the order of their arrival. -/
def addedViolations (steps : List Step) : List Violation :=
  steps.flatMap Step.violations

/-- The errors that were added, in the order of their arrival. -/
def addedErrors (steps : List Step) : List ProcessingError :=
  steps.flatMap Step.errors

theorem errors_foldl_addError (report : Report) (errors : List ProcessingError) :
    (errors.foldl addError report).errors = report.errors ++ errors := by
  induction errors generalizing report with
  | nil => exact (List.append_nil _).symm
  | cons error errors ih =>
      rw [List.foldl_cons, ih, addError, List.append_assoc]
      rfl

theorem errors_foldl_add (report : Report) (violations : List Violation) :
    (violations.foldl add report).errors = report.errors := by
  induction violations generalizing report with
  | nil => rfl
  | cons v violations ih => exact ih (report.add v)

/-- A step adds its violations first and its errors then. -/
theorem Step.apply_eq (report : Report) (step : Step) :
    step.apply report =
      step.errors.foldl addError (step.violations.foldl add report) := by
  cases step <;> rfl

theorem Step.errors_apply (report : Report) (step : Step) :
    (step.apply report).errors = report.errors ++ step.errors := by
  rw [Step.apply_eq, errors_foldl_addError, errors_foldl_add]

/-- A report lists the errors in the order of their arrival. -/
theorem errors_after (steps : List Step) :
    (after steps).errors = addedErrors steps := by
  have hrun (report : Report) :
      (steps.foldl Step.apply report).errors =
        report.errors ++ addedErrors steps := by
    induction steps generalizing report with
    | nil => exact (List.append_nil _).symm
    | cons step steps ih =>
        rw [List.foldl_cons, ih, Step.errors_apply, List.append_assoc]
        rfl
  exact hrun {}

/-! ## Where violations are filed -/

/-- A list of violations of one file that is not empty. -/
structure Bucket
    (P : Violation → Prop) (file : String) (found : List Violation) : Prop where
  some_found : found ≠ []
  own : ∀ v ∈ found, v.file = file ∧ P v

/-- The files ascend, and each has violations of its own, which have a property,
on every line that it lists. -/
structure Filed (P : Violation → Prop) (report : Report) : Prop where
  ascending : Ordered.Ascending report.files
  some_line : ∀ entry ∈ report.files, entry.2 ≠ []
  buckets : ∀ entry ∈ report.files, ∀ bucket ∈ entry.2, Bucket P entry.1 bucket.2

variable {P : Violation → Prop}

theorem fileLine_ne_nil (v : Violation) (table : LineTable) :
    fileLine v table ≠ [] := by
  cases table with
  | nil => exact List.cons_ne_nil _ _
  | cons first rest =>
      obtain ⟨line, found⟩ := first
      unfold fileLine
      split <;> exact List.cons_ne_nil _ _

theorem bucket_singleton
    {v : Violation}
    (hv : P v) :
    Bucket P v.file [v] where
  some_found := List.cons_ne_nil _ _
  own w hw := by
    rw [List.mem_singleton.mp hw]
    exact ⟨rfl, hv⟩

theorem Bucket.append
    {v : Violation} {found : List Violation}
    (hfound : Bucket P v.file found)
    (hv : P v) :
    Bucket P v.file (found ++ [v]) where
  some_found := List.append_ne_nil_of_left_ne_nil hfound.some_found _
  own w hw := by
    rcases List.mem_append.mp hw with hold | hnew
    · exact hfound.own w hold
    · exact (bucket_singleton hv).own w hnew

theorem buckets_fileLine
    {v : Violation} {table : LineTable}
    (hv : P v)
    (htable : ∀ bucket ∈ table, Bucket P v.file bucket.2) :
    ∀ bucket ∈ fileLine v table, Bucket P v.file bucket.2 := by
  induction table with
  | nil => exact List.forall_mem_singleton.mpr (bucket_singleton hv)
  | cons first rest ih =>
      obtain ⟨line, found⟩ := first
      obtain ⟨hfirst, hrest⟩ := List.forall_mem_cons.mp htable
      unfold fileLine
      by_cases hline : line.key = v.beginLine.key
      · rw [if_pos hline]
        exact List.forall_mem_cons.mpr ⟨hfirst.append hv, hrest⟩
      · rw [if_neg hline]
        exact List.forall_mem_cons.mpr ⟨hfirst, ih hrest⟩

theorem filed_empty : Filed P {} where
  ascending := List.Pairwise.nil
  some_line := by simp
  buckets := by simp

theorem Filed.add
    {report : Report} {v : Violation}
    (hreport : Filed P report)
    (hv : P v) :
    Filed P (report.add v) where
  ascending := hreport.ascending.alter v.file _
  some_line := by
    refine Ordered.forall_mem_alter ?_ (fun table _ => ?_) hreport.some_line
    · exact fileLine_ne_nil v []
    · exact fileLine_ne_nil v table
  buckets := by
    refine Ordered.forall_mem_alter ?_ (fun table htable => ?_) hreport.buckets
    · exact buckets_fileLine hv (by simp)
    · exact buckets_fileLine hv htable

theorem Filed.addError
    {report : Report}
    (hreport : Filed P report)
    (error : ProcessingError) :
    Filed P (report.addError error) :=
  ⟨hreport.ascending, hreport.some_line, hreport.buckets⟩

theorem Filed.apply
    {report : Report} {step : Step}
    (hreport : Filed P report)
    (hstep : ∀ v ∈ step.violations, P v) :
    Filed P (step.apply report) := by
  have hviolations : Filed P (step.violations.foldl Report.add report) :=
    List.foldlRecOn step.violations Report.add hreport
      fun _ hbefore v hv => hbefore.add (hstep v hv)
  rw [Step.apply_eq]
  exact List.foldlRecOn step.errors Report.addError hviolations
    fun _ hbefore error _ => hbefore.addError error

/-- Every history leaves the violations filed. -/
theorem filed_after
    {steps : List Step}
    (hsteps : ∀ v ∈ addedViolations steps, P v) :
    Filed P (after steps) :=
  List.foldlRecOn steps Step.apply filed_empty fun _ hbefore step hstep =>
    hbefore.apply fun v hv =>
      hsteps v (List.mem_flatMap.mpr ⟨step, hstep, hv⟩)

theorem mem_inFile_iff {v : Violation} {table : LineTable} :
    v ∈ inFile table ↔ ∃ bucket ∈ table, v ∈ bucket.2 := by
  simp only [inFile, List.mem_flatMap, List.mem_mergeSort]

/-- The violations of a file are one list of its own. -/
theorem Filed.bucket_inFile
    {report : Report} {entry : String × LineTable}
    (hreport : Filed P report)
    (hentry : entry ∈ report.files) :
    Bucket P entry.1 (inFile entry.2) where
  some_found := by
    obtain ⟨bucket, hbucket⟩ :=
      List.exists_mem_of_ne_nil _ (hreport.some_line entry hentry)
    obtain ⟨v, hv⟩ :=
      List.exists_mem_of_ne_nil _ (hreport.buckets entry hentry bucket hbucket).some_found
    exact List.ne_nil_of_mem (mem_inFile_iff.mpr ⟨bucket, hbucket, hv⟩)
  own v hv := by
    obtain ⟨bucket, hbucket, hmem⟩ := mem_inFile_iff.mp hv
    exact (hreport.buckets entry hentry bucket hbucket).own v hmem

end TreeLint.Report

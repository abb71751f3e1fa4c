import Mathlib.Data.List.FinRange
import Mathlib.Data.List.Sort
import Mathlib.Logic.Equiv.Fin.Rotate
import TreeLint.Proofs.ReportOrder
import TreeLint.Proofs.RunReports
import TreeLint.Report.LineFault

/-!
# The order of batches

Adding a violation touches the entry of its file only, so violations of different
files can be added in either order.  A report is therefore determined by the
violations of each file in turn.  Batches can be merged in any order that leaves
those with violations of a common file as they were; only the order of the errors
shows the difference.  Dumps of different files have no violations in a common
file, so they can be analysed in any order at all.
-/

namespace TreeLint

/-! ## Violations of different files -/

theorem Ordered.alter_comm
    {β : Type} {k l : String} (hne : k ≠ l)
    (f g : Option β → β) (entries : List (String × β)) :
    alter k f (alter l g entries) = alter l g (alter k f entries) := by
  induction entries with
  | nil =>
      rcases lt_or_gt_of_ne hne with hlt | hgt
      · simp [alter, hlt, hlt.not_gt, hne.symm]
      · simp [alter, hgt, hgt.not_gt, hne]
  | cons first rest ih =>
      obtain ⟨name, b⟩ := first
      grind [alter]

namespace Report

theorem add_comm
    {v w : Violation} (hne : v.file ≠ w.file) (report : Report) :
    (report.add v).add w = (report.add w).add v := by
  simp only [add, Ordered.alter_comm hne]

/-- A violation can be added before those of other files. -/
theorem foldl_add_move
    {v : Violation} {before : List Violation}
    (hbefore : ∀ w ∈ before, w.file ≠ v.file)
    (after : List Violation) (report : Report) :
    (before ++ v :: after).foldl add report =
      (before ++ after).foldl add (report.add v) := by
  induction before generalizing report with
  | nil => rfl
  | cons w before ih =>
      obtain ⟨hw, hrest⟩ := List.forall_mem_cons.mp hbefore
      simp only [List.cons_append, List.foldl_cons]
      rw [ih hrest, add_comm hw]

/-- Only the order among the violations of one file matters. -/
theorem foldl_add_congr
    {vs ws : List Violation}
    (h : ∀ file, vs.filter (·.file = file) = ws.filter (·.file = file))
    (report : Report) :
    vs.foldl add report = ws.foldl add report := by
  induction vs generalizing ws report with
  | nil =>
      cases ws with
      | nil => rfl
      | cons w ws =>
          have hw := h w.file
          simp at hw
  | cons v vs ih =>
      have hv := h v.file
      rw [List.filter_cons_of_pos (by simp), eq_comm, List.filter_eq_cons_iff] at hv
      obtain ⟨before, after, rfl, hbefore, -, hafter⟩ := hv
      rw [foldl_add_move (by simpa using hbefore), List.foldl_cons]
      apply ih
      intro file
      have hfile := h file
      by_cases heq : v.file = file
      · subst heq
        have hnil : before.filter (·.file = v.file) = [] := by
          simpa [List.filter_eq_nil_iff] using hbefore
        rw [List.filter_append, hnil, List.nil_append, hafter]
      · simpa [List.filter_append, List.filter_cons, heq] using hfile

end Report

/-! ## Batches of different files -/

namespace Batch

/-- Whether a batch holds violations of a file. -/
def holds (file : String) (batch : Batch) : Bool :=
  batch.violations.any fun v => v.file = file

/-- Two batches hold violations of a common file. -/
def Share (a b : Batch) : Prop := ∃ file, a.holds file = true ∧ b.holds file = true

instance (a b : Batch) : Decidable (Share a b) :=
  decidable_of_iff (∃ v ∈ a.violations, b.holds v.file = true) (by simp [Share, holds])

/-- `cs` has the batches of `bs`, and any two of them that share a file stand in
the order in which they stand in `bs`. -/
def Rearranged (bs cs : List Batch) : Prop :=
  ∃ move : Fin bs.length ≃ Fin cs.length,
    (∀ i, cs.get (move i) = bs.get i) ∧
      ∀ i j, i < j → Share (bs.get i) (bs.get j) → move i < move j

/-- Two lists with the same batches, and for each file with the same list of the batches that
hold it. -/
structure Interchangeable (bs cs : List Batch) : Prop where
  perm : bs.Perm cs
  filter_holds : ∀ file, bs.filter (holds file) = cs.filter (holds file)

variable {bs cs : List Batch}

theorem filter_eq_map_get (p : Batch → Bool) (batches : List Batch) :
    batches.filter p =
      ((List.finRange batches.length).filter fun i => p (batches.get i)).map batches.get := by
  conv_lhs => rw [← List.map_get_finRange batches]
  rw [List.filter_map]
  rfl

theorem Rearranged.perm (h : Rearranged bs cs) : bs.Perm cs := by
  obtain ⟨move, hget, -⟩ := h
  have hmoved : ((List.finRange bs.length).map move).Perm (List.finRange cs.length) := by
    apply (List.perm_ext_iff_of_nodup ?_ (List.nodup_finRange _)).mpr
    · intro j
      simpa using move.surjective j
    · exact (List.nodup_finRange _).map move.injective
  have hbs : bs = ((List.finRange bs.length).map move).map cs.get := by
    simp only [List.map_map, Function.comp_def, hget]
    exact (List.map_get_finRange bs).symm
  have hcs := hmoved.map cs.get
  rw [← hbs, List.map_get_finRange] at hcs
  exact hcs

theorem Rearranged.filter_holds (h : Rearranged bs cs) (file : String) :
    bs.filter (holds file) = cs.filter (holds file) := by
  obtain ⟨move, hget, hkeeps⟩ := h
  have hascending (n : Nat) (p : Fin n → Bool) :
      ((List.finRange n).filter p).Pairwise (· < ·) :=
    List.Pairwise.filter p (List.pairwise_lt_finRange n)
  -- The positions that hold the file are moved to positions that hold it, in ascending order.
  have hpositions :
      ((List.finRange bs.length).filter fun i => holds file (bs.get i)).map move =
        (List.finRange cs.length).filter fun i => holds file (cs.get i) := by
    apply List.Pairwise.eq_of_mem_iff (r := (· < ·)) _ (hascending _ _)
    · intro j
      obtain ⟨i, rfl⟩ := move.surjective j
      simp only [List.mem_map, List.mem_filter, List.mem_finRange, true_and, hget,
        EmbeddingLike.apply_eq_iff_eq, exists_eq_right]
    · rw [List.pairwise_map]
      apply (hascending _ _).imp_of_mem
      intro i j hi hj hlt
      exact hkeeps i j hlt ⟨file, (List.mem_filter.mp hi).2, (List.mem_filter.mp hj).2⟩
  rw [filter_eq_map_get, filter_eq_map_get, ← hpositions, List.map_map]
  simp only [Function.comp_def, hget]

theorem Rearranged.interchangeable (h : Rearranged bs cs) : Interchangeable bs cs :=
  ⟨h.perm, h.filter_holds⟩

/-- Batches that do not share any file may stand in any order. -/
theorem interchangeable_of_perm
    (hperm : bs.Perm cs) (hapart : bs.Pairwise fun a b => ¬ Share a b) :
    Interchangeable bs cs where
  perm := hperm
  filter_holds file := by
    have hfilter := hperm.filter (holds file)
    have hone : (bs.filter (holds file)).Pairwise fun _ _ => False := by
      apply (hapart.sublist List.filter_sublist).imp_of_mem
      intro a b ha hb hnot
      exact hnot ⟨file, (List.mem_filter.mp ha).2, (List.mem_filter.mp hb).2⟩
    generalize bs.filter (holds file) = found at hfilter hone
    match found with
    | [] => exact hfilter.nil_eq
    | [_] => exact List.singleton_perm.mp hfilter
    | _ :: b :: _ => exact ((List.pairwise_cons.mp hone).1 b List.mem_cons_self).elim

theorem filter_violations (file : String) (batches : List Batch) :
    (batches.flatMap Batch.violations).filter (·.file = file) =
      (batches.filter (holds file)).flatMap fun batch =>
        batch.violations.filter (·.file = file) := by
  induction batches with
  | nil => rfl
  | cons batch batches ih =>
      rw [List.flatMap_cons, List.filter_append, ih]
      by_cases hholds : holds file batch = true
      · rw [List.filter_cons_of_pos hholds, List.flatMap_cons]
      · have hnil : batch.violations.filter (·.file = file) = [] := by
          simpa [List.filter_eq_nil_iff, holds] using hholds
        rw [List.filter_cons_of_neg hholds, hnil, List.nil_append]

end Batch

namespace Report

/-- Two reports with the same violations, in the document too, and with the same errors in some
order.  If the lines of the violations have no order, the complaint is the same. -/
structure SameFindings (a b : Report) : Prop where
  violations : a.violations = b.violations
  disorder : a.disorder? = b.disorder?
  files : ∀ format, (a.document format).field? "files" = (b.document format).field? "files"
  errors : a.errors.Perm b.errors

theorem sameFindings_of_files
    {a b : Report} (hfiles : a.files = b.files) (herrors : a.errors.Perm b.errors) :
    SameFindings a b where
  violations := by rw [violations, violations, hfiles]
  disorder := by rw [disorder?, disorder?, hfiles]
  files format := by rw [field?_files, field?_files, groups, groups, violations, violations, hfiles]
  errors := herrors

theorem sameFindings_ofBatches
    {bs cs : List Batch} (h : Batch.Interchangeable bs cs) :
    SameFindings (ofBatches bs) (ofBatches cs) := by
  apply sameFindings_of_files
  · rw [files_ofBatches, files_ofBatches, foldl_add_congr]
    intro file
    rw [Batch.filter_violations, Batch.filter_violations, h.filter_holds]
  · rw [errors_ofBatches, errors_ofBatches]
    exact h.perm.flatMap_right Batch.errors

end Report

/-! ## Dumps of different files -/

/-- A rule finds violations only in the file of the tree that it looks at. -/
def Rule.Local (rule : Rule) : Prop :=
  ∀ t i found, rule.check t i = .ok found → ∀ v ∈ found, v.file = t.file

theorem Catalog.local_of_mem_rules
    {rule : Rule} (hrule : rule ∈ rules) : rule.Local := by
  intro t i found hcheck v hv
  obtain ⟨d, rfl⟩ := exists_eq_violationAt hrule hcheck hv
  rfl

namespace Analysis

/-- The file that a dump is about, if it is loaded. -/
def unitFile? (store : Store) (path : String) : Option String :=
  (Dump.load store path).toOption.map Tree.file

/-- The dumps that are loaded are about different files. -/
def DistinctFiles (store : Store) (paths : List String) : Prop :=
  (paths.filterMap (unitFile? store)).Nodup

instance (store : Store) (paths : List String) : Decidable (DistinctFiles store paths) :=
  inferInstanceAs (Decidable (List.Nodup _))

section Units

variable {store : Store} {rules : List Rule} {paths : List String}

theorem unitFile?_of_holds
    (hrules : ∀ rule ∈ rules, rule.Local) {path file : String}
    (h : (batchOf store rules path).holds file = true) :
    unitFile? store path = some file := by
  obtain ⟨v, hv, hfile⟩ := List.any_eq_true.mp h
  obtain ⟨t, hload, rule, hrule, i, found, hcheck, hfound⟩ := exists_check_of_mem_batchOf hv
  have hlocal : v.file = t.file := hrules rule hrule t i found hcheck v hfound
  rw [unitFile?, hload, ← of_decide_eq_true hfile, hlocal]
  rfl

theorem DistinctFiles.apart
    (h : DistinctFiles store paths) (hrules : ∀ rule ∈ rules, rule.Local) :
    (paths.map (batchOf store rules)).Pairwise fun a b => ¬ a.Share b := by
  rw [List.pairwise_map]
  apply (List.pairwise_filterMap.mp h).imp
  rintro path other hne ⟨file, hpath, hother⟩
  exact hne file (unitFile?_of_holds hrules hpath) file (unitFile?_of_holds hrules hother) rfl

end Units

/-- Merging batches in another order, in which those with violations of a common
file stand as before, gives the same violations and the same files in the document,
and the same errors in some order.  In particular this holds of runs over the same
dumps in another order, when the dumps are about different files and the rules find
nothing outside of these, as no built-in rule does. -/
theorem rearranged_batches_merge_alike :
    (∀ bs cs, Batch.Rearranged bs cs →
        Report.SameFindings (.ofBatches bs) (.ofBatches cs)) ∧
      (∀ store rules sender paths paths' jobs jobs' report,
        (∀ rule ∈ rules, rule.Local) →
        DistinctFiles store paths →
        paths.Perm paths' →
        Text.isWritable jobs' = true →
        (run store (.ok rules) sender paths jobs).result = .ok report →
        ∃ report', (run store (.ok rules) sender paths' jobs').result = .ok report' ∧
          report.SameFindings report') ∧
      ∀ selected rules, Catalog.select selected = .ok rules → ∀ rule ∈ rules, rule.Local := by
  refine ⟨fun bs cs h => Report.sameFindings_ofBatches h.interchangeable, ?_, ?_⟩
  · intro store rules sender paths paths' jobs jobs' report hrules hfiles hperm hjobs' hrun
    obtain ⟨hjobs, hpaths⟩ := readable_of_result_run hrun
    have hpaths' : ∀ path ∈ paths', Readable store path ∧ Answered store rules path :=
      fun path hpath => hpaths path (hperm.mem_iff.mpr hpath)
    rw [result_run_of_readable hjobs hpaths] at hrun
    cases hrun
    refine ⟨_, result_run_of_readable hjobs' hpaths', ?_⟩
    apply Report.sameFindings_ofBatches
    exact Batch.interchangeable_of_perm (hperm.map _) (hfiles.apart hrules)
  · intro selected rules hselect rule hrule
    exact Catalog.local_of_mem_rules (Catalog.mem_rules_of_select hselect hrule)

/-- Two batches with violations on one line of a file. -/
def firstOfFile : Batch :=
  { violations := [Report.violationOn "a.php" (.number 1) "first",
      Report.violationOn "c.php" (.number 2) "first"] }

def lastOfFile : Batch :=
  { violations := [Report.violationOn "a.php" (.number 1) "second"], errors := [⟨"a", "late"⟩] }

def ofOtherFile : Batch :=
  { violations := [Report.violationOn "b.php" (.number 1) "other"], errors := [⟨"b", "early"⟩] }

theorem rearranged_ofOtherFile :
    Batch.Rearranged [firstOfFile, lastOfFile, ofOtherFile]
      [ofOtherFile, firstOfFile, lastOfFile] := by
  refine ⟨finRotate 3, fun i => ?_, by decide⟩
  match i with
  | 0 | 1 | 2 => rfl

theorem rearranged_batches_merge_alike_sample :
    Report.SameFindings (.ofBatches [firstOfFile, lastOfFile, ofOtherFile])
        (.ofBatches [ofOtherFile, firstOfFile, lastOfFile]) ∧
      DistinctFiles threeFiles ["a", "b", "c"] ∧
      ∃ report report',
        (run threeFiles (.ok Catalog.rules) ⟨"lint", "lint"⟩ ["a", "b", "c"] 1).result =
          .ok report ∧
        (run threeFiles (.ok Catalog.rules) ⟨"lint", "lint"⟩ ["c", "a", "b"] 2).result =
          .ok report' ∧
        report.SameFindings report' := by
  obtain ⟨hbatches, hruns, hlocal⟩ := rearranged_batches_merge_alike
  have hfiles : DistinctFiles threeFiles ["a", "b", "c"] := by decide +kernel
  have hone : Text.isWritable 1 = true := by decide +kernel
  have htwo : Text.isWritable 2 = true := by decide +kernel
  have hpaths : ["a", "b", "c"] ⊆ ["a", "b", "c", "d"] := by decide
  obtain ⟨report, hreport⟩ := exists_report_threeFiles hpaths hone ⟨"lint", "lint"⟩
  obtain ⟨report', hreport', hsame⟩ := hruns threeFiles Catalog.rules ⟨"lint", "lint"⟩
    ["a", "b", "c"] ["c", "a", "b"] 1 2 report
    (hlocal (some ["UnusedFormalParameter"]) Catalog.rules rfl) hfiles (by decide) htwo hreport
  exact ⟨hbatches _ _ rearranged_ofOtherFile, hfiles, report, report', hreport, hreport', hsame⟩

end Analysis

end TreeLint

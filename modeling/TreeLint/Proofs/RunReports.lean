import TreeLint.Proofs.AnalysisFailures
import TreeLint.Proofs.CheckOutcome
import TreeLint.Proofs.CommentEdits
import TreeLint.Report.Document

/-!
# What a run reports

A readable dump is one that is loaded or refused.  It contributes one batch to
the report of a run: what the rules record on its tree, if they reach the end of
it, or a single error.  The report merges the batches in the order of the dumps,
so its errors are those of the batches one after the other, and its files are
those of all violations together.  A refused dump therefore adds its own error
and nothing else.
-/

namespace TreeLint

/-! ## Merged batches -/

namespace Report

/-- The report of some batches, merged one after the other. -/
def ofBatches (batches : List Batch) : Report := batches.foldl merge {}

theorem ofBatches_eq_after (batches : List Batch) :
    ofBatches batches = after (batches.map .batch) := by
  rw [ofBatches, after, List.foldl_map]
  rfl

@[simp]
theorem errors_ofBatches (batches : List Batch) :
    (ofBatches batches).errors = batches.flatMap Batch.errors := by
  rw [ofBatches_eq_after, errors_after, addedErrors, List.flatMap_map]
  rfl

theorem files_foldl_addError (report : Report) (errors : List ProcessingError) :
    (errors.foldl addError report).files = report.files := by
  induction errors generalizing report with
  | nil => rfl
  | cons error errors ih => exact ih (report.addError error)

theorem files_foldl_add_congr
    {a b : Report} (h : a.files = b.files) (vs : List Violation) :
    (vs.foldl add a).files = (vs.foldl add b).files := by
  induction vs generalizing a b with
  | nil => exact h
  | cons v vs ih =>
      apply ih
      simp only [add, h]

/-- Errors do not touch the files, so all violations could have been added at once. -/
theorem files_ofBatches (batches : List Batch) :
    (ofBatches batches).files =
      ((batches.flatMap Batch.violations).foldl add {}).files := by
  have hrun (report : Report) :
      (batches.foldl merge report).files =
        ((batches.flatMap Batch.violations).foldl add report).files := by
    induction batches generalizing report with
    | nil => rfl
    | cons batch batches ih =>
        rw [List.foldl_cons, ih, List.flatMap_cons, List.foldl_append]
        exact files_foldl_add_congr (files_foldl_addError _ _) _
  exact hrun {}

end Report

/-! ## Fields of the document -/

/-- What a document has under a name. -/
def Value.field? : Value → String → Option Value
  | .table fields, name => Fields.get? fields name
  | _, _ => none

theorem Report.field?_files (report : Report) (format : Format) :
    (report.document format).field? "files" =
      some (.list (report.groups.map groupValue)) :=
  rfl

namespace Analysis

/-- A dump that is loaded or refused. -/
def Readable (store : Store) (path : String) : Prop :=
  (∃ t, Dump.load store path = .ok t) ∨
    ∃ error, Dump.load store path = .error (.refused error)

instance (store : Store) (path : String) : Decidable (Readable store path) :=
  match hload : Dump.load store path with
  | .ok t => isTrue (Or.inl ⟨t, hload⟩)
  | .error (.refused error) => isTrue (Or.inr ⟨error, hload⟩)
  | .error (.tooManyDigits _) => isFalse (by simp [Readable, hload])
  | .error (.unusablePath _) => isFalse (by simp [Readable, hload])
  | .error .unwritable => isFalse (by simp [Readable, hload])

/-- The rules reach the end of a dump that is loaded. -/
def Answered (store : Store) (rules : List Rule) (path : String) : Prop :=
  ∀ t, Dump.load store path = .ok t → ∃ events, Dispatch.run rules t = .ok events

/-- The built-in rules reach the end of every dump. -/
theorem answered_of_mem_rules
    {rules : List Rule} (hrules : ∀ rule ∈ rules, rule ∈ Catalog.rules)
    (store : Store) (path : String) : Answered store rules path := by
  intro t hload
  have haccepted := load_eq_ok_iff.mp hload
  exact Dispatch.exists_run (Catalog.legible hrules haccepted.readable)

/-- What a readable dump contributes to a report. -/
def batchOf (store : Store) (rules : List Rule) (path : String) : Batch :=
  match Dump.load store path with
  | .ok t =>
    match Dispatch.run rules t with
    | .ok events => .ofEvents events
    | .error _ => {}
  | .error (.refused error) => { errors := [⟨error.file, error.message⟩] }
  | .error _ => {}

section Units

variable {store : Store} {rules : List Rule} {path : String}

theorem exists_analyzeUnit
    (hreadable : Readable store path) (hanswered : Answered store rules path)
    (sender : Telemetry) :
    ∃ unit, analyzeUnit store (.ok rules) sender path = .ok unit ∧
      unit.batch = batchOf store rules path := by
  unfold analyzeUnit batchOf
  rcases hreadable with ⟨t, hload⟩ | ⟨error, hload⟩
  · obtain ⟨events, hrun⟩ := hanswered t hload
    simp only [hload, hrun]
    exact ⟨_, rfl, rfl⟩
  · rw [hload]
    exact ⟨_, rfl, rfl⟩

theorem readable_of_analyzeUnit
    {sender : Telemetry} {unit : UnitResult}
    (h : analyzeUnit store (.ok rules) sender path = .ok unit) :
    Readable store path ∧ Answered store rules path := by
  unfold analyzeUnit at h
  unfold Readable Answered
  cases hload : Dump.load store path with
  | ok t =>
      rw [hload] at h
      cases hrun : Dispatch.run rules t with
      | ok events =>
          refine ⟨Or.inl ⟨t, rfl⟩, fun other hother => ?_⟩
          cases hother
          exact ⟨events, hrun⟩
      | error fault =>
          simp only [hrun] at h
          cases h
  | error failure =>
      rw [hload] at h
      cases failure with
      | refused error => exact ⟨Or.inr ⟨error, rfl⟩, nofun⟩
      | _ => cases h

/-- A violation in what a dump contributes was found by a rule on the tree of the dump. -/
theorem exists_check_of_mem_batchOf
    {v : Violation} (hv : v ∈ (batchOf store rules path).violations) :
    ∃ t, Dump.load store path = .ok t ∧
      ∃ rule ∈ rules, ∃ i found, rule.check t i = .ok found ∧ v ∈ found := by
  unfold batchOf at hv
  split at hv
  · next t hload =>
    split at hv
    · next events hrun =>
      obtain ⟨rule, hrule, i, found, hcheck, hmem, _⟩ := Dispatch.mem_violations_run hrun hv
      exact ⟨t, hload, rule, hrule, i, found, hcheck, hmem⟩
    · cases hv
  · cases hv
  · cases hv

end Units

section Runs

variable {store : Store} {rules : List Rule} {sender : Telemetry} {paths : List String}
  {jobs : Int}

theorem exists_units_of_readable
    (hpaths : ∀ path ∈ paths, Readable store path ∧ Answered store rules path) :
    ∃ units : List UnitResult,
      paths.map (analyzeUnit store (.ok rules) sender) = units.map .ok ∧
        units.map UnitResult.batch = paths.map (batchOf store rules) := by
  induction paths with
  | nil => exact ⟨[], rfl, rfl⟩
  | cons path paths ih =>
      obtain ⟨⟨hreadable, hanswered⟩, hpaths⟩ := List.forall_mem_cons.mp hpaths
      obtain ⟨units, hunits, hbatches⟩ := ih hpaths
      obtain ⟨unit, hunit, hbatch⟩ := exists_analyzeUnit hreadable hanswered sender
      exact ⟨unit :: units, by simp [hunit, hunits], by simp [hbatch, hbatches]⟩

/-- A run over readable dumps gives a report, and merges what the dumps contribute. -/
theorem result_run_of_readable
    (hjobs : Text.isWritable jobs = true)
    (hpaths : ∀ path ∈ paths, Readable store path ∧ Answered store rules path) :
    (run store (.ok rules) sender paths jobs).result =
      .ok (.ofBatches (paths.map (batchOf store rules))) := by
  obtain ⟨units, hunits, hbatches⟩ := exists_units_of_readable hpaths
  have huntil := untilFailure_map_ok units
  rw [← hunits] at huntil
  rw [result_run_of_none hjobs huntil, ← hbatches, mergeAll, Report.ofBatches, List.foldl_map]

theorem readable_of_untilFailure
    (h : (untilFailure (paths.map (analyzeUnit store (.ok rules) sender))).2 = none) :
    ∀ path ∈ paths, Readable store path ∧ Answered store rules path := by
  induction paths with
  | nil => simp
  | cons path paths ih =>
      rw [List.map_cons] at h
      cases hunit : analyzeUnit store (.ok rules) sender path with
      | error failure =>
          rw [hunit] at h
          cases h
      | ok unit =>
          rw [hunit] at h
          exact List.forall_mem_cons.mpr ⟨readable_of_analyzeUnit hunit, ih h⟩

/-- A run that gives a report has read all its dumps, and the rules have reached the end of each. -/
theorem readable_of_result_run
    {report : Report} (h : (run store (.ok rules) sender paths jobs).result = .ok report) :
    Text.isWritable jobs = true ∧
      ∀ path ∈ paths, Readable store path ∧ Answered store rules path := by
  cases hjobs : Text.isWritable jobs with
  | false =>
      rw [result_run_of_not_isWritable hjobs] at h
      cases h
  | true =>
      have hnone : (untilFailure (paths.map (analyzeUnit store (.ok rules) sender))).2 = none := by
        cases huntil : untilFailure (paths.map (analyzeUnit store (.ok rules) sender)) with
        | mk units failure =>
            cases failure with
            | none => rfl
            | some failure =>
                rw [result_run_of_some hjobs huntil] at h
                cases h
      exact ⟨rfl, readable_of_untilFailure hnone⟩

end Runs

/-- Among readable dumps, of which the rules reach the end, a refused one adds its
error, between the errors of the dumps before it and those of the dumps after it, and
changes nothing else. -/
theorem refused_dump_adds_one_error
    {store : Store} {rules : List Rule} {ps qs : List String} {b : String}
    {error : Dump.LoadError} {jobs : Int}
    (hrefused : Dump.load store b = .error (.refused error))
    (hothers : ∀ path ∈ ps ++ qs, Readable store path)
    (hanswered : ∀ path ∈ ps ++ qs, Answered store rules path)
    (hjobs : Text.isWritable jobs = true) (sender : Telemetry) :
    ∃ whole without before after,
      (run store (.ok rules) sender (ps ++ [b] ++ qs) jobs).result = .ok whole ∧
      (run store (.ok rules) sender (ps ++ qs) jobs).result = .ok without ∧
      (run store (.ok rules) sender ps jobs).result = .ok before ∧
      (run store (.ok rules) sender qs jobs).result = .ok after ∧
      whole.violations = without.violations ∧
      whole.errors = before.errors ++ [⟨error.file, error.message⟩] ++ after.errors ∧
      without.errors = before.errors ++ after.errors := by
  have hsound : ∀ path, path = b ∨ path ∈ ps ++ qs →
      Readable store path ∧ Answered store rules path := by
    rintro path (rfl | hother)
    · refine ⟨Or.inr ⟨error, hrefused⟩, fun t hload => ?_⟩
      rw [hrefused] at hload
      cases hload
    · exact ⟨hothers path hother, hanswered path hother⟩
  have hmerged (paths : List String) (hpaths : ∀ path ∈ paths, path = b ∨ path ∈ ps ++ qs) :
      (run store (.ok rules) sender paths jobs).result =
        .ok (.ofBatches (paths.map (batchOf store rules))) :=
    result_run_of_readable hjobs fun path hpath => hsound path (hpaths path hpath)
  have hbatch : batchOf store rules b = { errors := [⟨error.file, error.message⟩] } := by
    simp only [batchOf, hrefused]
  refine ⟨_, _, _, _, hmerged (ps ++ [b] ++ qs) ?_, hmerged (ps ++ qs) fun path => Or.inr,
    hmerged ps fun path hpath => Or.inr (List.mem_append_left qs hpath),
    hmerged qs fun path hpath => Or.inr (List.mem_append_right ps hpath), ?_, ?_, ?_⟩
  · intro path hpath
    simp only [List.mem_append, List.mem_singleton] at hpath ⊢
    tauto
  · rw [Report.violations, Report.violations, Report.files_ofBatches, Report.files_ofBatches]
    simp [hbatch]
  · simp [hbatch]
  · simp

/-- A dump of a function with one parameter. -/
def functionDump (file : String) : String :=
  "\x7b\"file\":\"" ++ file ++ "\",\"root\":\x7b\"kind\":\"function\",\"children\":[" ++
    "\x7b\"kind\":\"formal_parameters\",\"children\":[" ++
    "\x7b\"kind\":\"variable_declarator\",\"image\":\"$a\",\"beginLine\":3\x7d]\x7d]\x7d\x7d"

/-- A store with the dumps of two functions, and a file between them that is no dump. -/
def threeFiles : Store where
  files := [
    (["a"], Text.Utf8.encode (functionDump "x.php")),
    (["b"], Text.Utf8.encode "["),
    (["c"], Text.Utf8.encode (functionDump "y.php"))]

theorem readable_threeFiles :
    ∀ path ∈ ["a", "b", "c", "d"], Readable threeFiles path := by
  decide +kernel

theorem answered_threeFiles (path : String) : Answered threeFiles Catalog.rules path :=
  answered_of_mem_rules (fun _ => id) threeFiles path

theorem exists_report_threeFiles
    {paths : List String} {jobs : Int}
    (h : paths ⊆ ["a", "b", "c", "d"]) (hjobs : Text.isWritable jobs = true) (sender : Telemetry) :
    ∃ report, (run threeFiles (.ok Catalog.rules) sender paths jobs).result = .ok report :=
  ⟨_, result_run_of_readable hjobs fun path hpath =>
    ⟨readable_threeFiles path (h hpath), answered_threeFiles path⟩⟩

theorem load_threeFiles_b :
    Dump.load threeFiles "b" =
      .error (.refused ⟨"b", .malformed .expectedValue ['['] 0⟩) := by
  have hbytes : threeFiles.readBytes (Path.parse "b") =
      .ok (Text.Utf8.encode (String.ofList ['['])) := rfl
  have htext : threeFiles.readText (Path.parse "b") = .ok ['['] :=
    Store.readText_encode hbytes (by simp) (by simp)
  have hread : Json.read Dump.maxDepth Text.maxDigits ['['] =
      .error (.malformed .expectedValue 0) := rfl
  simp only [Dump.load, htext, Dump.ofText, hread]

theorem refused_dump_adds_one_error_sample :
    Dump.load threeFiles "b" =
        .error (.refused ⟨"b", .malformed .expectedValue ['['] 0⟩) ∧
      (∀ path ∈ ["a", "d"] ++ ["c"],
        Readable threeFiles path ∧ Answered threeFiles Catalog.rules path) ∧
      Text.isWritable 2 = true ∧
      ∃ whole without before after,
        (run threeFiles (.ok Catalog.rules) ⟨"lint", "lint"⟩ ["a", "d", "b", "c"] 2).result =
          .ok whole ∧
        (run threeFiles (.ok Catalog.rules) ⟨"lint", "lint"⟩ ["a", "d", "c"] 2).result =
          .ok without ∧
        (run threeFiles (.ok Catalog.rules) ⟨"lint", "lint"⟩ ["a", "d"] 2).result = .ok before ∧
        (run threeFiles (.ok Catalog.rules) ⟨"lint", "lint"⟩ ["c"] 2).result = .ok after ∧
        whole.violations = without.violations ∧
        whole.errors =
          before.errors ++ [⟨"b", "Invalid JSON: Expecting value: line 1 column 2 (char 1)"⟩] ++
            after.errors ∧
        without.errors = before.errors ++ after.errors := by
  have hsome : ["a", "d"] ++ ["c"] ⊆ ["a", "b", "c", "d"] := by decide
  have hothers : ∀ path ∈ ["a", "d"] ++ ["c"], Readable threeFiles path := fun path hpath =>
    readable_threeFiles path (hsome hpath)
  have hanswered : ∀ path ∈ ["a", "d"] ++ ["c"], Answered threeFiles Catalog.rules path :=
    fun path _ => answered_threeFiles path
  have hjobs : Text.isWritable 2 = true := by decide +kernel
  exact ⟨load_threeFiles_b, fun path hpath => ⟨hothers path hpath, hanswered path hpath⟩, hjobs,
    refused_dump_adds_one_error load_threeFiles_b hothers hanswered hjobs ⟨"lint", "lint"⟩⟩

end Analysis

end TreeLint

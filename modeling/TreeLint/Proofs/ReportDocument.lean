import TreeLint.Proofs.JsonMarkup
import TreeLint.Proofs.JsonRoundTrip
import TreeLint.Proofs.ReportHistory
import TreeLint.Proofs.TextualTrees
import TreeLint.Proofs.WritableValues
import TreeLint.Report.Document

/-!
# The document of a report is read back

A report has a text exactly when its integers can be written out and the
indentation fits into a machine word.  From the text the document that the report
stands for is read back, down to the last character of every string.  The
document lists the errors as they came and regroups the violations by file.  As
the report lists them, the violations of one file come one after the other, so
regrouping neither moves a violation nor splits what belongs to one file.
-/

namespace TreeLint

/-- A line number of at most `digits` digits, or a truth value. -/
inductive Line.Counts (digits : Nat) : Line → Prop where
  | number (n : Int) (hcount : Json.digitCount n ≤ digits) :
      Counts digits (.number n)
  | flag (b : Bool) : Counts digits (.flag b)

/-- A text, or nothing. -/
inductive Value.IsName : Value → Prop where
  | null : IsName .null
  | str (s : String) : IsName (.str s)

/-- A violation whose lines are numbers or truth values, and whose containers
have texts for their names. -/
structure Violation.Regular (digits : Nat) (v : Violation) : Prop where
  beginLine : v.beginLine.Counts digits
  endLine : v.endLine.Counts digits
  namespaceName : v.scopes.namespaceName.IsName
  functionName : v.scopes.functionName.IsName
  typeName : v.scopes.typeName.IsName
  methodName : v.scopes.methodName.IsName
  priority : Json.digitCount v.rule.priority ≤ digits

theorem Line.Counts.plain
    {digits : Nat} {line : Line}
    (hline : line.Counts digits)
    (depth : Nat) :
    Json.Plain digits depth line.toValue := by
  cases hline with
  | number n hcount => exact .int depth n hcount
  | flag b => exact .bool depth b

theorem Value.IsName.plain
    {v : Value}
    (hname : v.IsName)
    (digits depth : Nat) :
    Json.Plain digits depth v := by
  cases hname with
  | null => exact .null depth
  | str s => exact .str depth s

namespace Report

variable {digits : Nat}

/-! ## Every part of the document can be read back -/

theorem plain_violationValue
    {v : Violation}
    (hv : v.Regular digits)
    (depth : Nat) :
    Json.Plain digits (depth + 1) (violationValue v) := by
  apply Json.Plain.table
  · simp only [List.map_cons, List.map_nil]
    decide
  · simp only [List.forall_mem_cons]
    exact ⟨hv.beginLine.plain depth, hv.endLine.plain depth,
      hv.namespaceName.plain digits depth, hv.functionName.plain digits depth,
      hv.typeName.plain digits depth, hv.methodName.plain digits depth,
      .str _ _, .str _ _, .str _ _, .str _ _, .int _ _ hv.priority, by simp⟩

theorem isWritable_violationValue
    {v : Violation}
    (hv : v.Regular digits) (hdigits : digits ≤ Text.maxDigits) :
    (violationValue v).isWritable = true :=
  (plain_violationValue hv 0).isWritable hdigits

theorem plain_errorValue
    (error : ProcessingError) (depth : Nat) :
    Json.Plain digits (depth + 1) (errorValue error) := by
  apply Json.Plain.table
  · simp only [List.map_cons, List.map_nil]
    decide
  · simp only [List.forall_mem_cons]
    exact ⟨.str _ _, .str _ _, by simp⟩

theorem plain_groupValue
    {group : String × List Violation}
    (hgroup : ∀ v ∈ group.2, v.Regular digits)
    (depth : Nat) :
    Json.Plain digits (depth + 3) (groupValue group) := by
  have hlist : Json.Plain digits (depth + 2)
      (.list (group.2.map violationValue)) :=
    .list_map fun v hv => plain_violationValue (hgroup v hv) depth
  apply Json.Plain.table
  · simp only [List.map_cons, List.map_nil]
    decide
  · simp only [List.forall_mem_cons]
    exact ⟨.str _ _, hlist, by simp⟩

theorem plain_document
    {report : Report}
    (hgroups : ∀ group ∈ report.groups, ∀ v ∈ group.2, v.Regular digits)
    (format : Format) (depth : Nat) :
    Json.Plain digits (depth + 5) (report.document format) := by
  have hfiles : Json.Plain digits (depth + 4)
      (.list (report.groups.map groupValue)) :=
    .list_map fun group hgroup => plain_groupValue (hgroups group hgroup) depth
  have herrors : Json.Plain digits (depth + 4)
      (.list (report.errors.map errorValue)) :=
    .list_map fun error _ => plain_errorValue error (depth + 2)
  unfold document
  cases report.errors.isEmpty with
  | true =>
      apply Json.Plain.table
      · simp only [if_true, List.append_nil, List.map_cons, List.map_nil]
        decide
      · simp only [if_true, List.append_nil, List.forall_mem_cons]
        exact ⟨.str _ _, .str _ _, .str _ _, hfiles, by simp⟩
  | false =>
      apply Json.Plain.table
      · simp only [Bool.false_eq_true, if_false, List.cons_append, List.nil_append,
          List.map_cons, List.map_nil]
        decide
      · simp only [Bool.false_eq_true, if_false, List.cons_append, List.nil_append,
          List.forall_mem_cons]
        exact ⟨.str _ _, .str _ _, .str _ _, hfiles, herrors, by simp⟩

/-! ## Regrouping -/

/-- Groups that hold all violations of a report in their order, each under its
own file, the files ascending. -/
structure GroupsOf
    (report : Report) (groups : List (String × List Violation)) : Prop where
  all : groups.flatMap Prod.snd = report.violations
  own : ∀ group ∈ groups, ∀ v ∈ group.2, v.file = group.1
  ascending : groups.Pairwise fun a b => a.1 < b.1
  some_found : ∀ group ∈ groups, group.2 ≠ []

theorem Groups.add_new
    {groups : Groups} {v : Violation} (hnew : ∀ group ∈ groups, group.1 ≠ v.file) :
    groups.add v = groups ++ [(v.file, [v])] := by
  induction groups with
  | nil => rfl
  | cons group rest ih =>
      obtain ⟨hgroup, hrest⟩ := List.forall_mem_cons.mp hnew
      rw [Groups.add, if_neg hgroup, ih hrest, List.cons_append]

theorem Groups.add_last
    {groups : Groups} {v : Violation} (hnew : ∀ group ∈ groups, group.1 ≠ v.file)
    (found : List Violation) :
    Groups.add v (groups ++ [(v.file, found)]) = groups ++ [(v.file, found ++ [v])] := by
  induction groups with
  | nil => exact if_pos rfl
  | cons group rest ih =>
      obtain ⟨hgroup, hrest⟩ := List.forall_mem_cons.mp hnew
      rw [List.cons_append, Groups.add, if_neg hgroup, ih hrest, List.cons_append]

/-- The violations of a file that is not there yet become a group at the end. -/
theorem Groups.foldl_add_bucket
    {P : Violation → Prop} {groups : Groups} {file : String} {found : List Violation}
    (hnew : ∀ group ∈ groups, group.1 ≠ file) (hfound : Bucket P file found) :
    found.foldl (fun groups v => groups.add v) groups = groups ++ [(file, found)] := by
  have hlast (done later : List Violation) (hlater : ∀ v ∈ later, v.file = file) :
      later.foldl (fun groups v => Groups.add v groups) (groups ++ [(file, done)]) =
        groups ++ [(file, done ++ later)] := by
    induction later generalizing done with
    | nil => rw [List.foldl_nil, List.append_nil]
    | cons v later ih =>
        obtain ⟨rfl, hlater⟩ := List.forall_mem_cons.mp hlater
        rw [List.foldl_cons, Groups.add_last hnew, ih (done ++ [v]) hlater, List.append_assoc]
        rfl
  cases found with
  | nil => exact absurd rfl hfound.some_found
  | cons v later =>
      obtain ⟨⟨rfl, _⟩, hlater⟩ := List.forall_mem_cons.mp hfound.own
      rw [List.foldl_cons, Groups.add_new hnew, hlast [v] later fun w hw => (hlater w hw).1]
      rfl

/-- Regrouping gives the violations of each file as they are filed. -/
theorem Filed.groups_eq
    {P : Violation → Prop} {report : Report} (hreport : Filed P report) :
    report.groups = report.files.map fun entry => (entry.1, inFile entry.2) := by
  -- The files ascend, so each block of violations belongs to a file that has no group yet.
  have hrun (entries : List (String × LineTable)) (groups : Groups)
      (hascending : Ordered.Ascending entries)
      (hnew : ∀ group ∈ groups, ∀ entry ∈ entries, group.1 ≠ entry.1)
      (hbuckets : ∀ entry ∈ entries, Bucket P entry.1 (inFile entry.2)) :
      (entries.flatMap fun entry => inFile entry.2).foldl (fun groups v => groups.add v) groups =
        groups ++ entries.map fun entry => (entry.1, inFile entry.2) := by
    induction entries generalizing groups with
    | nil => simp
    | cons entry entries ih =>
        obtain ⟨hfirst, hrest⟩ := List.pairwise_cons.mp hascending
        obtain ⟨hbucket, hlater⟩ := List.forall_mem_cons.mp hbuckets
        have hfile : ∀ group ∈ groups, group.1 ≠ entry.1 :=
          fun group hgroup => hnew group hgroup entry List.mem_cons_self
        rw [List.flatMap_cons, List.foldl_append, Groups.foldl_add_bucket hfile hbucket, ih _ hrest
          ?_ hlater, List.map_cons, List.append_assoc]
        · rfl
        · intro group hgroup later hmem
          rcases List.mem_append.mp hgroup with hold | hlast
          · exact hnew group hold later (List.mem_cons_of_mem entry hmem)
          · rw [List.mem_singleton.mp hlast]
            exact ne_of_lt (hfirst later hmem)
  exact hrun report.files [] hreport.ascending (by simp) fun _ => hreport.bucket_inFile

theorem Filed.groupsOf
    {P : Violation → Prop} {report : Report}
    (hreport : Filed P report) :
    GroupsOf report report.groups where
  all := by
    rw [hreport.groups_eq, List.flatMap_map]
    rfl
  own group hgroup v hv := by
    rw [hreport.groups_eq] at hgroup
    obtain ⟨entry, hentry, rfl⟩ := List.mem_map.mp hgroup
    exact ((hreport.bucket_inFile hentry).own v hv).1
  ascending := by
    rw [hreport.groups_eq]
    exact List.pairwise_map.mpr hreport.ascending
  some_found group hgroup := by
    rw [hreport.groups_eq] at hgroup
    obtain ⟨entry, hentry, rfl⟩ := List.mem_map.mp hgroup
    exact (hreport.bucket_inFile hentry).some_found

theorem Groups.forall_mem_add_iff
    {P : Violation → Prop} (groups : Groups) (v : Violation) :
    (∀ group ∈ groups.add v, ∀ w ∈ group.2, P w) ↔
      (∀ group ∈ groups, ∀ w ∈ group.2, P w) ∧ P v := by
  induction groups with
  | nil => simp [Groups.add]
  | cons group rest ih =>
      rw [Groups.add]
      split
      · rw [List.forall_mem_cons, List.forall_mem_cons, List.forall_mem_append,
          List.forall_mem_singleton]
        exact and_right_comm
      · rw [List.forall_mem_cons, ih, List.forall_mem_cons, and_assoc]

/-- Regrouping neither loses a violation nor adds one. -/
theorem forall_mem_groups_iff
    {P : Violation → Prop} (report : Report) :
    (∀ group ∈ report.groups, ∀ v ∈ group.2, P v) ↔ ∀ v ∈ report.violations, P v := by
  have hrun (found : List Violation) (groups : Groups) :
      (∀ group ∈ found.foldl (fun groups v => groups.add v) groups, ∀ v ∈ group.2, P v) ↔
        (∀ group ∈ groups, ∀ v ∈ group.2, P v) ∧ ∀ v ∈ found, P v := by
    induction found generalizing groups with
    | nil => simp
    | cons v found ih =>
        rw [List.foldl_cons, ih, Groups.forall_mem_add_iff, List.forall_mem_cons, and_assoc]
  rw [groups, hrun]
  simp

theorem Filed.forall_mem_violations
    {P : Violation → Prop} {report : Report} (hreport : Filed P report) :
    ∀ v ∈ report.violations, P v := by
  intro v hv
  obtain ⟨entry, hentry, hv⟩ := List.mem_flatMap.mp hv
  exact ((hreport.bucket_inFile hentry).own v hv).2

/-! ## The text of a report -/

theorem guardsAscii_embeddable (spread : Json.Spread) :
    (Json.Style.embeddable spread).GuardsAscii := by
  have hall : ['<', '>', '&', '\x27', '\x22'].all (·.toNat < 0x80) = true := by
    decide
  intro c hc
  exact of_decide_eq_true (List.all_eq_true.mp hall c hc)

/-- When a report has a text, and which. -/
theorem render_eq (report : Report) (format : Format) :
    report.render format =
      if format.spread.fits = false then .error .indentTooLarge
      else if (report.document format).isWritable = false then .error .unwritable
      else
        .ok (String.ofList ((Json.Style.embeddable format.spread).layout 0
          (report.document format) ++ ['\n'])) := by
  rw [render, encode, Json.Style.write]
  change Except.map _ (Except.map _ (if (!format.spread.fits) = true then _ else _)) = _
  cases format.spread.fits with
  | false => rfl
  | true =>
      cases (report.document format).isWritable with
      | false => rfl
      | true =>
          have hescape := Json.Markup.escape_value format.spread 0 (report.document format)
          simp only [Bool.not_true, Bool.false_eq_true, Bool.true_eq_false, if_false, Except.map,
            String.toList_ofList, String.ofList_append, hescape]

theorem render_eq_ok_iff {report : Report} {format : Format} {text : String} :
    report.render format = .ok text ↔
      format.spread.fits = true ∧ (report.document format).isWritable = true ∧
        text.toList = (Json.Style.embeddable format.spread).layout 0
          (report.document format) ++ ['\n'] := by
  rw [render_eq]
  cases format.spread.fits <;> cases (report.document format).isWritable <;>
    simp [String.ext_iff, eq_comm]

/-- Only the violations can have integers that are too long. -/
theorem isWritable_document_iff (report : Report) (format : Format) :
    (report.document format).isWritable = true ↔
      ∀ v ∈ report.violations, (violationValue v).isWritable = true := by
  have herrors : Value.areWritable (report.errors.map errorValue) = true := by
    rw [Value.areWritable_iff, List.forall_mem_map]
    exact fun error _ => rfl
  have hfiles : Value.areWritable (report.groups.map groupValue) = true ↔
      ∀ group ∈ report.groups, ∀ v ∈ group.2, (violationValue v).isWritable = true := by
    simp only [Value.areWritable_iff, List.forall_mem_map, groupValue, Value.isWritable,
      Value.fieldsAreWritable, Bool.true_and, Bool.and_true]
  rw [← forall_mem_groups_iff, ← hfiles, document]
  cases report.errors.isEmpty <;>
    simp [Value.isWritable, Value.fieldsAreWritable, herrors]

/-- A report of regular violations has a text, from which its document is read back. -/
theorem Filed.exists_render
    {report : Report} (hreport : Filed (Violation.Regular digits) report)
    (format : Format) (depth : Nat)
    (hdigits : digits ≤ Text.maxDigits) (hspread : format.spread.fits = true) :
    ∃ text, report.render format = .ok text ∧
      Json.read (depth + 5) digits text.toList = .ok (report.document format) := by
  have hgroups := (forall_mem_groups_iff report).mpr hreport.forall_mem_violations
  have hplain := plain_document hgroups format depth
  have hbreak : ∀ c ∈ ['\n'], Json.isBlank c = true := List.forall_mem_singleton.mpr rfl
  refine ⟨_, render_eq_ok_iff.mpr
    ⟨hspread, hplain.isWritable hdigits, String.toList_ofList⟩, ?_⟩
  rw [String.toList_ofList]
  exact Json.read_value (guardsAscii_embeddable format.spread) hplain hbreak

/-! ## What a history is documented as -/

/-- The document of a history, with the violations in groups. -/
def documentOf
    (steps : List Step) (format : Format)
    (groups : List (String × List Violation)) : Value :=
  .table
    ([("version", .str format.version), ("package", .str "phpmd"),
        ("timestamp", .str format.timestamp),
        ("files", .list (groups.map fun group =>
          .table [("file", .str group.1),
            ("violations", .list (group.2.map fun v =>
              .table [("beginLine", v.beginLine.toValue),
                ("endLine", v.endLine.toValue),
                ("package", v.scopes.namespaceName),
                ("function", v.scopes.functionName),
                ("class", v.scopes.typeName),
                ("method", v.scopes.methodName),
                ("description", .str v.description),
                ("rule", .str v.rule.name),
                ("ruleSet", .str v.rule.ruleset),
                ("externalInfoUrl", .str v.rule.url),
                ("priority", .int v.rule.priority)]))]))]
      ++ if addedErrors steps = [] then []
        else [("errors", .list ((addedErrors steps).map fun error =>
          .table [("fileName", .str error.file), ("message", .str error.message)]))])

theorem document_after (steps : List Step) (format : Format) :
    (after steps).document format = documentOf steps format (after steps).groups := by
  rw [document, documentOf, errors_after]
  cases addedErrors steps with
  | nil => rfl
  | cons error errors => rfl

/-- A history of a report with integers that can be written out has a text when the indentation
fits, and the text is read back as its document, by any reader that takes five levels and as many
digits as the integers have. -/
theorem render_reads_back_as_document
    (steps : List Step) (format : Format) (depth : Nat)
    (hsteps : ∀ v ∈ addedViolations steps, v.Regular digits)
    (hdigits : digits ≤ Text.maxDigits) (hspread : format.spread.fits = true) :
    ∃ text groups, (after steps).render format = .ok text ∧ GroupsOf (after steps) groups ∧
      Json.read (depth + 5) digits text.toList = .ok (documentOf steps format groups) := by
  have hreport := filed_after hsteps
  obtain ⟨text, htext, hread⟩ := hreport.exists_render format depth hdigits hspread
  rw [document_after] at hread
  exact ⟨text, (after steps).groups, htext, hreport.groupsOf, hread⟩

/-- A violation at the only node of a file. -/
def sampleViolation (file description : String) (line : Line) : Violation where
  rule :=
    { family := "Sample", name := "Rule<1>", ruleset := "It's & more", url := "a\\b" }
  tree := Tree.single file { kind := .variableUse, beginLine := line, endLine := line }
  node := Tree.root _
  description := description
  scopes := { namespaceName := .str "\\App", methodName := .str "\"run\"" }
  arguments := []

def sampleSteps : List Step :=
  [.violation (sampleViolation "src/b.php" "a \"quoted\" \\u0041 \x01 text" (.number 120)),
    .error ⟨"<a&b>.php", "it's \"broken\"\n"⟩,
    .batch ⟨[sampleViolation "src/a.php" "tab\t and 😀" (.flag true),
      sampleViolation "src/b.php" "é" (.number (-3))], [⟨"c.php", "𝔘\x7f"⟩]⟩]

theorem regular_sampleViolation
    {digits : Nat} (file description : String) {line : Line}
    (hline : line.Counts (digits + 1)) :
    (sampleViolation file description line).Regular (digits + 1) where
  beginLine := hline
  endLine := hline
  namespaceName := .str _
  functionName := .null
  typeName := .null
  methodName := .str _
  priority := by
    have hone : Json.digitCount 3 = 1 := by decide
    change Json.digitCount 3 ≤ digits + 1
    omega

theorem regular_sampleSteps : ∀ v ∈ addedViolations sampleSteps, v.Regular 3 := by
  have hfirst : Line.Counts 3 (.number 120) := .number 120 (by decide)
  have hthird : Line.Counts 3 (.number (-3)) := .number (-3) (by decide)
  intro v hv
  simp only [addedViolations, sampleSteps, List.flatMap_cons, List.flatMap_nil,
    Step.violations, List.cons_append, List.nil_append, List.append_nil,
    List.mem_cons, List.not_mem_nil, or_false] at hv
  rcases hv with rfl | rfl | rfl
  · exact regular_sampleViolation _ _ hfirst
  · exact regular_sampleViolation _ _ (.flag true)
  · exact regular_sampleViolation _ _ hthird

theorem render_reads_back_as_document_sample :
    ((∀ v ∈ addedViolations sampleSteps, v.Regular 3) ∧ 3 ≤ Text.maxDigits ∧
        (Json.Spread.lines 4).fits = true) ∧
      ∃ text groups,
        (after sampleSteps).render { timestamp := "2024-01-01T00:00:00+00:00" } = .ok text ∧
          GroupsOf (after sampleSteps) groups ∧
            Json.read 5 3 text.toList =
              .ok (documentOf sampleSteps { timestamp := "2024-01-01T00:00:00+00:00" } groups) := by
  have hdigits : 3 ≤ Text.maxDigits := by decide
  have hspread : (Json.Spread.lines 4).fits = true := by decide +kernel
  exact ⟨⟨regular_sampleSteps, hdigits, hspread⟩,
    render_reads_back_as_document sampleSteps _ 0 regular_sampleSteps hdigits hspread⟩

/-- A violation on a line with one digit too many. -/
def longLine : Violation := sampleViolation "src/a.php" "" (.number Text.longInteger)

/-- A line that is too long leaves a report without a text, and so does an indentation that is too
wide, whatever the report. -/
theorem long_line_has_no_text :
    (∀ v ∈ addedViolations [.violation longLine], v.Regular (Text.maxDigits + 1)) ∧
      (after [.violation longLine]).render { timestamp := "" } = .error .unwritable ∧
      (after [.violation (sampleViolation "a.php" "" (.number 1))]).render
          { timestamp := "", spread := .lines (-2 ^ 63 - 1) } = .error .indentTooLarge := by
  refine ⟨?_, ?_, ?_⟩
  · have hcount : Json.digitCount Text.longInteger = Text.maxDigits + 1 :=
      Json.length_toDigits_pow (by decide)
    intro v hv
    rw [List.mem_singleton.mp hv]
    exact regular_sampleViolation _ _ (.number _ hcount.le)
  · have hline : (violationValue longLine).isWritable = false := by
      change (Text.isWritable Text.longInteger && _) = false
      rw [Text.isWritable_longInteger, Bool.false_and]
    have hmem : longLine ∈ (after [.violation longLine]).violations := by
      simp [violations, after, Step.apply, add, Ordered.alter, fileLine, inFile]
    have hlong :
        ((after [.violation longLine]).document { timestamp := "" }).isWritable = false := by
      rw [← Bool.not_eq_true, isWritable_document_iff]
      intro hall
      exact absurd (hall longLine hmem) (Bool.eq_false_iff.mp hline)
    rw [render_eq, if_neg (by decide +kernel), if_pos hlong]
  · rw [render_eq, if_pos (by decide +kernel)]

end Report

end TreeLint

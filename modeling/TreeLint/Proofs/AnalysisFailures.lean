import TreeLint.Analysis
import TreeLint.Proofs.CheckOutcome
import TreeLint.Proofs.DumpSchema
import TreeLint.Proofs.FileReading
import TreeLint.Proofs.JsonRoundTrip
import TreeLint.Proofs.ReaderAnswers
import TreeLint.Proofs.ReportHistory

/-!
# How an analysis ends

A dump is loaded or refused, whatever its bytes are, with two exceptions that
loading does not turn into an error: a path with a null character and an integer
with too many digits.  A loaded dump is a tree of texts whose comments can be
read, on which no built-in rule breaks down, so without such an exception a run
gives a report with one error for each refused dump.  At the first exception it
gives none.  A run whose number of workers is too long to be written ends before
it has looked at any dump.
-/

namespace TreeLint

/-! ## Integers with too many digits -/

namespace Json

theorem readNumber_long
    {digits n : Nat} (h : digits < (Nat.toDigits 10 n).length) (negative : Bool) :
    readNumber digits negative (Nat.toDigits 10 n) =
      .error (.tooManyDigits (Nat.toDigits 10 n).length) := by
  have hboundary : Boundary [] := nofun
  have hinteger := integerPart_toDigits n hboundary
  rw [List.append_nil] at hinteger
  unfold readNumber
  simp only [hinteger, fractionPart_of_boundary hboundary,
    exponentPart_of_boundary hboundary, if_pos h]
  rfl

/-- A text of nothing but the digits of a number is refused when there are too many of them. -/
theorem read_long
    {digits n : Nat} (h : digits < (Nat.toDigits 10 n).length) (depth : Nat) :
    read depth digits (Nat.toDigits 10 n) =
      .error (.tooManyDigits (Nat.toDigits 10 n).length) := by
  have hnumber := readNumber_long h false
  obtain ⟨c, ds, hcons, hc⟩ := exists_toDigits_eq_cons n
  have hopening := opening_of_isDigit hc
  have hscalar : c ≠ '\x22' ∧ c ≠ '[' ∧ c ≠ '\x7b' := by
    refine ⟨?_, ?_, ?_⟩ <;>
      · rintro rfl
        cases hc
  rw [hcons] at hnumber ⊢
  unfold read
  split
  · next heq =>
    cases heq
    exact absurd rfl hopening.noMark
  · rw [skipBlanks_cons _ hopening.solid, readValue_scalar _ _ _ _ hscalar]
    simp only [readScalar, if_pos hc, hnumber]

end Json

/-! ## Built-in rules -/

namespace Catalog

theorem mem_rules_of_select
    {selected : Option (List String)} {rules : List Rule} {rule : Rule}
    (h : select selected = .ok rules) (hrule : rule ∈ rules) :
    rule ∈ Catalog.rules := by
  have hmap := Dump.eq_map_of_mapM_eq_ok
    (g := fun name => (find? name).getD UnusedParameter.rule) ?_ h
  · rw [hmap] at hrule
    obtain ⟨name, _, rfl⟩ := List.mem_map.mp hrule
    cases hfind : find? name with
    | none => exact List.mem_singleton_self _
    | some found => exact List.mem_of_find?_eq_some hfind
  · intro name found hfound
    split at hfound
    · next hfind =>
      cases hfound
      rw [hfind, Option.getD_some]
    · cases hfound

end Catalog

namespace Analysis

/-- What goes past the errors of loading and ends a run: no file can have the path, or its text has
an integer that is not read. -/
inductive Escapes (store : Store) (path : String) : Failure → Prop where
  | nullByte (hnull : '\x00' ∈ path.toList) :
      Escapes store path (.unusablePath ⟨.nullByte, Path.parse path⟩)
  | longInteger {text : List Char} {count : Nat}
      (htext : store.readText (Path.parse path) = .ok text)
      (hread : Json.read Dump.maxDepth Text.maxDigits text = .error (.tooManyDigits count)) :
      Escapes store path (.tooManyDigits count)

/-- A dump can be read, is JSON, and its document is accepted as a tree. -/
def Accepted (store : Store) (path : String) (t : Tree) : Prop :=
  ∃ text document,
    store.readText (Path.parse path) = .ok text ∧
      Json.read Dump.maxDepth Text.maxDigits text = .ok document ∧
      Dump.ofDocument path document = .ok t

/-- The errors that a run reports of a dump. -/
def refusals (store : Store) (path : String) : List ProcessingError :=
  match Dump.load store path with
  | .error (.refused error) => [⟨error.file, error.message⟩]
  | _ => []

variable {store : Store} {path : String}

/-! ## Loading -/

theorem ofText_eq_ok_iff
    {text : List Char} {t : Tree} :
    Dump.ofText path text = .ok t ↔
      ∃ document, Json.read Dump.maxDepth Text.maxDigits text = .ok document ∧
        Dump.ofDocument path document = .ok t := by
  unfold Dump.ofText
  cases Json.read Dump.maxDepth Text.maxDigits text with
  | error fault => cases fault <;> simp
  | ok document => simp

theorem load_eq_ok_iff
    {t : Tree} : Dump.load store path = .ok t ↔ Accepted store path t := by
  unfold Dump.load Accepted
  split
  · next hread => simp [hread]
  · next error _ hread => simp [hread]
  · next text hread => simp [hread, ofText_eq_ok_iff]

theorem Accepted.textual
    {t : Tree} (h : Accepted store path t) : t.Textual := by
  obtain ⟨_, _, _, _, hdocument⟩ := h
  exact Dump.ofDocument_textual hdocument

theorem Accepted.readable
    {t : Tree} (h : Accepted store path t) : t.Readable := by
  obtain ⟨_, _, _, _, hdocument⟩ := h
  exact Dump.ofDocument_readable hdocument

/-- A dump from which nothing escapes is accepted or refused. -/
theorem load_of_not_escapes
    (h : ∀ failure, ¬ Escapes store path failure) :
    (∃ t, Dump.load store path = .ok t) ∨
      ∃ error, Dump.load store path = .error (.refused error) := by
  unfold Dump.load
  split
  · next unusable hnull =>
    have hpath := (Path.hasNull_parse path).mp (Store.hasNull_of_readText hnull)
    exact absurd (.nullByte hpath) (h _)
  · exact Or.inr ⟨_, rfl⟩
  · next text htext =>
    unfold Dump.ofText
    split
    · exact Or.inr ⟨_, rfl⟩
    · exact Or.inr ⟨_, rfl⟩
    · next count hread => exact absurd (.longInteger htext hread) (h _)
    · next document hread =>
      exact Dump.ofDocument_ok_or_refused (Json.short_of_read (by decide) hread)

theorem analyzeUnit_of_escapes
    {failure : Failure}
    (h : Escapes store path failure)
    (rules : Except RuleFault (List Rule)) (sender : Telemetry) :
    analyzeUnit store rules sender path = .error failure := by
  unfold analyzeUnit Dump.load
  cases h with
  | nullByte hnull =>
      rw [Store.readText_of_hasNull store ((Path.hasNull_parse path).mpr hnull)]
  | longInteger htext hread =>
      simp only [htext, Dump.ofText, hread]

/-- A file that holds nothing but the decimal digits of a large number ends a run. -/
theorem escapes_toString
    {n : Nat} (hlarge : 10 ^ Text.maxDigits ≤ n)
    (hfile : store.readBytes (Path.parse path) = .ok (Text.Utf8.encode (toString n))) :
    Escapes store path (.tooManyDigits (Nat.toDigits 10 n).length) := by
  have hdigit : ∀ c ∈ Nat.toDigits 10 n, c.isDigit = true := fun c hc =>
    Nat.isDigit_of_mem_toDigits (by decide) (by decide) hc
  rw [Nat.toString_eq_ofList_toDigits] at hfile
  refine .longInteger (Store.readText_encode hfile ?_ ?_) ?_
  · intro c hc
    exact lt_of_le_of_lt (Char.isDigit_iff_toNat.mp (hdigit c hc)).2 (by decide)
  · intro hreturn
    exact absurd (hdigit _ hreturn) (by decide)
  · exact Json.read_long (Json.lt_length_toDigits (by decide) hlarge) Dump.maxDepth

theorem analyzeUnit_of_not_escapes
    {rules : List Rule}
    (hrules : ∀ rule ∈ rules, rule ∈ Catalog.rules)
    (h : ∀ failure, ¬ Escapes store path failure) (sender : Telemetry) :
    ∃ unit, analyzeUnit store (.ok rules) sender path = .ok unit ∧
      unit.batch.errors = refusals store path := by
  unfold analyzeUnit refusals
  rcases load_of_not_escapes h with ⟨t, hload⟩ | ⟨error, hload⟩
  · have haccepted := load_eq_ok_iff.mp hload
    obtain ⟨events, hrun⟩ :=
      Dispatch.exists_run (Catalog.legible hrules haccepted.readable)
    simp only [hload, hrun]
    refine ⟨_, rfl, Dispatch.errors_run (fun rule hrule i => ?_) hrun⟩
    exact Catalog.exists_check_eq_ok (hrules rule hrule) haccepted.textual haccepted.readable i
  · rw [hload]
    exact ⟨_, rfl, rfl⟩

/-! ## Runs -/

theorem untilFailure_map_ok (units : List UnitResult) :
    untilFailure (units.map .ok) = (units, none) := by
  induction units with
  | nil => rfl
  | cons unit units ih => rw [List.map_cons, untilFailure, ih]

/-- The first failure counts; what comes after it does not. -/
theorem untilFailure_append
    (units : List UnitResult) (failure : Failure)
    (rest : List (Except Failure UnitResult)) :
    untilFailure (units.map .ok ++ .error failure :: rest) = (units, some failure) := by
  induction units with
  | nil => rfl
  | cons unit units ih => rw [List.map_cons, List.cons_append, untilFailure, ih]

theorem mergeAll_eq_after (units : List UnitResult) :
    mergeAll units = Report.after (units.map fun unit => .batch unit.batch) := by
  rw [mergeAll, Report.after, List.foldl_map]
  rfl

theorem errors_mergeAll (units : List UnitResult) :
    (mergeAll units).errors = units.flatMap fun unit => unit.batch.errors := by
  rw [mergeAll_eq_after, Report.errors_after, Report.addedErrors, List.flatMap_map]
  rfl

theorem exists_units_of_not_escapes
    {rules : List Rule} {paths : List String}
    (hrules : ∀ rule ∈ rules, rule ∈ Catalog.rules)
    (h : ∀ path ∈ paths, ∀ failure, ¬ Escapes store path failure) (sender : Telemetry) :
    ∃ units : List UnitResult,
      paths.map (analyzeUnit store (.ok rules) sender) = units.map .ok ∧
        (units.flatMap fun unit => unit.batch.errors) = paths.flatMap (refusals store) := by
  induction paths with
  | nil => exact ⟨[], rfl, rfl⟩
  | cons path paths ih =>
      obtain ⟨unit, hunit, herrors⟩ :=
        analyzeUnit_of_not_escapes hrules (h path List.mem_cons_self) sender
      obtain ⟨units, hunits, hrest⟩ :=
        ih fun path hpath => h path (List.mem_cons_of_mem _ hpath)
      refine ⟨unit :: units, ?_, ?_⟩
      · rw [List.map_cons, hunit, hunits, List.map_cons]
      · rw [List.flatMap_cons, herrors, hrest, List.flatMap_cons]

section Result

variable {rules : Except RuleFault (List Rule)} {sender : Telemetry}
  {paths : List String} {units : List UnitResult} {jobs : Int}

theorem result_run_of_not_isWritable (h : Text.isWritable jobs = false) :
    (run store rules sender paths jobs).result = .error .unwritable := by
  simp [run, Text.written, h]

theorem result_run_of_none
    (hjobs : Text.isWritable jobs = true)
    (h : untilFailure (paths.map (analyzeUnit store rules sender)) = (units, none)) :
    (run store rules sender paths jobs).result = .ok (mergeAll units) := by
  simp only [run, runUnits, Text.written_of_isWritable hjobs, h]

theorem result_run_of_some
    {failure : Failure} (hjobs : Text.isWritable jobs = true)
    (h : untilFailure (paths.map (analyzeUnit store rules sender)) = (units, some failure)) :
    (run store rules sender paths jobs).result = .error failure := by
  simp only [run, runUnits, Text.written_of_isWritable hjobs, h]

end Result

/-- A run with built-in rules gives a report with one error for each refused
dump, in the order of the dumps, unless something escapes from loading one of
them; then it ends with what escapes first.  Of the other dumps those that can be
read, decoded and accepted are loaded, and all the rest are refused.  What escapes
is a null character in the path or a run of more digits in the text than an integer
may have.  With a number of workers of too many digits a run ends at once. -/
theorem run_reports_refused_dumps
    {selected : Option (List String)} {rules : List Rule}
    (hrules : Catalog.select selected = .ok rules)
    (store : Store) (sender : Telemetry) (paths : List String) (jobs : Int) :
    (Text.isWritable jobs = true → (∀ path ∈ paths, ∀ failure, ¬ Escapes store path failure) →
        ∃ report, (run store (.ok rules) sender paths jobs).result = .ok report ∧
          report.errors = paths.flatMap (refusals store)) ∧
      (∀ before path after failure,
        Text.isWritable jobs = true →
        paths = before ++ path :: after →
        (∀ earlier ∈ before, ∀ failure, ¬ Escapes store earlier failure) →
        Escapes store path failure →
        (run store (.ok rules) sender paths jobs).result = .error failure) ∧
      (∀ path, (∀ failure, ¬ Escapes store path failure) →
        (∃ t, Accepted store path t ∧ Dump.load store path = .ok t) ∨
          (∀ t, ¬ Accepted store path t) ∧
            ∃ error, Dump.load store path = .error (.refused error)) ∧
      (∀ path failure, Escapes store path failure →
        '\x00' ∈ path.toList ∨
          ∃ text count, store.readText (Path.parse path) = .ok text ∧
            Text.maxDigits < count ∧ Json.HasRun count text) ∧
      (Text.isWritable jobs = false →
        (run store (.ok rules) sender paths jobs).result = .error .unwritable) := by
  have hcatalog : ∀ rule ∈ rules, rule ∈ Catalog.rules := fun rule hrule =>
    Catalog.mem_rules_of_select hrules hrule
  refine ⟨?_, ?_, ?_, ?_, result_run_of_not_isWritable⟩
  · intro hjobs hpaths
    obtain ⟨units, hunits, herrors⟩ := exists_units_of_not_escapes hcatalog hpaths sender
    have huntil := untilFailure_map_ok units
    rw [← hunits] at huntil
    exact ⟨mergeAll units, result_run_of_none hjobs huntil, (errors_mergeAll units).trans herrors⟩
  · intro before path after failure hjobs hsplit hbefore hescapes
    obtain ⟨units, hunits, _⟩ := exists_units_of_not_escapes hcatalog hbefore sender
    have huntil := untilFailure_append units failure
      (after.map (analyzeUnit store (.ok rules) sender))
    rw [← hunits, ← analyzeUnit_of_escapes hescapes (.ok rules) sender, ← List.map_cons,
      ← List.map_append, ← hsplit] at huntil
    exact result_run_of_some hjobs huntil
  · intro path hpath
    rcases load_of_not_escapes hpath with ⟨t, hload⟩ | ⟨error, hload⟩
    · exact Or.inl ⟨t, load_eq_ok_iff.mp hload, hload⟩
    · refine Or.inr ⟨fun t haccepted => ?_, error, hload⟩
      rw [← load_eq_ok_iff, hload] at haccepted
      cases haccepted
  · intro path failure hescapes
    cases hescapes with
    | nullByte hnull => exact Or.inl hnull
    | longInteger htext hread =>
        exact Or.inr ⟨_, _, htext, Json.hasRun_of_read_tooManyDigits hread⟩

/-- A store with a single file. -/
def oneFile (content : ByteArray) : Store := { files := [(["b"], content)] }

theorem not_escapes_missing
    (content : ByteArray) (failure : Failure) : ¬ Escapes (oneFile content) "a" failure := by
  have hmissing : (oneFile content).readText (Path.parse "a") =
      .error (.file ⟨.missing, Path.parse "a"⟩) := rfl
  intro h
  cases h with
  | nullByte hnull => exact absurd hnull (by decide)
  | longInteger htext hread =>
      rw [hmissing] at htext
      cases htext

theorem run_reports_refused_dumps_sample :
    Catalog.select (some ["UnusedFormalParameter"]) = .ok Catalog.rules ∧
      (∃ report,
        (run (oneFile (Text.Utf8.encode (toString Text.longInteger))) (.ok Catalog.rules)
            ⟨"lint", "lint"⟩ ["a"] 1).result = .ok report ∧
          report.errors =
            [⟨"a", "Cannot read tree dump: [Errno 2] No such file or directory: 'a'"⟩]) ∧
      (run (oneFile (Text.Utf8.encode (toString Text.longInteger))) (.ok Catalog.rules)
          ⟨"lint", "lint"⟩ ["a", "b"] 1).result = .error (.tooManyDigits (Text.maxDigits + 1)) := by
  have hselect : Catalog.select (some ["UnusedFormalParameter"]) = .ok Catalog.rules := rfl
  have hcount : (Nat.toDigits 10 Text.longInteger).length = Text.maxDigits + 1 :=
    Json.length_toDigits_pow (by decide)
  generalize hcontent : Text.Utf8.encode (toString Text.longInteger) = content
  have hmissing : ∀ path ∈ ["a"], ∀ failure, ¬ Escapes (oneFile content) path failure := by
    intro path hpath failure
    rw [List.mem_singleton.mp hpath]
    exact not_escapes_missing content failure
  have hlong : Escapes (oneFile content) "b" (.tooManyDigits (Text.maxDigits + 1)) := by
    rw [← hcount]
    refine escapes_toString (Nat.le_refl Text.longInteger) ?_
    rw [hcontent]
    rfl
  have hjobs : Text.isWritable 1 = true := by decide +kernel
  refine ⟨hselect, ?_, ?_⟩
  · obtain ⟨report, hresult, herrors⟩ :=
      (run_reports_refused_dumps hselect (oneFile content) ⟨"lint", "lint"⟩ ["a"] 1).1
        hjobs hmissing
    exact ⟨report, hresult, herrors⟩
  · exact (run_reports_refused_dumps hselect (oneFile content) ⟨"lint", "lint"⟩ ["a", "b"] 1).2.1
      ["a"] "b" [] _ hjobs rfl hmissing hlong

end Analysis

end TreeLint

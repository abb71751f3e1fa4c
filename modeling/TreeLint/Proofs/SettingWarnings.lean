import Mathlib.Data.List.Infix
import TreeLint.Settings.Basic

/-!
# Warnings about settings

A setting is read twice: once for the warnings, and once for its value.  Both
times the same reader decides.  A value that it takes is in use as it was given,
and one that it refuses is never the default that stands in for it.  So a refused
value is exactly one that is given and not in use, and for the rules, the number of
workers and the suffix of tree dumps this is when there is a warning that names the
setting.

The file of the report is read in the same way, but there is no warning about it.  A
value for it that is no text, or the empty text, is passed over in silence.
-/

namespace TreeLint

namespace Settings

inductive Setting where
  | rules
  | jobs
  | treeSuffix
  | reportFile
  deriving DecidableEq, Repr

namespace Setting

def all : List Setting := [.rules, .jobs, .treeSuffix, .reportFile]

theorem mem_all (setting : Setting) : setting ∈ all := by cases setting <;> decide

def key : Setting → String
  | .rules => "rules"
  | .jobs => "jobs"
  | .treeSuffix => "tree_suffix"
  | .reportFile => "report_file"

/-- The value of a setting when none is given. -/
def standard : Setting → Value
  | .rules => .null
  | .jobs => .int defaultJobs
  | .treeSuffix => .str defaultSuffix
  | .reportFile => .null

end Setting

/-- The value of a setting that a run works with. -/
def inUse (settings : Settings) : Setting → Value
  | .rules => (settings.rules.map fun names => .list (names.map .str)).getD .null
  | .jobs => .int settings.jobs
  | .treeSuffix => .str settings.treeSuffix
  | .reportFile => (settings.reportFile.map .str).getD .null

/-- A value other than null is given for the setting, and the run works with another one. -/
def Ignores (settings : Settings) (setting : Setting) : Prop :=
  ∃ v, settings.table.get? setting.key = some v ∧ v ≠ .null ∧ settings.inUse setting ≠ v

/-- The name of the setting stands in quotes in the text of a warning. -/
def Warns (settings : Settings) (setting : Setting) : Prop :=
  ∃ w ∈ settings.warnings, ("'" ++ setting.key ++ "'").toList <:+: w.text.toList

variable {settings : Settings} {key : String}

/-! ## Readers -/

theorem given?_eq_some_iff {v : Value} :
    settings.given? key = some v ↔ settings.table.get? key = some v ∧ v ≠ .null := by
  unfold given?
  split
  · next hnull =>
    rw [hnull]
    constructor
    · intro h
      cases h
    · rintro ⟨heq, hne⟩
      exact absurd (Option.some.inj heq).symm hne
  · next hfound =>
    constructor
    · intro h
      refine ⟨h, ?_⟩
      rintro rfl
      exact hfound h
    · exact fun h => h.1

theorem text?_eq_some {v : Value} {s : String} (h : text? v = some s) : .str s = v := by
  cases v with
  | str t =>
      cases h
      rfl
  | _ => cases h

theorem names?_eq_some
    {v : Value} {names : List String} (h : names? v = some names) :
    .list (names.map .str) = v := by
  cases v with
  | list items =>
      rw [names?] at h
      congr 1
      induction items generalizing names with
      | nil =>
          cases h
          rfl
      | cons item items ih =>
          rw [List.mapM_cons] at h
          obtain ⟨name, hname, hrest⟩ := Option.bind_eq_some_iff.mp h
          obtain ⟨others, hothers, hnames⟩ := Option.bind_eq_some_iff.mp hrest
          cases hnames
          rw [List.map_cons, text?_eq_some hname, ih hothers]
  | _ => cases h

theorem count?_eq_some {v : Value} {n : Int} (h : count? v = some n) : .int n = v := by
  cases v with
  | int m =>
      rw [count?] at h
      split at h
      · cases h
        rfl
      · cases h
  | _ => cases h

theorem nonEmptyText?_eq_some
    {v : Value} {s : String} (h : nonEmptyText? v = some s) : .str s = v := by
  cases v with
  | str t =>
      rw [nonEmptyText?] at h
      split at h
      · cases h
      · cases h
        rfl
  | _ => cases h

theorem nonEmptyText?_eq_none_iff {v : Value} :
    nonEmptyText? v = none ↔ ∀ s, v = .str s → s = "" := by
  cases v with
  | str t => simp [nonEmptyText?]
  | _ => simp [nonEmptyText?]

section Reader

variable {α : Type} {accept : Value → Option α}

theorem rejected_iff :
    settings.rejected key accept = true ↔
      ∃ v, settings.given? key = some v ∧ accept v = none := by
  unfold rejected
  rw [Option.any_eq_true]
  simp only [Option.isNone_iff_eq_none]

theorem bind_eq_none_of_rejected
    (h : settings.rejected key accept = true) :
    (settings.given? key).bind accept = none := by
  obtain ⟨v, hgiven, hrefused⟩ := rejected_iff.mp h
  rw [hgiven, Option.bind_some, hrefused]

/-- Let a reader give values back as they were, and let it refuse none that is the same as the
default.  Then it refuses what is given exactly if this is not in use. -/
theorem rejected_iff_not_in_use
    (write : α → Value) (standard : Value)
    (hwrite : ∀ v a, accept v = some a → write a = v)
    (hstandard : ∀ v, accept v = none → v ≠ .null → standard ≠ v) :
    settings.rejected key accept = true ↔
      ∃ v, settings.table.get? key = some v ∧ v ≠ .null ∧
        (((settings.given? key).bind accept).map write).getD standard ≠ v := by
  simp only [rejected_iff, ← and_assoc, ← given?_eq_some_iff]
  constructor
  · rintro ⟨v, hgiven, hrefused⟩
    refine ⟨v, hgiven, ?_⟩
    rw [hgiven, Option.bind_some, hrefused]
    exact hstandard v hrefused (given?_eq_some_iff.mp hgiven).2
  · rintro ⟨v, hgiven, hdiffers⟩
    refine ⟨v, hgiven, ?_⟩
    cases haccept : accept v with
    | none => rfl
    | some a =>
        rw [hgiven, Option.bind_some, haccept] at hdiffers
        exact absurd (hwrite v a haccept) hdiffers

end Reader

/-- The value that is given for a setting is one that its reader refuses. -/
def Refuses (settings : Settings) : Setting → Prop
  | .rules => settings.rejected "rules" names? = true
  | .jobs => settings.rejected "jobs" count? = true
  | .treeSuffix => settings.rejected "tree_suffix" nonEmptyText? = true
  | .reportFile => settings.rejected "report_file" nonEmptyText? = true

theorem refuses_iff_ignores (setting : Setting) :
    settings.Refuses setting ↔ settings.Ignores setting := by
  unfold Refuses Ignores
  cases setting with
  | rules =>
      exact rejected_iff_not_in_use (fun names : List String => .list (names.map .str)) .null
        (fun _ _ => names?_eq_some) fun _ _ hne => hne.symm
  | jobs =>
      have hstandard (v : Value) (hrefused : count? v = none) : Value.int defaultJobs ≠ v := by
        rintro rfl
        cases hrefused
      rw [inUse, jobs, ← Option.getD_map Value.int]
      exact rejected_iff_not_in_use .int (.int defaultJobs) (fun _ _ => count?_eq_some)
        fun v hrefused _ => hstandard v hrefused
  | treeSuffix =>
      have hstandard (v : Value) (hrefused : nonEmptyText? v = none) :
          Value.str defaultSuffix ≠ v := by
        rintro rfl
        cases hrefused
      rw [inUse, treeSuffix, ← Option.getD_map Value.str]
      exact rejected_iff_not_in_use .str (.str defaultSuffix)
        (fun _ _ => nonEmptyText?_eq_some) fun v hrefused _ => hstandard v hrefused
  | reportFile =>
      exact rejected_iff_not_in_use .str .null
        (fun _ _ => nonEmptyText?_eq_some) fun _ _ hne => hne.symm

/-- What is refused gives way to the default. -/
theorem Refuses.inUse_eq
    {setting : Setting} (h : settings.Refuses setting) :
    settings.inUse setting = setting.standard := by
  cases setting with
  | rules =>
      rw [inUse, rules, bind_eq_none_of_rejected h]
      rfl
  | jobs =>
      rw [inUse, jobs, bind_eq_none_of_rejected h]
      rfl
  | treeSuffix =>
      rw [inUse, treeSuffix, bind_eq_none_of_rejected h]
      rfl
  | reportFile =>
      rw [inUse, reportFile, bind_eq_none_of_rejected h]
      rfl

theorem refuses_reportFile_iff :
    settings.Refuses .reportFile ↔
      ∃ v, settings.table.get? "report_file" = some v ∧ v ≠ .null ∧
        ∀ s, v = .str s → s = "" := by
  unfold Refuses
  simp only [rejected_iff, given?_eq_some_iff, nonEmptyText?_eq_none_iff, and_assoc]

/-- The setting that a warning is about. -/
def Warning.setting : Warning → Setting
  | .rules => .rules
  | .jobs => .jobs
  | .treeSuffix => .treeSuffix

theorem mem_warnings_iff {w : Warning} :
    w ∈ settings.warnings ↔ settings.Refuses w.setting := by
  unfold warnings Refuses
  cases w <;> simp [Warning.setting]

/-- A warning quotes the name of its own setting and of no other. -/
theorem Warning.quotes_iff (w : Warning) (setting : Setting) :
    ("'" ++ setting.key ++ "'").toList <:+: w.text.toList ↔ w.setting = setting := by
  have hall : ∀ setting ∈ Setting.all,
      (("'" ++ setting.key ++ "'").toList <:+: w.text.toList ↔ w.setting = setting) := by
    cases w <;> decide +kernel
  exact hall setting setting.mem_all

theorem warns_iff_refuses
    {setting : Setting} (h : setting ≠ .reportFile) :
    settings.Warns setting ↔ settings.Refuses setting := by
  unfold Warns
  simp only [Warning.quotes_iff, mem_warnings_iff]
  constructor
  · rintro ⟨w, hrefuses, rfl⟩
    exact hrefuses
  · intro hrefuses
    cases setting with
    | rules => exact ⟨.rules, hrefuses, rfl⟩
    | jobs => exact ⟨.jobs, hrefuses, rfl⟩
    | treeSuffix => exact ⟨.treeSuffix, hrefuses, rfl⟩
    | reportFile => exact absurd rfl h

theorem not_warns_reportFile : ¬ settings.Warns .reportFile := by
  rintro ⟨w, _, hquotes⟩
  have hsetting := (w.quotes_iff .reportFile).mp hquotes
  cases w <;> cases hsetting

/-- A value that is given for a setting and not in use, because the default stands in for it, is one
that a warning names, unless the setting is the file of the report.  For that there is no warning at
all, and what is passed over in silence is every value but null and the texts that are not empty. -/
theorem warns_iff_ignores_unless_report_file (settings : Settings) :
    (∀ setting ≠ Setting.reportFile, settings.Warns setting ↔ settings.Ignores setting) ∧
      (∀ setting, settings.Ignores setting → settings.inUse setting = setting.standard) ∧
      ¬ settings.Warns .reportFile ∧
      (settings.Ignores .reportFile ↔
        ∃ v, settings.table.get? "report_file" = some v ∧ v ≠ .null ∧
          ∀ s, v = .str s → s = "") := by
  refine ⟨?_, ?_, not_warns_reportFile, ?_⟩
  · intro setting hsetting
    rw [warns_iff_refuses hsetting, refuses_iff_ignores]
  · intro setting hignores
    exact ((refuses_iff_ignores setting).mpr hignores).inUse_eq
  · rw [← refuses_iff_ignores, refuses_reportFile_iff]

/-- A truth value for the number of workers, and a number for the file of the report. -/
def sampleSettings : Settings := ⟨[("jobs", .bool true), ("report_file", .int 4)]⟩

theorem warns_iff_ignores_unless_report_file_sample :
    sampleSettings.warnings.map Warning.text =
        ["Configuration Warning: 'jobs' must be an integer >= 1; using 1."] ∧
      sampleSettings.Warns .jobs ∧
      sampleSettings.Ignores .jobs ∧
      sampleSettings.Ignores .reportFile ∧
      ¬ sampleSettings.Warns .reportFile := by
  obtain ⟨hwarns, _, hsilent, hreport⟩ := warns_iff_ignores_unless_report_file sampleSettings
  have hignored : sampleSettings.Ignores .jobs := ⟨.bool true, rfl, nofun, nofun⟩
  refine ⟨by decide +kernel, (hwarns .jobs nofun).mpr hignored, hignored, ?_, hsilent⟩
  exact hreport.mpr ⟨.int 4, rfl, nofun, nofun⟩

end Settings

end TreeLint

import Mathlib.Data.List.FinRange
import Mathlib.Data.List.Forall2
import Mathlib.Logic.Function.Basic
import TreeLint.Proofs.RunReports

/-!
# Several workers

A run whose number of workers is too long to be written ends before it has
started any.  Otherwise workers complete the units of a run in any order, and
each stores what its unit comes to at the position of the unit.  The calling
thread takes the results in the order of the positions and merges them.  A unit
comes to the same whoever completes it and whenever, so the pool never holds
anything but the results of the run with a single worker, and the report does
not depend on the order of completion.
-/

namespace TreeLint.Analysis

/-- What the calling thread takes from the results that are there.  It goes through them in the
order of the units, waits for one that is missing, and goes no further than the first failure. -/
def gather? :
    List (Option (Except Failure UnitResult)) → Option (List UnitResult × Option Failure)
  | [] => some ([], none)
  | none :: _ => none
  | some (.error failure) :: _ => some ([], some failure)
  | some (.ok unit) :: rest =>
    (gather? rest).map fun (units, failure) => (unit :: units, failure)

/-- The report of some units, unless there was a failure. -/
def reportOf : List UnitResult × Option Failure → Except Failure Report
  | (_, some failure) => .error failure
  | (units, none) => .ok (mergeAll units)

/-- The results that workers have stored, each at the position of its unit. -/
abbrev Pool (paths : List String) := Fin paths.length → Option (Except Failure UnitResult)

/-- No unit is completed yet. -/
def idle (paths : List String) : Pool paths := fun _ => none

/-- What a pool comes to, once the calling thread need not wait for more. -/
def Pool.result? {paths : List String} (pool : Pool paths) : Option (Except Failure Report) :=
  (gather? ((List.finRange paths.length).map pool)).map reportOf

section Workers

variable (store : Store) (rules : Except RuleFault (List Rule)) (sender : Telemetry)
  {paths : List String}

/-- A worker completes a unit that is still open. -/
inductive Completes : Pool paths → Fin paths.length → Pool paths → Prop where
  | unit (pool : Pool paths) (i : Fin paths.length) (hopen : pool i = none) :
      Completes pool i
        (Function.update pool i (some (analyzeUnit store rules sender (paths.get i))))

/-- Units are completed one after the other. -/
inductive CompletesAll : Pool paths → List (Fin paths.length) → Pool paths → Prop where
  | nil (pool : Pool paths) : CompletesAll pool [] pool
  | cons {pool next last : Pool paths} {i : Fin paths.length} {order : List (Fin paths.length)}
      (hfirst : Completes store rules sender pool i next)
      (hrest : CompletesAll next order last) : CompletesAll pool (i :: order) last

/-- How a run with some number of workers can end.  It begins by writing that number.  With a single
worker or a single unit there is no pool. -/
inductive Executes (paths : List String) (jobs : Int) : Except Failure Report → Prop where
  | unstarted (hjobs : Text.isWritable jobs = false) : Executes paths jobs (.error .unwritable)
  | alone (hwritten : Text.isWritable jobs = true) (hjobs : ¬ (1 < jobs ∧ 1 < paths.length)) :
      Executes paths jobs (runUnits store rules sender paths jobs).result
  | pooled {order : List (Fin paths.length)} {pool : Pool paths} {result : Except Failure Report}
      (hwritten : Text.isWritable jobs = true) (hjobs : 1 < jobs ∧ 1 < paths.length)
      (hrun : CompletesAll store rules sender (idle paths) order pool)
      (hresult : pool.result? = some result) : Executes paths jobs result

/-- All that is stored is what the units come to. -/
def Pool.Sound (pool : Pool paths) : Prop :=
  ∀ i result, pool i = some result → result = analyzeUnit store rules sender (paths.get i)

end Workers

section Invariant

variable {store : Store} {rules : Except RuleFault (List Rule)} {sender : Telemetry}
  {paths : List String} {pool next last : Pool paths} {i : Fin paths.length}
  {order : List (Fin paths.length)}

/-! ## What a pool holds -/

theorem sound_idle : (idle paths).Sound store rules sender := nofun

theorem Pool.Sound.completes
    (h : pool.Sound store rules sender)
    (hstep : Completes store rules sender pool i next) :
    next.Sound store rules sender := by
  cases hstep
  intro j result hj
  by_cases heq : j = i
  · subst heq
    simpa [eq_comm] using hj
  · rw [Function.update_of_ne heq] at hj
    exact h j result hj

theorem Pool.Sound.completesAll
    (h : pool.Sound store rules sender)
    (hrun : CompletesAll store rules sender pool order last) :
    last.Sound store rules sender := by
  induction hrun with
  | nil pool => exact h
  | cons hfirst _ ih => exact ih (h.completes hfirst)

theorem Completes.isSome
    (hstep : Completes store rules sender pool i next)
    {j : Fin paths.length} (hj : j = i ∨ (pool j).isSome = true) :
    (next j).isSome = true := by
  cases hstep
  by_cases heq : j = i
  · subst heq
    simp
  · rw [Function.update_of_ne heq]
    exact hj.resolve_left heq

/-- What is completed stays completed. -/
theorem CompletesAll.isSome
    (hrun : CompletesAll store rules sender pool order last)
    {j : Fin paths.length} (hj : j ∈ order ∨ (pool j).isSome = true) :
    (last j).isSome = true := by
  induction hrun with
  | nil pool => simpa using hj
  | cons hfirst _ ih =>
      apply ih
      rcases hj with hj | hj
      · rcases List.mem_cons.mp hj with heq | hrest
        · exact Or.inr (hfirst.isSome (Or.inl heq))
        · exact Or.inl hrest
      · exact Or.inr (hfirst.isSome (Or.inr hj))

/-- Open units can be completed in any order. -/
theorem exists_completesAll
    (hnodup : order.Nodup) (hopen : ∀ i ∈ order, pool i = none) :
    ∃ last, CompletesAll store rules sender pool order last := by
  induction order generalizing pool with
  | nil => exact ⟨pool, .nil pool⟩
  | cons i order ih =>
      obtain ⟨hnot, hnodup⟩ := List.nodup_cons.mp hnodup
      obtain ⟨hi, hopen⟩ := List.forall_mem_cons.mp hopen
      have hstill (result : Option (Except Failure UnitResult)) :
          ∀ j ∈ order, Function.update pool i result j = none := by
        intro j hj
        have hne : j ≠ i := fun heq => hnot (heq ▸ hj)
        rw [Function.update_of_ne hne]
        exact hopen j hj
      obtain ⟨last, hrest⟩ := ih hnodup (hstill _)
      exact ⟨last, .cons (.unit pool i hi) hrest⟩

/-! ## What a pool comes to -/

theorem gather?_eq
    {slots : List (Option (Except Failure UnitResult))}
    {results : List (Except Failure UnitResult)} {taken : List UnitResult × Option Failure}
    (hslots : List.Forall₂ (fun slot result => ∀ stored, slot = some stored → stored = result)
      slots results)
    (h : gather? slots = some taken) :
    taken = untilFailure results := by
  induction hslots generalizing taken with
  | nil =>
      cases h
      rfl
  | @cons slot result slots results hslot _ ih =>
      cases slot with
      | none => cases h
      | some stored =>
          obtain rfl := hslot stored rfl
          cases stored with
          | error failure =>
              cases h
              rfl
          | ok unit =>
              obtain ⟨rest, hrest, rfl⟩ := Option.map_eq_some_iff.mp h
              rw [untilFailure, ← ih hrest]

theorem exists_gather?
    {slots : List (Option (Except Failure UnitResult))}
    (h : ∀ slot ∈ slots, slot.isSome = true) :
    ∃ taken, gather? slots = some taken := by
  induction slots with
  | nil => exact ⟨_, rfl⟩
  | cons slot slots ih =>
      obtain ⟨hslot, hrest⟩ := List.forall_mem_cons.mp h
      obtain ⟨taken, htaken⟩ := ih hrest
      obtain ⟨stored, rfl⟩ := Option.isSome_iff_exists.mp hslot
      cases stored with
      | error failure => exact ⟨_, rfl⟩
      | ok unit => exact ⟨_, by rw [gather?, htaken, Option.map_some]⟩

theorem result_runUnits (jobs : Int) :
    (runUnits store rules sender paths jobs).result =
      reportOf (untilFailure (paths.map (analyzeUnit store rules sender))) := by
  unfold runUnits
  cases huntil : untilFailure (paths.map (analyzeUnit store rules sender)) with
  | mk units failure =>
      simp only [huntil]
      cases failure <;> rfl

theorem result_run_of_isWritable
    {jobs : Int} (hjobs : Text.isWritable jobs = true) :
    (run store rules sender paths jobs).result =
      reportOf (untilFailure (paths.map (analyzeUnit store rules sender))) := by
  rw [← result_runUnits jobs]
  simp only [run, Text.written_of_isWritable hjobs]

theorem result_run_one :
    (run store rules sender paths 1).result =
      reportOf (untilFailure (paths.map (analyzeUnit store rules sender))) :=
  result_run_of_isWritable (by decide +kernel)

/-- A sound pool comes to nothing but what a single worker comes to, even while units are missing.
-/
theorem Pool.Sound.result_eq
    {result : Except Failure Report}
    (h : pool.Sound store rules sender)
    (hresult : pool.result? = some result) :
    result = (run store rules sender paths 1).result := by
  obtain ⟨taken, htaken, rfl⟩ := Option.map_eq_some_iff.mp hresult
  have hslots : List.Forall₂ (fun slot result => ∀ stored, slot = some stored → stored = result)
      ((List.finRange paths.length).map pool)
      ((List.finRange paths.length).map fun i => analyzeUnit store rules sender (paths.get i)) := by
    rw [List.forall₂_map_left_iff, List.forall₂_map_right_iff, List.forall₂_same]
    intro i _ stored hstored
    exact h i stored hstored
  have hresults :
      ((List.finRange paths.length).map fun i => analyzeUnit store rules sender (paths.get i)) =
        paths.map (analyzeUnit store rules sender) := by
    conv_rhs => rw [← List.map_get_finRange paths, List.map_map]
    rfl
  rw [gather?_eq hslots htaken, hresults, ← result_run_one]

theorem Pool.Sound.result?_eq_some
    (h : pool.Sound store rules sender)
    (hall : ∀ i, (pool i).isSome = true) :
    pool.result? = some (run store rules sender paths 1).result := by
  obtain ⟨taken, htaken⟩ :=
    exists_gather? (List.forall_mem_map.mpr fun i (_ : i ∈ List.finRange paths.length) => hall i)
  have hresult : pool.result? = some (reportOf taken) := by
    rw [Pool.result?, htaken, Option.map_some]
  rw [hresult, h.result_eq hresult]

/-- The units of an idle pool can be completed in every order, and all orders come to the same. -/
theorem completesAll_of_perm
    (hperm : order.Perm (List.finRange paths.length)) :
    (∃ pool, CompletesAll store rules sender (idle paths) order pool) ∧
      ∀ pool, CompletesAll store rules sender (idle paths) order pool →
        pool.result? = some (run store rules sender paths 1).result := by
  constructor
  · have hnodup : order.Nodup := hperm.nodup_iff.mpr (List.nodup_finRange _)
    exact exists_completesAll hnodup fun _ _ => rfl
  · intro pool hrun
    have hall (i : Fin paths.length) : i ∈ order := hperm.mem_iff.mpr (List.mem_finRange i)
    exact (sound_idle.completesAll hrun).result?_eq_some fun i => hrun.isSome (Or.inl (hall i))

end Invariant

/-- With any number of workers that can be written a run ends as with a single one:
with the same report, and so with the same violations, errors and document, or with
the same failure.  The units can be completed in every order, and whatever the order
is, the pool comes to that result.  With a number that cannot be written a run fails
before any unit is started, and says nothing. -/
theorem completion_order_leaves_result
    (store : Store) (rules : Except RuleFault (List Rule)) (sender : Telemetry)
    (paths : List String) (jobs : Int) :
    (Text.isWritable jobs = true →
        ∀ result, Executes store rules sender paths jobs result ↔
          result = (run store rules sender paths 1).result) ∧
      (Text.isWritable jobs = false →
        run store rules sender paths jobs = ⟨[], .error .unwritable⟩ ∧
          ∀ result, Executes store rules sender paths jobs result ↔
            result = .error .unwritable) ∧
      ∀ order : List (Fin paths.length), order.Perm (List.finRange paths.length) →
        (∃ pool, CompletesAll store rules sender (idle paths) order pool) ∧
          ∀ pool, CompletesAll store rules sender (idle paths) order pool →
            pool.result? = some (run store rules sender paths 1).result := by
  refine ⟨fun hjobs result => ⟨fun h => ?_, ?_⟩, fun hjobs => ⟨?_, fun result => ⟨fun h => ?_, ?_⟩⟩,
    fun order hperm => completesAll_of_perm hperm⟩
  · cases h with
    | unstarted hnot =>
        rw [hjobs] at hnot
        cases hnot
    | alone _ _ => rw [result_runUnits, result_run_one]
    | pooled _ _ hrun hresult => exact (sound_idle.completesAll hrun).result_eq hresult
  · rintro rfl
    by_cases hpool : 1 < jobs ∧ 1 < paths.length
    · obtain ⟨⟨pool, hrun⟩, hresult⟩ := completesAll_of_perm (List.Perm.refl _)
      exact .pooled hjobs hpool hrun (hresult pool hrun)
    · rw [result_run_one, ← result_runUnits jobs]
      exact .alone hjobs hpool
  · simp [run, Text.written, hjobs]
  · cases h with
    | unstarted _ => rfl
    | alone hwritten _ | pooled hwritten _ _ _ =>
        rw [hjobs] at hwritten
        cases hwritten
  · rintro rfl
    exact .unstarted hjobs

theorem completion_order_leaves_result_sample :
    (Text.isWritable 2 = true ∧ List.Perm [2, 0, 1] (List.finRange ["a", "b", "c"].length) ∧
      ∃ pool report,
        CompletesAll threeFiles (.ok Catalog.rules) ⟨"lint", "lint"⟩ (idle ["a", "b", "c"])
          [2, 0, 1] pool ∧
        pool.result? = some (.ok report) ∧
        Executes threeFiles (.ok Catalog.rules) ⟨"lint", "lint"⟩ ["a", "b", "c"] 2
          (.ok report)) ∧
      Text.isWritable Text.longInteger = false ∧
        Executes threeFiles (.ok Catalog.rules) ⟨"lint", "lint"⟩ ["a", "b", "c"]
          Text.longInteger (.error .unwritable) := by
  have hone : Text.isWritable 1 = true := by decide +kernel
  have htwo : Text.isWritable 2 = true := by decide +kernel
  have hperm : List.Perm [2, 0, 1] (List.finRange ["a", "b", "c"].length) := by decide
  have hpaths : ["a", "b", "c"] ⊆ ["a", "b", "c", "d"] := by decide
  obtain ⟨hends, -, horders⟩ := completion_order_leaves_result threeFiles (.ok Catalog.rules)
    ⟨"lint", "lint"⟩ ["a", "b", "c"] 2
  obtain ⟨⟨pool, hrun⟩, hresult⟩ := horders [2, 0, 1] hperm
  obtain ⟨report, hreport⟩ := exists_report_threeFiles hpaths hone ⟨"lint", "lint"⟩
  obtain ⟨-, hlong, -⟩ := completion_order_leaves_result threeFiles (.ok Catalog.rules)
    ⟨"lint", "lint"⟩ ["a", "b", "c"] Text.longInteger
  refine ⟨⟨htwo, hperm, pool, report, hrun, ?_, ?_⟩, Text.isWritable_longInteger, ?_⟩
  · rw [hresult pool hrun, hreport]
  · exact (hends htwo _).mpr hreport.symm
  · exact ((hlong Text.isWritable_longInteger).2 _).mpr rfl

end TreeLint.Analysis

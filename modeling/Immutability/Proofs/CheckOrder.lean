import Immutability.Proofs.Analysis
import Immutability.Proofs.Judgement
import Mathlib.Data.List.Perm.Basic

/-!
# The order of checks

In which order the checks of a class are made has no influence on the verdict.

* `Outcome.Alike` says that two outcomes differ in the order of things only, and
  `Outcome.Collects.alike` that those of the same checks do;
* `Analyser.Reliable` says that a check reports the same in every session;
* `Analyser.runChecks_collects` says what comes of many such checks, under both policies.
-/

namespace Immutability

namespace Outcome

variable {cls : ClassName} {report : Check → Except CheckError (List Finding)}
  {checks checks' : List Check} {o o' : Outcome}

/-- Two outcomes have the same findings and the same failures, in whatever order, and lead to the
same verdict. -/
structure Alike (o o' : Outcome) : Prop where
  findings : ∀ f, f ∈ o.findings ↔ f ∈ o'.findings
  failures : o.failures.Perm o'.failures
  verdict : ∀ name, (Assessment.conclude name o.findings o.failures).verdict =
    (Assessment.conclude name o'.findings o'.failures).verdict

/-- The verdict depends on what is found, not on the order of the findings. -/
theorem ofFindings_congr {fs fs' : List Finding} (h : ∀ f, f ∈ fs ↔ f ∈ fs') (failed : Bool) :
    Verdict.ofFindings fs failed = Verdict.ofFindings fs' failed := by
  have hempty : fs.isEmpty = fs'.isEmpty := by
    rw [Bool.eq_iff_iff, List.isEmpty_iff, List.isEmpty_iff, List.eq_nil_iff_forall_not_mem,
      List.eq_nil_iff_forall_not_mem]
    simp only [h]
  have hsoft : fs.all (·.reason.isSoft) = fs'.all (·.reason.isSoft) := by
    rw [Bool.eq_iff_iff, List.all_eq_true, List.all_eq_true]
    simp only [h]
  simp only [Verdict.ofFindings, hempty, hsoft]

/-- Checks made in another order lead to the same verdict. -/
theorem Collects.alike (h : Collects cls report checks o) (h' : Collects cls report checks' o')
    (hperm : checks.Perm checks') : o.Alike o' := by
  have hfindings : ∀ f, f ∈ o.findings ↔ f ∈ o'.findings := by
    intro f
    rw [h.mem_iff, h'.mem_iff]
    simp only [hperm.mem_iff]
  have hfailures : o.failures.Perm o'.failures := by
    rw [h.failures, h'.failures]
    exact hperm.filterMap _
  refine ⟨hfindings, hfailures, fun name => ?_⟩
  have hnil : o.failures = [] ↔ o'.failures = [] := by
    constructor
    · intro hnil
      exact List.nil_perm.1 (hnil ▸ hfailures)
    · intro hnil
      exact List.perm_nil.1 (hnil ▸ hfailures)
  rw [Assessment.verdict_conclude, Assessment.verdict_conclude, ofFindings_congr hfindings]
  simp only [hnil]

end Outcome

/-! ### Checks in a session -/

namespace Analyser

variable {an : Analyser} {path : AnalysisPath} {c : ClassFacts}
  {resolve : ClassName → Analysis Dependency} {check : Check}
  {report : Check → Except CheckError (List Finding)} {checks : List Check} {o : Outcome}

/-- The check of the class `c` comes to the same report in every session, which may have learnt
something by then. -/
def Reliable (an : Analyser) (path : AnalysisPath) (c : ClassFacts)
    (resolve : ClassName → Analysis Dependency) (check : Check)
    (report : Except CheckError (List Finding)) : Prop :=
  ∀ s, ∃ s', Analysis.on ((an.examination path c check).run an.factsOf resolve) s = (.ok report, s')

/-- Unless requests end at the first failure, or there is none, a check adds its report. -/
theorem Reliable.runCheck (h : an.Reliable path c resolve check (report check))
    (hgoes : an.config.policy = .carryOn ∨ ∃ fs, report check = .ok fs) (o : Outcome) (s : Session) :
    ∃ s', (an.runCheck path c resolve o check).on s =
      (.ok (o.enter c.name check (report check)), s') := by
  obtain ⟨s', hrun⟩ := h s
  refine ⟨s', (Analysis.on_bind_ok hrun).trans ?_⟩
  cases hreport : report check with
  | ok fs => rfl
  | error e =>
    have hpolicy : an.config.policy = .carryOn := by simpa [hreport] using hgoes
    simp only [hpolicy]
    rfl

/-- Where requests end at the first failure, a check that fails ends it. -/
theorem Reliable.runCheck_error {e : CheckError} (h : an.Reliable path c resolve check (.error e))
    (hpolicy : an.config.policy = .failFast) (o : Outcome) (s : Session) :
    ∃ s', (an.runCheck path c resolve o check).on s =
      (.error ⟨c.name, check.name, e.message, s'.analysed⟩, s') := by
  obtain ⟨s', hrun⟩ := h s
  refine ⟨s', (Analysis.on_bind_ok hrun).trans ?_⟩
  simp only [hpolicy]
  rfl

theorem exists_runChecks_ok
    (hreliable : ∀ check ∈ checks, an.Reliable path c resolve check (report check))
    (hgoes : an.config.policy = .carryOn ∨ ∀ check ∈ checks, ∃ fs, report check = .ok fs)
    (o : Outcome) (s : Session) :
    ∃ s', Analysis.on (checks.foldlM (an.runCheck path c resolve) o) s =
      (.ok (o.enterAll c.name report checks), s') := by
  induction checks generalizing o s with
  | nil => exact ⟨s, rfl⟩
  | cons check checks ih =>
    rw [List.forall_mem_cons] at hreliable
    have hfirst := hgoes.imp_right fun h => h check List.mem_cons_self
    have hrest := hgoes.imp_right fun h check hc => h check (List.mem_cons_of_mem _ hc)
    obtain ⟨s₁, hs₁⟩ := hreliable.1.runCheck hfirst o s
    obtain ⟨s', hs'⟩ := ih hreliable.2 hrest (o.enter c.name check (report check)) s₁
    exact ⟨s', by rw [List.foldlM_cons, Analysis.on_bind_ok hs₁, hs', Outcome.enterAll_cons]⟩

/-- Of checks that do not all succeed, one is the first that fails. -/
theorem exists_first_failing (h : ¬∀ check ∈ checks, ∃ fs, report check = .ok fs) :
    ∃ before check after e, checks = before ++ check :: after ∧
      (∀ earlier ∈ before, ∃ fs, report earlier = .ok fs) ∧ report check = .error e := by
  induction checks with
  | nil => exact absurd (List.forall_mem_nil _) h
  | cons check checks ih =>
    cases hreport : report check with
    | error e => exact ⟨[], check, checks, e, rfl, List.forall_mem_nil _, hreport⟩
    | ok fs =>
      have hrest : ¬∀ check ∈ checks, ∃ fs, report check = .ok fs :=
        fun hall => h (List.forall_mem_cons.2 ⟨⟨fs, hreport⟩, hall⟩)
      obtain ⟨before, failing, after, e, rfl, hbefore, herror⟩ := ih hrest
      exact ⟨check :: before, failing, after, e, rfl,
        List.forall_mem_cons.2 ⟨⟨fs, hreport⟩, hbefore⟩, herror⟩

/-- The findings of many checks are joined, and the order of the checks makes no difference. If
requests go on after failures, or if there are none, the checks come to an outcome that collects
their reports, and to one that is alike if they are made in another order. Otherwise the first check
that fails ends the request. -/
theorem runChecks_collects (an : Analyser) (path : AnalysisPath) (c : ClassFacts)
    (resolve : ClassName → Analysis Dependency)
    (report : Check → Except CheckError (List Finding)) (checks : List Check)
    (hreliable : ∀ check ∈ checks, an.Reliable path c resolve check (report check)) :
    (an.config.policy = .carryOn ∨ (∀ check ∈ checks, ∃ fs, report check = .ok fs) →
      ∃ o, Outcome.Collects c.name report checks o ∧
        (∀ s, ∃ s', (an.runChecks path c resolve checks).on s = (.ok o, s')) ∧
        ∀ checks', checks'.Perm checks → ∀ s, ∃ o' s',
          (an.runChecks path c resolve checks').on s = (.ok o', s') ∧ o'.Alike o) ∧
    (an.config.policy = .failFast → ¬(∀ check ∈ checks, ∃ fs, report check = .ok fs) →
      ∃ before check after e, checks = before ++ check :: after ∧
        (∀ earlier ∈ before, ∃ fs, report earlier = .ok fs) ∧ report check = .error e ∧
        ∀ s, ∃ s', (an.runChecks path c resolve checks).on s =
          (.error ⟨c.name, check.name, e.message, s'.analysed⟩, s')) := by
  constructor
  · intro hgoes
    have hcollects := Outcome.collects_enterAll c.name report
    refine ⟨_, hcollects checks, exists_runChecks_ok hreliable hgoes .empty, ?_⟩
    intro checks' hperm s
    have hgoes' := hgoes.imp_right fun h check hc => h check (hperm.subset hc)
    obtain ⟨s', hs'⟩ :=
      exists_runChecks_ok (fun check hc => hreliable check (hperm.subset hc)) hgoes' .empty s
    exact ⟨_, s', hs', (hcollects checks').alike (hcollects checks) hperm⟩
  · intro hpolicy hfails
    obtain ⟨before, check, after, e, rfl, hbefore, herror⟩ := exists_first_failing hfails
    refine ⟨before, check, after, e, rfl, hbefore, herror, fun s => ?_⟩
    rw [List.forall_mem_append, List.forall_mem_cons] at hreliable
    obtain ⟨hreliable, hcheck, -⟩ := hreliable
    obtain ⟨s₁, hs₁⟩ := exists_runChecks_ok hreliable (.inr hbefore) .empty s
    obtain ⟨s', hs'⟩ := Reliable.runCheck_error (herror ▸ hcheck) hpolicy
      (Outcome.empty.enterAll c.name report before) s₁
    refine ⟨s', ?_⟩
    rw [runChecks, List.foldlM_append, Analysis.on_bind_ok hs₁, List.foldlM_cons,
      Analysis.on_bind_error hs']

/-- A check that always fails. -/
def failing : Check := ⟨"failing", fun _ _ => throw (.other "boom")⟩

/-- A check that has the same doubt about every class. -/
def doubting (name : String) : Check :=
  .ofFacts name fun c => [⟨.arrayTypeToField, .cls c.name, "doubt"⟩]

/-- Two checks have the same doubt, and one fails. -/
def mixedChecks : List Check := [doubting "first", failing, doubting "second"]

/-- An analyser without classes. -/
def sourceless : Analyser := ⟨.ofList [], .default⟩

/-- A class without members. -/
def memberless : ClassFacts := .named (.ofString "com.acme.Marker")

theorem runChecks_collects_mixedChecks :
    ∃ o, Outcome.Collects memberless.name (sourceless.report [] memberless assumeImmutable)
        mixedChecks o ∧
      (∀ s, ∃ s', (sourceless.runChecks [] memberless (sourceless.resolve []) mixedChecks).on s =
        (.ok o, s')) ∧
      ∀ s, ∃ o' s', (sourceless.runChecks [] memberless (sourceless.resolve [])
        mixedChecks.reverse).on s = (.ok o', s') ∧ o'.Alike o := by
  have hreliable : ∀ check ∈ mixedChecks, sourceless.Reliable [] memberless
      (sourceless.resolve []) check (sourceless.report [] memberless assumeImmutable check) := by
    simp only [mixedChecks, List.forall_mem_cons]
    exact ⟨fun s => ⟨s, rfl⟩, fun s => ⟨s, rfl⟩, fun s => ⟨s, rfl⟩, List.forall_mem_nil _⟩
  obtain ⟨o, hcollects, hruns, hperm⟩ := (runChecks_collects sourceless [] memberless
    (sourceless.resolve []) _ mixedChecks hreliable).1 (.inl rfl)
  exact ⟨o, hcollects, hruns, hperm _ mixedChecks.reverse_perm⟩

end Analyser

end Immutability

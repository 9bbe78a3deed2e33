import Immutability.Proofs.Checks
import Immutability.Proofs.Outcomes

/-!
# The assessment of a class under given replies

A class is judged by what the checks find out about it, given the replies to their questions about
other classes.

* `Analyser.judgement` is the assessment of a class under given replies, and `Analyser.lookups` lists
  the classes that its checks ask about;
* `Analyser.collects_outcome` says that it rests on what all the checks report;
* `Assessment.Clean` singles out the assessments that leave no doubt, about the class itself or about
  the classes it depends on.
-/

namespace Immutability

/-! ### Verdicts -/

namespace Assessment

variable {name : ClassName} {fs : List Finding} {failures : List CheckFailure}

/-- An assessment that leaves no doubt: the class is immutable, or it is so in effect, and neither a
cycle nor a class that cannot be analysed stands in the way of saying so. -/
def Clean (a : Assessment) : Prop :=
  a.verdict = .immutable ∨
    a.verdict = .effectivelyImmutable ∧ a.hasReason .cyclicReference = false ∧
      a.hasReason .cannotAnalyse = false

theorem verdict_conclude :
    (conclude name fs failures).verdict =
      if failures = [] then .ofFindings fs false else .couldNotAnalyse := by
  cases failures <;> simp [conclude, Verdict.ofFindings]

theorem findings_conclude_nil : (conclude name fs []).findings = fs := by
  simp [conclude]

theorem hasReason_conclude {f : Finding} (h : f ∈ fs) :
    (conclude name fs failures).hasReason f.reason = true := by
  simp only [hasReason, conclude, List.any_append, Bool.or_eq_true, List.any_eq_true, beq_iff_eq]
  exact .inl ⟨f, h, rfl⟩

theorem verdict_conclude_eq_couldNotAnalyse :
    (conclude name fs failures).verdict = .couldNotAnalyse ↔ failures ≠ [] := by
  rw [verdict_conclude, Verdict.ofFindings]
  split_ifs <;> simp_all

theorem verdict_conclude_eq_notImmutable :
    (conclude name fs failures).verdict = .notImmutable ↔
      failures = [] ∧ ∃ f ∈ fs, f.reason.isSoft = false := by
  rw [verdict_conclude, Verdict.ofFindings]
  split_ifs <;> simp_all

theorem verdict_conclude_eq_immutable :
    (conclude name fs failures).verdict = .immutable ↔ failures = [] ∧ fs = [] := by
  rw [verdict_conclude, Verdict.ofFindings]
  split_ifs <;> simp_all

theorem verdict_conclude_eq_effectivelyImmutable :
    (conclude name fs failures).verdict = .effectivelyImmutable ↔
      failures = [] ∧ fs ≠ [] ∧ ∀ f ∈ fs, f.reason.isSoft = true := by
  rw [verdict_conclude, Verdict.ofFindings]
  split_ifs <;> simp_all

theorem hasReason_eq_false {a : Assessment} {r : Reason} :
    a.hasReason r = false ↔ ∀ f ∈ a.findings, f.reason ≠ r := by
  simp [hasReason]

/-- Of the soft reasons only that of the private field is about the class itself. -/
theorem eq_nonFinalField_iff {r : Reason} :
    r = .nonFinalField ↔ r.isSoft = true ∧ r ≠ .cyclicReference ∧ r ≠ .cannotAnalyse := by
  cases r <;> simp [Reason.isSoft]

/-- A clean assessment comes from checks that did not fail and found nothing but private fields. -/
theorem clean_conclude :
    (conclude name fs failures).Clean ↔ failures = [] ∧ ∀ f ∈ fs, f.reason = .nonFinalField := by
  rw [Clean, verdict_conclude_eq_immutable, verdict_conclude_eq_effectivelyImmutable]
  by_cases hf : failures = []
  · subst hf
    simp only [hasReason_eq_false, findings_conclude_nil, eq_nonFinalField_iff]
    by_cases hfs : fs = []
    · simp [hfs]
    · grind
  · simp [hf]

end Assessment

namespace Analyser

variable (an : Analyser)

/-- The facts of a class, if it can be read. -/
def facts? (name : ClassName) : Option ClassFacts := (an.source.read name).toOption

/-- The work of a check of a class, at the end of a path. -/
def examination (path : AnalysisPath) (c : ClassFacts) (check : Check) :
    Inquiry (Except CheckError (List Finding)) :=
  (check.examine ⟨an.config, path⟩ c).run

/-- What a check reports about a class under given replies. -/
def report (path : AnalysisPath) (c : ClassFacts) (replies : ClassName → Dependency)
    (check : Check) : Except CheckError (List Finding) :=
  (an.examination path c check).eval an.facts? replies

/-- What the given checks report about a class under given replies, added to an outcome. -/
def outcomeFrom (path : AnalysisPath) (c : ClassFacts) (replies : ClassName → Dependency)
    (checks : List Check) (o : Outcome) : Outcome :=
  checks.foldl (fun o check => o.enter c.name check (an.report path c replies check)) o

/-- What all checks report about a class under given replies. -/
def outcome (path : AnalysisPath) (c : ClassFacts) (replies : ClassName → Dependency) : Outcome :=
  an.outcomeFrom path c replies Check.all .empty

/-- The assessment of a class under given replies. -/
def judgement (path : AnalysisPath) (name : ClassName) (c : ClassFacts)
    (replies : ClassName → Dependency) : Assessment :=
  .conclude name (an.outcome path c replies).findings (an.outcome path c replies).failures

/-- The classes that the checks of a class ask about. -/
def lookups (c : ClassFacts) : List ClassName :=
  Check.all.flatMap fun check => (an.examination [] c check).asked an.facts? assumeImmutable

/-- The analysis of the class `name` asks about the class `other`. -/
def LooksUp (name other : ClassName) : Prop :=
  an.config.hardcoded? name = none ∧
    ∃ c, an.source.read name = .ok c ∧ other ∈ an.lookups c

variable {an} {path : AnalysisPath} {c : ClassFacts}

/-- Whatever the path, a check asks about the same classes. -/
theorem asked_eq {check : Check} (h : check ∈ Check.all) (path : AnalysisPath) (c : ClassFacts)
    (replies : ClassName → Dependency) :
    (an.examination path c check).asked an.facts? replies =
      (an.examination [] c check).asked an.facts? assumeImmutable :=
  (Check.tracks_of_mem h an.config [] path c).asked_eq replies

theorem mem_lookups_of_mayAsk {check : Check} (h : check ∈ Check.all) {name : ClassName}
    (hn : (an.examination path c check).MayAsk an.facts? name) : name ∈ an.lookups c :=
  List.mem_flatMap.2
    ⟨check, h, (Check.tracks_of_mem h an.config [] path c).mem_asked_of_mayAsk hn⟩

/-! ### Findings -/

variable {replies : ClassName → Dependency}

theorem collects_outcome (path : AnalysisPath) (c : ClassFacts)
    (replies : ClassName → Dependency) :
    (an.outcome path c replies).Collects c.name (an.report path c replies) Check.all :=
  Outcome.collects_enterAll c.name (an.report path c replies) Check.all

theorem mem_findings_outcome {f : Finding} :
    f ∈ (an.outcome path c replies).findings ↔
      ∃ check ∈ Check.all, ∃ fs, an.report path c replies check = .ok fs ∧ f ∈ fs :=
  (collects_outcome path c replies).mem_iff f

theorem failures_outcome :
    (an.outcome path c replies).failures = [] ↔
      ∀ check ∈ Check.all, ∃ fs, an.report path c replies check = .ok fs := by
  rw [(collects_outcome path c replies).failures, List.filterMap_eq_nil_iff]
  exact forall₂_congr fun check _ => Outcome.failure?_eq_none

/-- A clean judgement comes from checks that did not fail and found nothing but private fields. -/
theorem clean_judgement {name : ClassName} :
    (an.judgement path name c replies).Clean ↔
      ∀ check ∈ Check.all, ∃ fs, an.report path c replies check = .ok fs ∧
        ∀ f ∈ fs, f.reason = .nonFinalField := by
  simp only [judgement, Assessment.clean_conclude, failures_outcome, mem_findings_outcome]
  constructor
  · rintro ⟨hok, hfs⟩ check hc
    obtain ⟨fs, h⟩ := hok check hc
    exact ⟨fs, h, fun f hf => hfs f ⟨check, hc, fs, h, hf⟩⟩
  · intro h
    refine ⟨fun check hc => (h check hc).imp fun fs hfs => hfs.1, ?_⟩
    rintro f ⟨check, hc, fs, hfs, hf⟩
    obtain ⟨fs', hfs', hclean⟩ := h check hc
    cases hfs.symm.trans hfs'
    exact hclean f hf

end Analyser

end Immutability

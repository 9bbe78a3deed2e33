import Immutability.Proofs.Grounded
import Immutability.Proofs.Precedence
import Immutability.Proofs.Progress
import Immutability.Proofs.WriteOnce
import Mathlib.Data.List.Nodup

/-!
# Well-formed answers

Every answer of a session names the class that was asked for and gives reasons exactly if the class
is not found immutable; and if the verdict is not a given one, it follows from these reasons and
from the failures that the session has recorded.

* `Configuration.Assembled` are the configurations that can be put together, and
  `Configuration.Assembled.balanced` says that the verdicts they give have reasons where they
  should;
* `Analyser.failures_after` says that a session has recorded the failures of the analysed classes;
* `Assessment.Follows` is how a verdict follows from reasons and failures;
* `Analyser.answer_wellFormed` puts them together.
-/

namespace Immutability

/-! ### Given verdicts -/

/-- There are reasons exactly if the class is not found immutable. -/
def Assessment.Balanced (a : Assessment) : Prop := a.findings = [] ↔ a.verdict = .immutable

theorem Assessment.balanced_immutable (name : ClassName) : (immutable name).Balanced :=
  iff_of_true rfl rfl

theorem Assessment.balanced_of_ne {verdict : Verdict} (h : verdict ≠ .immutable) (name : ClassName)
    (f : Finding) : (⟨name, verdict, [f]⟩ : Assessment).Balanced :=
  iff_of_false (List.cons_ne_nil _ _) h

theorem Assessment.balanced_hardcoded (name : ClassName) (verdict : Verdict)
    (message : Option String) : (hardcoded name verdict message).Balanced := by
  unfold hardcoded
  split
  · exact balanced_immutable name
  · next hne => exact balanced_of_ne hne name _

/-- An entry of a configuration file gives a reason where there should be one. -/
theorem HardcodedEntry.balanced_assessment {e : HardcodedEntry} {a : Assessment}
    (h : e.assessment = .ok a) : a.Balanced := by
  unfold HardcodedEntry.assessment at h
  split at h
  · cases h
  · split at h
    · cases h
    · rw [← Except.ok.inj h]
      exact Assessment.balanced_immutable _
  · next verdict hne hv =>
    split at h
    · rw [← Except.ok.inj h]
      exact Assessment.balanced_of_ne hne _ _
    · split at h
      · cases h
      · rw [← Except.ok.inj h]
        exact Assessment.balanced_of_ne hne _ _

namespace Configuration

/-- The verdicts that the configuration gives have reasons where they should. -/
def Balanced (config : Configuration) : Prop := ∀ a ∈ config.hardcoded, a.Balanced

/-- The configurations that can be put together from the default one. -/
inductive Assembled : Configuration → Prop
  | default : Assembled .default
  | merge {config : Configuration} (h : Assembled config) (preset : Preset) :
    Assembled (config.merge preset)
  | apply {config config' : Configuration} (h : Assembled config) {s : Settings}
    (hs : s.apply config = .ok config') : Assembled config'
  | hardcodeImmutable {config : Configuration} (h : Assembled config) (name : ClassName) :
    Assembled (config.hardcode (.immutable name))
  | hardcodeNotImmutable {config : Configuration} (h : Assembled config) (name : ClassName)
    (message : String) :
    Assembled (config.hardcode (.hardcoded name .notImmutable (some message)))
  | addIdiom {config : Configuration} (h : Assembled config) (idiom : Idiom) :
    Assembled (config.addIdiom idiom)
  | clearIdioms {config : Configuration} (h : Assembled config) :
    Assembled { config with idioms := [] }
  | withPolicy {config : Configuration} (h : Assembled config) (policy : Policy) :
    Assembled { config with policy := policy }

variable {config config' : Configuration} {a : Assessment}

theorem Balanced.hardcode (h : config.Balanced) (ha : a.Balanced) :
    (config.hardcode a).Balanced := by
  intro b hb
  rcases List.mem_append.1 hb with hb | hb
  · exact h b (List.mem_of_mem_filter hb)
  · rw [List.mem_singleton.1 hb]
    exact ha

theorem Balanced.hardcodeNew (h : config.Balanced) (ha : a.Balanced) :
    (config.hardcodeNew a).Balanced := by
  unfold Configuration.hardcodeNew
  split
  · exact h
  · exact List.forall_mem_append.2 ⟨h, by simpa using ha⟩

theorem balanced_of_mem_presetAssessments {preset : Preset} (h : a ∈ presetAssessments preset) :
    a.Balanced := by
  rcases List.mem_append.1 h with h | h
  · obtain ⟨name, -, rfl⟩ := List.mem_map.1 h
    exact Assessment.balanced_immutable name
  · obtain ⟨name, -, rfl⟩ := List.mem_map.1 h
    exact Assessment.balanced_hardcoded name _ _

theorem Balanced.merge (h : config.Balanced) (preset : Preset) :
    (config.merge preset).Balanced := by
  unfold Configuration.merge
  refine List.foldlRecOn _ _ h fun config hconfig a ha => ?_
  exact hconfig.hardcodeNew (balanced_of_mem_presetAssessments ha)

theorem Balanced.apply (h : config.Balanced) {s : Settings} (hs : s.apply config = .ok config') :
    config'.Balanced := by
  obtain ⟨config₁, config₂, hlayers⟩ := Settings.apply_eq_ok_iff.1 hs
  have hbalanced₁ : config₁.Balanced :=
    foldlM_updating_induction hlayers.verdicts Balanced h fun _ _ _ _ ha ih =>
      ih.hardcode (HardcodedEntry.balanced_assessment ha)
  have hbalanced₂ : config₂.Balanced :=
    foldlM_updating_induction hlayers.presets Balanced hbalanced₁ fun _ _ _ preset _ ih =>
      ih.merge preset
  -- idioms have nothing to do with given verdicts
  rw [Balanced, hlayers.frame.2.1]
  exact hbalanced₂

theorem Assembled.balanced (h : config.Assembled) : config.Balanced := by
  induction h with
  | default => simp [Balanced, Configuration.default]
  | merge _ preset ih => exact ih.merge preset
  | apply _ hs ih => exact ih.apply hs
  | hardcodeImmutable _ name ih => exact ih.hardcode (Assessment.balanced_immutable name)
  | hardcodeNotImmutable _ name message ih =>
    exact ih.hardcode (Assessment.balanced_hardcoded name _ _)
  | addIdiom _ _ ih | clearIdioms _ ih | withPolicy _ _ ih => exact ih

theorem of_hardcoded?_eq_some {name : ClassName} (h : config.hardcoded? name = some a) :
    a ∈ config.hardcoded ∧ a.className = name :=
  ⟨List.mem_of_find?_eq_some h, by simpa using List.find?_some h⟩

end Configuration

/-! ### Verdicts, reasons and failures -/

namespace Assessment

variable {name : ClassName} {fs : List Finding} {failures : List CheckFailure}

/-- The verdict on the class `name` follows from its reasons and from the failures of a session. -/
structure Follows (a : Assessment) (name : ClassName) (failures : List CheckFailure) : Prop where
  couldNotAnalyse : a.verdict = .couldNotAnalyse ↔ ∃ f ∈ failures, f.className = name
  notImmutable : a.verdict = .notImmutable ↔
    (¬ ∃ f ∈ failures, f.className = name) ∧ ∃ f ∈ a.findings, f.reason.isSoft = false
  effectivelyImmutable : a.verdict = .effectivelyImmutable ↔
    (¬ ∃ f ∈ failures, f.className = name) ∧ a.findings ≠ [] ∧
      ∀ f ∈ a.findings, f.reason.isSoft = true

theorem balanced_conclude : (conclude name fs failures).Balanced := by
  rw [Balanced, verdict_conclude_eq_immutable]
  simp [conclude, and_comm]

/-- A verdict that is drawn from failures of the class follows from any failures that agree about
it. -/
theorem follows_conclude {recorded : List CheckFailure}
    (h : (∃ f ∈ recorded, f.className = name) ↔ failures ≠ []) :
    (conclude name fs failures).Follows name recorded := by
  refine ⟨?_, ?_, ?_⟩
  · rw [verdict_conclude_eq_couldNotAnalyse, h]
  · rw [verdict_conclude_eq_notImmutable, h, not_not]
    refine and_congr_right fun hf => ?_
    rw [hf, findings_conclude_nil]
  · rw [verdict_conclude_eq_effectivelyImmutable, h, not_not]
    refine and_congr_right fun hf => ?_
    rw [hf, findings_conclude_nil]

theorem follows_couldNotAnalyse {recorded : List CheckFailure} {description : String}
    (h : ∃ f ∈ recorded, f.className = name) :
    (Assessment.couldNotAnalyse name description).Follows name recorded :=
  ⟨iff_of_true rfl h, by simp [Assessment.couldNotAnalyse, h],
    by simp [Assessment.couldNotAnalyse, h]⟩

end Assessment

namespace Analyser

variable {an : Analyser} {name : ClassName} {c : ClassFacts} {l : Ledger} {path : AnalysisPath}
  {a : Assessment}

/-! ### Recorded failures -/

/-- A session has recorded the failures of the analysed classes, one class after the other. -/
theorem failures_after (an : Analyser) (requests : List ClassName) :
    (an.after requests).failures = (an.after requests).analysed.flatMap an.failuresOf := by
  refine an.after_induction (P := fun s => s.failures = s.analysed.flatMap an.failuresOf)
    rfl (fun s s' hstep ih => ?_) requests
  cases hstep with
  | read given => exact ih
  | complete given a =>
    simp only [Session.store, Session.record, Session.analysed, List.map_append,
      List.flatMap_append] at ih ⊢
    rw [ih]
    simp

theorem checker_of_failure? {check : Check} {f : CheckFailure} (h : an.failure? c check = some f) :
    f.className = c.name ∧ f.checker = check.name := by
  unfold failure? at h
  split at h
  · cases h
  · cases h
    exact ⟨rfl, rfl⟩

/-- Where classes are read by their names, a failure names the class whose failure it is. -/
theorem className_of_mem_failuresOf
    (named : ∀ name c, an.source.read name = .ok c → c.name = name) {f : CheckFailure}
    (h : f ∈ an.failuresOf name) : f.className = name := by
  cases hread : an.source.read name with
  | error e =>
    rw [failuresOf_of_unreadable hread, List.mem_singleton] at h
    rw [h]
  | ok c =>
    rw [failuresOf_of_readable hread] at h
    obtain ⟨check, -, hfail⟩ := List.mem_filterMap.1 h
    rw [(checker_of_failure? hfail).1, named name c hread]

theorem sublist_checkers (checks : List Check) :
    ((checks.filterMap (an.failure? c)).map CheckFailure.checker).Sublist
      (checks.map Check.name) := by
  induction checks with
  | nil => exact List.Sublist.slnil
  | cons check checks ih =>
    cases hfail : an.failure? c check with
    | none =>
      rw [List.filterMap_cons_none hfail, List.map_cons]
      exact ih.cons _
    | some f =>
      rw [List.filterMap_cons_some hfail, List.map_cons, List.map_cons,
        (checker_of_failure? hfail).2]
      exact ih.cons_cons _

/-- The failures of a class come from different checks. -/
theorem nodup_checkers (an : Analyser) (name : ClassName) :
    ((an.failuresOf name).map CheckFailure.checker).Nodup := by
  cases hread : an.source.read name with
  | error e =>
    rw [failuresOf_of_unreadable hread]
    exact List.nodup_singleton _
  | ok c =>
    rw [failuresOf_of_readable hread]
    have hnames : (Check.all.map Check.name).Nodup := by decide +kernel
    exact hnames.sublist (sublist_checkers Check.all)

/-- No class has two failures of the same check on record. -/
theorem nodup_failures_after (named : ∀ name c, an.source.read name = .ok c → c.name = name)
    (requests : List ClassName) :
    ((an.after requests).failures.map fun f => (f.className, f.checker)).Nodup := by
  have hclass : ∀ name k, k ∈ (an.failuresOf name).map (fun f => (f.className, f.checker)) →
      k.1 = name := by
    intro name k hk
    obtain ⟨f, hf, rfl⟩ := List.mem_map.1 hk
    exact className_of_mem_failuresOf named hf
  rw [failures_after, List.map_flatMap, List.nodup_flatMap]
  constructor
  · intro name _
    refine List.Nodup.of_map Prod.snd ?_
    rw [List.map_map]
    exact an.nodup_checkers name
  · refine (an.sound_after requests).nodup_names.imp fun {name other} hne => ?_
    refine List.disjoint_left.2 fun k hk hk' => ?_
    exact hne ((hclass name k hk).symm.trans (hclass other k hk'))

/-- The failures of a class are on record exactly if it has been analysed and has some. -/
theorem exists_failure_iff (named : ∀ name c, an.source.read name = .ok c → c.name = name)
    {requests : List ClassName} (hanalysed : name ∈ (an.after requests).analysed) :
    (∃ f ∈ (an.after requests).failures, f.className = name) ↔ an.failuresOf name ≠ [] := by
  rw [failures_after]
  constructor
  · rintro ⟨f, hf, rfl⟩ hnil
    obtain ⟨other, -, hf⟩ := List.mem_flatMap.1 hf
    rw [← className_of_mem_failuresOf named hf] at hf
    rw [hnil] at hf
    cases hf
  · intro hne
    obtain ⟨f, hf⟩ := List.exists_mem_of_ne_nil _ hne
    exact ⟨f, List.mem_flatMap.2 ⟨name, hanalysed, hf⟩, className_of_mem_failuresOf named hf⟩

/-- Whether a class has failures does not depend on the replies. -/
theorem failures_outcome_eq_nil_iff_failuresOf (hread : an.source.read name = .ok c)
    (path : AnalysisPath) (replies : ClassName → Dependency) :
    (an.outcome path c replies).failures = [] ↔ an.failuresOf name = [] := by
  rw [failures_outcome_eq_nil_iff, own, failures_outcome, failuresOf_of_readable hread,
    List.filterMap_eq_nil_iff]
  refine forall₂_congr fun check _ => ?_
  unfold failure?
  cases an.report [] c assumeImmutable check with
  | ok fs => simp
  | error e => simp

/-! ### Answers -/

theorem Entry.className_eq (h : an.Entry l path name a) : a.className = name := by
  cases h with
  | unreadable read => rfl
  | judged read settled => rfl

theorem Entry.balanced (h : an.Entry l path name a) : a.Balanced := by
  cases h with
  | unreadable read => simp [Assessment.Balanced, Assessment.couldNotAnalyse]
  | judged read settled => exact Assessment.balanced_conclude

theorem Entry.follows (h : an.Entry l path name a) {recorded : List CheckFailure}
    (hrecorded : (∃ f ∈ recorded, f.className = name) ↔ an.failuresOf name ≠ []) :
    a.Follows name recorded := by
  cases h with
  | unreadable read =>
    refine Assessment.follows_couldNotAnalyse (hrecorded.2 ?_)
    rw [failuresOf_of_unreadable read]
    exact List.cons_ne_nil _ _
  | judged read settled =>
    refine Assessment.follows_conclude (hrecorded.trans (not_congr ?_))
    exact (failures_outcome_eq_nil_iff_failuresOf read _ _).symm

/-- Every answer is well-formed, under the policy `carryOn` and for every configuration that can be
put together: it names the class that was asked for, and it gives reasons exactly if the class is
not found immutable. If the verdict is not a given one, it follows from these reasons and from the
failures on record, then or at any later time. And no class has two failures of the same check on
record. -/
theorem answer_wellFormed (an : Analyser)
    (named : ∀ name c, an.source.read name = .ok c → c.name = name)
    (assembled : an.config.Assembled) (carryOn : an.config.policy = .carryOn)
    (requests : List ClassName) :
    (∀ name, ∃ a, an.answer requests name = .ok a ∧ a.className = name ∧
      (a.findings = [] ↔ a.verdict = .immutable) ∧
      (an.config.hardcoded? name = none → ∀ more,
        a.Follows name (an.after (requests ++ name :: more)).failures)) ∧
    ((an.after requests).failures.map fun f => (f.className, f.checker)).Nodup := by
  refine ⟨fun name => ?_, nodup_failures_after named requests⟩
  obtain ⟨a, hon, hreply, -⟩ := exists_answer carryOn requests name
  have hanswer : an.answer requests name = .ok a := by rw [answer, hon]
  refine ⟨a, hanswer, ?_⟩
  cases hgiven : an.config.hardcoded? name with
  | some b =>
    have hsame : b = a := by
      rw [reply_of_given hgiven] at hreply
      cases hreply
      rfl
    obtain ⟨hmem, hname⟩ := Configuration.of_hardcoded?_eq_some (hsame ▸ hgiven)
    exact ⟨hname, assembled.balanced a hmem, fun h => by cases h⟩
  | none =>
    obtain ⟨before, path, -, hentry, -⟩ :=
      (an.sound_after _).entry_of_reply hgiven hreply
    refine ⟨hentry.className_eq, hentry.balanced, fun _ more => hentry.follows ?_⟩
    -- the class has been analysed, and later requests do not change that
    refine exists_failure_iff named ?_
    have hnow : name ∈ Ledger.names (an.after (requests ++ [name])).ledger := by
      rw [reply_eq_resolved_iff, hgiven, Option.none_or] at hreply
      exact Ledger.mem_names.2 ⟨a, mem_of_lookup hreply⟩
    have hlater := (an.extends_after_append (requests ++ [name]) more).ledger.names_subset hnow
    rwa [List.append_assoc, List.singleton_append] at hlater

theorem answer_wellFormed_boxedKey :
    (∀ name c, boxedKey.source.read name = .ok c → c.name = name) ∧
    boxedKey.config.Assembled ∧ boxedKey.config.policy = .carryOn ∧
    boxedKey.config.hardcoded? boxClass.name = none ∧
    ∃ a, boxedKey.answer [] boxClass.name = .ok a ∧ a.className = boxClass.name ∧
      a.Follows boxClass.name (boxedKey.after [boxClass.name]).failures := by
  have named : ∀ name c, boxedKey.source.read name = .ok c → c.name = name :=
    fun _ _ => ClassSource.name_of_read_ofList
  have given : boxedKey.config.hardcoded? boxClass.name = none := rfl
  obtain ⟨a, hanswer, hname, -, hfollows⟩ :=
    (answer_wellFormed boxedKey named .default rfl []).1 boxClass.name
  exact ⟨named, .default, rfl, given, a, hanswer, hname, hfollows given []⟩

end Analyser

end Immutability

import Immutability.Proofs.Ledger
import Mathlib.Logic.Relation

/-!
# Verdicts and the graph of the classes

Which verdicts a class can get is decided by what its own code shows and by the classes that it asks
about. The classes that wait for each other decide only whether mutability is seen.

* `Analyser.own` is what the code of a class shows by itself;
* `Analyser.Mutable` and `Analyser.Blameless` are the classes that must not, and that may, be called
  immutable, by a derivation along the graph of the classes;
* `Analyser.mutable_of_notImmutable` and `Analyser.clean_iff_blameless` compare verdicts with these
  derivations, and `Analyser.Mutable.notImmutable_or_cutShort` says how a verdict can miss the first.
-/

namespace Immutability

/-- The doubt about a cycle is all that stands against the class. -/
def Assessment.CutShort (a : Assessment) : Prop :=
  a.verdict = .effectivelyImmutable ∧ a.hasReason .cyclicReference = true

theorem Assessment.CutShort.ne_notImmutable {a : Assessment} (h : a.CutShort) :
    a.verdict ≠ .notImmutable := by
  simp [h.1]

namespace Dependency

/-- A dependency gives no reason for doubt exactly if there is a clean verdict on it. -/
theorem reasonFor_eq_none_iff {d : Dependency} {hard : Reason} :
    d.reasonFor hard = none ↔ ∃ a, d = .resolved a ∧ a.Clean := by
  cases d with
  | cyclic => simp [reasonFor]
  | resolved a =>
    cases hv : a.verdict <;> simp [reasonFor, Assessment.Clean, hv]

/-- A dependency is no reason to doubt the private fields of a class. -/
theorem reasonFor_ne_nonFinalField {d : Dependency} {hard : Reason} (h : hard ≠ .nonFinalField) :
    d.reasonFor hard ≠ some .nonFinalField := by
  cases d with
  | cyclic => simp [reasonFor]
  | resolved a => cases hv : a.verdict <;> simp [reasonFor, hv, h]

/-- A dependency is a hard reason for doubt exactly if it is known to be mutable. -/
theorem hard_reasonFor_iff {d : Dependency} :
    (∃ r, d.reasonFor .mutableTypeToField = some r ∧ r.isSoft = false) ↔
      ∃ a, d = .resolved a ∧ a.verdict = .notImmutable := by
  cases d with
  | cyclic => simp [reasonFor, Reason.isSoft]
  | resolved a =>
    cases hv : a.verdict with
    | immutable | notImmutable | couldNotAnalyse => simp [reasonFor, hv, Reason.isSoft]
    | effectivelyImmutable =>
      have hsoft : ∀ r, [Reason.cyclicReference, .cannotAnalyse].find? a.hasReason = some r →
          r.isSoft = true := by
        intro r hr
        have hmem := List.mem_of_find?_eq_some hr
        simp only [List.mem_cons, List.not_mem_nil, or_false] at hmem
        rcases hmem with rfl | rfl <;> rfl
      simp only [reasonFor, hv, resolved.injEq]
      grind

theorem reasonFor_of_cutShort {a : Assessment} (h : a.CutShort) (hard : Reason) :
    (resolved a).reasonFor hard = some .cyclicReference := by
  simp [reasonFor, h.1, h.2]

end Dependency

namespace Analyser

variable (an : Analyser)

/-- What the checks report about a class if all the classes that they ask about are immutable. -/
def own (c : ClassFacts) : Outcome := an.outcome [] c assumeImmutable

variable {an} {path : AnalysisPath} {c : ClassFacts} {replies : ClassName → Dependency}

theorem sameCourse_report {check : Check} (h : check ∈ Check.all) (path : AnalysisPath)
    (c : ClassFacts) (replies : ClassName → Dependency) :
    Examination.SameCourse Shows
      (((an.examination [] c check).asked an.facts? assumeImmutable).map replies)
      (an.report [] c assumeImmutable check) (an.report path c replies check) := by
  rw [← asked_eq h path c replies]
  exact (Check.tracks_of_mem h an.config [] path c).eval_rel replies

/-- Whether a check fails is up to the class itself. -/
theorem report_ok_iff {check : Check} (h : check ∈ Check.all) :
    (∃ fs, an.report path c replies check = .ok fs) ↔
      ∃ fs, an.report [] c assumeImmutable check = .ok fs := by
  have hcourse := an.sameCourse_report h path c replies
  cases hown : an.report [] c assumeImmutable check <;>
    cases hreport : an.report path c replies check <;> simp_all [Examination.SameCourse]

theorem failures_outcome_eq_nil_iff :
    (an.outcome path c replies).failures = [] ↔ (an.own c).failures = [] := by
  rw [own, failures_outcome, failures_outcome]
  exact forall₂_congr fun check hc => report_ok_iff hc

/-- A check that succeeds does so under all replies, and what it reports shows them. -/
theorem exists_shows (hok : (an.own c).failures = []) {check : Check} (h : check ∈ Check.all)
    (path : AnalysisPath) (replies : ClassName → Dependency) :
    ∃ own found, an.report [] c assumeImmutable check = .ok own ∧
      an.report path c replies check = .ok found ∧
      Shows (((an.examination [] c check).asked an.facts? assumeImmutable).map replies) own
        found := by
  obtain ⟨own, hown⟩ := failures_outcome.1 hok check h
  obtain ⟨found, hfound⟩ := (report_ok_iff h).2 ⟨own, hown⟩
  have hcourse := an.sameCourse_report h path c replies
  rw [hown, hfound] at hcourse
  exact ⟨own, found, hown, hfound, hcourse⟩

/-- The doubts about a class are those that its own code raises and those that the replies give. -/
theorem exists_finding_iff (hok : (an.own c).failures = []) (P : Reason → Prop)
    (hP : P .inheritedMutability ↔ P .mutableTypeToField) :
    (∃ f ∈ (an.outcome path c replies).findings, P f.reason) ↔
      (∃ f ∈ (an.own c).findings, P f.reason) ∨
        ∃ other ∈ an.lookups c,
          ∃ r, (replies other).reasonFor .mutableTypeToField = some r ∧ P r := by
  have hcheck : ∀ check ∈ Check.all, ∃ own found,
      an.report [] c assumeImmutable check = .ok own ∧ an.report path c replies check = .ok found ∧
        ((∃ f ∈ found, P f.reason) ↔ (∃ f ∈ own, P f.reason) ∨
          ∃ other ∈ (an.examination [] c check).asked an.facts? assumeImmutable,
            ∃ r, (replies other).reasonFor .mutableTypeToField = some r ∧ P r) := by
    intro check hc
    obtain ⟨own, found, hown, hfound, hshows⟩ := exists_shows hok hc path replies
    refine ⟨own, found, hown, hfound, (hshows P hP).trans ?_⟩
    simp only [List.mem_map, exists_exists_and_eq_and]
  constructor
  · rintro ⟨f, hf, hPf⟩
    obtain ⟨check, hc, fs, hfs, hf⟩ := mem_findings_outcome.1 hf
    obtain ⟨own, found, hown, hfound, hiff⟩ := hcheck check hc
    cases hfs.symm.trans hfound
    rcases hiff.1 ⟨f, hf, hPf⟩ with ⟨g, hg, hPg⟩ | ⟨other, hother, hr⟩
    · exact .inl ⟨g, mem_findings_outcome.2 ⟨check, hc, own, hown, hg⟩, hPg⟩
    · exact .inr ⟨other, List.mem_flatMap.2 ⟨check, hc, hother⟩, hr⟩
  · rintro (⟨f, hf, hPf⟩ | ⟨other, hother, hr⟩)
    · obtain ⟨check, hc, fs, hfs, hf⟩ := mem_findings_outcome.1 hf
      obtain ⟨own, found, hown, hfound, hiff⟩ := hcheck check hc
      cases hfs.symm.trans hown
      obtain ⟨g, hg, hPg⟩ := hiff.2 (.inl ⟨f, hf, hPf⟩)
      exact ⟨g, mem_findings_outcome.2 ⟨check, hc, found, hfound, hg⟩, hPg⟩
    · obtain ⟨check, hc, hother⟩ := List.mem_flatMap.1 hother
      obtain ⟨own, found, hown, hfound, hiff⟩ := hcheck check hc
      obtain ⟨g, hg, hPg⟩ := hiff.2 (.inr ⟨other, hother, hr⟩)
      exact ⟨g, mem_findings_outcome.2 ⟨check, hc, found, hfound, hg⟩, hPg⟩

theorem forall_finding_iff (hok : (an.own c).failures = []) (P : Reason → Prop)
    (hP : P .inheritedMutability ↔ P .mutableTypeToField) :
    (∀ f ∈ (an.outcome path c replies).findings, P f.reason) ↔
      (∀ f ∈ (an.own c).findings, P f.reason) ∧
        ∀ other ∈ an.lookups c, ∀ r,
          (replies other).reasonFor .mutableTypeToField = some r → P r := by
  have hnot : ¬ (∃ f ∈ (an.outcome path c replies).findings, ¬ P f.reason) ↔ _ :=
    not_congr (exists_finding_iff hok (fun r => ¬ P r) (not_congr hP))
  simpa only [not_or, not_exists, not_and, not_not] using hnot

/-! ### The verdict on one class -/

/-- The class `name` is one whose checks can all be made. -/
structure Checked (an : Analyser) (name : ClassName) (c : ClassFacts) : Prop where
  given : an.config.hardcoded? name = none
  read : an.source.read name = .ok c
  ok : (an.own c).failures = []

variable {l : Ledger} {name : ClassName} {a : Assessment}

namespace Entry

theorem eq_judgement (h : an.Entry l path name a) (hread : an.source.read name = .ok c) :
    a = an.judgement (path ++ [name]) name c (an.reply l) ∧
      ∀ other ∈ an.lookups c, an.Settled (path ++ [name]) l other := by
  cases h with
  | unreadable read => cases hread.symm.trans read
  | judged read settled =>
    cases hread.symm.trans read
    exact ⟨rfl, settled⟩

/-- A class is given up exactly if it cannot be read or one of its checks fails. -/
theorem couldNotAnalyse_iff (h : an.Entry l path name a) (given : an.config.hardcoded? name = none) :
    a.verdict = .couldNotAnalyse ↔ ¬ ∃ c, an.Checked name c := by
  cases h with
  | @unreadable e read =>
    refine ⟨?_, fun _ => rfl⟩
    rintro - ⟨c, hc⟩
    cases hc.read.symm.trans read
  | @judged c read settled =>
    rw [judgement, Assessment.verdict_conclude_eq_couldNotAnalyse, ne_eq,
      failures_outcome_eq_nil_iff, not_iff_not]
    refine ⟨fun hok => ⟨c, given, read, hok⟩, ?_⟩
    rintro ⟨c', hc⟩
    cases hc.read.symm.trans read
    exact hc.ok

theorem checked (h : an.Entry l path name a) (given : an.config.hardcoded? name = none)
    (hv : a.verdict ≠ .couldNotAnalyse) : ∃ c, an.Checked name c := by
  by_contra hnone
  exact hv ((h.couldNotAnalyse_iff given).2 hnone)

theorem notImmutable_iff (h : an.Entry l path name a) (hc : an.Checked name c) :
    a.verdict = .notImmutable ↔
      (∃ f ∈ (an.own c).findings, f.reason.isSoft = false) ∨
        ∃ other ∈ an.lookups c, ∃ b, an.reply l other = .resolved b ∧ b.verdict = .notImmutable := by
  obtain ⟨rfl, -⟩ := h.eq_judgement hc.read
  rw [judgement, Assessment.verdict_conclude_eq_notImmutable, failures_outcome_eq_nil_iff,
    exists_finding_iff hc.ok (fun r => r.isSoft = false) (by simp [Reason.isSoft])]
  simp only [hc.ok, true_and, Dependency.hard_reasonFor_iff]

theorem immutable_iff (h : an.Entry l path name a) (hc : an.Checked name c) :
    a.verdict = .immutable ↔ (an.own c).findings = [] ∧
      ∀ other ∈ an.lookups c, ∃ b, an.reply l other = .resolved b ∧ b.Clean := by
  obtain ⟨rfl, -⟩ := h.eq_judgement hc.read
  have hnil : ∀ fs : List Finding, fs = [] ↔ ∀ f ∈ fs, False :=
    fun fs => List.eq_nil_iff_forall_not_mem
  have hdoubt : ∀ d : Dependency,
      (∀ r, d.reasonFor .mutableTypeToField = some r → False) ↔ ∃ b, d = .resolved b ∧ b.Clean := by
    intro d
    rw [← Dependency.reasonFor_eq_none_iff]
    exact Option.eq_none_iff_forall_ne_some.symm
  rw [judgement, Assessment.verdict_conclude_eq_immutable, failures_outcome_eq_nil_iff, hnil, hnil,
    forall_finding_iff hc.ok (fun _ => False) Iff.rfl]
  simp only [hc.ok, true_and, hdoubt]

theorem clean_iff (h : an.Entry l path name a) (hc : an.Checked name c) :
    a.Clean ↔ (∀ f ∈ (an.own c).findings, f.reason = .nonFinalField) ∧
      ∀ other ∈ an.lookups c, ∃ b, an.reply l other = .resolved b ∧ b.Clean := by
  obtain ⟨rfl, -⟩ := h.eq_judgement hc.read
  rw [judgement, Assessment.clean_conclude, failures_outcome_eq_nil_iff,
    forall_finding_iff hc.ok (· = .nonFinalField) (by simp)]
  have hdoubt : ∀ d : Dependency,
      (∀ r, d.reasonFor .mutableTypeToField = some r → r = .nonFinalField) ↔
        ∃ b, d = .resolved b ∧ b.Clean := by
    intro d
    rw [← Dependency.reasonFor_eq_none_iff, Option.eq_none_iff_forall_ne_some]
    refine forall_congr' fun r => ⟨fun h hr => ?_, fun h hr => absurd hr h⟩
    exact Dependency.reasonFor_ne_nonFinalField (by decide) (h hr ▸ hr)
  simp only [hc.ok, true_and, hdoubt]

/-- The doubt about a cycle is passed on, unless the class is seen to be mutable. -/
theorem notImmutable_or_cutShort (h : an.Entry l path name a) (hc : an.Checked name c)
    {other : ClassName} (ho : other ∈ an.lookups c)
    (hr : (an.reply l other).reasonFor .mutableTypeToField = some .cyclicReference) :
    a.verdict = .notImmutable ∨ a.CutShort := by
  have hcyclic : a.hasReason .cyclicReference = true := by
    obtain ⟨rfl, -⟩ := h.eq_judgement hc.read
    obtain ⟨f, hf, hreason⟩ : ∃ f ∈ (an.outcome (path ++ [name]) c (an.reply l)).findings,
        f.reason = .cyclicReference :=
      (exists_finding_iff hc.ok (· = .cyclicReference) (by simp)).2 (.inr ⟨other, ho, _, hr, rfl⟩)
    exact hreason ▸ Assessment.hasReason_conclude hf
  cases hv : a.verdict with
  | notImmutable => exact .inl rfl
  | effectivelyImmutable => exact .inr ⟨hv, hcyclic⟩
  | couldNotAnalyse => exact absurd ⟨c, hc⟩ ((h.couldNotAnalyse_iff hc.given).1 hv)
  | immutable =>
    have hclean := ((h.immutable_iff hc).1 hv).2 other ho
    rw [← Dependency.reasonFor_eq_none_iff, hr] at hclean
    cases hclean

end Entry

/-! ### Derivations along the graph -/

/-- The class must not be called immutable: it is given as mutable, or its own code shows that it is,
or it asks about such a class. -/
inductive Mutable (an : Analyser) : ClassName → Prop
  | given {name : ClassName} {a : Assessment} (given : an.config.hardcoded? name = some a)
    (verdict : a.verdict = .notImmutable) : Mutable an name
  | own {name : ClassName} {c : ClassFacts} {f : Finding} (checked : an.Checked name c)
    (mem : f ∈ (an.own c).findings) (hard : f.reason.isSoft = false) : Mutable an name
  | dependency {name other : ClassName} {c : ClassFacts} (checked : an.Checked name c)
    (asked : other ∈ an.lookups c) (mutable : Mutable an other) : Mutable an name

/-- The class may be called immutable, its private fields apart: it is given as such, or its own code
shows nothing else and all the classes that it asks about are of this kind. -/
inductive Blameless (an : Analyser) : ClassName → Prop
  | given {name : ClassName} {a : Assessment} (given : an.config.hardcoded? name = some a)
    (clean : a.Clean) : Blameless an name
  | judged {name : ClassName} {c : ClassFacts} (checked : an.Checked name c)
    (own : ∀ f ∈ (an.own c).findings, f.reason = .nonFinalField)
    (asked : ∀ other ∈ an.lookups c, Blameless an other) : Blameless an name

/-- The class leads to one that asks about itself, if through others. -/
def MeetsCycle (an : Analyser) (name : ClassName) : Prop :=
  ∃ other, Relation.ReflTransGen an.LooksUp name other ∧ Relation.TransGen an.LooksUp other other

theorem Checked.looksUp {other : ClassName} (hc : an.Checked name c) (ho : other ∈ an.lookups c) :
    an.LooksUp name other :=
  ⟨hc.given, c, hc.read, ho⟩

/-- A class that is told that another one waits for it is on a cycle. -/
theorem Awaited.transGen_self (ha : an.Awaited l path name) (hentry : an.Entry l path name a)
    (hread : an.source.read name = .ok c) {other : ClassName} (ho : other ∈ an.lookups c)
    (hcyclic : an.reply l other = .cyclic) : Relation.TransGen an.LooksUp name name := by
  obtain ⟨given, new⟩ := reply_eq_cyclic_iff.1 hcyclic
  have hpath : other ∈ path ++ [name] := by
    rcases (hentry.eq_judgement hread).2 other ho with h | h | h
    · simp [given] at h
    · exact absurd h new
    · exact h
  have hback : Relation.ReflTransGen an.LooksUp other name := by
    rcases List.mem_append.1 hpath with h | h
    · exact ha.chain.backwards_concat_induction (Relation.ReflTransGen an.LooksUp · name) path
        (fun _ _ => .head) .refl other h
    · rw [List.mem_singleton.1 h]
  exact .head' ⟨ha.given, c, hread, ho⟩ hback

theorem Blameless.not_transGen_self (h : an.Blameless name) :
    ¬ Relation.TransGen an.LooksUp name name := by
  induction h with
  | given given clean =>
    intro hcycle
    obtain ⟨other, hother, -⟩ := Relation.TransGen.head'_iff.1 hcycle
    cases given.symm.trans hother.1
  | @judged name c checked own asked ih =>
    intro hcycle
    obtain ⟨other, hother, hback⟩ := Relation.TransGen.head'_iff.1 hcycle
    obtain ⟨-, c', hread, ho⟩ := hother
    cases checked.read.symm.trans hread
    exact ih other ho (.tail' hback (checked.looksUp ho))

/-- Mutability is found only where there is a derivation of it. -/
theorem mutable_of_notImmutable (hl : an.Sound l) (ha : an.reply l name = .resolved a)
    (hv : a.verdict = .notImmutable) : an.Mutable name := by
  refine hl.reply_induction (motive := fun name a => a.verdict = .notImmutable → an.Mutable name)
    (fun name a given hv => .given given hv) ?_ name a ha hv
  intro l path name a hl hawaited hentry ih hv
  obtain ⟨c, hc⟩ := hentry.checked hawaited.given (by simp [hv])
  rcases (hentry.notImmutable_iff hc).1 hv with ⟨f, hf, hhard⟩ | ⟨other, ho, b, hb, hbv⟩
  · exact .own hc hf hhard
  · exact .dependency hc ho (ih other b hb hbv)

/-- A derivation of mutability is missed only where a cycle cuts the analysis short. -/
theorem Mutable.notImmutable_or_cutShort (h : an.Mutable name) (hl : an.Sound l)
    (ha : an.reply l name = .resolved a) :
    a.verdict = .notImmutable ∨ a.CutShort ∧ an.MeetsCycle name := by
  induction h generalizing l a with
  | given given verdict =>
    cases (reply_of_given given).symm.trans ha
    exact .inl verdict
  | own checked mem hard =>
    obtain ⟨before, path, -, hentry, -⟩ := hl.entry_of_reply checked.given ha
    exact .inl ((hentry.notImmutable_iff checked).2 (.inl ⟨_, mem, hard⟩))
  | @dependency name other c checked asked mutable ih =>
    obtain ⟨before, path, hawaited, hentry, hbefore⟩ := hl.entry_of_reply checked.given ha
    cases hr : an.reply before other with
    | resolved b =>
      rcases ih hbefore hr with hv | ⟨hcut, target, hpath, hcycle⟩
      · exact .inl ((hentry.notImmutable_iff checked).2 (.inr ⟨other, asked, b, hr, hv⟩))
      · -- the other class was cut short, and its doubt is passed on
        have hreason := Dependency.reasonFor_of_cutShort hcut .mutableTypeToField
        refine (hentry.notImmutable_or_cutShort checked asked (hr ▸ hreason)).imp_right fun h => ?_
        exact ⟨h, target, .head (checked.looksUp asked) hpath, hcycle⟩
    | cyclic =>
      -- the other class waits for this one, which closes a cycle
      have hcycle := hawaited.transGen_self hentry checked.read asked hr
      refine (hentry.notImmutable_or_cutShort checked asked (by rw [hr]; rfl)).imp_right fun h => ?_
      exact ⟨h, name, .refl, hcycle⟩

/-- The clean verdicts are those with a derivation: a blameless class is never on a cycle. -/
theorem clean_iff_blameless (hl : an.Sound l) (ha : an.reply l name = .resolved a) :
    a.Clean ↔ an.Blameless name := by
  constructor
  · refine hl.reply_induction (motive := fun name a => a.Clean → an.Blameless name)
      (fun name a given clean => .given given clean) ?_ name a ha
    intro l path name a hl hawaited hentry ih hclean
    obtain ⟨c, hc⟩ := hentry.checked hawaited.given fun hv => by simp [Assessment.Clean, hv] at hclean
    obtain ⟨hown, hasked⟩ := (hentry.clean_iff hc).1 hclean
    refine .judged hc hown fun other ho => ?_
    obtain ⟨b, hb, hclean⟩ := hasked other ho
    exact ih other b hb hclean
  · intro h
    induction h generalizing l a with
    | given given clean =>
      cases (reply_of_given given).symm.trans ha
      exact clean
    | @judged name c checked own asked ih =>
      obtain ⟨before, path, hawaited, hentry, hbefore⟩ := hl.entry_of_reply checked.given ha
      refine (hentry.clean_iff checked).2 ⟨own, fun other ho => ?_⟩
      cases hr : an.reply before other with
      | resolved b => exact ⟨b, rfl, ih other ho hbefore hr⟩
      | cyclic =>
        -- a cycle would be a derivation without end
        exact absurd (hawaited.transGen_self hentry checked.read ho hr)
          (Blameless.judged checked own asked).not_transGen_self

/-! ### Two verdicts on one class -/

section

variable {l' : Ledger} {b : Assessment}

theorem immutable_of_immutable (hl : an.Sound l) (ha : an.reply l name = .resolved a)
    (hl' : an.Sound l') (hb : an.reply l' name = .resolved b) {c : ClassFacts}
    (hc : an.Checked name c) (hv : a.verdict = .immutable) : b.verdict = .immutable := by
  obtain ⟨before, path, -, hentry, -⟩ := hl.entry_of_reply hc.given ha
  obtain ⟨before', path', -, hentry', -⟩ := hl'.entry_of_reply hc.given hb
  have hclean : b.Clean := (clean_iff_blameless hl' hb).2 ((clean_iff_blameless hl ha).1 (.inl hv))
  exact (hentry'.immutable_iff hc).2
    ⟨((hentry.immutable_iff hc).1 hv).1, ((hentry'.clean_iff hc).1 hclean).2⟩

/-- Where there is no derivation of mutability, a class has one verdict only. -/
theorem verdict_eq_of_not_mutable (hl : an.Sound l) (ha : an.reply l name = .resolved a)
    (hl' : an.Sound l') (hb : an.reply l' name = .resolved b) (h : ¬ an.Mutable name) :
    a.verdict = b.verdict := by
  cases given : an.config.hardcoded? name with
  | some given' =>
    have hab := (reply_of_given given).symm.trans ha
    cases hab
    cases (reply_of_given given).symm.trans hb
    rfl
  | none =>
    obtain ⟨before, path, -, hentry, -⟩ := hl.entry_of_reply given ha
    obtain ⟨before', path', -, hentry', -⟩ := hl'.entry_of_reply given hb
    by_cases hc : ∃ c, an.Checked name c
    · obtain ⟨c, hc⟩ := hc
      have hna : a.verdict ≠ .notImmutable := fun hv => h (mutable_of_notImmutable hl ha hv)
      have hnb : b.verdict ≠ .notImmutable := fun hv => h (mutable_of_notImmutable hl' hb hv)
      have hca : a.verdict ≠ .couldNotAnalyse := fun hv =>
        (hentry.couldNotAnalyse_iff given).1 hv ⟨c, hc⟩
      have hcb : b.verdict ≠ .couldNotAnalyse := fun hv =>
        (hentry'.couldNotAnalyse_iff given).1 hv ⟨c, hc⟩
      have hiff : a.verdict = .immutable ↔ b.verdict = .immutable :=
        ⟨immutable_of_immutable hl ha hl' hb hc, immutable_of_immutable hl' hb hl ha hc⟩
      cases hva : a.verdict <;> cases hvb : b.verdict <;> simp_all
    · rw [(hentry.couldNotAnalyse_iff given).2 hc, (hentry'.couldNotAnalyse_iff given).2 hc]

/-- Two verdicts on one class differ exactly if the class is mutable and a cycle has cut one of the
two analyses short. -/
theorem verdict_ne_iff (hl : an.Sound l) (ha : an.reply l name = .resolved a)
    (hl' : an.Sound l') (hb : an.reply l' name = .resolved b) :
    a.verdict ≠ b.verdict ↔
      an.Mutable name ∧ an.MeetsCycle name ∧ Xor a.CutShort b.CutShort := by
  constructor
  · intro hne
    have hm : an.Mutable name := by
      by_contra h
      exact hne (verdict_eq_of_not_mutable hl ha hl' hb h)
    rcases hm.notImmutable_or_cutShort hl ha with hva | ⟨hca, hmeets⟩ <;>
      rcases hm.notImmutable_or_cutShort hl' hb with hvb | ⟨hcb, hmeets'⟩
    · exact absurd (hva.trans hvb.symm) hne
    · exact ⟨hm, hmeets', .inr ⟨hcb, fun h => h.ne_notImmutable hva⟩⟩
    · exact ⟨hm, hmeets, .inl ⟨hca, fun h => h.ne_notImmutable hvb⟩⟩
    · exact absurd (hca.1.trans hcb.1.symm) hne
  · rintro ⟨hm, -, ⟨hca, hcb⟩ | ⟨hcb, hca⟩⟩
    · have hvb := (hm.notImmutable_or_cutShort hl' hb).resolve_right fun h => hcb h.1
      rw [hvb]
      exact hca.ne_notImmutable
    · have hva := (hm.notImmutable_or_cutShort hl ha).resolve_right fun h => hca h.1
      rw [hva]
      exact hcb.ne_notImmutable.symm

end

end Analyser

/-- The class with a private final field of the class `other`, which a public constructor sets. -/
def ClassFacts.holding (c : ClassFacts) (other : ClassName) : ClassFacts :=
  (c.withField ⟨"held", other.descriptor, .union .privateFlag .finalFlag⟩).withMethod <|
    Method.withDerivedLocals
      { name := constructorName, descriptor := "(" ++ other.descriptor ++ ")V"
        access := .publicFlag, maxLocals := 0, handlers := []
        code := #[.load .reference 0,
          .invoke .special ⟨c.superclass.getD .object, constructorName, "()V"⟩,
          .load .reference 0, .load .reference 1, .putField ⟨c.name, "held", other.descriptor⟩,
          .ret none] }

end Immutability

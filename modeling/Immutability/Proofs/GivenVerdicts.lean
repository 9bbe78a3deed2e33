import Immutability.Proofs.Grounded
import Immutability.Proofs.Progress

/-!
# Classes with a given verdict are never looked at

What a source says about the classes with a given verdict makes no difference.

* `ClassSource.AgreesBeyond` says that two sources differ in those classes at most;
* `Analyser.assess_congr` says that the analysis of a class is then the same work, and
  `Analyser.analyse_congr` that every request is;
* `Analyser.given_neverRead` compares whole sessions, and says that no class with a given verdict is
  asked for in any of them.
-/

namespace Immutability

/-- The sources give the same answers for all classes without a given verdict. -/
def ClassSource.AgreesBeyond (config : Configuration) (source source' : ClassSource) : Prop :=
  ∀ name, config.hardcoded? name = none → source.read name = source'.read name

/-- A class with a given verdict may be left out of a list. -/
theorem ClassSource.agreesBeyond_ofList {config : Configuration} {c : ClassFacts}
    (given : config.hardcoded? c.name ≠ none) (classes : List ClassFacts) :
    (ofList (c :: classes)).AgreesBeyond config (ofList classes) := by
  intro name hname
  have hne : (c.name == name) = false := by
    rw [beq_eq_false_iff_ne]
    rintro rfl
    exact given hname
  have hlookup : lookup (c :: classes) name = lookup classes name := by
    simp [lookup, hne]
  simp only [ofList, hlookup]

namespace Analyser

variable {config : Configuration} {source source' : ClassSource} {path : AnalysisPath}
  {name : ClassName} {c : ClassFacts} {resolve resolve' : ClassName → Analysis Dependency}

theorem factsOf_congr (agree : source.AgreesBeyond config source')
    (given : config.hardcoded? name = none) :
    factsOf ⟨source, config⟩ name = factsOf ⟨source', config⟩ name := by
  simp only [factsOf, read, agree name given]

theorem runCheck_congr (agree : source.AgreesBeyond config source')
    (hresolve : ∀ other, resolve other = resolve' other) {check : Check}
    (hcheck : check ∈ Check.all) (o : Outcome) :
    runCheck ⟨source, config⟩ path c resolve o check =
      runCheck ⟨source', config⟩ path c resolve' o check := by
  have hrun := Inquiry.run_congr (Check.sparesGiven_of_mem hcheck config path c)
    (fun name given => factsOf_congr agree given) hresolve
  simp only [runCheck, hrun]

theorem runChecks_congr (agree : source.AgreesBeyond config source')
    (hresolve : ∀ other, resolve other = resolve' other) {checks : List Check}
    (hall : ∀ check ∈ checks, check ∈ Check.all) (o : Outcome) :
    checks.foldlM (runCheck ⟨source, config⟩ path c resolve) o =
      checks.foldlM (runCheck ⟨source', config⟩ path c resolve') o := by
  induction checks generalizing o with
  | nil => rfl
  | cons check checks ih =>
    have hrest := ih fun check hc => hall check (List.mem_cons_of_mem _ hc)
    rw [List.foldlM_cons, List.foldlM_cons,
      runCheck_congr agree hresolve (hall check List.mem_cons_self)]
    exact congrArg _ (funext hrest)

theorem judge_congr (agree : source.AgreesBeyond config source')
    (hresolve : ∀ other, resolve other = resolve' other) :
    judge ⟨source, config⟩ path name c resolve = judge ⟨source', config⟩ path name c resolve' := by
  unfold judge runChecks
  rw [runChecks_congr agree hresolve fun _ h => h]

/-- A class with a given verdict is not analysed on behalf of a check. -/
theorem resolveWith_congr {assess assess' : name ∉ path → Analysis Assessment}
    (h : config.hardcoded? name = none → assess = assess') :
    resolveWith ⟨source, config⟩ path name assess =
      resolveWith ⟨source', config⟩ path name assess' := by
  unfold resolveWith
  cases hgiven : config.hardcoded? name with
  | some a => rfl
  | none => simp only [h hgiven]

/-- The analysis of a class without a given verdict is the same work for both sources. -/
theorem assess_congr (agree : source.AgreesBeyond config source') (path : AnalysisPath)
    (name : ClassName) (fresh : name ∉ path) (given : config.hardcoded? name = none) :
    assess ⟨source, config⟩ path name fresh = assess ⟨source', config⟩ path name fresh := by
  have hagree := agree name given
  cases hread : source.read name with
  | error e =>
    have hread' : source'.read name = .error e := hagree.symm.trans hread
    rw [assess_unreadable hread, assess_unreadable hread']
    rfl
  | ok c =>
    have hread' : source'.read name = .ok c := hagree.symm.trans hread
    rw [assess_readable hread, assess_readable hread']
    have hlt := ClassSource.unread_append_lt hread fresh
    have hresolve : ∀ other, Analyser.resolve ⟨source, config⟩ (path ++ [name]) other =
        Analyser.resolve ⟨source', config⟩ (path ++ [name]) other := fun other =>
      resolveWith_congr fun hother => funext fun freshOther =>
        assess_congr agree (path ++ [name]) other freshOther hother
    exact congrArg _ (funext fun _ => judge_congr agree hresolve)
termination_by source.unread path

theorem analyse_congr (agree : source.AgreesBeyond config source') (name : ClassName) :
    analyse ⟨source, config⟩ name = analyse ⟨source', config⟩ name := by
  unfold analyse
  cases hgiven : config.hardcoded? name with
  | some a => rfl
  | none => simp only [assess_congr agree [] name List.not_mem_nil hgiven]

theorem after_congr (agree : source.AgreesBeyond config source') (requests : List ClassName) :
    after ⟨source, config⟩ requests = after ⟨source', config⟩ requests := by
  simp only [after, analyse_congr agree]

/-- The source is never asked for a class with a given verdict. -/
theorem given_eq_none_of_mem_reads (an : Analyser) (requests : List ClassName) :
    ∀ name ∈ (an.after requests).reads, an.config.hardcoded? name = none := by
  refine an.after_induction (P := fun s => ∀ name ∈ s.reads, an.config.hardcoded? name = none)
    (by simp [Session.empty]) (fun s s' hstep ih => ?_) requests
  cases hstep with
  | read given => exact List.forall_mem_cons.2 ⟨given, ih⟩
  | complete given a => exact ih

/-- Classes with a given verdict are never looked at, under either policy. Sessions with sources
that differ in such classes only give the same answers, results or aborts alike, and remember the
same: verdicts, failures, and the classes that have been asked for, of which none has a given
verdict. -/
theorem given_neverRead (config : Configuration) (source source' : ClassSource)
    (agree : source.AgreesBeyond config source') (requests : List ClassName) :
    (∀ name, answer ⟨source, config⟩ requests name = answer ⟨source', config⟩ requests name) ∧
    after ⟨source, config⟩ requests = after ⟨source', config⟩ requests ∧
    (∀ names, (analyseAll ⟨source, config⟩ names).on (after ⟨source, config⟩ requests) =
      (analyseAll ⟨source', config⟩ names).on (after ⟨source', config⟩ requests)) ∧
    ∀ name ∈ (after ⟨source, config⟩ requests).reads, config.hardcoded? name = none := by
  have hafter := after_congr agree requests
  refine ⟨fun name => ?_, hafter, fun names => ?_, given_eq_none_of_mem_reads _ requests⟩
  · rw [answer, answer, hafter, analyse_congr agree]
  · have hall : analyseAll ⟨source, config⟩ names = analyseAll ⟨source', config⟩ names := by
      simp only [analyseAll, funext (analyse_congr agree)]
    rw [hafter, hall]

/-- The default configuration with a given verdict on the class that is held. -/
def givenKey : Configuration := Configuration.default.hardcode (.immutable keyClass.name)

theorem given_neverRead_givenKey :
    (ClassSource.ofList [keyClass, boxClass]).AgreesBeyond givenKey (.ofList [boxClass]) ∧
    (ClassSource.ofList [keyClass, boxClass]).read keyClass.name ≠
      (ClassSource.ofList [boxClass]).read keyClass.name ∧
    after ⟨.ofList [keyClass, boxClass], givenKey⟩ [boxClass.name] =
      after ⟨.ofList [boxClass], givenKey⟩ [boxClass.name] := by
  have agree : (ClassSource.ofList [keyClass, boxClass]).AgreesBeyond givenKey
      (.ofList [boxClass]) :=
    ClassSource.agreesBeyond_ofList (by decide +kernel) [boxClass]
  exact ⟨agree, by decide +kernel, (given_neverRead _ _ _ agree [boxClass.name]).2.1⟩

end Analyser

end Immutability

import Immutability.Proofs.Requests

/-!
# What happens to a session

Only two things ever happen to a session: the source is asked for a class, or a class gets its
verdict and its failures are recorded. Neither happens to a class with a given verdict.

* `Inquiry.ReadsOnly` bounds the classes whose facts an inquiry asks for, and
  `Check.sparesGiven_of_mem` says that no check asks for the facts of a class with a given verdict;
* `Analyser.failuresOf` lists the failures of a class, which are its own affair: they depend neither
  on the path nor on the verdicts on other classes;
* `Analyser.Step` is one thing that happens to a session, and `Analyser.steps_after` says that
  nothing else happens in any series of requests.
-/

namespace Immutability

/-! ### The classes whose facts are asked for -/

namespace Inquiry

variable {α β : Type} {P : ClassName → Prop}

/-- Whatever it is told, the inquiry asks for the facts of classes with the property only. -/
def ReadsOnly (P : ClassName → Prop) : Inquiry α → Prop
  | answer _ => True
  | readFacts name next => P name ∧ ∀ facts, ReadsOnly P (next facts)
  | resolve _ next => ∀ reply, ReadsOnly P (next reply)

theorem ReadsOnly.bind {q : Inquiry α} {f : α → Inquiry β} (h : q.ReadsOnly P)
    (hf : ∀ a, (f a).ReadsOnly P) : (q.bind f).ReadsOnly P := by
  induction q with
  | answer a => exact hf a
  | readFacts name next ih => exact ⟨h.1, fun facts => ih facts (h.2 facts)⟩
  | resolve name next ih => exact fun reply => ih reply (h reply)

/-- Two ways to read classes make no difference if they agree where the inquiry reads. -/
theorem run_congr {q : Inquiry α} (h : q.ReadsOnly P)
    {reads reads' : ClassName → Analysis (Option ClassFacts)}
    {resolves resolves' : ClassName → Analysis Dependency}
    (hreads : ∀ name, P name → reads name = reads' name)
    (hresolves : ∀ name, resolves name = resolves' name) :
    q.run reads resolves = q.run reads' resolves' := by
  induction q with
  | answer a => rfl
  | readFacts name next ih =>
    simp only [run, hreads name h.1]
    exact congrArg _ (funext fun facts => ih facts (h.2 facts))
  | resolve name next ih =>
    simp only [run, hresolves name]
    exact congrArg _ (funext fun reply => ih reply (h reply))

end Inquiry

namespace Examination

variable {α β ι : Type} {P : ClassName → Prop} {x : Examination α}

/-- Whatever it is told, the examination asks for the facts of classes with the property only. -/
def ReadsOnly (P : ClassName → Prop) (x : Examination α) : Prop := x.run.ReadsOnly P

namespace ReadsOnly

theorem pure (a : α) : ReadsOnly P (Pure.pure a : Examination α) := trivial

theorem throw (e : CheckError) : ReadsOnly P (MonadExcept.throw e : Examination α) := trivial

theorem lift {q : Inquiry α} (h : q.ReadsOnly P) : ReadsOnly P (liftM q : Examination α) :=
  h.bind fun _ => trivial

theorem bind {f : α → Examination β} (h : ReadsOnly P x) (hf : ∀ a, ReadsOnly P (f a)) :
    ReadsOnly P (x >>= f) := by
  refine Inquiry.ReadsOnly.bind h fun r => ?_
  cases r with
  | ok a => exact hf a
  | error e => trivial

theorem ofExcept {ε : Type} (wrap : ε → CheckError) (r : Except ε α) :
    ReadsOnly P (Examination.ofExcept wrap r) := by
  cases r with
  | ok a => exact pure a
  | error e => exact throw (wrap e)

theorem mapM {f : ι → Examination α} (h : ∀ i, ReadsOnly P (f i)) (items : List ι) :
    ReadsOnly P (items.mapM f) := by
  induction items with
  | nil => exact pure []
  | cons i items ih =>
    rw [List.mapM_cons]
    exact (h i).bind fun a => ih.bind fun as => pure (a :: as)

end ReadsOnly

end Examination

namespace Check

/-- The check asks for no facts of classes with a given verdict. -/
def SparesGiven (check : Check) : Prop :=
  ∀ config path c, Examination.ReadsOnly (fun name => config.hardcoded? name = none)
    (check.examine ⟨config, path⟩ c)

theorem sparesGiven_ofFacts (name : String) (findings : ClassFacts → List Finding) :
    (ofFacts name findings).SparesGiven := fun _ _ c => .pure (findings c)

theorem sparesGiven_inheritance : inheritance.SparesGiven := by
  intro config path c
  simp only [inheritance]
  cases relevantSuperclass? c with
  | none => exact .pure []
  | some parent =>
    have hask : (Inquiry.mutabilityOf parent).ReadsOnly fun name => config.hardcoded? name = none :=
      fun _ => trivial
    refine (Examination.ReadsOnly.lift hask).bind fun d => ?_
    cases d.reasonFor .inheritedMutability with
    | none => exact .pure []
    | some reason => exact .pure _

section StoredValues

variable (config : Configuration) (path : AnalysisPath)

/-- The given verdict is looked for before the facts are. -/
theorem readsOnly_inspectClass (location : Location) (field : FieldRef)
    (declared type : ClassName) :
    (inspectClass ⟨config, path⟩ location field declared type).ReadsOnly
      fun name => config.hardcoded? name = none := by
  unfold inspectClass
  cases hgiven : config.hardcoded? type with
  | some given => trivial
  | none =>
    cases config.idiom? type with
    | some idiom => trivial
    | none =>
      refine ⟨hgiven, fun facts => ?_⟩
      by_cases h : facts.any fun c => c.access.isInterface || c.access.isAbstract
      · simp only [Inquiry.bind, h]
        trivial
      · simp only [Inquiry.bind, h]
        exact fun reply => trivial

theorem readsOnly_inspectReference (location : Location) (field : FieldRef) (declared : ClassName)
    (type : Option FieldType) (origin : Origin) :
    (inspectReference ⟨config, path⟩ location field declared type origin).ReadsOnly
      fun name => config.hardcoded? name = none := by
  unfold inspectReference
  cases storedClass? type declared with
  | none =>
    cases config.idiom? declared with
    | none => trivial
    | some idiom => cases h : idiom.classify origin <;> simp only [h] <;> trivial
  | some cls =>
    have byClass := readsOnly_inspectClass config path location field declared cls
    cases config.idiom? declared with
    | none => exact byClass
    | some idiom =>
      cases h : idiom.classify origin with
      | copiedAndWrapped | wrappedWithoutCopy | copiedWithoutWrap =>
        simp only [h]
        trivial
      | notAttempted =>
        simp only [h]
        exact byClass

theorem readsOnly_inspectStore (location : Location) (field : FieldRef) (value : Value) :
    Examination.ReadsOnly (fun name => config.hardcoded? name = none)
      (inspectStore ⟨config, path⟩ location field value) := by
  unfold inspectStore
  cases value with
  | reference type origin =>
    refine (Examination.ReadsOnly.ofExcept _ _).bind fun t => ?_
    cases t with
    | object declared =>
      exact .lift (readsOnly_inspectReference config path location field declared type origin)
    | primitive | array => exact .pure none
  | top | primitive | null | this | uninitialized => exact .pure none

theorem readsOnly_examineStores (c : ClassFacts) (m : Method) :
    Examination.ReadsOnly (fun name => config.hardcoded? name = none)
      (examineStores ⟨config, path⟩ c m) := by
  simp only [examineStores]
  by_cases hempty : (ownStores c.name m).isEmpty
  · simp only [hempty, if_true]
    exact .pure []
  · simp only [hempty, if_false, Bool.false_eq_true]
    refine (Examination.ReadsOnly.ofExcept _ _).bind fun frames => ?_
    refine (Examination.ReadsOnly.mapM (fun store => ?_) _).bind fun found => .pure _
    unfold examineStore
    split
    · split
      · exact .throw _
      · exact readsOnly_inspectStore config path _ _ _
    · exact .pure none

end StoredValues

theorem sparesGiven_storedValues : storedValues.SparesGiven := by
  intro config path c
  exact (Examination.ReadsOnly.mapM (readsOnly_examineStores config path c) c.methods).bind
    fun found => .pure found.flatten

/-- No check asks for the facts of a class with a given verdict. -/
theorem sparesGiven_of_mem {check : Check} (h : check ∈ all) : check.SparesGiven := by
  simp only [all, List.mem_cons, List.not_mem_nil, or_false] at h
  rcases h with rfl | rfl | rfl | rfl | rfl | rfl | rfl | rfl
  · exact sparesGiven_ofFacts _ _
  · exact sparesGiven_ofFacts _ _
  · exact sparesGiven_inheritance
  · exact sparesGiven_ofFacts _ _
  · exact sparesGiven_ofFacts _ _
  · exact sparesGiven_storedValues
  · exact sparesGiven_ofFacts _ _
  · exact fun _ _ _ => .ofExcept _ _

end Check

/-! ### The failures of a class -/

namespace Analyser

variable {an : Analyser} {path : AnalysisPath} {name : ClassName} {c : ClassFacts}
  {resolve : ClassName → Analysis Dependency} {s s' : Session}

/-- The failure of a check of a class, if there is one. -/
def failure? (an : Analyser) (c : ClassFacts) (check : Check) : Option CheckFailure :=
  match an.report [] c assumeImmutable check with
  | .ok _ => none
  | .error e => some ⟨c.name, check.name, e.message⟩

/-- The failures that are recorded when a class gets its verdict. -/
def failuresOf (an : Analyser) (name : ClassName) : List CheckFailure :=
  match an.source.read name with
  | .error e => [⟨name, classReader, e.message⟩]
  | .ok c => Check.all.filterMap (an.failure? c)

theorem failuresOf_of_unreadable {e : ReadError} (h : an.source.read name = .error e) :
    an.failuresOf name = [⟨name, classReader, e.message⟩] := by
  rw [failuresOf, h]

theorem failuresOf_of_readable (h : an.source.read name = .ok c) :
    an.failuresOf name = Check.all.filterMap (an.failure? c) := by
  rw [failuresOf, h]

/-- A check that succeeds does so whatever the replies. -/
theorem failure?_of_run_ok {check : Check} (hcheck : check ∈ Check.all) {fs : List Finding}
    (h : Analysis.on ((an.examination path c check).run an.factsOf resolve) s =
      (.ok (.ok fs), s')) : an.failure? c check = none := by
  obtain ⟨ds, hcourse⟩ := exists_rel_of_run (Check.tracks_of_mem hcheck an.config [] path c) h
  change Examination.SameCourse Shows ds (an.report [] c assumeImmutable check) (.ok fs) at hcourse
  cases hown : an.report [] c assumeImmutable check with
  | ok own => rw [failure?, hown]
  | error e =>
    rw [hown] at hcourse
    exact hcourse.elim

/-- A check that is completed adds its failure to those before it. -/
theorem failures_of_runCheck {check : Check} (hcheck : check ∈ Check.all) {o o' : Outcome}
    (h : (an.runCheck path c resolve o check).on s = (.ok o', s')) :
    o'.failures = o.failures ++ (an.failure? c check).toList := by
  unfold runCheck at h
  rw [Analysis.on_bind] at h
  split at h
  · next r s₁ hrun =>
    cases r with
    | ok fs =>
      cases h
      rw [failure?_of_run_ok hcheck hrun]
      simp [Outcome.add]
    | error e =>
      have hreport := report_of_run_error hcheck hrun
      cases hpolicy : an.config.policy with
      | failFast =>
        simp only [hpolicy] at h
        cases h
      | carryOn =>
        simp only [hpolicy] at h
        cases h
        rw [failure?, hreport]
        rfl
  · cases h

theorem failures_of_runChecks {checks : List Check} (hall : ∀ check ∈ checks, check ∈ Check.all)
    {o o' : Outcome} (h : (checks.foldlM (an.runCheck path c resolve) o).on s = (.ok o', s')) :
    o'.failures = o.failures ++ checks.filterMap (an.failure? c) := by
  induction checks generalizing o s with
  | nil =>
    cases h
    simp
  | cons check checks ih =>
    rw [List.foldlM_cons, Analysis.on_bind] at h
    split at h
    · next o₁ s₁ hfirst =>
      have hrest := ih (fun check hc => hall check (List.mem_cons_of_mem _ hc)) h
      rw [hrest, failures_of_runCheck (hall check List.mem_cons_self) hfirst, List.append_assoc]
      cases hfail : an.failure? c check <;> simp [hfail]
    · cases h

/-! ### Steps -/

/-- One thing that happens to a session: the source is asked for a class, or a class gets its
verdict and its failures are recorded. -/
inductive Step (an : Analyser) (s : Session) : Session → Prop
  | read {name : ClassName} (given : an.config.hardcoded? name = none) :
    Step an s (s.noteRead name)
  | complete {name : ClassName} (given : an.config.hardcoded? name = none) (a : Assessment) :
    Step an s ((s.record (an.failuresOf name)).store name a)

/-- However it ends, the work does nothing to a session but such steps. -/
def Steps {α : Type} (an : Analyser) (x : Analysis α) : Prop :=
  ∀ s, Relation.ReflTransGen an.Step s (x.on s).2

namespace Steps

variable {α β ι : Type}

theorem pure (a : α) : an.Steps (Pure.pure a : Analysis α) := fun _ => .refl

theorem get : an.Steps (MonadState.get : Analysis Session) := fun _ => .refl

theorem abort (name : ClassName) (checker description : String) :
    an.Steps (Analyser.abort name checker description : Analysis α) := fun _ => .refl

/-- What comes after some work may use what it has returned. -/
theorem bind_of {x : Analysis α} {f : α → Analysis β} (h : an.Steps x)
    (hf : ∀ a s s', x.on s = (.ok a, s') → Relation.ReflTransGen an.Step s' ((f a).on s').2) :
    an.Steps (x >>= f) := by
  intro s
  have hs := h s
  rw [Analysis.on_bind]
  split
  · next a s' hx =>
    rw [hx] at hs
    exact hs.trans (hf a s s' hx)
  · next e s' hx =>
    rw [hx] at hs
    exact hs

theorem bind {x : Analysis α} {f : α → Analysis β} (h : an.Steps x) (hf : ∀ a, an.Steps (f a)) :
    an.Steps (x >>= f) :=
  h.bind_of fun a _ s' _ => hf a s'

theorem foldlM {f : β → ι → Analysis β} {items : List ι} (h : ∀ i ∈ items, ∀ b, an.Steps (f b i))
    (b : β) : an.Steps (items.foldlM f b) := by
  induction items generalizing b with
  | nil => exact .pure b
  | cons i items ih =>
    rw [List.foldlM_cons]
    exact (h i List.mem_cons_self b).bind (ih fun j hj => h j (List.mem_cons_of_mem _ hj))

theorem run {q : Inquiry α} (hq : q.ReadsOnly fun name => an.config.hardcoded? name = none)
    (hresolve : ∀ name, an.Steps (resolve name)) : an.Steps (q.run an.factsOf resolve) := by
  induction q with
  | answer a => exact .pure a
  | readFacts name next ih =>
    have hread : an.Steps (an.factsOf name) := fun s => .single (.read hq.1)
    exact hread.bind fun facts => ih facts (hq.2 facts)
  | resolve name next ih => exact (hresolve name).bind fun reply => ih reply (hq reply)

end Steps

theorem steps_runCheck {check : Check} (hcheck : check ∈ Check.all)
    (hresolve : ∀ name, an.Steps (resolve name)) (o : Outcome) :
    an.Steps (an.runCheck path c resolve o check) := by
  refine (Steps.run (Check.sparesGiven_of_mem hcheck an.config path c) hresolve).bind fun r => ?_
  cases r with
  | ok findings => exact .pure _
  | error e =>
    cases hpolicy : an.config.policy with
    | failFast => exact .abort _ _ _
    | carryOn => exact .pure _

theorem steps_judge (given : an.config.hardcoded? name = none)
    (hread : an.source.read name = .ok c) (hresolve : ∀ other, an.Steps (resolve other)) :
    an.Steps (an.judge path name c resolve) := by
  have hchecks : an.Steps (an.runChecks path c resolve Check.all) :=
    .foldlM (fun check hcheck => steps_runCheck hcheck hresolve) _
  refine hchecks.bind_of fun o s s' hrun => ?_
  -- the verdict and the failures are entered together
  have hfailures : o.failures = an.failuresOf name := by
    rw [failuresOf_of_readable hread, failures_of_runChecks (fun _ h => h) hrun]
    rfl
  have hstep := Step.complete (s := s') given (.conclude name o.findings o.failures)
  rw [← hfailures] at hstep
  exact .single hstep

theorem steps_judgeUnreadable (given : an.config.hardcoded? name = none) {e : ReadError}
    (hread : an.source.read name = .error e) : an.Steps (an.judgeUnreadable name e) := by
  intro s
  unfold judgeUnreadable
  cases an.config.policy with
  | failFast => exact .refl
  | carryOn =>
    have hstep := Step.complete (s := s) given (.couldNotAnalyse name e.message)
    rw [failuresOf_of_unreadable hread] at hstep
    exact .single hstep

theorem steps_resolveWith {assess : name ∉ path → Analysis Assessment}
    (hassess : an.config.hardcoded? name = none → ∀ fresh, an.Steps (assess fresh)) :
    an.Steps (an.resolveWith path name assess) := by
  unfold resolveWith
  cases hgiven : an.config.hardcoded? name with
  | some a => exact .pure _
  | none =>
    refine Steps.get.bind fun t => ?_
    cases t.cached? name with
    | some a => exact .pure _
    | none =>
      by_cases h : name ∈ path
      · simp only [h, dif_pos]
        exact .pure _
      · simp only [h, dif_neg, not_false_eq_true]
        exact (hassess hgiven h).bind fun a => .pure _

theorem steps_assess (path : AnalysisPath) (name : ClassName) (fresh : name ∉ path)
    (given : an.config.hardcoded? name = none) : an.Steps (an.assess path name fresh) := by
  have hnote : an.Steps (modify (·.noteRead name) : Analysis PUnit) :=
    fun s => .single (.read given)
  cases hread : an.source.read name with
  | error e =>
    rw [assess_unreadable hread]
    exact hnote.bind fun _ => steps_judgeUnreadable given hread
  | ok c =>
    rw [assess_readable hread]
    refine hnote.bind fun _ => steps_judge given hread fun other => ?_
    have hlt := ClassSource.unread_append_lt hread fresh
    exact steps_resolveWith fun hother freshOther =>
      steps_assess (path ++ [name]) other freshOther hother
termination_by an.source.unread path

theorem steps_analyse (name : ClassName) : an.Steps (an.analyse name) := by
  unfold analyse
  cases hgiven : an.config.hardcoded? name with
  | some a => exact .pure a
  | none =>
    refine Steps.get.bind fun t => ?_
    cases t.cached? name with
    | some a => exact .pure a
    | none => exact steps_assess [] name (by simp) hgiven

/-- Every series of requests is a series of such steps, whatever is completed or aborted. -/
theorem steps_after (an : Analyser) (requests : List ClassName) :
    Relation.ReflTransGen an.Step .empty (an.after requests) := by
  induction requests using List.reverseRecOn with
  | nil => exact .refl
  | append_singleton requests name ih =>
    rw [after_append_singleton]
    exact ih.trans (steps_analyse name _)

/-- What every step preserves holds after all requests. -/
theorem after_induction {P : Session → Prop} (empty : P .empty)
    (step : ∀ s s', an.Step s s' → P s → P s') (requests : List ClassName) :
    P (an.after requests) := by
  have hsteps := an.steps_after requests
  generalize an.after requests = s at hsteps
  induction hsteps with
  | refl => exact empty
  | tail _ hstep ih => exact step _ _ hstep ih

end Analyser

end Immutability

import Immutability.Proofs.Analysis
import Mathlib.Data.List.Basic

/-!
# The two policies agree

Under the policy `carryOn` a session records its failures and goes on, under `failFast` it ends at the
first one. Up to there both do the same.

* `Analysis.Agrees` compares work under the two policies: the one that ends at failures gives the
  result of the other if there are none, and else ends at the first one;
* `Check.sure_or_immediate` is the property of the list of checks behind it: no check that asks about
  classes comes after one that may fail, so that failures are recorded in the order in which they
  occur;
* `Analyser.policies_agree` compares the answers to a list of requests.
-/

namespace Immutability

namespace Analysis

variable {α β : Type}

/-- The work goes on to its end, whatever fails: `b` is the result, `s'` the session behind it, and
`new` are the failures that have been recorded. -/
structure Carries (y : Analysis α) (s : Session) (b : α) (s' : Session) (new : List CheckFailure) :
    Prop where
  on_eq : on y s = (.ok b, s')
  failures : s'.failures = s.failures ++ new
  ledger : s.ledger <+: s'.ledger

/-- How work ends that stops at the first failure, if there is one. Without failures it ends as work
does that goes on. -/
def EndsAt (x : Analysis α) (s : Session) (b : α) (s' : Session) : Option CheckFailure → Prop
  | none => on x s = (.ok b, s')
  | some f => ∃ analysed s'',
      on x s = (.error ⟨f.className, f.checker, f.description, analysed⟩, s'') ∧
        analysed <+: s'.analysed

/-- The work `y` goes on to its end, and `x` does the same up to the first failure. The failures of
`pending` are still to be recorded. -/
def Agrees (pending : α → List CheckFailure) (x y : Analysis α) : Prop :=
  ∀ s, ∃ b s' new, Carries y s b s' new ∧ EndsAt x s b s' (new ++ pending b).head?

theorem Carries.bind {y : Analysis α} {g : α → Analysis β} {s s₁ s₂ : Session} {b : α} {c : β}
    {new new' : List CheckFailure} (h : Carries y s b s₁ new) (h' : Carries (g b) s₁ c s₂ new') :
    Carries (y >>= g) s c s₂ (new ++ new') where
  on_eq := by rw [on_bind_ok h.on_eq, h'.on_eq]
  failures := by rw [h'.failures, h.failures, List.append_assoc]
  ledger := h.ledger.trans h'.ledger

theorem EndsAt.bind_ok {x : Analysis α} {f : α → Analysis β} {s s₁ s₂ : Session} {b : α} {c : β}
    {first : Option CheckFailure} (h : on x s = (.ok b, s₁)) (hf : EndsAt (f b) s₁ c s₂ first) :
    EndsAt (x >>= f) s c s₂ first := by
  cases first <;> simpa only [EndsAt, on_bind_ok h] using hf

/-- What ends at a failure is not continued. -/
theorem EndsAt.bind_error {x : Analysis α} {f : α → Analysis β} {s s₁ s₂ : Session} {b : α} {c : β}
    {e : CheckFailure} (h : EndsAt x s b s₁ (some e)) (hl : s₁.ledger <+: s₂.ledger) :
    EndsAt (x >>= f) s c s₂ (some e) := by
  obtain ⟨analysed, s', hx, hanalysed⟩ := h
  exact ⟨analysed, s', on_bind_error hx, hanalysed.trans (hl.map _)⟩

namespace Agrees

variable {pending : α → List CheckFailure} {pending' : β → List CheckFailure} {x y : Analysis α}

theorem pure {b : α} (h : pending b = []) : Agrees pending (Pure.pure b) (Pure.pure b) := by
  intro s
  refine ⟨b, s, [], ⟨rfl, by simp, List.prefix_rfl⟩, ?_⟩
  rw [h]
  rfl

/-- Work that cannot fail. -/
theorem refl (h : ∀ s, ∃ b s', Carries x s b s' [] ∧ pending b = []) : Agrees pending x x := by
  intro s
  obtain ⟨b, s', hx, hb⟩ := h s
  refine ⟨b, s', [], hx, ?_⟩
  rw [hb]
  exact hx.on_eq

theorem get : Agrees (fun _ => []) (MonadState.get : Analysis Session) MonadState.get :=
  refl fun s => ⟨s, s, ⟨rfl, by simp, List.prefix_rfl⟩, rfl⟩

theorem noteRead (name : ClassName) :
    Agrees (fun _ => []) (modify (·.noteRead name) : Analysis PUnit) (modify (·.noteRead name)) :=
  refl fun s => ⟨⟨⟩, s.noteRead name, ⟨rfl, by simp [Session.noteRead], List.prefix_rfl⟩, rfl⟩

/-- The place where the policies differ. -/
theorem abort {b : α} {f : CheckFailure} {rest : List CheckFailure} (h : pending b = f :: rest) :
    Agrees pending (Analyser.abort f.className f.checker f.description) (Pure.pure b) := by
  intro s
  refine ⟨b, s, [], ⟨rfl, by simp, List.prefix_rfl⟩, ?_⟩
  rw [h]
  exact ⟨s.analysed, s, rfl, List.prefix_rfl⟩

/-- Work that goes on after other work. Where failures are pending, the stricter work has ended, and
what is recorded next has to begin with them. -/
theorem bind {f g : α → Analysis β} (h : Agrees pending x y)
    (hf : ∀ b, pending b = [] → Agrees pending' (f b) (g b))
    (hlate : ∀ b s s₁, on y s = (.ok b, s₁) → pending b ≠ [] →
      ∃ c s₂ new, Carries (g b) s₁ c s₂ new ∧ (new ++ pending' c).head? = (pending b).head?) :
    Agrees pending' (x >>= f) (y >>= g) := by
  intro s
  obtain ⟨b, s₁, new, hy, hx⟩ := h s
  by_cases hp : pending b = []
  · -- what has been recorded decides whether the stricter work has come this far
    obtain ⟨c, s₂, new₂, hg, hfx⟩ := hf b hp s₁
    refine ⟨c, s₂, new ++ new₂, hy.bind hg, ?_⟩
    cases new with
    | nil =>
      rw [hp] at hx
      exact EndsAt.bind_ok hx hfx
    | cons e new => exact EndsAt.bind_error hx hg.ledger
  · obtain ⟨c, s₂, new₂, hg, hhead⟩ := hlate b s s₁ hy.on_eq hp
    refine ⟨c, s₂, new ++ new₂, hy.bind hg, ?_⟩
    obtain ⟨e, he⟩ : ∃ e, (new ++ pending b).head? = some e := by
      cases new <;> cases hb : pending b <;> simp_all
    have hfirst : (new ++ new₂ ++ pending' c).head? = some e := by
      rw [← he, List.append_assoc]
      cases new with
      | nil => exact hhead
      | cons e new => rfl
    rw [hfirst]
    rw [he] at hx
    exact EndsAt.bind_error hx hg.ledger

/-- Work that goes on after other work of which nothing is pending. -/
theorem bind_settled {f g : α → Analysis β} (h : Agrees (fun _ => []) x y)
    (hf : ∀ b, Agrees pending' (f b) (g b)) : Agrees pending' (x >>= f) (y >>= g) :=
  h.bind (fun b _ => hf b) fun _ _ _ _ hp => absurd rfl hp

end Agrees

end Analysis

/-! ### Checks -/

namespace Inquiry

variable {α : Type}

/-- Whatever the replies, the answer has the property. -/
def Always (P : α → Prop) : Inquiry α → Prop
  | answer a => P a
  | readFacts _ next => ∀ facts, Always P (next facts)
  | resolve _ next => ∀ reply, Always P (next reply)

theorem Always.of_gives {P : α → Prop} {q : Inquiry α} {a : α} (h : q.Always P)
    (ha : q.Gives a) : P a := by
  induction q with
  | answer b =>
    cases ha
    exact h
  | readFacts name next ih =>
    obtain ⟨facts, ha⟩ := ha
    exact ih facts (h facts) ha
  | resolve name next ih =>
    obtain ⟨reply, -, ha⟩ := ha
    exact ih reply (h reply) ha

theorem Always.bind {β : Type} {P : α → Prop} {Q : β → Prop} {q : Inquiry α} {f : α → Inquiry β}
    (h : q.Always P) (hf : ∀ a, P a → (f a).Always Q) : (q.bind f).Always Q := by
  induction q with
  | answer a => exact hf a h
  | readFacts name next ih => exact fun facts => ih facts (h facts)
  | resolve name next ih => exact fun reply => ih reply (h reply)

/-- Inquiries agree if the replies to their questions do. -/
theorem run_agrees (q : Inquiry α) {reads : ClassName → Analysis (Option ClassFacts)}
    {resolves resolves' : ClassName → Analysis Dependency}
    (hreads : ∀ name, Analysis.Agrees (fun _ => []) (reads name) (reads name))
    (hresolves : ∀ name, Analysis.Agrees (fun _ => []) (resolves name) (resolves' name)) :
    Analysis.Agrees (fun _ => []) (q.run reads resolves) (q.run reads resolves') := by
  induction q with
  | answer a => exact .pure rfl
  | readFacts name next ih => exact (hreads name).bind_settled ih
  | resolve name next ih => exact (hresolves name).bind_settled ih

end Inquiry

namespace Examination

variable {α β : Type}

/-- The examination never fails. -/
def Sure (x : Examination α) : Prop := x.run.Always fun r => ∃ a, r = .ok a

theorem sure_pure (a : α) : Sure (pure a : Examination α) := ⟨a, rfl⟩

theorem sure_mutabilityOf (name : ClassName) :
    Sure (liftM (Inquiry.mutabilityOf name) : Examination Dependency) := fun reply => ⟨reply, rfl⟩

theorem Sure.bind {x : Examination α} {f : α → Examination β} (h : Sure x)
    (hf : ∀ a, Sure (f a)) : Sure (x >>= f) := by
  refine Inquiry.Always.bind h fun r hr => ?_
  obtain ⟨a, rfl⟩ := hr
  exact hf a

end Examination

namespace Check

/-- The check never fails. -/
def Sure (check : Check) : Prop := ∀ ctx c, Examination.Sure (check.examine ctx c)

/-- The check asks no questions. -/
def Immediate (check : Check) : Prop :=
  ∀ ctx c, ∃ r, (check.examine ctx c).run = .answer r

theorem sure_ofFacts (name : String) (findings : ClassFacts → List Finding) :
    (ofFacts name findings).Sure := fun _ c => ⟨findings c, rfl⟩

theorem immediate_ofFacts (name : String) (findings : ClassFacts → List Finding) :
    (ofFacts name findings).Immediate := fun _ c => ⟨.ok (findings c), rfl⟩

theorem sure_inheritance : inheritance.Sure := by
  intro ctx c
  simp only [inheritance]
  cases relevantSuperclass? c with
  | none => exact Examination.sure_pure []
  | some parent =>
    refine (Examination.sure_mutabilityOf parent).bind fun dependency => ?_
    cases dependency.reasonFor .inheritedMutability with
    | none => exact Examination.sure_pure []
    | some reason => exact Examination.sure_pure _

theorem immediate_escape : escape.Immediate := by
  intro ctx c
  simp only [escape]
  cases escapeFindings c with
  | ok fs => exact ⟨.ok fs, rfl⟩
  | error e => exact ⟨.error e, rfl⟩

/-- After a check that may fail there are only checks that ask no questions. -/
theorem sure_or_immediate : all.Pairwise fun check later => check.Sure ∨ later.Immediate := by
  have silent : ∀ later ∈ [reassignment, escape], later.Immediate := by
    simp only [List.mem_cons, List.not_mem_nil, or_false]
    rintro later (rfl | rfl)
    · exact immediate_ofFacts _ _
    · exact immediate_escape
  have surely : ∀ {check : Check} {checks : List Check}, check.Sure →
      ∀ later ∈ checks, check.Sure ∨ later.Immediate := fun h _ _ => .inl h
  refine .cons (surely (sure_ofFacts _ _)) <| .cons (surely (sure_ofFacts _ _)) <|
    .cons (surely sure_inheritance) <| .cons (surely (sure_ofFacts _ _)) <|
    .cons (surely (sure_ofFacts _ _)) <| .cons (fun later h => .inr (silent later h)) <|
    .cons (surely (sure_ofFacts _ _)) <| .cons (by simp) .nil

/-- What a check does has nothing to do with the policy. -/
theorem examine_policy {check : Check} (h : check ∈ all) (config : Configuration) (policy : Policy)
    (path : AnalysisPath) (c : ClassFacts) :
    check.examine ⟨{ config with policy := policy }, path⟩ c = check.examine ⟨config, path⟩ c := by
  simp only [all, List.mem_cons, List.not_mem_nil, or_false] at h
  rcases h with rfl | rfl | rfl | rfl | rfl | rfl | rfl | rfl <;> rfl

end Check

namespace Analyser

/-- The analyser with another policy. -/
def withPolicy (an : Analyser) (policy : Policy) : Analyser :=
  { an with config := { an.config with policy := policy } }

@[simp] theorem hardcoded?_withPolicy (an : Analyser) (policy : Policy) (name : ClassName) :
    (an.withPolicy policy).config.hardcoded? name = an.config.hardcoded? name := rfl

variable {an : Analyser} {path : AnalysisPath} {c : ClassFacts}
  {resolve resolve' : ClassName → Analysis Dependency}

theorem factsOf_agrees (name : ClassName) :
    Analysis.Agrees (fun _ => []) (an.factsOf name) (an.factsOf name) :=
  .refl fun s => ⟨an.source.read name |>.toOption, s.noteRead name,
    ⟨rfl, by simp [Session.noteRead], List.prefix_rfl⟩, rfl⟩

theorem runCheck_agrees {check : Check} (hcheck : check ∈ Check.all)
    (hresolve : ∀ name, Analysis.Agrees (fun _ => []) (resolve name) (resolve' name))
    {o : Outcome} (ho : o.failures = []) :
    Analysis.Agrees Outcome.failures ((an.withPolicy .failFast).runCheck path c resolve o check)
      ((an.withPolicy .carryOn).runCheck path c resolve' o check) := by
  have hrun := Inquiry.run_agrees (check.examine ⟨an.config, path⟩ c).run an.factsOf_agrees hresolve
  simp only [runCheck, withPolicy, Check.examine_policy hcheck]
  refine hrun.bind_settled fun r => ?_
  cases r with
  | ok findings => exact .pure ho
  | error e =>
    have hpending : (o.fail ⟨c.name, check.name, e.message⟩).failures =
        [⟨c.name, check.name, e.message⟩] := by
      simp [Outcome.fail, ho]
    exact .abort hpending

/-- A check that does not fail leaves nothing to record. -/
theorem failures_runCheck {check : Check} (hsure : check.Sure) {o o' : Outcome} {s s' : Session}
    (h : (an.runCheck path c resolve o check).on s = (.ok o', s')) : o'.failures = o.failures := by
  unfold runCheck at h
  rw [Analysis.on_bind] at h
  split at h
  · next r s₁ hrun =>
    obtain ⟨fs, rfl⟩ := (hsure ⟨an.config, path⟩ c).of_gives (Inquiry.gives_of_run hrun)
    cases h
    rfl
  · cases h

/-- Checks that ask no questions do not touch the session. -/
theorem runChecks_immediate {checks : List Check} (h : ∀ check ∈ checks, check.Immediate)
    (o : Outcome) (s : Session) :
    ∃ o', (checks.foldlM ((an.withPolicy .carryOn).runCheck path c resolve) o).on s = (.ok o', s) ∧
      o.failures <+: o'.failures := by
  induction checks generalizing o with
  | nil => exact ⟨o, rfl, List.prefix_rfl⟩
  | cons check checks ih =>
    have hrest := fun o => ih (fun check hc => h check (List.mem_cons_of_mem _ hc)) o
    obtain ⟨r, hr⟩ := h check List.mem_cons_self ⟨(an.withPolicy .carryOn).config, path⟩ c
    have hfirst : ∃ o₁, ((an.withPolicy .carryOn).runCheck path c resolve o check).on s =
        (.ok o₁, s) ∧ o.failures <+: o₁.failures := by
      unfold runCheck
      rw [hr]
      cases r with
      | ok fs => exact ⟨o.add fs, rfl, List.prefix_rfl⟩
      | error e => exact ⟨o.fail ⟨c.name, check.name, e.message⟩, rfl, List.prefix_append ..⟩
    obtain ⟨o₁, ho₁, hprefix₁⟩ := hfirst
    obtain ⟨o', ho', hprefix⟩ := hrest o₁
    refine ⟨o', ?_, hprefix₁.trans hprefix⟩
    rw [List.foldlM_cons, Analysis.on_bind_ok ho₁, ho']

theorem runChecks_agrees {checks : List Check} (hall : ∀ check ∈ checks, check ∈ Check.all)
    (horder : checks.Pairwise fun check later => check.Sure ∨ later.Immediate)
    (hresolve : ∀ name, Analysis.Agrees (fun _ => []) (resolve name) (resolve' name))
    {o : Outcome} (ho : o.failures = []) :
    Analysis.Agrees Outcome.failures
      (checks.foldlM ((an.withPolicy .failFast).runCheck path c resolve) o)
      (checks.foldlM ((an.withPolicy .carryOn).runCheck path c resolve') o) := by
  induction checks generalizing o with
  | nil => exact .pure ho
  | cons check checks ih =>
    obtain ⟨hfirst, hrest⟩ := List.pairwise_cons.1 horder
    rw [List.foldlM_cons, List.foldlM_cons]
    refine (runCheck_agrees (hall check List.mem_cons_self) hresolve ho).bind
      (fun o' ho' => ih (fun check hc => hall check (List.mem_cons_of_mem _ hc)) hrest ho') ?_
    -- a check has failed, so that those after it ask no questions
    intro o' s s₁ hon ho'
    have himmediate : ∀ later ∈ checks, later.Immediate := by
      intro later hlater
      refine (hfirst later hlater).resolve_left fun hsure => ho' ?_
      rw [failures_runCheck hsure hon, ho]
    obtain ⟨o'', ho'', more, hmore⟩ := runChecks_immediate himmediate o' s₁
    refine ⟨o'', s₁, [], ⟨ho'', by simp, List.prefix_rfl⟩, ?_⟩
    rw [List.nil_append, ← hmore]
    exact List.head?_append_of_ne_nil _ ho'

/-! ### Classes and requests -/

theorem judge_agrees (path : AnalysisPath) (name : ClassName) (c : ClassFacts)
    (hresolve : ∀ name, Analysis.Agrees (fun _ => []) (resolve name) (resolve' name)) :
    Analysis.Agrees (fun _ => []) ((an.withPolicy .failFast).judge path name c resolve)
      ((an.withPolicy .carryOn).judge path name c resolve') := by
  -- the verdict is drawn and stored in the same way, once the pending failures are recorded
  have hconclude : ∀ (o : Outcome) (s : Session),
      Analysis.Carries (do
        modify (·.record o.failures)
        modify (·.store name (.conclude name o.findings o.failures))
        return Assessment.conclude name o.findings o.failures) s
        (.conclude name o.findings o.failures)
        ((s.record o.failures).store name (.conclude name o.findings o.failures)) o.failures :=
    fun o s => ⟨rfl, rfl, List.prefix_append ..⟩
  refine (runChecks_agrees (fun _ h => h) Check.sure_or_immediate hresolve rfl).bind
    (fun o ho => .refl fun s => ?_) fun o s s₁ _ _ => ?_
  · have h := hconclude o s
    exact ⟨_, _, ⟨h.on_eq, by rw [h.failures, ho], h.ledger⟩, rfl⟩
  · exact ⟨_, _, _, hconclude o s₁, by simp⟩

theorem judgeUnreadable_agrees (name : ClassName) (e : ReadError) :
    Analysis.Agrees (fun _ => []) ((an.withPolicy .failFast).judgeUnreadable name e)
      ((an.withPolicy .carryOn).judgeUnreadable name e) := by
  intro s
  refine ⟨.couldNotAnalyse name e.message, _, [⟨name, classReader, e.message⟩],
    ⟨rfl, rfl, List.prefix_append ..⟩, s.analysed, s, rfl, ?_⟩
  exact (List.prefix_append ..).map _

theorem resolveWith_agrees {name : ClassName} {assess assess' : name ∉ path → Analysis Assessment}
    (hassess : ∀ fresh, Analysis.Agrees (fun _ => []) (assess fresh) (assess' fresh)) :
    Analysis.Agrees (fun _ => []) ((an.withPolicy .failFast).resolveWith path name assess)
      ((an.withPolicy .carryOn).resolveWith path name assess') := by
  simp only [resolveWith, hardcoded?_withPolicy]
  cases an.config.hardcoded? name with
  | some a => exact .pure rfl
  | none =>
    refine .bind_settled .get fun t => ?_
    cases t.cached? name with
    | some a => exact .pure rfl
    | none =>
      by_cases h : name ∈ path
      · simp only [h, dif_pos]
        exact .pure rfl
      · simp only [h, dif_neg, not_false_eq_true]
        exact (hassess h).bind_settled fun a => .pure rfl

/-- The analysis of a class. The recursion is that of `assess`. -/
theorem assess_agrees (path : AnalysisPath) (name : ClassName) (fresh : name ∉ path) :
    Analysis.Agrees (fun _ => []) ((an.withPolicy .failFast).assess path name fresh)
      ((an.withPolicy .carryOn).assess path name fresh) := by
  cases hread : an.source.read name with
  | error e =>
    have hread' : ∀ policy, (an.withPolicy policy).source.read name = .error e := fun _ => hread
    rw [assess_unreadable (hread' .failFast), assess_unreadable (hread' .carryOn)]
    exact (Analysis.Agrees.noteRead name).bind_settled fun _ => judgeUnreadable_agrees name e
  | ok c =>
    have hread' : ∀ policy, (an.withPolicy policy).source.read name = .ok c := fun _ => hread
    rw [assess_readable (hread' .failFast), assess_readable (hread' .carryOn)]
    refine (Analysis.Agrees.noteRead name).bind_settled fun _ => ?_
    refine judge_agrees _ name c fun other => resolveWith_agrees fun freshOther => ?_
    have hlt := ClassSource.unread_append_lt hread fresh
    exact assess_agrees (path ++ [name]) other freshOther
termination_by an.source.unread path

theorem analyse_agrees (name : ClassName) :
    Analysis.Agrees (fun _ => []) ((an.withPolicy .failFast).analyse name)
      ((an.withPolicy .carryOn).analyse name) := by
  simp only [analyse, hardcoded?_withPolicy]
  cases an.config.hardcoded? name with
  | some a => exact .pure rfl
  | none =>
    refine .bind_settled .get fun t => ?_
    cases t.cached? name with
    | some a => exact .pure rfl
    | none => exact assess_agrees [] name (by simp)

theorem analyseAll_agrees (an : Analyser) (names : List ClassName) :
    Analysis.Agrees (fun _ => []) ((an.withPolicy .failFast).analyseAll names)
      ((an.withPolicy .carryOn).analyseAll names) := by
  unfold analyseAll
  induction names with
  | nil => exact .pure rfl
  | cons name names ih =>
    rw [List.mapM_cons, List.mapM_cons]
    refine (analyse_agrees name).bind_settled fun a => ?_
    exact ih.bind_settled fun as => .pure rfl

/-- A session that carries on answers all requests. One that fails fast gives the same answers and
ends in the same state if nothing has failed, and else reports the first failure, with the classes
that were analysed up to there. -/
theorem policies_agree (an : Analyser) (names : List ClassName) :
    ∃ results s, ((an.withPolicy .carryOn).analyseAll names).on .empty = (.ok results, s) ∧
      ((∃ results', (((an.withPolicy .failFast).analyseAll names).on .empty).1 = .ok results') ↔
        s.failures = []) ∧
      (s.failures = [] →
        ((an.withPolicy .failFast).analyseAll names).on .empty = (.ok results, s)) ∧
      ∀ f rest, s.failures = f :: rest → ∃ e,
        (((an.withPolicy .failFast).analyseAll names).on .empty).1 = .error e ∧
        e.className = f.className ∧ e.checker = f.checker ∧ e.description = f.description ∧
        e.analysed <+: s.analysed := by
  obtain ⟨results, s, new, hlax, hstrict⟩ := an.analyseAll_agrees names .empty
  have hnew : s.failures = new := hlax.failures
  refine ⟨results, s, hlax.on_eq, ?_⟩
  cases new with
  | nil =>
    have hon : ((an.withPolicy .failFast).analyseAll names).on .empty = (.ok results, s) := hstrict
    simp [hnew, hon]
  | cons f rest =>
    obtain ⟨analysed, s', hon, hanalysed⟩ := hstrict
    simp only [hnew, hon]
    refine ⟨by simp, by simp, fun f' rest' h => ?_⟩
    cases h
    exact ⟨_, rfl, rfl, rfl, rfl, hanalysed⟩

end Analyser

end Immutability

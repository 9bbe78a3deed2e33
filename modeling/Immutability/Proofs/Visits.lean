import Immutability.Proofs.Ledger
import Mathlib.Logic.Relation

/-!
# Visits

The analysis of a class asks about other classes, and a question may begin the analysis of one more
class while the first one waits. A visit is one such analysis.

* `Session.Extends` says what a session may gain while some classes wait, and
  `Analyser.keeps_assess` that nothing else happens to it;
* `Visit` is an analysis with the session in which it begins, and `Analyser.visit` how it ends;
* `Analyser.Spawns` says that one visit begins another, and `Analyser.Nested` that a visit belongs
  to a request;
* `Analyser.InOrder` is what the path of the waiting classes looks like at every visit;
* `Analyser.gains_visit` says that every new verdict comes from a visit;
* `Analyser.visit_of_spawns` says that an abort ends the visits around it, and
  `Analyser.exists_raises` leads to the visit in which it was raised.
-/

namespace Immutability

/-- The class can be read. -/
def ClassSource.Readable (s : ClassSource) (name : ClassName) : Prop := ∃ c, s.read name = .ok c

/-- While the classes of `path` were waiting, the session has gained verdicts on other classes and
failures, and has kept what it had. -/
structure Session.Extends (path : AnalysisPath) (s s' : Session) : Prop where
  ledger : Ledger.Later path s.ledger s'.ledger
  failures : s.failures <+: s'.failures

namespace Session.Extends

variable {path path' : AnalysisPath} {s s' s'' : Session}

theorem refl (path : AnalysisPath) (s : Session) : Extends path s s := ⟨.refl _ _, List.prefix_rfl⟩

theorem trans (h : Extends path s s') (h' : Extends path s' s'') : Extends path s s'' :=
  ⟨h.ledger.trans h'.ledger, h.failures.trans h'.failures⟩

theorem mono (h : Extends path s s') (hp : ∀ c ∈ path', c ∈ path) : Extends path' s s' :=
  ⟨h.ledger.mono hp, h.failures⟩

theorem noteRead (path : AnalysisPath) (s : Session) (name : ClassName) :
    Extends path s (s.noteRead name) :=
  ⟨.refl _ _, List.prefix_rfl⟩

theorem record (path : AnalysisPath) (s : Session) (failures : List CheckFailure) :
    Extends path s (s.record failures) :=
  ⟨.refl _ _, List.prefix_append ..⟩

theorem store {name : ClassName} (fresh : name ∉ path) (s : Session) (a : Assessment) :
    Extends path s (s.store name a) := by
  refine ⟨⟨[(name, a)], rfl, fun c hc => ?_⟩, List.prefix_rfl⟩
  rw [Ledger.names_singleton, List.mem_singleton]
  rintro rfl
  exact fresh hc

/-- A class that waits gets no verdict. -/
theorem cached?_eq_none (h : Extends path s s') {c : ClassName} (hc : c ∈ path)
    (hs : s.cached? c = none) : s'.cached? c = none :=
  (h.ledger.lookup_eq (.inr hc)).trans hs

end Session.Extends

namespace Analysis

variable {α β ι : Type} {path : AnalysisPath}

/-- However it ends, the work extends the session in which it is done. -/
def Keeps (path : AnalysisPath) (x : Analysis α) : Prop :=
  ∀ s : Session, s.Extends path (on x s).2

namespace Keeps

theorem pure (a : α) : Keeps path (Pure.pure a : Analysis α) := fun s => .refl path s

theorem get : Keeps path (MonadState.get : Analysis Session) := fun s => .refl path s

theorem abort (name : ClassName) (checker description : String) :
    Keeps path (Analyser.abort name checker description : Analysis α) := fun s => .refl path s

theorem mono {path' : AnalysisPath} {x : Analysis α} (h : Keeps path x)
    (hp : ∀ c ∈ path', c ∈ path) : Keeps path' x :=
  fun s => (h s).mono hp

theorem bind {x : Analysis α} {f : α → Analysis β} (h : Keeps path x)
    (hf : ∀ a, Keeps path (f a)) : Keeps path (x >>= f) := by
  intro s
  have hs := h s
  rw [on_bind]
  split
  · next a s' hx =>
    rw [hx] at hs
    exact hs.trans (hf a s')
  · next e s' hx =>
    rw [hx] at hs
    exact hs

theorem foldlM {f : β → ι → Analysis β} (h : ∀ b i, Keeps path (f b i)) (items : List ι) (b : β) :
    Keeps path (items.foldlM f b) := by
  induction items generalizing b with
  | nil => exact .pure b
  | cons i items ih =>
    rw [List.foldlM_cons]
    exact (h b i).bind ih

end Keeps

/-- However the work ends, the classes on which it gives verdicts have the property. -/
def Gains (P : ClassName → Prop) (x : Analysis α) (s : Session) : Prop :=
  ∀ c ∈ (on x s).2.analysed, c ∈ s.analysed ∨ P c

namespace Gains

variable {P : ClassName → Prop} {s : Session}

theorem of_eq {x : Analysis α} (h : (on x s).2.analysed = s.analysed) : Gains P x s :=
  fun _ hc => .inl (h ▸ hc)

theorem bind {x : Analysis α} {f : α → Analysis β} (h : Gains P x s)
    (hf : ∀ a s', on x s = (.ok a, s') → Gains P (f a) s') : Gains P (x >>= f) s := by
  intro c hc
  rw [on_bind] at hc
  split at hc
  · next a s' hx =>
    rcases hf a s' hx c hc with hc | hc
    · exact h c (by rwa [hx])
    · exact .inr hc
  · next e s' hx => exact h c (by rwa [hx])

/-- What a sequence of steps gains is gained in its steps. -/
theorem foldlM {f : β → ι → Analysis β} {items : List ι} {b : β}
    (h : ∀ before i after b' t, items = before ++ i :: after →
      on (before.foldlM f b) s = (.ok b', t) → Gains P (f b' i) t) :
    Gains P (items.foldlM f b) s := by
  induction items generalizing b s with
  | nil => exact .of_eq rfl
  | cons i items ih =>
    rw [List.foldlM_cons]
    refine (h [] i items b s rfl rfl).bind fun b₁ s₁ hi => ih ?_
    intro before j after b' t hitems hon
    refine h (i :: before) j after b' t (by rw [hitems]; rfl) ?_
    rw [List.foldlM_cons, on_bind_ok hi, hon]

end Gains

/-- A sequence of steps is aborted in one of them, after those before it have been completed. -/
theorem exists_of_foldlM_error {f : β → ι → Analysis β} {items : List ι} {b : β} {s s' : Session}
    {e : Abort} (h : on (items.foldlM f b) s = (.error e, s')) :
    ∃ before i after b' t, items = before ++ i :: after ∧
      on (before.foldlM f b) s = (.ok b', t) ∧ on (f b' i) t = (.error e, s') := by
  induction items generalizing b s with
  | nil => cases h
  | cons i items ih =>
    rw [List.foldlM_cons, on_bind] at h
    split at h
    · next b₁ s₁ hi =>
      obtain ⟨before, j, after, b', t, rfl, hbefore, hj⟩ := ih h
      refine ⟨i :: before, j, after, b', t, rfl, ?_, hj⟩
      rw [List.foldlM_cons, on_bind_ok hi, hbefore]
    · next e' s₁ hi =>
      cases h
      exact ⟨[], i, items, b, s, rfl, rfl, hi⟩

end Analysis

/-! ### The course of an inquiry -/

namespace Inquiry

variable {α : Type} {reads : ClassName → Analysis (Option ClassFacts)}
  {resolves : ClassName → Analysis Dependency} {path : AnalysisPath}

/-- In the course of the inquiry, which begins in the session `s`, a question about the mutability
of `name` is put in the session `t`. -/
inductive Asks (reads : ClassName → Analysis (Option ClassFacts))
    (resolves : ClassName → Analysis Dependency) :
    Inquiry α → Session → ClassName → Session → Prop
  | now {name : ClassName} {next : Dependency → Inquiry α} {s : Session} :
    Asks reads resolves (.resolve name next) s name s
  | afterRead {other name : ClassName} {next : Option ClassFacts → Inquiry α}
    {facts : Option ClassFacts} {s s' t : Session} (reply : (reads other).on s = (.ok facts, s'))
    (rest : Asks reads resolves (next facts) s' name t) :
    Asks reads resolves (.readFacts other next) s name t
  | afterReply {other name : ClassName} {next : Dependency → Inquiry α} {d : Dependency}
    {s s' t : Session} (reply : (resolves other).on s = (.ok d, s'))
    (rest : Asks reads resolves (next d) s' name t) :
    Asks reads resolves (.resolve other next) s name t

theorem keeps_run (hreads : ∀ name, Analysis.Keeps path (reads name))
    (hresolves : ∀ name, Analysis.Keeps path (resolves name)) (q : Inquiry α) :
    Analysis.Keeps path (q.run reads resolves) := by
  induction q with
  | answer a => exact .pure a
  | readFacts name next ih => exact (hreads name).bind ih
  | resolve name next ih => exact (hresolves name).bind ih

namespace Asks

variable {q : Inquiry α} {s t : Session} {name : ClassName}

theorem extends_session (h : q.Asks reads resolves s name t)
    (hreads : ∀ name, Analysis.Keeps path (reads name))
    (hresolves : ∀ name, Analysis.Keeps path (resolves name)) : s.Extends path t := by
  induction h with
  | now => exact .refl _ _
  | @afterRead other name next facts s s' t reply rest ih =>
    have hs := hreads other s
    rw [reply] at hs
    exact hs.trans ih
  | @afterReply other name next d s s' t reply rest ih =>
    have hs := hresolves other s
    rw [reply] at hs
    exact hs.trans ih

/-- Without a reply to a question there is no answer. -/
theorem run_error (h : q.Asks reads resolves s name t) {e : Abort} {s' : Session}
    (he : (resolves name).on t = (.error e, s')) :
    Analysis.on (q.run reads resolves) s = (.error e, s') := by
  induction h with
  | now => exact Analysis.on_bind_error he
  | afterRead reply rest ih => exact (Analysis.on_bind_ok reply).trans (ih he)
  | afterReply reply rest ih => exact (Analysis.on_bind_ok reply).trans (ih he)

end Asks

/-- What an inquiry gains is gained with the replies to its questions. -/
theorem gains_run {P : ClassName → Prop} {q : Inquiry α} {s : Session}
    (hreads : ∀ name s, ((reads name).on s).2.analysed = s.analysed)
    (h : ∀ name t, q.Asks reads resolves s name t → Analysis.Gains P (resolves name) t) :
    Analysis.Gains P (q.run reads resolves) s := by
  induction q generalizing s with
  | answer a => exact .of_eq rfl
  | readFacts name next ih =>
    refine Analysis.Gains.bind (.of_eq (hreads name s)) fun facts s₁ hread => ?_
    exact ih facts fun other t hasks => h other t (.afterRead hread hasks)
  | resolve name next ih =>
    refine (h name s .now).bind fun d s₁ hreply => ?_
    exact ih d fun other t hasks => h other t (.afterReply hreply hasks)

/-- An inquiry is aborted at a question to which there is no reply. -/
theorem exists_asks_of_run_error
    (hreads : ∀ name s, ∃ facts s', (reads name).on s = (.ok facts, s')) {q : Inquiry α}
    {s s' : Session} {e : Abort} (h : Analysis.on (q.run reads resolves) s = (.error e, s')) :
    ∃ name t, q.Asks reads resolves s name t ∧ (resolves name).on t = (.error e, s') := by
  induction q generalizing s with
  | answer a => cases h
  | readFacts name next ih =>
    obtain ⟨facts, s₁, hread⟩ := hreads name s
    obtain ⟨other, t, hasks, herror⟩ := ih facts ((Analysis.on_bind_ok hread).symm.trans h)
    exact ⟨other, t, .afterRead hread hasks, herror⟩
  | resolve name next ih =>
    rw [run, Analysis.on_bind] at h
    split at h
    · next d s₁ hreply =>
      obtain ⟨other, t, hasks, herror⟩ := ih d h
      exact ⟨other, t, .afterReply hreply hasks, herror⟩
    · next e' s₁ hreply =>
      cases h
      exact ⟨name, s, .now, hreply⟩

end Inquiry

namespace Analyser

variable {an : Analyser} {path : AnalysisPath} {name : ClassName} {c : ClassFacts}
  {resolve : ClassName → Analysis Dependency} {s s' : Session} {e : Abort}

/-! ### What a session gains -/

theorem keeps_factsOf (name : ClassName) : Analysis.Keeps path (an.factsOf name) :=
  fun s => .noteRead path s name

theorem keeps_runCheck (hresolve : ∀ name, Analysis.Keeps path (resolve name)) (o : Outcome)
    (check : Check) : Analysis.Keeps path (an.runCheck path c resolve o check) := by
  refine (Inquiry.keeps_run keeps_factsOf hresolve _).bind fun r => ?_
  cases r with
  | ok findings => exact .pure _
  | error e =>
    cases hp : an.config.policy with
    | failFast => exact .abort _ _ _
    | carryOn => exact .pure _

theorem keeps_runChecks (hresolve : ∀ name, Analysis.Keeps path (resolve name))
    (checks : List Check) : Analysis.Keeps path (an.runChecks path c resolve checks) :=
  .foldlM (keeps_runCheck hresolve) checks .empty

/-- The checks are all that can end the judgement of a class early. -/
theorem judge_error (h : (an.judge path name c resolve).on s = (.error e, s')) :
    (an.runChecks path c resolve Check.all).on s = (.error e, s') := by
  rw [judge, Analysis.on_bind] at h
  split at h
  · cases h
  · next hchecks =>
    cases h
    exact hchecks

theorem keeps_judge (fresh : name ∉ path)
    (hresolve : ∀ other, Analysis.Keeps (path ++ [name]) (resolve other)) :
    Analysis.Keeps path (an.judge (path ++ [name]) name c resolve) := by
  have hchecks : Analysis.Keeps path (an.runChecks (path ++ [name]) c resolve Check.all) :=
    (keeps_runChecks hresolve _).mono fun c hc => List.mem_append_left _ hc
  refine hchecks.bind fun o => ?_
  intro s
  exact (Session.Extends.record path s o.failures).trans (.store fresh _ _)

theorem keeps_judgeUnreadable (fresh : name ∉ path) (e : ReadError) :
    Analysis.Keeps path (an.judgeUnreadable name e) := by
  unfold judgeUnreadable
  cases an.config.policy with
  | failFast => exact .abort _ _ _
  | carryOn => exact fun s => (Session.Extends.record path s _).trans (.store fresh _ _)

theorem keeps_resolveWith {assess : name ∉ path → Analysis Assessment}
    (hassess : ∀ fresh, Analysis.Keeps path (assess fresh)) :
    Analysis.Keeps path (an.resolveWith path name assess) := by
  unfold resolveWith
  cases an.config.hardcoded? name with
  | some a => exact .pure _
  | none =>
    refine Analysis.Keeps.get.bind fun t => ?_
    cases t.cached? name with
    | some a => exact .pure _
    | none =>
      by_cases h : name ∈ path
      · simp only [h, dif_pos]
        exact .pure _
      · simp only [h, dif_neg, not_false_eq_true]
        exact (hassess h).bind fun a => .pure _

/-- An analysis gives no verdict on a class that waits for it. -/
theorem keeps_assess (path : AnalysisPath) (name : ClassName) (fresh : name ∉ path) :
    Analysis.Keeps path (an.assess path name fresh) := by
  have hnote : Analysis.Keeps path (modify (·.noteRead name) : Analysis PUnit) :=
    fun s => .noteRead path s name
  cases hread : an.source.read name with
  | error e =>
    rw [assess_unreadable hread]
    exact hnote.bind fun _ => keeps_judgeUnreadable fresh e
  | ok c =>
    rw [assess_readable hread]
    refine hnote.bind fun _ => keeps_judge fresh fun other => ?_
    have hlt := ClassSource.unread_append_lt hread fresh
    exact keeps_resolveWith fun freshOther => keeps_assess (path ++ [name]) other freshOther
termination_by an.source.unread path

theorem keeps_resolve (an : Analyser) (path : AnalysisPath) (name : ClassName) :
    Analysis.Keeps path (an.resolve path name) :=
  keeps_resolveWith (keeps_assess path name)

/-- A class whose analysis is aborted gets no verdict either. -/
theorem extends_of_assess_error {fresh : name ∉ path}
    (h : (an.assess path name fresh).on s = (.error e, s')) : s.Extends (path ++ [name]) s' := by
  have hnoted := Session.Extends.noteRead (path ++ [name]) s name
  cases hread : an.source.read name with
  | error err =>
    rw [assess_unreadable hread, Analysis.on_bind_ok (Analysis.on_modify _ s)] at h
    unfold judgeUnreadable at h
    cases hp : an.config.policy with
    | failFast =>
      rw [hp] at h
      cases h
      exact hnoted
    | carryOn =>
      rw [hp] at h
      cases h
  | ok c =>
    rw [assess_readable hread, Analysis.on_bind_ok (Analysis.on_modify _ s)] at h
    have hchecks := an.keeps_runChecks (c := c) (an.keeps_resolve (path ++ [name])) Check.all
      (s.noteRead name)
    rw [judge_error h] at hchecks
    exact hnoted.trans hchecks

/-! ### Visits -/

/-- The analysis of a class on behalf of the last class of a path, begun in a session. -/
structure Visit where
  path : AnalysisPath
  name : ClassName
  fresh : name ∉ path
  session : Session

/-- The classes that have no verdict while the visit lasts, the visited one last. -/
def Visit.chain (v : Visit) : AnalysisPath := v.path ++ [v.name]

/-- How a visit ends, and the session that it leaves behind. -/
def visit (an : Analyser) (v : Visit) : Except Abort Assessment × Session :=
  (an.assess v.path v.name v.fresh).on v.session

/-- In the course of the checks of a class, which begin in the session `s`, a question about the
mutability of `other` is put in the session `t`. -/
def AsksAbout (an : Analyser) (path : AnalysisPath) (c : ClassFacts) (s : Session)
    (other : ClassName) (t : Session) : Prop :=
  ∃ before check after o s', Check.all = before ++ check :: after ∧
    (an.runChecks path c (an.resolve path) before).on s = (.ok o, s') ∧
    (an.examination path c check).Asks an.factsOf (an.resolve path) s' other t

/-- The visit `v` begins the visit `w`: it asks about a class that has no verdict and does not
wait. -/
structure Spawns (an : Analyser) (v w : Visit) : Prop where
  asks : ∃ c, an.source.read v.name = .ok c ∧
    an.AsksAbout v.chain c (v.session.noteRead v.name) w.name w.session
  path : w.path = v.chain
  given : an.config.hardcoded? w.name = none
  new : w.session.cached? w.name = none

/-- The visit of a class that is asked for by itself. -/
def Visit.first (s : Session) (name : ClassName) : Visit := ⟨[], name, List.not_mem_nil, s⟩

/-- The visit is made in the course of a request for the verdict on `name` in the session `s`. -/
structure Nested (an : Analyser) (s : Session) (name : ClassName) (v : Visit) : Prop where
  given : an.config.hardcoded? name = none
  new : s.cached? name = none
  spawned : Relation.ReflTransGen an.Spawns (.first s name) v

/-- The classes that wait are distinct and can be read, and there is no verdict on them or on the
visited class. -/
structure InOrder (an : Analyser) (v : Visit) : Prop where
  distinct : v.path.Nodup
  readable : ∀ c ∈ v.path, an.source.Readable c
  given : ∀ c ∈ v.chain, an.config.hardcoded? c = none
  new : ∀ c ∈ v.chain, v.session.cached? c = none

variable {v w : Visit}

theorem Visit.nodup_chain (v : Visit) (h : v.path.Nodup) : v.chain.Nodup :=
  List.nodup_append.2 ⟨h, by simp, by
    rintro c hc d hd rfl
    exact v.fresh (List.mem_singleton.1 hd ▸ hc)⟩

theorem AsksAbout.extends_session {other : ClassName} {t : Session}
    (h : an.AsksAbout path c s other t) : s.Extends path t := by
  obtain ⟨before, check, after, o, s₁, -, hbefore, hasks⟩ := h
  have hchecks := an.keeps_runChecks (c := c) (an.keeps_resolve path) before s
  rw [hbefore] at hchecks
  exact hchecks.trans (hasks.extends_session keeps_factsOf (an.keeps_resolve path))

/-- While a class waits, all that happens is that other classes get verdicts. -/
theorem Spawns.extends_session (h : an.Spawns v w) : v.session.Extends v.chain w.session := by
  obtain ⟨c, -, hasks⟩ := h.asks
  exact (Session.Extends.noteRead _ _ _).trans hasks.extends_session

/-- Beginning a visit keeps the path in order. -/
theorem InOrder.spawns (h : an.InOrder v) (hw : an.Spawns v w) : an.InOrder w := by
  have hnew : ∀ c ∈ v.chain, w.session.cached? c = none := fun c hc =>
    hw.extends_session.cached?_eq_none hc (h.new c hc)
  obtain ⟨facts, hread, -⟩ := hw.asks
  refine ⟨?_, fun c hc => ?_, fun c hc => ?_, fun c hc => ?_⟩
  · rw [hw.path]
    exact v.nodup_chain h.distinct
  · rw [hw.path] at hc
    rcases List.mem_append.1 hc with hc | hc
    · exact h.readable c hc
    · exact ⟨facts, List.mem_singleton.1 hc ▸ hread⟩
  · rcases List.mem_append.1 hc with hc | hc
    · exact h.given c (hw.path ▸ hc)
    · exact List.mem_singleton.1 hc ▸ hw.given
  · rcases List.mem_append.1 hc with hc | hc
    · exact hnew c (hw.path ▸ hc)
    · exact List.mem_singleton.1 hc ▸ hw.new

theorem Nested.inOrder (h : an.Nested s name v) : an.InOrder v := by
  obtain ⟨given, new, hspawned⟩ := h
  induction hspawned with
  | refl =>
    refine ⟨List.nodup_nil, by simp [Visit.first], ?_, ?_⟩
    · simpa [Visit.first, Visit.chain] using given
    · simpa [Visit.first, Visit.chain] using new
  | tail _ hspawns ih => exact ih.spawns hspawns

/-- The chain of a visit begins with the class that was asked for. -/
theorem Nested.head_chain (h : an.Nested s name v) : v.chain.head? = some name := by
  obtain ⟨-, -, hspawned⟩ := h
  induction hspawned with
  | refl => rfl
  | tail _ hspawns ih =>
    rw [Visit.chain, hspawns.path, List.head?_append, ih]
    rfl

/-! ### Verdicts come from visits -/

theorem gains_runChecks {P : ClassName → Prop} {checks : List Check}
    (h : ∀ before check after o t name u, checks = before ++ check :: after →
      (an.runChecks path c resolve before).on s = (.ok o, t) →
      (an.examination path c check).Asks an.factsOf resolve t name u →
      Analysis.Gains P (resolve name) u) :
    Analysis.Gains P (an.runChecks path c resolve checks) s := by
  refine Analysis.Gains.foldlM fun before check after o t hchecks hbefore => ?_
  have hrun : Analysis.Gains P ((an.examination path c check).run an.factsOf resolve) t :=
    Inquiry.gains_run (fun _ _ => rfl) fun name u hasks =>
      h before check after o t name u hchecks hbefore hasks
  refine hrun.bind fun r t' _ => .of_eq ?_
  cases r with
  | ok findings => rfl
  | error e => cases hp : an.config.policy <;> rfl

theorem gains_resolve {P : ClassName → Prop}
    (h : ∀ fresh, an.config.hardcoded? name = none → s.cached? name = none →
      Analysis.Gains P (an.assess path name fresh) s) :
    Analysis.Gains P (an.resolve path name) s := by
  unfold resolve resolveWith
  cases hg : an.config.hardcoded? name with
  | some a => exact .of_eq rfl
  | none =>
    refine Analysis.Gains.bind (.of_eq rfl) fun t s' hget => ?_
    cases hget
    cases hl : s.cached? name with
    | some a => exact .of_eq rfl
    | none =>
      by_cases hp : name ∈ path
      · simp only [hp, dif_pos]
        exact .of_eq rfl
      · simp only [hp, dif_neg, not_false_eq_true]
        exact (h hp hg hl).bind fun a s' _ => .of_eq rfl

theorem mem_analysed_store {c : ClassName} {a : Assessment} :
    c ∈ (s.store name a).analysed ↔ c ∈ s.analysed ∨ c = name := by
  simp [Session.analysed, Session.store]

/-- A class gets its verdict at the end of a visit. -/
theorem gains_visit (v : Visit) :
    Analysis.Gains (fun c => ∃ w, Relation.ReflTransGen an.Spawns v w ∧ w.name = c)
      (an.assess v.path v.name v.fresh) v.session := by
  have hself : ∀ (s : Session) (a : Assessment), ∀ c ∈ (s.store v.name a).analysed,
      c ∈ s.analysed ∨ ∃ w, Relation.ReflTransGen an.Spawns v w ∧ w.name = c := fun s a c hc =>
    (mem_analysed_store.1 hc).imp_right fun hc => ⟨v, .refl, hc.symm⟩
  cases hread : an.source.read v.name with
  | error e =>
    rw [assess_unreadable hread]
    refine Analysis.Gains.bind (.of_eq rfl) fun _ s' hnote => ?_
    unfold judgeUnreadable
    cases an.config.policy with
    | failFast => exact .of_eq rfl
    | carryOn => exact hself _ _
  | ok c =>
    rw [assess_readable hread]
    refine Analysis.Gains.bind (.of_eq rfl) fun _ s' hnote => ?_
    cases hnote
    refine Analysis.Gains.bind (gains_runChecks ?_) fun o t _ => hself (t.record o.failures) _
    intro before check after o t other u hall hbefore hasks
    refine gains_resolve fun fresh given new => ?_
    have hspawns : an.Spawns v ⟨v.chain, other, fresh, u⟩ :=
      ⟨⟨c, hread, before, check, after, o, t, hall, hbefore, hasks⟩, rfl, given, new⟩
    have hlt := ClassSource.unread_append_lt hread v.fresh
    intro d hd
    rcases gains_visit ⟨v.chain, other, fresh, u⟩ d hd with hd | ⟨w, hw, hname⟩
    · exact .inl hd
    · exact .inr ⟨w, .head hspawns hw, hname⟩
termination_by an.source.unread v.path

theorem exists_nested_of_mem_analysed {c : ClassName}
    (hc : c ∈ ((an.analyse name).on s).2.analysed) :
    c ∈ s.analysed ∨ ∃ v, an.Nested s name v ∧ v.name = c := by
  unfold analyse at hc
  cases hg : an.config.hardcoded? name with
  | some a =>
    simp only [hg] at hc
    exact .inl hc
  | none =>
    simp only [hg] at hc
    rw [Analysis.on_bind_ok (Analysis.on_get s)] at hc
    cases hl : s.cached? name with
    | some a =>
      simp only [hl] at hc
      exact .inl hc
    | none =>
      simp only [hl] at hc
      rcases gains_visit (.first s name) c hc with hc | ⟨v, hv, hname⟩
      · exact .inl hc
      · exact .inr ⟨v, ⟨hg, hl, hv⟩, hname⟩

/-! ### Aborts -/

/-- The abort comes from the visited class itself: it cannot be read, or one of its checks fails,
whatever it is told about other classes. -/
inductive Raises (an : Analyser) (v : Visit) (analysed : List ClassName) : Abort → Prop
  | unreadable {err : ReadError} (read : an.source.read v.name = .error err) :
    Raises an v analysed ⟨v.name, classReader, err.message, analysed⟩
  | check {c : ClassFacts} {check : Check} {err : CheckError} (read : an.source.read v.name = .ok c)
    (mem : check ∈ Check.all) (fails : an.report [] c assumeImmutable check = .error err) :
    Raises an v analysed ⟨c.name, check.name, err.message, analysed⟩

theorem resolve_error (h : (an.resolve path name).on s = (.error e, s')) :
    an.config.hardcoded? name = none ∧ s.cached? name = none ∧
      ∃ fresh, (an.assess path name fresh).on s = (.error e, s') := by
  unfold resolve resolveWith at h
  cases hg : an.config.hardcoded? name with
  | some a =>
    simp only [hg] at h
    cases h
  | none =>
    simp only [hg] at h
    rw [Analysis.on_bind_ok (Analysis.on_get s)] at h
    cases hl : s.cached? name with
    | some a =>
      simp only [hl] at h
      cases h
    | none =>
      refine ⟨rfl, rfl, ?_⟩
      by_cases hp : name ∈ path
      · simp only [hl, hp, dif_pos] at h
        cases h
      · simp only [hl, hp, dif_neg, not_false_eq_true] at h
        refine ⟨hp, ?_⟩
        rw [Analysis.on_bind] at h
        split at h
        · cases h
        · next hassess =>
          cases h
          exact hassess

theorem resolve_of_assess_error (given : an.config.hardcoded? name = none)
    (new : s.cached? name = none) {fresh : name ∉ path}
    (h : (an.assess path name fresh).on s = (.error e, s')) :
    (an.resolve path name).on s = (.error e, s') := by
  unfold resolve resolveWith
  simp only [given]
  rw [Analysis.on_bind_ok (Analysis.on_get s)]
  simp only [new, fresh, dif_neg, not_false_eq_true]
  exact Analysis.on_bind_error h

/-- An abort ends the visit around the one that it has ended. -/
theorem visit_of_spawns (h : an.Spawns v w) (hw : an.visit w = (.error e, s')) :
    an.visit v = (.error e, s') := by
  obtain ⟨c, hread, before, check, after, o, s₁, hall, hbefore, hasks⟩ := h.asks
  obtain ⟨wpath, other, fresh, t⟩ := w
  obtain rfl : wpath = v.chain := h.path
  have hresolve := resolve_of_assess_error h.given h.new hw
  have hcheck : (an.runCheck v.chain c (an.resolve v.chain) o check).on s₁ = (.error e, s') :=
    Analysis.on_bind_error (hasks.run_error hresolve)
  have hchecks : (an.runChecks v.chain c (an.resolve v.chain) Check.all).on
      (v.session.noteRead v.name) = (.error e, s') := by
    unfold runChecks at hbefore ⊢
    rw [hall, List.foldlM_append, Analysis.on_bind_ok hbefore, List.foldlM_cons]
    exact Analysis.on_bind_error hcheck
  rw [visit, assess_readable hread, Analysis.on_bind_ok (Analysis.on_modify _ _)]
  exact Analysis.on_bind_error hchecks

theorem visit_of_reflTransGen (h : Relation.ReflTransGen an.Spawns v w)
    (hw : an.visit w = (.error e, s')) : an.visit v = (.error e, s') := by
  induction h using Relation.ReflTransGen.head_induction_on with
  | refl => exact hw
  | head hspawns _ ih => exact visit_of_spawns hspawns ih

theorem exists_rel_of_run {α β : Type} {q : Inquiry α} {q' : Inquiry β}
    {R : List Dependency → α → β → Prop} (h : Inquiry.Tracks q q' R) {b : β}
    (hrun : Analysis.on (q'.run an.factsOf resolve) s = (.ok b, s')) :
    ∃ ds, R ds (q.eval an.facts? assumeImmutable) b := by
  induction h generalizing s with
  | answer hR =>
    cases hrun
    exact ⟨[], hR⟩
  | readFacts _ ih => exact ih _ hrun
  | resolve _ ih =>
    rw [Inquiry.run, Analysis.on_bind] at hrun
    split at hrun
    · next d s₁ _ =>
      obtain ⟨ds, hds⟩ := ih d hrun
      exact ⟨d :: ds, hds⟩
    · cases hrun

/-- A check that fails does so whatever the replies. -/
theorem report_of_run_error {check : Check} (hcheck : check ∈ Check.all) {err : CheckError}
    (h : Analysis.on ((an.examination path c check).run an.factsOf resolve) s =
      (.ok (.error err), s')) : an.report [] c assumeImmutable check = .error err := by
  obtain ⟨ds, hcourse⟩ := exists_rel_of_run (Check.tracks_of_mem hcheck an.config [] path c) h
  change Examination.SameCourse Shows ds (an.report [] c assumeImmutable check) (.error err)
    at hcourse
  cases hown : an.report [] c assumeImmutable check with
  | ok fs =>
    rw [hown] at hcourse
    exact hcourse.elim
  | error err' =>
    rw [hown] at hcourse
    exact congrArg Except.error hcourse

/-- A visit is aborted by a failure of its own, or by the end of a visit that it has begun. -/
theorem raises_or_spawns (h : an.visit v = (.error e, s')) :
    an.Raises v s'.analysed e ∨ ∃ w, an.Spawns v w ∧ an.visit w = (.error e, s') := by
  rw [visit] at h
  cases hread : an.source.read v.name with
  | error err =>
    rw [assess_unreadable hread, Analysis.on_bind_ok (Analysis.on_modify _ _)] at h
    unfold judgeUnreadable at h
    cases hp : an.config.policy with
    | failFast =>
      rw [hp] at h
      cases h
      exact .inl (.unreadable hread)
    | carryOn =>
      rw [hp] at h
      cases h
  | ok c =>
    rw [assess_readable hread, Analysis.on_bind_ok (Analysis.on_modify _ _)] at h
    obtain ⟨before, check, after, o, s₁, hall, hbefore, hcheck⟩ :=
      Analysis.exists_of_foldlM_error (judge_error h)
    have hmem : check ∈ Check.all := by simp [hall]
    rw [runCheck, Analysis.on_bind] at hcheck
    split at hcheck
    · next r s₂ hrun =>
      -- the check has come to its end, so that it is the policy that makes an abort of its failure
      cases r with
      | ok fs => cases hcheck
      | error err =>
        simp only at hcheck
        cases hp : an.config.policy with
        | failFast =>
          rw [hp] at hcheck
          cases hcheck
          exact .inl (.check hread hmem (report_of_run_error hmem hrun))
        | carryOn =>
          rw [hp] at hcheck
          cases hcheck
    · next hrun =>
      cases hcheck
      obtain ⟨other, t, hasks, hresolve⟩ := Inquiry.exists_asks_of_run_error
        (fun name s => ⟨an.facts? name, s.noteRead name, rfl⟩) hrun
      obtain ⟨given, new, fresh, hassess⟩ := resolve_error hresolve
      exact .inr ⟨⟨v.chain, other, fresh, t⟩,
        ⟨⟨c, hread, before, check, after, o, s₁, hall, hbefore, hasks⟩, rfl, given, new⟩, hassess⟩

/-- Every abort is raised in some visit. The recursion goes down the visits, of which each has one
more readable class on its path. -/
theorem exists_raises (v : Visit) (h : an.visit v = (.error e, s')) :
    ∃ w, Relation.ReflTransGen an.Spawns v w ∧ an.visit w = (.error e, s') ∧
      an.Raises w s'.analysed e := by
  rcases raises_or_spawns h with hraises | ⟨w, hspawns, hw⟩
  · exact ⟨v, .refl, h, hraises⟩
  · have hlt : an.source.unread w.path < an.source.unread v.path := by
      obtain ⟨c, hread, -⟩ := hspawns.asks
      rw [hspawns.path]
      exact ClassSource.unread_append_lt hread v.fresh
    obtain ⟨u, hu, hend, hraises⟩ := exists_raises w hw
    exact ⟨u, .head hspawns hu, hend, hraises⟩
termination_by an.source.unread v.path

end Analyser

end Immutability

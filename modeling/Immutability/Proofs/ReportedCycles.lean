import Immutability.Proofs.PlainRecursion
import Immutability.Proofs.RequestOrder
import Immutability.Proofs.StoredValues

/-!
# Which reported cycles are closed

A doubt about a cycle is reported with a chain of classes. It is raised where a class is met that
waits, and handed on with the verdicts that rest on it.

* `AnalysisPath.Closes` says that a chain comes back to the class where it starts, and
  `AnalysisPath.closes_iff` that this takes a class that waits;
* `Finding.ArisesFrom` says where a doubt about a cycle comes from, and `Check.arisesFrom_of_mem`
  that there are no other doubts;
* `Analyser.Learns` says what a visit is told about a class, and `Analyser.Builds` that it builds a
  doubt from it;
* `Analyser.Accounted` is what is known of every visit: `Analyser.Accounted.spawns` is the step, and
  `Analyser.Nested.accounted` the run;
* `Analyser.meetsCycle_of_cutShort` says that there is a cycle behind a doubt that is handed on;
* `Analyser.reported_cycle_closed_iff` tells the doubts with a closed chain from the others.
-/

namespace Immutability

/-! ### Chains -/

namespace AnalysisPath

variable {path : AnalysisPath} {name : ClassName}

/-- The class is on the path, and the chain starts and ends with it. -/
def Closes (path : AnalysisPath) (name : ClassName) : Prop :=
  name ∈ path ∧ (path.cycle name).head? = some name ∧ (path.cycle name).getLast? = some name

theorem cycle_of_notMem (h : name ∉ path) : path.cycle name = path ++ [name] := by
  rw [cycle, since, if_neg h]

theorem exists_cycle_eq (h : name ∈ path) :
    ∃ before rest, path = before ++ name :: rest ∧
      path.cycle name = name :: rest ++ [name] := by
  obtain ⟨before, rest, rfl, hbefore⟩ := List.eq_append_cons_of_mem h
  refine ⟨before, rest, rfl, ?_⟩
  have hdrop : ∀ c ∈ before, decide (c ≠ name) = true := by
    intro c hc
    rw [decide_eq_true_iff]
    rintro rfl
    exact hbefore hc
  rw [cycle, since, if_pos h, List.dropWhile_append_of_pos hdrop]
  simp

theorem closes_iff : path.Closes name ↔ name ∈ path := by
  refine ⟨fun h => h.1, fun h => ⟨h, ?_⟩⟩
  obtain ⟨before, rest, -, hcycle⟩ := exists_cycle_eq h
  rw [hcycle]
  exact ⟨rfl, List.getLast?_concat⟩

theorem cycle_suffix (path : AnalysisPath) (name : ClassName) :
    path.cycle name <:+ path ++ [name] := by
  by_cases h : name ∈ path
  · obtain ⟨before, rest, hpath, hcycle⟩ := exists_cycle_eq h
    refine ⟨before, ?_⟩
    rw [hcycle, hpath]
    simp
  · exact cycle_of_notMem h ▸ List.suffix_rfl

end AnalysisPath

/-! ### Doubts about cycles -/

/-- A doubt about a cycle is raised by a class that waits, or handed on by a verdict. -/
theorem Dependency.not_uncyclic_iff {d : Dependency} :
    ¬d.Uncyclic ↔ d = .cyclic ∨ ∃ a, d = .resolved a ∧ a.CutShort := by
  constructor
  · intro h
    cases d with
    | cyclic => exact .inl rfl
    | resolved a =>
      refine .inr ⟨a, rfl, ?_, ?_⟩
      · by_contra hverdict
        refine h fun hard hne => ?_
        cases hv : a.verdict with
        | effectivelyImmutable => exact absurd hv hverdict
        | immutable | notImmutable | couldNotAnalyse => simp [reasonFor, hv, hne]
      · by_contra hreason
        exact h (uncyclic_resolved (Bool.eq_false_iff.2 hreason))
  · rintro (rfl | ⟨a, rfl, hcut⟩) h
    · exact h .inheritedMutability (by simp) rfl
    · exact h .inheritedMutability (by simp) (reasonFor_of_cutShort hcut _)

/-- The finding is a doubt about a cycle with the class `d`, and spells out the chain to it. -/
def Finding.DoubtsCycle (f : Finding) (path : AnalysisPath) (d : ClassName) : Prop :=
  f.reason = .cyclicReference ∧
    (f.message = Check.inheritedMessage path d .cyclicReference ∨
      ∃ field, f.message = Check.storedMessage path field d .cyclicReference)

/-- The finding is a doubt about a cycle with some class, by something that can be learnt of it. -/
def Finding.ArisesFrom (f : Finding) (possible : ClassName → Dependency → Prop)
    (path : AnalysisPath) : Prop :=
  ∃ d dep, possible d dep ∧ ¬dep.Uncyclic ∧ f.DoubtsCycle path d

namespace Check

variable {possible : ClassName → Dependency → Prop} {ctx : CheckContext} {c : ClassFacts}
  {fs : List Finding} {f : Finding}

theorem arisesFrom_of_inheritance (h : (inheritance.examine ctx c).GivesWith possible fs)
    (hf : f ∈ fs) (hreason : f.reason = .cyclicReference) : f.ArisesFrom possible ctx.path := by
  simp only [inheritance] at h
  cases hparent : relevantSuperclass? c with
  | none =>
    simp only [hparent] at h
    cases h
    cases hf
  | some parent =>
    simp only [hparent] at h
    obtain ⟨dep, hdep, h⟩ := Examination.gives_bind.1 h
    obtain ⟨reply, hreply, rfl⟩ := Examination.gives_lift.1 hdep
    cases hdoubt : reply.reasonFor .inheritedMutability with
    | none =>
      simp only [hdoubt] at h
      cases h
      cases hf
    | some reason =>
      simp only [hdoubt] at h
      cases h
      obtain rfl := List.mem_singleton.1 hf
      obtain rfl : reason = .cyclicReference := hreason
      exact ⟨parent, reply, hreply, fun hd => hd _ (by simp) hdoubt, rfl, .inl rfl⟩

theorem arisesFrom_of_dependencyFinding? {location : Location} {field : FieldRef}
    {type : ClassName} {dep : Dependency} (hdep : possible type dep)
    (h : dependencyFinding? ctx location field type dep = some f)
    (hreason : f.reason = .cyclicReference) : f.ArisesFrom possible ctx.path := by
  obtain ⟨reason, hdoubt, rfl⟩ := Option.map_eq_some_iff.1 h
  obtain rfl : reason = .cyclicReference := hreason
  exact ⟨type, dep, hdep, fun hd => hd _ (by simp) hdoubt, rfl, .inr ⟨field, rfl⟩⟩

theorem arisesFrom_of_storedValues
    (given : ∀ d a, ctx.config.hardcoded? d = some a → possible d (.resolved a))
    (h : (storedValues.examine ctx c).GivesWith possible fs) (hf : f ∈ fs)
    (hreason : f.reason = .cyclicReference) : f.ArisesFrom possible ctx.path := by
  obtain ⟨m, -, frames, i, field, -, -, -, h⟩ := exists_store_of_storedValues h hf
  obtain ⟨declared, type, origin, h⟩ := gives_examineStore h
  rcases gives_inspectReference h with ⟨idiom, rfl⟩ | ⟨cls, h⟩
  · cases hreason
  · rcases gives_inspectClass h with ⟨idiom, rfl⟩ | rfl | ⟨dep, hdep, h⟩
    · cases hreason
    · cases hreason
    · have hpossible : possible cls dep := by
        rcases hdep with ⟨a, ha, rfl⟩ | hdep
        · exact given cls a ha
        · exact hdep
      exact arisesFrom_of_dependencyFinding? hpossible h hreason

/-- Doubts about cycles come from what is learnt about other classes, and from nothing else. -/
theorem arisesFrom_of_mem {check : Check} (hcheck : check ∈ all)
    (given : ∀ d a, ctx.config.hardcoded? d = some a → possible d (.resolved a))
    (h : (check.examine ctx c).GivesWith possible fs) (hf : f ∈ fs)
    (hreason : f.reason = .cyclicReference) : f.ArisesFrom possible ctx.path := by
  simp only [all, List.mem_cons, List.not_mem_nil, or_false] at hcheck
  rcases hcheck with rfl | rfl | rfl | rfl | rfl | rfl | rfl | rfl
  · cases h
    exact absurd hreason (uncyclic_extensible c f hf)
  · cases h
    exact absurd hreason (uncyclic_abstract c f hf)
  · exact arisesFrom_of_inheritance h hf hreason
  · cases h
    exact absurd hreason (uncyclic_nonFinal c f hf)
  · cases h
    exact absurd hreason (uncyclic_array c f hf)
  · exact arisesFrom_of_storedValues given h hf hreason
  · cases h
    exact absurd hreason (uncyclic_reassignment c f hf)
  · exact absurd hreason (uncyclic_escape (Examination.gives_ofExcept.1 h) f hf)

end Check

/-! ### What a visit learns -/

namespace Inquiry

variable {α : Type} {reads : ClassName → Analysis (Option ClassFacts)}
  {resolves : ClassName → Analysis Dependency}

/-- The answer of an inquiry in a session is one that its replies lead to. -/
theorem givesWith_of_run {possible : ClassName → Dependency → Prop} {q : Inquiry α}
    {s s' : Session} {a : α} (hrun : Analysis.on (q.run reads resolves) s = (.ok a, s'))
    (hpossible : ∀ d t dep t', q.Asks reads resolves s d t → (resolves d).on t = (.ok dep, t') →
      possible d dep) : q.GivesWith possible a := by
  induction q generalizing s with
  | answer b =>
    cases hrun
    rfl
  | readFacts name next ih =>
    simp only [run, Analysis.on_bind] at hrun
    split at hrun
    · next facts s₁ hread =>
      exact ⟨facts, ih facts hrun fun d t dep t' hasks => hpossible d t dep t'
        (.afterRead hread hasks)⟩
    · cases hrun
  | resolve name next ih =>
    simp only [run, Analysis.on_bind] at hrun
    split at hrun
    · next reply s₁ hreply =>
      exact ⟨reply, hpossible name s reply s₁ .now hreply, ih reply hrun fun d t dep t' hasks =>
        hpossible d t dep t' (.afterReply hreply hasks)⟩
    · cases hrun

theorem Asks.mayAsk {an : Analyser} {q : Inquiry α} {s t : Session} {name : ClassName}
    (h : q.Asks an.factsOf resolves s name t) : q.MayAsk an.facts? name := by
  induction h with
  | now => exact .inl rfl
  | afterRead reply _ ih =>
    cases reply
    exact ih
  | afterReply _ _ ih => exact .inr ⟨_, ih⟩

end Inquiry

namespace Analyser

variable {an : Analyser} {path : AnalysisPath} {c : ClassFacts} {s s' t : Session}
  {name other d : ClassName} {dep : Dependency} {v w : Visit} {l : Ledger} {f : Finding}

/-- In the visit something is learnt about the class `d`: the configuration gives a verdict on it,
or a check asks about it and gets a reply. -/
inductive Learns (an : Analyser) (v : Visit) (d : ClassName) : Dependency → Prop
  | given {a : Assessment} (given : an.config.hardcoded? d = some a) : Learns an v d (.resolved a)
  | told {c : ClassFacts} {t t' : Session} {dep : Dependency}
    (read : an.source.read v.name = .ok c)
    (asks : an.AsksAbout v.chain c (v.session.noteRead v.name) d t)
    (reply : (an.resolve v.chain d).on t = (.ok dep, t')) : Learns an v d dep

/-- In the visit a doubt about a cycle is built from what is learnt about the class `d`. -/
structure Builds (an : Analyser) (v : Visit) (d : ClassName) (dep : Dependency) (f : Finding) :
    Prop where
  learns : an.Learns v d dep
  doubt : ¬dep.Uncyclic
  finding : f.DoubtsCycle v.chain d

theorem AsksAbout.mem_lookups (h : an.AsksAbout path c s d t) : d ∈ an.lookups c := by
  obtain ⟨before, check, after, o, s₁, hall, -, hasks⟩ := h
  exact mem_lookups_of_mayAsk (by simp [hall]) hasks.mayAsk

/-- A question leads on from a chain of questions. -/
theorem Visit.isChain_append {R : ClassName → ClassName → Prop} (hv : v.chain.IsChain R)
    (h : R v.name d) : (v.chain ++ [d]).IsChain R := by
  rw [chain, List.append_assoc]
  exact List.isChain_split.2 ⟨hv, .cons_cons h (.singleton _)⟩

/-! ### The account of a visit -/

/-- The path is in order, every entry of the ledger is accounted for, and each of the classes that
wait has asked about the next one. -/
structure Accounted (an : Analyser) (v : Visit) : Prop where
  inOrder : an.InOrder v
  sound : an.Sound v.session.ledger
  chain : v.chain.IsChain an.LooksUp

theorem Accounted.orderly (h : an.Accounted v) : an.Orderly v.chain v.session :=
  ⟨h.sound, fun c hc => Ledger.lookup_eq_none.1 (h.inOrder.new c hc)⟩

theorem Accounted.looksUp (h : an.Accounted v) (hread : an.source.read v.name = .ok c)
    (hd : d ∈ an.lookups c) : an.LooksUp v.name d :=
  ⟨h.inOrder.given v.name (List.mem_append_right _ (List.mem_singleton_self _)), c, hread, hd⟩

/-- The questions of a visit are answered as the ledger says. -/
theorem Accounted.answers (h : an.Accounted v) (hread : an.source.read v.name = .ok c)
    (hd : d ∈ an.lookups c) (hs : an.Orderly v.chain s) :
    an.Answers v.chain s d (an.resolve v.chain d) :=
  resolveWith_ensures hs fun fresh given new =>
    assess_ensures v.chain d fresh s hs
      ⟨given, new, fresh, Visit.isChain_append h.chain (h.looksUp hread hd)⟩

theorem Answers.advances {x : Analysis Dependency} (h : an.Answers path s name x)
    (hx : x.on s = (.ok dep, s')) :
    an.Advances path s.ledger s' ∧ an.Settled path s'.ledger name ∧
      dep = an.reply s'.ledger name := by
  unfold Answers Analysis.Ensures at h
  rw [hx] at h
  exact h

/-- The ledger is in order whenever a question is put. -/
theorem orderly_of_asks {α : Type} {q : Inquiry α} {resolve : ClassName → Analysis Dependency}
    (hasks : q.Asks an.factsOf resolve s d t)
    (hanswers : ∀ other, q.MayAsk an.facts? other → ∀ s, an.Orderly path s →
      an.Answers path s other (resolve other)) (hs : an.Orderly path s) : an.Orderly path t := by
  induction hasks with
  | now => exact hs
  | afterRead reply _ ih =>
    cases reply
    exact ih hanswers ⟨hs.sound, hs.waiting⟩
  | afterReply reply _ ih =>
    have hadvances := ((hanswers _ (.inl rfl) _ hs).advances reply).1
    exact ih (fun other ho => hanswers other (.inr ⟨_, ho⟩)) hadvances.orderly

theorem Accounted.orderly_of_asksAbout (h : an.Accounted v) (hread : an.source.read v.name = .ok c)
    (hasks : an.AsksAbout v.chain c (v.session.noteRead v.name) d t) : an.Orderly v.chain t := by
  obtain ⟨before, check, after, o, s₁, hall, hbefore, hasks⟩ := hasks
  have hanswers : ∀ check ∈ Check.all, ∀ other,
      (an.examination v.chain c check).MayAsk an.facts? other → ∀ s, an.Orderly v.chain s →
        an.Answers v.chain s other (an.resolve v.chain other) :=
    fun check hc other ho s hs => h.answers hread (mem_lookups_of_mayAsk hc ho) hs
  have hchecks := runChecks_ensures before .empty
    (fun check hc => hanswers check (by simp [hall, hc]))
    (show an.Orderly v.chain (v.session.noteRead v.name) from ⟨h.orderly.sound, h.orderly.waiting⟩)
  unfold runChecks at hbefore
  unfold Analysis.Ensures at hchecks
  rw [hbefore] at hchecks
  exact orderly_of_asks hasks (hanswers check (by simp [hall])) hchecks.1.orderly

/-- The step: a visit that is accounted for begins only such visits. -/
theorem Accounted.spawns (h : an.Accounted v) (hw : an.Spawns v w) : an.Accounted w := by
  obtain ⟨c, hread, hasks⟩ := hw.asks
  refine ⟨h.inOrder.spawns hw, (h.orderly_of_asksAbout hread hasks).sound, ?_⟩
  rw [Visit.chain, hw.path]
  exact Visit.isChain_append h.chain (h.looksUp hread hasks.mem_lookups)

/-- The run: all visits of a request are accounted for. -/
theorem Nested.accounted (h : an.Nested s name v) (hs : an.Sound s.ledger) : an.Accounted v := by
  obtain ⟨given, new, hspawned⟩ := h
  induction hspawned with
  | refl => exact ⟨Nested.inOrder ⟨given, new, .refl⟩, hs, .singleton name⟩
  | tail _ hspawns ih => exact ih.spawns hspawns

/-- What a visit learns is what some ledger says in which the classes that wait have no verdict. -/
theorem Accounted.exists_reply (h : an.Accounted v) (hd : an.Learns v d dep) :
    ∃ t, an.Orderly v.chain t ∧ an.Settled v.chain t.ledger d ∧ dep = an.reply t.ledger d := by
  cases hd with
  | given given =>
    exact ⟨v.session, h.orderly, .inl (by simp [given]), (reply_of_given given).symm⟩
  | told read asks reply =>
    obtain ⟨hadvances, hsettled, hdep⟩ :=
      (h.answers read asks.mem_lookups (h.orderly_of_asksAbout read asks)).advances reply
    exact ⟨_, hadvances.orderly, hsettled, hdep⟩

/-- A class is met on a cycle exactly if it waits. -/
theorem Accounted.eq_cyclic_iff (h : an.Accounted v) (hd : an.Learns v d dep) :
    dep = .cyclic ↔ d ∈ v.chain := by
  obtain ⟨t, horderly, hsettled, rfl⟩ := h.exists_reply hd
  rw [reply_eq_cyclic_iff]
  constructor
  · rintro ⟨given, new⟩
    rcases hsettled with hgiven | hknown | hwaits
    · simp [given] at hgiven
    · exact absurd hknown new
    · exact hwaits
  · exact fun hwaits => ⟨h.inOrder.given d hwaits, horderly.waiting d hwaits⟩

/-! ### Doubts that are handed on -/

/-- The code of a class raises no doubt about a cycle by itself. -/
theorem uncyclic_own (uncyclic : an.config.Uncyclic) (c : ClassFacts) :
    Uncyclic (an.own c).findings := by
  intro f hf
  obtain ⟨check, hc, fs, hfs, hf⟩ := mem_findings_outcome.1 hf
  have hreplies : ∀ name, (assumeImmutable name).Uncyclic := fun name =>
    Dependency.uncyclic_resolved rfl
  exact (Check.steady_of_mem hc an.config an.facts? assumeImmutable c uncyclic hreplies [] []).2 fs
    hfs f hf

/-- A verdict with a doubt about a cycle rests on a reply with one. -/
theorem Entry.exists_doubt {a : Assessment} (h : an.Entry l path name a)
    (hc : an.Checked name c) (uncyclic : an.config.Uncyclic) (hcut : a.CutShort) :
    ∃ other ∈ an.lookups c, ¬(an.reply l other).Uncyclic := by
  obtain ⟨rfl, -⟩ := h.eq_judgement hc.read
  have hok := (Assessment.verdict_conclude_eq_effectivelyImmutable.1 hcut.1).1
  have hdoubt : ∃ f ∈ (an.outcome (path ++ [name]) c (an.reply l)).findings,
      f.reason = .cyclicReference := by
    have hreason := hcut.2
    rw [judgement, hok] at hreason
    simpa [Assessment.hasReason, Assessment.findings_conclude_nil] using hreason
  rcases (exists_finding_iff hc.ok (· = .cyclicReference) (by simp)).1 hdoubt with
    ⟨f, hf, hreason⟩ | ⟨other, hother, reason, hreason, rfl⟩
  · exact absurd hreason (uncyclic_own uncyclic c f hf)
  · exact ⟨other, hother, fun hd => hd _ (by simp) hreason⟩

/-- Behind a doubt that is handed on there is a cycle. -/
theorem meetsCycle_of_cutShort (uncyclic : an.config.Uncyclic) (hl : an.Sound l) {a : Assessment}
    (ha : an.reply l name = .resolved a) (hcut : a.CutShort) : an.MeetsCycle name := by
  refine hl.reply_induction (motive := fun name a => a.CutShort → an.MeetsCycle name) ?_ ?_ name a
    ha hcut
  · intro name a given hcut
    have hnone := uncyclic name a given
    simp [hcut.2] at hnone
  · intro l path name a _ hawaited hentry ih hcut
    obtain ⟨c, hc⟩ := hentry.checked hawaited.given (by simp [hcut.1])
    obtain ⟨other, hother, hdoubt⟩ := hentry.exists_doubt hc uncyclic hcut
    rcases Dependency.not_uncyclic_iff.1 hdoubt with hcyclic | ⟨b, hb, hcutb⟩
    · exact ⟨name, .refl, hawaited.transGen_self hentry hc.read hother hcyclic⟩
    · obtain ⟨last, hlast, hcycle⟩ := ih other b hb hcutb
      exact ⟨last, .head (hc.looksUp hother) hlast, hcycle⟩

/-! ### All doubts of a visit -/

theorem mem_findings_add {o : Outcome} {fs : List Finding} (h : f ∈ (o.add fs).findings) :
    f ∈ o.findings ∨ f ∈ fs := by
  unfold Outcome.add at h
  generalize o.findings = kept at h
  induction fs generalizing kept with
  | nil => exact .inl h
  | cons g fs ih =>
    rcases ih _ h with h | h
    · dsimp only at h
      split_ifs at h
      · exact .inl h
      · rcases List.mem_append.1 h with h | h
        · exact .inl h
        · exact .inr (List.mem_singleton.1 h ▸ List.mem_cons_self)
    · exact .inr (List.mem_cons_of_mem _ h)

/-- A finding about a class is one of some check, which has been made after those before it. -/
theorem exists_check_of_mem_findings {resolve : ClassName → Analysis Dependency}
    {checks : List Check} {o : Outcome}
    (h : (an.runChecks path c resolve checks).on s = (.ok o, s')) (hf : f ∈ o.findings) :
    ∃ before check after o' t fs t', checks = before ++ check :: after ∧
      (an.runChecks path c resolve before).on s = (.ok o', t) ∧
      Analysis.on ((an.examination path c check).run an.factsOf resolve) t = (.ok (.ok fs), t') ∧
      f ∈ fs := by
  induction checks using List.reverseRecOn generalizing o s' with
  | nil =>
    cases h
    cases hf
  | append_singleton checks check ih =>
    have hsplit : an.runChecks path c resolve (checks ++ [check]) =
        an.runChecks path c resolve checks >>= fun o => an.runCheck path c resolve o check := by
      simp [runChecks, List.foldlM_append]
    rw [hsplit, Analysis.on_bind] at h
    split at h
    · next o₁ t hbefore =>
      have earlier : f ∈ o₁.findings → ∃ before check' after o' t fs t',
          checks ++ [check] = before ++ check' :: after ∧
          (an.runChecks path c resolve before).on s = (.ok o', t) ∧
          Analysis.on ((an.examination path c check').run an.factsOf resolve) t =
            (.ok (.ok fs), t') ∧ f ∈ fs := by
        intro hf
        obtain ⟨before, check', after, o', u, fs, u', rfl, hrest⟩ := ih hbefore hf
        exact ⟨before, check', after ++ [check], o', u, fs, u', by simp, hrest⟩
      rw [runCheck, Analysis.on_bind] at h
      split at h
      · next r t' hrun =>
        cases r with
        | ok fs =>
          cases h
          rcases mem_findings_add hf with hf | hf
          · exact earlier hf
          · exact ⟨checks, check, [], o₁, t, fs, _, rfl, hbefore, hrun, hf⟩
        | error e =>
          simp only at h
          cases hp : an.config.policy with
          | failFast =>
            rw [hp] at h
            cases h
          | carryOn =>
            rw [hp] at h
            cases h
            exact earlier hf
      · cases h
    · cases h

/-- The doubts about cycles that a visit ends with are among those that it has built. -/
theorem exists_builds_of_visit {a : Assessment} (h : an.visit v = (.ok a, s)) (hf : f ∈ a.findings)
    (hreason : f.reason = .cyclicReference) : ∃ d dep, an.Builds v d dep f := by
  rw [visit] at h
  cases hread : an.source.read v.name with
  | error e =>
    rw [assess_unreadable hread, Analysis.on_bind_ok (Analysis.on_modify _ _)] at h
    unfold judgeUnreadable at h
    cases hp : an.config.policy with
    | failFast =>
      rw [hp] at h
      cases h
    | carryOn =>
      rw [hp] at h
      cases h
      obtain rfl := List.mem_singleton.1 hf
      cases hreason
  | ok c =>
    rw [assess_readable hread, Analysis.on_bind_ok (Analysis.on_modify _ _), judge,
      Analysis.on_bind] at h
    split at h
    · next o t hchecks =>
      cases h
      have hfound : f ∈ o.findings := by
        rcases List.mem_append.1 hf with hf | hf
        · exact hf
        · obtain ⟨failure, -, rfl⟩ := List.mem_map.1 hf
          cases hreason
      obtain ⟨before, check, after, o', t, fs, t', hall, hbefore, hrun, hf⟩ :=
        exists_check_of_mem_findings hchecks hfound
      have hgives : (check.examine ⟨an.config, v.chain⟩ c).GivesWith (an.Learns v) fs :=
        Inquiry.givesWith_of_run hrun fun d u dep u' hasks hreply =>
          .told hread ⟨before, check, after, o', t, hall, hbefore, hasks⟩ hreply
      obtain ⟨d, dep, hlearns, hdoubt, hfinding⟩ :=
        Check.arisesFrom_of_mem (by simp [hall]) (fun d a => .given) hgives hf hreason
      exact ⟨d, dep, hlearns, hdoubt, hfinding⟩
    · cases h

/-- Of two classes that ask about each other only, the one that a fresh session is asked about
builds a doubt from the verdict on the other one. -/
theorem exists_builds_of_mutual (first second : ClassName) {c d : ClassFacts}
    (carryOn : an.config.policy = .carryOn) (uncyclic : an.config.Uncyclic)
    (hc : an.Checked first c) (hd : an.Checked second d) (hne : second ≠ first)
    (hfirst : an.lookups c = [second]) (hsecond : an.lookups d = [first])
    (own : (an.own c).findings = []) :
    ∃ a s, an.visit (.first .empty second) = (.ok a, s) ∧
      ∃ f ∈ a.findings, ∃ dep, an.Builds (.first .empty second) first dep f := by
  obtain ⟨a, b, l, hb, -, hentry, ha, hcut⟩ :=
    exists_cutShort_of_mutual first second carryOn hc hd hne hfirst hsecond own
  have hvisit : (an.visit (.first .empty second)).1 = .ok b := by
    rw [answer, after_nil, analyse, hd.given] at hb
    exact hb
  have hdoubt : ∃ f ∈ b.findings, f.reason = .cyclicReference := by
    obtain ⟨rfl, -⟩ := hentry.eq_judgement hd.read
    have hreason : (an.reply l first).reasonFor .mutableTypeToField = some .cyclicReference :=
      ha ▸ Dependency.reasonFor_of_cutShort hcut _
    obtain ⟨f, hf, hreason⟩ := (exists_finding_iff hd.ok (· = .cyclicReference) (by simp)).2
      (.inr ⟨first, by simp [hsecond], _, hreason, rfl⟩)
    exact ⟨f, List.mem_append_left _ hf, hreason⟩
  obtain ⟨f, hf, hreason⟩ := hdoubt
  obtain ⟨other, dep, hbuilds⟩ := exists_builds_of_visit (Prod.ext hvisit rfl) hf hreason
  obtain rfl : other = first := by
    cases hbuilds.learns with
    | given given =>
      exact absurd (Dependency.uncyclic_resolved (uncyclic _ _ given)) hbuilds.doubt
    | told read asks _ =>
      cases hd.read.symm.trans read
      simpa [hsecond] using asks.mem_lookups
  exact ⟨b, _, Prod.ext hvisit rfl, f, hf, dep, hbuilds⟩

theorem exists_builds_mutualHolders :
    ∃ a s, mutualHolders.visit (.first .empty openHolder.name) = (.ok a, s) ∧
      ∃ f ∈ a.findings, ∃ dep,
        mutualHolders.Builds (.first .empty openHolder.name) finalHolder.name dep f := by
  refine exists_builds_of_mutual finalHolder.name openHolder.name rfl uncyclic_default
    ⟨rfl, rfl, ?_⟩ ⟨rfl, rfl, ?_⟩ ?_ ?_ ?_ ?_
  all_goals decide +kernel

/-- Of the doubts about cycles that a visit builds, exactly those come with a closed chain that are
about a class which waits, and the chain is then one of questions. Any other doubt is handed on by
a verdict on a class that does not wait: its chain is the whole path with the class at its end, and
the class leads to a cycle, unless a verdict with such a doubt is given by the configuration. The
doubts that the visit ends with are among those built. -/
theorem reported_cycle_closed_iff (an : Analyser) (requests : List ClassName) (request : ClassName)
    (v : Visit) (nested : an.Nested (an.after requests) request v) :
    (∀ d dep f, an.Builds v d dep f →
      (v.chain.Closes d ↔ dep = .cyclic) ∧
      (dep = .cyclic → (v.chain.cycle d).IsChain an.LooksUp) ∧
      (dep ≠ .cyclic → d ∉ v.chain ∧ v.chain.cycle d = v.chain ++ [d] ∧
        (∃ a, dep = .resolved a ∧ a.CutShort) ∧ (an.config.Uncyclic → an.MeetsCycle d))) ∧
    ∀ a s, an.visit v = (.ok a, s) → ∀ f ∈ a.findings, f.reason = .cyclicReference →
      ∃ d dep, an.Builds v d dep f := by
  have hv := nested.accounted (an.sound_after requests)
  refine ⟨fun d dep f hbuilds => ⟨?_, fun hcyclic => ?_, fun hresolved => ?_⟩,
    fun a s hvisit f => exists_builds_of_visit hvisit⟩
  · rw [AnalysisPath.closes_iff, hv.eq_cyclic_iff hbuilds.learns]
  · have hlooksUp : an.LooksUp v.name d := by
      cases hbuilds.learns with
      | given given => cases hcyclic
      | told read asks _ => exact hv.looksUp read asks.mem_lookups
    exact (Visit.isChain_append hv.chain hlooksUp).suffix (v.chain.cycle_suffix d)
  · have hnew : d ∉ v.chain := fun hmem => hresolved ((hv.eq_cyclic_iff hbuilds.learns).2 hmem)
    obtain ⟨a, rfl, hcut⟩ := (Dependency.not_uncyclic_iff.1 hbuilds.doubt).resolve_left hresolved
    refine ⟨hnew, AnalysisPath.cycle_of_notMem hnew, ⟨a, rfl, hcut⟩, fun uncyclic => ?_⟩
    obtain ⟨t, horderly, -, hreply⟩ := hv.exists_reply hbuilds.learns
    exact meetsCycle_of_cutShort uncyclic horderly.sound hreply.symm hcut

theorem reported_cycle_closed_iff_mutualHolders :
    mutualHolders.Nested (mutualHolders.after []) openHolder.name (.first .empty openHolder.name) ∧
    ∃ dep f, mutualHolders.Builds (.first .empty openHolder.name) finalHolder.name dep f ∧
      dep ≠ .cyclic ∧ (∃ a, dep = .resolved a ∧ a.CutShort) ∧
      mutualHolders.MeetsCycle finalHolder.name := by
  have hnested : mutualHolders.Nested (mutualHolders.after []) openHolder.name
      (.first .empty openHolder.name) := ⟨rfl, rfl, .refl⟩
  obtain ⟨a, s, -, f, -, dep, hbuilds⟩ := exists_builds_mutualHolders
  obtain ⟨hcloses, -, hhanded⟩ :=
    (reported_cycle_closed_iff mutualHolders [] openHolder.name _ hnested).1 _ dep f hbuilds
  have hresolved : dep ≠ .cyclic := by
    intro hcyclic
    have hmem := (hcloses.2 hcyclic).1
    revert hmem
    decide +kernel
  obtain ⟨-, -, hcut, hmeets⟩ := hhanded hresolved
  exact ⟨hnested, dep, f, hbuilds, hresolved, hcut, hmeets uncyclic_default⟩

/-- The chain that a doubt about a cycle spells out need not be closed. -/
theorem not_closes_mutualHolders :
    ∃ v, mutualHolders.Nested (mutualHolders.after []) openHolder.name v ∧
      ∃ a s, mutualHolders.visit v = (.ok a, s) ∧ ∃ f ∈ a.findings, ∃ d dep,
        mutualHolders.Builds v d dep f ∧ ¬v.chain.Closes d ∧
          v.chain.describeCycle d = "com.acme.B -> com.acme.A" := by
  refine ⟨.first .empty openHolder.name, ⟨rfl, rfl, .refl⟩, ?_⟩
  obtain ⟨a, s, hvisit, f, hf, dep, hbuilds⟩ := exists_builds_mutualHolders
  refine ⟨a, s, hvisit, f, hf, finalHolder.name, dep, hbuilds, ?_, by decide +kernel⟩
  rw [AnalysisPath.closes_iff]
  decide +kernel

end Analyser

end Immutability

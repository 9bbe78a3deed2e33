import Immutability.Proofs.Analysis
import Immutability.Proofs.Judgement
import Mathlib.Data.List.Chain

/-!
# How the ledger of a session comes about

A session enters its verdicts into a ledger in the order in which they are completed. Every entry can
be accounted for by what the ledger held before it and by the path of the classes that were waiting.

* `Ledger.Later` says how a ledger grows while some classes wait;
* `Analyser.reply` is the reply that a ledger gives to a question;
* `Analyser.Sound` says that every entry of a ledger is accounted for;
* `Analyser.assess_ensures` is the account of one analysis, whether completed or aborted;
* `Analyser.Sound.entry_of_mem` and `Analyser.Sound.reply_induction` lead back from a ledger to the
  accounts of its entries.
-/

namespace Immutability

/-- Verdicts in the order of their completion. -/
abbrev Ledger := List (ClassName × Assessment)

namespace Ledger

/-- The classes with a verdict. -/
def names (l : Ledger) : List ClassName := l.map (·.1)

@[simp] theorem names_append (l l' : Ledger) : names (l ++ l') = l.names ++ l'.names :=
  List.map_append

@[simp] theorem names_singleton (name : ClassName) (a : Assessment) :
    names [(name, a)] = [name] := rfl

theorem mem_names {l : Ledger} {name : ClassName} : name ∈ l.names ↔ ∃ a, (name, a) ∈ l := by
  simp [names]

theorem lookup_eq_none {l : Ledger} {name : ClassName} :
    l.lookup name = none ↔ name ∉ l.names := by
  simp only [List.lookup_eq_none_iff, names, List.mem_map, bne_iff_ne]
  constructor
  · rintro h ⟨p, hp, hn⟩
    exact h p hp hn.symm
  · intro h p hp hn
    exact h ⟨p, hp, hn.symm⟩

/-- The ledger `l'` has grown out of `l` while the classes of `path` were waiting. -/
def Later (path : AnalysisPath) (l l' : Ledger) : Prop :=
  ∃ new, l' = l ++ new ∧ ∀ c ∈ path, c ∉ names new

namespace Later

variable {path path' : AnalysisPath} {l l' l'' : Ledger}

theorem refl (path : AnalysisPath) (l : Ledger) : Later path l l :=
  ⟨[], by simp, by simp [names]⟩

theorem trans (h : Later path l l') (h' : Later path l' l'') : Later path l l'' := by
  obtain ⟨new, rfl, hnew⟩ := h
  obtain ⟨new', rfl, hnew'⟩ := h'
  refine ⟨new ++ new', List.append_assoc .., fun c hc => ?_⟩
  rw [names_append, List.mem_append]
  exact fun h => h.elim (hnew c hc) (hnew' c hc)

theorem mono (h : Later path l l') (hp : ∀ c ∈ path', c ∈ path) : Later path' l l' := by
  obtain ⟨new, rfl, hnew⟩ := h
  exact ⟨new, rfl, fun c hc => hnew c (hp c hc)⟩

theorem names_subset (h : Later path l l') {c : ClassName} (hc : c ∈ l.names) : c ∈ l'.names := by
  obtain ⟨new, rfl, -⟩ := h
  rw [names_append]
  exact List.mem_append_left _ hc

theorem notMem_names (h : Later path l l') {c : ClassName} (hc : c ∈ path) (hl : c ∉ l.names) :
    c ∉ l'.names := by
  obtain ⟨new, rfl, hnew⟩ := h
  rw [names_append, List.mem_append]
  exact fun h => h.elim hl (hnew c hc)

/-- A verdict is never replaced. -/
theorem lookup_eq (h : Later path l l') {c : ClassName} (hc : c ∈ l.names ∨ c ∈ path) :
    l'.lookup c = l.lookup c := by
  obtain ⟨new, rfl, hnew⟩ := h
  rw [List.lookup_append]
  cases hl : l.lookup c with
  | some a => rfl
  | none =>
    have hpath : c ∈ path := hc.resolve_left (lookup_eq_none.1 hl)
    exact lookup_eq_none.2 (hnew c hpath)

end Later

end Ledger

namespace Analyser

variable (an : Analyser)

/-- The reply to a question about a class, from the configuration or from a ledger; a class found in
neither is taken to be waiting. -/
def reply (l : Ledger) (name : ClassName) : Dependency :=
  match an.config.hardcoded? name with
  | some a => .resolved a
  | none =>
    match l.lookup name with
    | some a => .resolved a
    | none => .cyclic

/-- A question about the class needs no analysis: there is a verdict, or the class is waiting. -/
def Settled (path : AnalysisPath) (l : Ledger) (name : ClassName) : Prop :=
  (an.config.hardcoded? name).isSome ∨ name ∈ l.names ∨ name ∈ path

/-- The verdict `a` on the class `name` is accounted for by the ledger `l` of the time before, and
by the path of the classes that were waiting for it. -/
inductive Entry (l : Ledger) (path : AnalysisPath) (name : ClassName) : Assessment → Prop
  | unreadable {e : ReadError} (read : an.source.read name = .error e) :
    Entry l path name (.couldNotAnalyse name e.message)
  | judged {c : ClassFacts} (read : an.source.read name = .ok c)
    (settled : ∀ other ∈ an.lookups c, an.Settled (path ++ [name]) l other) :
    Entry l path name (an.judgement (path ++ [name]) name c (an.reply l))

/-- The class `name` may be analysed on behalf of the last class of the path. -/
structure Awaited (l : Ledger) (path : AnalysisPath) (name : ClassName) : Prop where
  given : an.config.hardcoded? name = none
  new : name ∉ l.names
  fresh : name ∉ path
  chain : (path ++ [name]).IsChain an.LooksUp

/-- Every entry of the ledger is accounted for by those before it. -/
inductive Sound : Ledger → Prop
  | nil : Sound []
  | snoc {l : Ledger} {path : AnalysisPath} {name : ClassName} {a : Assessment} (sound : Sound l)
    (awaited : an.Awaited l path name) (waiting : ∀ c ∈ path, c ∉ l.names)
    (entry : an.Entry l path name a) : Sound (l ++ [(name, a)])

/-- The ledger is sound, and the classes of the path have no verdict yet. -/
structure Orderly (path : AnalysisPath) (s : Session) : Prop where
  sound : an.Sound s.ledger
  waiting : ∀ c ∈ path, c ∉ Ledger.names s.ledger

/-- The session is orderly, and its ledger has grown out of `l` while the classes of the path
waited. -/
structure Advances (path : AnalysisPath) (l : Ledger) (s : Session) : Prop where
  orderly : an.Orderly path s
  later : Ledger.Later path l s.ledger

variable {an} {path : AnalysisPath} {l : Ledger} {s s' s'' : Session}

theorem reply_of_given {l : Ledger} {name : ClassName} {a : Assessment}
    (h : an.config.hardcoded? name = some a) : an.reply l name = .resolved a := by
  simp [reply, h]

theorem reply_eq_resolved_iff {l : Ledger} {name : ClassName} {a : Assessment} :
    an.reply l name = .resolved a ↔ (an.config.hardcoded? name).or (l.lookup name) = some a := by
  unfold reply
  cases an.config.hardcoded? name with
  | some b => simp
  | none => cases l.lookup name <;> simp

theorem reply_eq_cyclic_iff {l : Ledger} {name : ClassName} :
    an.reply l name = .cyclic ↔ an.config.hardcoded? name = none ∧ name ∉ l.names := by
  rw [← Ledger.lookup_eq_none]
  unfold reply
  cases an.config.hardcoded? name with
  | some b => simp
  | none => cases l.lookup name <;> simp

/-- What is settled once gets the same reply ever after. -/
theorem reply_eq_of_later {l l' : Ledger} (h : Ledger.Later path l l') {name : ClassName}
    (hn : an.Settled path l name) : an.reply l' name = an.reply l name := by
  unfold reply
  cases hg : an.config.hardcoded? name with
  | some a => rfl
  | none => rw [h.lookup_eq (hn.resolve_left (by simp [hg]))]

theorem Settled.later {l l' : Ledger} (h : Ledger.Later path l l') {name : ClassName}
    (hn : an.Settled path l name) : an.Settled path l' name :=
  hn.imp_right (Or.imp_left h.names_subset)

theorem Advances.refl (h : an.Orderly path s) : an.Advances path s.ledger s := ⟨h, .refl _ _⟩

theorem Advances.trans (h : an.Advances path l s) (h' : an.Advances path s.ledger s') :
    an.Advances path l s' :=
  ⟨h'.orderly, h.later.trans h'.later⟩

/-- The condition of a session in which work was aborted. -/
def Stopped (an : Analyser) (path : AnalysisPath) (l : Ledger) (s : Session) : Prop :=
  an.config.policy = .failFast ∧ an.Advances path l s

theorem Stopped.trans (h : an.Advances path l s) (h' : an.Stopped path s.ledger s') :
    an.Stopped path l s' :=
  ⟨h'.1, h.trans h'.2⟩

/-! ### One check -/

/-- The reply to a question is the one that the ledger gives afterwards. -/
def Answers (an : Analyser) (path : AnalysisPath) (s : Session) (name : ClassName)
    (x : Analysis Dependency) : Prop :=
  x.Ensures s
    (fun d s' => an.Advances path s.ledger s' ∧ an.Settled path s'.ledger name ∧
      d = an.reply s'.ledger name)
    (an.Stopped path s.ledger)

/-- An inquiry made in a session has the answer that it has under the replies of any later ledger,
and its questions are settled. -/
theorem run_ensures {α : Type} {q : Inquiry α} {resolve : ClassName → Analysis Dependency}
    (hres : ∀ name, q.MayAsk an.facts? name → ∀ s, an.Orderly path s →
      an.Answers path s name (resolve name)) (hs : an.Orderly path s) :
    Analysis.Ensures (q.run an.factsOf resolve) s
      (fun a s' => an.Advances path s.ledger s' ∧ ∀ l, Ledger.Later path s'.ledger l →
        a = q.eval an.facts? (an.reply l) ∧
          ∀ name ∈ q.asked an.facts? (an.reply l), an.Settled path s'.ledger name)
      (an.Stopped path s.ledger) := by
  induction q generalizing s with
  | answer a => exact .pure ⟨.refl hs, fun l _ => ⟨rfl, by simp [Inquiry.asked]⟩⟩
  | readFacts name next ih =>
    have hread : Analysis.Ensures (an.factsOf name) s
        (fun facts s' => facts = an.facts? name ∧ s' = s.noteRead name) (an.Stopped path s.ledger) :=
      ⟨rfl, rfl⟩
    refine hread.bind fun facts s₁ h => ?_
    obtain ⟨rfl, rfl⟩ := h
    have hs' : an.Orderly path (s.noteRead name) := ⟨hs.sound, hs.waiting⟩
    exact ih (an.facts? name) hres hs'
  | resolve name next ih =>
    refine (hres name (.inl rfl) s hs).bind fun d s₁ h => ?_
    obtain ⟨hadv, hsettled, rfl⟩ := h
    have hnext := ih (an.reply s₁.ledger name)
      (fun other ho => hres other (.inr ⟨_, ho⟩)) hadv.orderly
    refine hnext.mono (fun a s₂ h => ⟨hadv.trans h.1, fun l hl => ?_⟩) fun s₂ => .trans hadv
    -- what the class was told is still what the ledger says in the end
    have hlater : Ledger.Later path s₁.ledger l := h.1.later.trans hl
    obtain ⟨ha, hasked⟩ := h.2 l hl
    simp only [Inquiry.eval, Inquiry.asked, reply_eq_of_later hlater hsettled]
    refine ⟨ha, fun other ho => ?_⟩
    rcases List.mem_cons.1 ho with rfl | ho
    · exact hsettled.later h.1.later
    · exact hasked other ho

/-- What is known once checks have been made of a class: the outcome is that under the replies of
any later ledger, and the questions are settled. -/
def Reported (an : Analyser) (path : AnalysisPath) (c : ClassFacts) (checks : List Check)
    (o o' : Outcome) (l : Ledger) : Prop :=
  ∀ l', Ledger.Later path l l' →
    o' = an.outcomeFrom path c (an.reply l') checks o ∧
      ∀ check ∈ checks, ∀ name ∈ (an.examination path c check).asked an.facts? (an.reply l'),
        an.Settled path l name

variable {c : ClassFacts} {resolve : ClassName → Analysis Dependency}

theorem runCheck_ensures (check : Check) (o : Outcome)
    (hres : ∀ name, (an.examination path c check).MayAsk an.facts? name → ∀ s,
      an.Orderly path s → an.Answers path s name (resolve name)) (hs : an.Orderly path s) :
    Analysis.Ensures (an.runCheck path c resolve o check) s
      (fun o' s' => an.Advances path s.ledger s' ∧ an.Reported path c [check] o o' s'.ledger)
      (an.Stopped path s.ledger) := by
  refine (run_ensures hres hs).bind fun r s₁ h => ?_
  obtain ⟨hadv, hr⟩ := h
  have reported : ∀ o', o' = o.enter c.name check r →
      an.Reported path c [check] o o' s₁.ledger := by
    rintro o' rfl l' hl
    obtain ⟨rfl, hasked⟩ := hr l' hl
    exact ⟨rfl, by simpa using hasked⟩
  cases r with
  | ok findings => exact .pure ⟨hadv, reported _ rfl⟩
  | error e =>
    cases hp : an.config.policy with
    | failFast => exact ⟨hp, hadv⟩
    | carryOn => exact .pure ⟨hadv, reported _ rfl⟩

theorem runChecks_ensures (checks : List Check) (o : Outcome)
    (hres : ∀ check ∈ checks, ∀ name, (an.examination path c check).MayAsk an.facts? name →
      ∀ s, an.Orderly path s → an.Answers path s name (resolve name))
    (hs : an.Orderly path s) :
    Analysis.Ensures (checks.foldlM (an.runCheck path c resolve) o) s
      (fun o' s' => an.Advances path s.ledger s' ∧ an.Reported path c checks o o' s'.ledger)
      (an.Stopped path s.ledger) := by
  induction checks generalizing o s with
  | nil => exact .pure ⟨.refl hs, fun l' _ => ⟨rfl, by simp⟩⟩
  | cons check checks ih =>
    rw [List.foldlM_cons]
    refine (runCheck_ensures check o (hres check List.mem_cons_self) hs).bind fun o₁ s₁ h => ?_
    obtain ⟨hadv, hfirst⟩ := h
    have hrest := ih o₁ (fun check' hc => hres check' (List.mem_cons_of_mem _ hc)) hadv.orderly
    refine hrest.mono (fun o₂ s₂ h => ⟨hadv.trans h.1, fun l' hl => ?_⟩) fun s₂ => .trans hadv
    obtain ⟨rfl, hasked⟩ := h.2 l' hl
    obtain ⟨rfl, hasked₁⟩ := hfirst l' (h.1.later.trans hl)
    refine ⟨rfl, fun check' hc name hn => ?_⟩
    rcases List.mem_cons.1 hc with rfl | hc
    · exact (hasked₁ check' List.mem_cons_self name hn).later h.1.later
    · exact hasked check' hc name hn

/-! ### One class -/

/-- The class `name` has been entered into the ledger last, while the classes of `path` waited. -/
def Entered (an : Analyser) (path : AnalysisPath) (l : Ledger) (name : ClassName)
    (a : Assessment) (s : Session) : Prop :=
  an.Advances path l s ∧ ∃ l' : Ledger, s.ledger = l' ++ [(name, a)] ∧ name ∉ l'.names ∧
    an.Sound l' ∧ an.Entry l' path name a

theorem entered_of_advances {name : ClassName} {a : Assessment}
    (hadv : an.Advances (path ++ [name]) l s) (ha : an.Awaited l path name)
    (hentry : an.Entry s.ledger path name a) (hs' : s'.ledger = s.ledger ++ [(name, a)]) :
    an.Entered path l name a s' := by
  have hname : name ∉ Ledger.names s.ledger := hadv.orderly.waiting name (by simp)
  have hwaiting : ∀ c ∈ path, c ∉ Ledger.names s.ledger :=
    fun c hc => hadv.orderly.waiting c (by simp [hc])
  have hlater : Ledger.Later path s.ledger s'.ledger := by
    refine ⟨[(name, a)], hs', fun c hc => ?_⟩
    rw [Ledger.names_singleton, List.mem_singleton]
    rintro rfl
    exact ha.fresh hc
  refine ⟨⟨⟨?_, fun c hc => hlater.notMem_names hc (hwaiting c hc)⟩, ?_⟩,
    s.ledger, hs', hname, hadv.orderly.sound, hentry⟩
  · rw [hs']
    exact .snoc hadv.orderly.sound ⟨ha.given, hname, ha.fresh, ha.chain⟩ hwaiting hentry
  · exact (hadv.later.mono fun c hc => by simp [hc]).trans hlater

theorem Entered.mem_names {name : ClassName} {a : Assessment} (h : an.Entered path l name a s) :
    name ∈ Ledger.names s.ledger := by
  obtain ⟨-, l', hl', -⟩ := h
  simp [hl']

/-- What has been entered is the reply from then on. -/
theorem Entered.reply_eq {name : ClassName} {a : Assessment} (h : an.Entered path l name a s)
    (given : an.config.hardcoded? name = none) : an.reply s.ledger name = .resolved a := by
  obtain ⟨-, l', hl', hnew, -⟩ := h
  have hlookup : s.ledger.lookup name = some a := by
    rw [hl', List.lookup_append, Ledger.lookup_eq_none.2 hnew]
    simp
  simp [reply, given, hlookup]

/-- A class that is about to be analysed waits for the classes it asks about. -/
theorem Orderly.await {name : ClassName} (hs : an.Orderly path s)
    (ha : an.Awaited s.ledger path name) : an.Orderly (path ++ [name]) s := by
  refine ⟨hs.sound, fun c hc => ?_⟩
  rcases List.mem_append.1 hc with hc | hc
  · exact hs.waiting c hc
  · rw [List.mem_singleton.1 hc]
    exact ha.new

theorem judge_ensures {name : ClassName} (hread : an.source.read name = .ok c)
    (ha : an.Awaited s.ledger path name) (hs : an.Orderly path s)
    (hres : ∀ other ∈ an.lookups c, ∀ s, an.Orderly (path ++ [name]) s →
      an.Answers (path ++ [name]) s other (resolve other)) :
    Analysis.Ensures (an.judge (path ++ [name]) name c resolve) s
      (an.Entered path s.ledger name) (an.Stopped path s.ledger) := by
  have hchecks := runChecks_ensures Check.all .empty
    (fun check hc other ho => hres other (mem_lookups_of_mayAsk hc ho)) (hs.await ha)
  -- while the checks are made the class itself waits, too; an abort is one level further up
  refine (hchecks.mono (fun _ _ h => h) fun s₁ h => ?_).bind fun o s₁ h => ?_
  · exact ⟨h.1, ⟨h.2.orderly.sound, fun c hc => h.2.orderly.waiting c (by simp [hc])⟩,
      h.2.later.mono fun c hc => by simp [hc]⟩
  · obtain ⟨hadv, hreported⟩ := h
    obtain ⟨rfl, hasked⟩ := hreported s₁.ledger (.refl _ _)
    refine entered_of_advances hadv ha (.judged hread fun other ho => ?_) rfl
    obtain ⟨check, hc, ho⟩ := List.mem_flatMap.1 ho
    refine hasked check hc other ?_
    rwa [asked_eq hc]

theorem judgeUnreadable_ensures {name : ClassName} {e : ReadError}
    (hread : an.source.read name = .error e) (ha : an.Awaited s.ledger path name)
    (hs : an.Orderly path s) :
    Analysis.Ensures (an.judgeUnreadable name e) s (an.Entered path s.ledger name)
      (an.Stopped path s.ledger) := by
  unfold judgeUnreadable
  cases hp : an.config.policy with
  | failFast => exact ⟨hp, .refl hs⟩
  | carryOn =>
    have hadv : an.Advances (path ++ [name]) s.ledger s := .refl (hs.await ha)
    exact entered_of_advances hadv ha (.unreadable hread) rfl

theorem resolveWith_ensures {name : ClassName} {assess : name ∉ path → Analysis Assessment}
    (hs : an.Orderly path s)
    (hassess : ∀ fresh : name ∉ path, an.config.hardcoded? name = none →
      name ∉ Ledger.names s.ledger →
      (assess fresh).Ensures s (an.Entered path s.ledger name) (an.Stopped path s.ledger)) :
    an.Answers path s name (an.resolveWith path name assess) := by
  unfold Answers resolveWith
  cases hg : an.config.hardcoded? name with
  | some a => exact .pure ⟨.refl hs, .inl (by simp [hg]), by simp [reply, hg]⟩
  | none =>
    refine .get_bind ?_
    cases hl : s.cached? name with
    | some a =>
      have hn : name ∈ Ledger.names s.ledger := Ledger.mem_names.2 ⟨a, mem_of_lookup hl⟩
      refine .pure ⟨.refl hs, .inr (.inl hn), ?_⟩
      simp [reply, hg, show s.ledger.lookup name = some a from hl]
    | none =>
      have hn : name ∉ Ledger.names s.ledger := Ledger.lookup_eq_none.1 hl
      by_cases hp : name ∈ path
      · simp only [hp, dif_pos]
        refine .pure ⟨.refl hs, .inr (.inr hp), ?_⟩
        simp [reply, hg, show s.ledger.lookup name = none from hl]
      · simp only [hp, dif_neg, not_false_eq_true]
        refine (hassess hp hg hn).bind fun a s₂ h => .pure ?_
        exact ⟨h.1, .inr (.inl h.mem_names), (h.reply_eq hg).symm⟩

/-- The account of one analysis. The recursion is that of `assess`, on the readable classes that are
not on the path. -/
theorem assess_ensures (path : AnalysisPath) (name : ClassName) (fresh : name ∉ path)
    (s : Session) (hs : an.Orderly path s) (ha : an.Awaited s.ledger path name) :
    (an.assess path name fresh).Ensures s (an.Entered path s.ledger name)
      (an.Stopped path s.ledger) := by
  have hnoted : an.Orderly path (s.noteRead name) := ⟨hs.sound, hs.waiting⟩
  have hawaited : an.Awaited (s.noteRead name).ledger path name := ha
  cases hread : an.source.read name with
  | error e =>
    rw [assess_unreadable hread]
    exact .modify_bind (judgeUnreadable_ensures hread hawaited hnoted)
  | ok c =>
    rw [assess_readable hread]
    refine .modify_bind (judge_ensures hread hawaited hnoted fun other ho t ht => ?_)
    refine resolveWith_ensures ht fun freshOther given new => ?_
    -- the path has become longer, so that fewer readable classes are left
    have hlt := ClassSource.unread_append_lt hread fresh
    refine assess_ensures (path ++ [name]) other freshOther t ht ⟨given, new, freshOther, ?_⟩
    rw [List.append_assoc]
    exact List.isChain_split.2 ⟨ha.chain, .cons_cons ⟨ha.given, c, hread, ho⟩ (.singleton _)⟩
termination_by an.source.unread path

/-! ### Inversion -/

/-- What holds of the given verdicts and of every entry once it holds of the replies that the entry
rests on, holds of all replies of a sound ledger. -/
theorem Sound.reply_induction {motive : ClassName → Assessment → Prop} (h : an.Sound l)
    (given : ∀ name a, an.config.hardcoded? name = some a → motive name a)
    (entry : ∀ l path name a, an.Sound l → an.Awaited l path name → an.Entry l path name a →
      (∀ other b, an.reply l other = .resolved b → motive other b) → motive name a)
    (name : ClassName) (a : Assessment) (ha : an.reply l name = .resolved a) : motive name a := by
  induction h generalizing name a with
  | nil =>
    refine given name a ?_
    simpa using reply_eq_resolved_iff.1 ha
  | @snoc l path name' a' sound awaited waiting hentry ih =>
    have ha := reply_eq_resolved_iff.1 ha
    cases hg : an.config.hardcoded? name with
    | some b =>
      rw [hg, Option.some_or, Option.some.injEq] at ha
      exact given name a (ha ▸ hg)
    | none =>
      rw [hg, Option.none_or, List.lookup_append] at ha
      cases hl : l.lookup name with
      | some b =>
        rw [hl, Option.some_or, Option.some.injEq] at ha
        exact ih name a (reply_eq_resolved_iff.2 (by rw [hg, Option.none_or, hl, ha]))
      | none =>
        rw [hl, Option.none_or] at ha
        obtain ⟨rfl, rfl⟩ : name = name' ∧ a = a' := by
          simpa using mem_of_lookup ha
        -- the last entry rests on replies of the ledger before it
        exact entry l path name a sound awaited hentry ih

/-- Every entry of a sound ledger was accounted for when it was made. -/
theorem Sound.entry_of_mem (h : an.Sound l) {name : ClassName} {a : Assessment}
    (hm : (name, a) ∈ l) :
    ∃ before path rest, l = before ++ (name, a) :: rest ∧ an.Awaited before path name ∧
      (∀ c ∈ path, c ∉ Ledger.names before) ∧ an.Entry before path name a ∧ an.Sound before := by
  induction h with
  | nil => simp at hm
  | @snoc l path name' a' sound awaited waiting entry ih =>
    rcases List.mem_append.1 hm with hm | hm
    · obtain ⟨before, path, rest, rfl, h⟩ := ih hm
      exact ⟨before, path, rest ++ [(name', a')], by simp, h⟩
    · obtain ⟨rfl, rfl⟩ := Prod.mk.inj (List.mem_singleton.1 hm)
      exact ⟨l, path, [], rfl, awaited, waiting, entry, sound⟩

theorem Sound.entry_of_reply (h : an.Sound l) {name : ClassName} {a : Assessment}
    (given : an.config.hardcoded? name = none) (ha : an.reply l name = .resolved a) :
    ∃ before path, an.Awaited before path name ∧ an.Entry before path name a ∧ an.Sound before := by
  rw [reply_eq_resolved_iff, given, Option.none_or] at ha
  obtain ⟨before, path, -, -, hawaited, -, hentry, hsound⟩ :=
    h.entry_of_mem (mem_of_lookup ha)
  exact ⟨before, path, hawaited, hentry, hsound⟩

end Analyser

end Immutability

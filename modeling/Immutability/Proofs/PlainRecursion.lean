import Immutability.Proofs.Grounded
import Immutability.Proofs.Steady
import Immutability.Proofs.Termination

/-!
# Sessions and plain recursion

Where no class asks about itself, not even through others, the verdicts can be computed by a
recursion that remembers nothing and knows of no waiting classes.

* `Analyser.Acyclic` says that the graph of the classes has no cycles, and `Analyser.rank` is a
  measure that decreases along it;
* `Analyser.plain` is the recursion, and `Analyser.plainStep` one round of it;
* `Analyser.answer_eq_plain` says that every session gives exactly these verdicts.
-/

namespace Immutability

/-- Only the replies to the questions that are asked matter. -/
theorem Inquiry.eval_congr {α : Type} {reads : ClassName → Option ClassFacts}
    {replies replies' : ClassName → Dependency} {q : Inquiry α}
    (h : ∀ name ∈ q.asked reads replies, replies name = replies' name) :
    q.eval reads replies = q.eval reads replies' := by
  induction q with
  | answer a => rfl
  | readFacts name next ih => exact ih (reads name) h
  | resolve name next ih =>
    have hname : replies name = replies' name := h name List.mem_cons_self
    rw [eval, eval, ← hname]
    exact ih (replies name) fun other ho => h other (List.mem_cons_of_mem _ ho)

theorem Configuration.uncyclic_of_forall {config : Configuration}
    (h : ∀ a ∈ config.hardcoded, a.hasReason .cyclicReference = false) : config.Uncyclic :=
  fun _ a ha => h a (List.mem_of_find?_eq_some ha)

namespace Analyser

variable {an : Analyser} {path path' : AnalysisPath} {name : ClassName} {c : ClassFacts}
  {replies replies' : ClassName → Dependency}

/-! ### Judgements -/

/-- A judgement rests on the reports of the checks. -/
theorem judgement_eq_of_report (h : ∀ check ∈ Check.all,
    an.report path c replies check = an.report path' c replies' check) :
    an.judgement path name c replies = an.judgement path' name c replies' := by
  have houtcome : an.outcome path c replies = an.outcome path' c replies' := by
    unfold outcome outcomeFrom
    refine List.foldl_ext _ _ _ fun o check hc => ?_
    rw [h check hc]
  rw [judgement, judgement, houtcome]

theorem judgement_congr (h : ∀ other ∈ an.lookups c, replies other = replies' other) :
    an.judgement path name c replies = an.judgement path name c replies' := by
  refine judgement_eq_of_report fun check hc => Inquiry.eval_congr fun other ho => h other ?_
  rw [asked_eq hc] at ho
  exact List.mem_flatMap.2 ⟨check, hc, ho⟩

section

variable (uncyclic : an.config.Uncyclic) (hreplies : ∀ other, (replies other).Uncyclic)
include uncyclic hreplies

/-- Without doubts about cycles, a judgement is the same on every path. -/
theorem judgement_eq_of_uncyclic (path path' : AnalysisPath) :
    an.judgement path name c replies = an.judgement path' name c replies :=
  judgement_eq_of_report fun _ hc =>
    (Check.steady_of_mem hc an.config an.facts? replies c uncyclic hreplies path path').1

/-- Doubts about cycles do not come out of nothing. -/
theorem hasReason_judgement :
    (an.judgement path name c replies).hasReason .cyclicReference = false := by
  refine Assessment.hasReason_eq_false.2 fun f hf => ?_
  rcases List.mem_append.1 hf with hf | hf
  · obtain ⟨check, hc, fs, hfs, hf⟩ := mem_findings_outcome.1 hf
    exact (Check.steady_of_mem hc an.config an.facts? replies c uncyclic hreplies path path).2
      fs hfs f hf
  · obtain ⟨failure, -, rfl⟩ := List.mem_map.1 hf
    simp

end

/-! ### The recursion -/

/-- No class asks about itself, not even through others. -/
def Acyclic (an : Analyser) : Prop := ∀ name, ¬ Relation.TransGen an.LooksUp name name

/-- The number of the readable classes that a class leads to. -/
noncomputable def rank (an : Analyser) (name : ClassName) : Nat :=
  {c | an.source.Readable c ∧ Relation.ReflTransGen an.LooksUp name c}.ncard

theorem Acyclic.rank_lt (acyclic : an.Acyclic) {other : ClassName} (h : an.LooksUp name other) :
    an.rank other < an.rank name := by
  refine Set.ncard_lt_ncard ⟨fun d hd => ⟨hd.1, .head h hd.2⟩, fun hsubset => ?_⟩
    (an.source.finite_readable.subset fun d hd => hd.1)
  -- the class itself is no longer among them, or there would be a cycle
  have hreadable : an.source.Readable name := h.2.imp fun _ hc => hc.1
  exact acyclic name (.head' h (hsubset ⟨hreadable, .refl⟩).2)

/-- The verdict on a class, by a recursion along the classes that it asks about. -/
def plain (an : Analyser) (acyclic : an.Acyclic) (name : ClassName) : Assessment :=
  match given : an.config.hardcoded? name with
  | some a => a
  | none =>
    match read : an.source.read name with
    | .error e => .couldNotAnalyse name e.message
    | .ok c =>
      an.judgement [] name c fun other =>
        if asked : other ∈ an.lookups c then
          have _hlt := acyclic.rank_lt ⟨given, c, read, asked⟩
          .resolved (plain an acyclic other)
        else assumeImmutable other
termination_by an.rank name

/-- One round of the recursion, in which `eval` has the verdicts on the other classes. -/
def plainStep (an : Analyser) (eval : ClassName → Assessment) (name : ClassName) : Assessment :=
  match an.config.hardcoded? name with
  | some a => a
  | none =>
    match an.source.read name with
    | .error e => .couldNotAnalyse name e.message
    | .ok c => an.judgement [] name c fun other => .resolved (eval other)

theorem plainStep_of_given {eval : ClassName → Assessment} {a : Assessment}
    (given : an.config.hardcoded? name = some a) : an.plainStep eval name = a := by
  simp only [plainStep, given]

theorem plainStep_of_unreadable {eval : ClassName → Assessment} {e : ReadError}
    (given : an.config.hardcoded? name = none) (read : an.source.read name = .error e) :
    an.plainStep eval name = .couldNotAnalyse name e.message := by
  simp only [plainStep, given, read]

theorem plainStep_of_readable {eval : ClassName → Assessment}
    (given : an.config.hardcoded? name = none) (read : an.source.read name = .ok c) :
    an.plainStep eval name = an.judgement [] name c fun other => .resolved (eval other) := by
  simp only [plainStep, given, read]

/-- A round of the recursion depends on the classes that are asked about only. -/
theorem plainStep_congr {eval eval' : ClassName → Assessment}
    (h : ∀ other, an.LooksUp name other → eval other = eval' other) :
    an.plainStep eval name = an.plainStep eval' name := by
  cases given : an.config.hardcoded? name with
  | some a => rw [plainStep_of_given given, plainStep_of_given given]
  | none =>
    cases read : an.source.read name with
    | error e => rw [plainStep_of_unreadable given read, plainStep_of_unreadable given read]
    | ok c =>
      rw [plainStep_of_readable given read, plainStep_of_readable given read]
      exact judgement_congr fun other ho => congrArg _ (h other ⟨given, c, read, ho⟩)

variable (acyclic : an.Acyclic)

theorem plain_eq (name : ClassName) :
    an.plain acyclic name = an.plainStep (an.plain acyclic) name := by
  fun_cases plain an acyclic name with
  | case1 a given => rw [plainStep_of_given given]
  | case2 given e read => rw [plainStep_of_unreadable given read]
  | case3 given c read =>
    rw [plainStep_of_readable given read]
    refine judgement_congr fun other ho => ?_
    rw [dif_pos ho]

/-- The equation of the recursion has one solution. -/
theorem eq_plain {eval : ClassName → Assessment}
    (h : ∀ name, eval name = an.plainStep eval name) : eval = an.plain acyclic := by
  funext name
  induction hr : an.rank name using Nat.strong_induction_on generalizing name with
  | _ rank ih =>
    subst hr
    rw [h, plain_eq]
    exact plainStep_congr fun other ho => ih _ (acyclic.rank_lt ho) other rfl

theorem hasReason_plain (uncyclic : an.config.Uncyclic) (name : ClassName) :
    (an.plain acyclic name).hasReason .cyclicReference = false := by
  fun_induction plain an acyclic name with
  | case1 name a given => exact uncyclic name a given
  | case2 name given e read => rfl
  | case3 name given c read ih =>
    refine hasReason_judgement uncyclic fun other => ?_
    split
    · next asked => exact Dependency.uncyclic_resolved (ih other asked)
    · exact Dependency.uncyclic_resolved rfl

/-- The verdicts of a session are those of the recursion. -/
theorem eq_plain_of_reply (uncyclic : an.config.Uncyclic) {l : Ledger} (hl : an.Sound l)
    {a : Assessment} (ha : an.reply l name = .resolved a) : a = an.plain acyclic name := by
  refine hl.reply_induction (motive := fun name a => a = an.plain acyclic name) ?_ ?_ name a ha
  · intro name a given
    rw [plain_eq, plainStep_of_given given]
  · intro l path name a hl hawaited hentry ih
    rw [plain_eq]
    cases hentry with
    | unreadable read => rw [plainStep_of_unreadable hawaited.given read]
    | @judged c read settled =>
      have hreplies : ∀ other ∈ an.lookups c,
          an.reply l other = .resolved (an.plain acyclic other) := by
        intro other ho
        cases hr : an.reply l other with
        | resolved b => rw [ih other b hr]
        | cyclic =>
          -- a class that waits would close a cycle
          exact absurd (hawaited.transGen_self (.judged read settled) read ho hr) (acyclic name)
      have huncyclic : ∀ other, (Dependency.resolved (an.plain acyclic other)).Uncyclic :=
        fun other => Dependency.uncyclic_resolved (hasReason_plain acyclic uncyclic other)
      calc an.judgement (path ++ [name]) name c (an.reply l)
        _ = an.judgement (path ++ [name]) name c fun other => .resolved (an.plain acyclic other) :=
          judgement_congr hreplies
        _ = an.judgement [] name c fun other => .resolved (an.plain acyclic other) :=
          judgement_eq_of_uncyclic uncyclic huncyclic _ _
        _ = an.plainStep (an.plain acyclic) name :=
          (plainStep_of_readable hawaited.given read).symm

/-- Without cycles a session is a memory for plain recursion: whatever was asked for before, the
answer about a class is that of the recursion, and it raises no doubt about a cycle. The recursion
is the one solution of its equation. -/
theorem answer_eq_plain (an : Analyser) (carryOn : an.config.policy = .carryOn)
    (acyclic : an.Acyclic) (uncyclic : an.config.Uncyclic) :
    (∀ eval, (∀ name, eval name = an.plainStep eval name) ↔ eval = an.plain acyclic) ∧
    ∀ requests name, an.answer requests name = .ok (an.plain acyclic name) ∧
      (an.plain acyclic name).hasReason .cyclicReference = false := by
  refine ⟨fun eval => ⟨eq_plain acyclic, ?_⟩, fun requests name => ⟨?_, ?_⟩⟩
  · rintro rfl
    exact plain_eq acyclic
  · obtain ⟨a, hanswer, hreply, -⟩ := exists_answer carryOn requests name
    rw [answer, hanswer, eq_plain_of_reply acyclic uncyclic (an.sound_after _) hreply]
  · exact hasReason_plain acyclic uncyclic name

theorem acyclic_boxedKey : boxedKey.Acyclic := by
  intro name hcycle
  obtain ⟨other, ⟨-, c, hread, ho⟩, -⟩ := Relation.TransGen.head'_iff.1 hcycle
  have hkey : boxedKey.lookups keyClass = [] := by decide +kernel
  obtain ⟨hmem, rfl⟩ := ClassSource.mem_of_read_ofList hread
  simp only [List.mem_cons, List.not_mem_nil, or_false] at hmem
  rcases hmem with rfl | rfl
  · simp [hkey] at ho
  · exact blameless_boxClass.not_transGen_self hcycle

theorem uncyclic_default : Configuration.default.Uncyclic :=
  Configuration.uncyclic_of_forall (by decide +kernel)

theorem answer_eq_plain_boxedKey :
    boxedKey.LooksUp boxClass.name keyClass.name ∧ boxedKey.config.policy = .carryOn ∧
    boxedKey.config.Uncyclic ∧ ∃ acyclic : boxedKey.Acyclic,
      ∀ requests name, boxedKey.answer requests name = .ok (boxedKey.plain acyclic name) ∧
        (boxedKey.plain acyclic name).hasReason .cyclicReference = false := by
  have hlooksUp : boxedKey.LooksUp boxClass.name keyClass.name :=
    ⟨rfl, boxClass, rfl, by decide +kernel⟩
  refine ⟨hlooksUp, rfl, uncyclic_default, acyclic_boxedKey, ?_⟩
  exact (answer_eq_plain boxedKey rfl acyclic_boxedKey uncyclic_default).2

end Analyser

end Immutability

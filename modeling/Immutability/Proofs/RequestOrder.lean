import Immutability.Proofs.Requests
import Immutability.Proofs.Verdicts

/-!
# Verdicts and the order of requests

A session that has served other requests may answer a request otherwise than a fresh one does.

* `Analyser.OrderIndependent` and `Analyser.PermutationIndependent` say that this does not happen, in
  terms of single requests and of lists of requests;
* `Analyser.orderIndependent_iff` says when it happens: the class is mutable, and a cycle of classes
  cuts one of the two analyses short.
-/

namespace Immutability

namespace Analyser

/-- Whatever was asked before, a request gets the verdict that a fresh session gives. -/
def OrderIndependent (an : Analyser) : Prop :=
  ∀ requests name, ∃ a b, an.answer requests name = .ok a ∧ an.answer [] name = .ok b ∧
    a.verdict = b.verdict

/-- Lists of requests that differ in their order only give every class the same verdict. -/
def PermutationIndependent (an : Analyser) : Prop :=
  ∀ names names' : List ClassName, names.Perm names' → ∃ as bs : List Assessment,
    ((an.analyseAll names).on .empty).1 = .ok as ∧
    ((an.analyseAll names').on .empty).1 = .ok bs ∧
    ∀ i j : Nat, names[i]? = names'[j]? → as[i]?.map (·.verdict) = bs[j]?.map (·.verdict)

/-- Every session that gives a verdict on a mutable class says that it is not immutable. -/
def FindsAllMutable (an : Analyser) : Prop :=
  ∀ requests name a, (an.after requests).cached? name = some a → an.Mutable name →
    a.verdict = .notImmutable

variable {an : Analyser} {name : ClassName} {requests : List ClassName} {a : Assessment}

theorem answer_of_cached (h : (an.after requests).cached? name = some a) :
    an.answer requests name = .ok a := by
  obtain ⟨before, path, rest, -, hawaited, -⟩ :=
    (an.sound_after requests).entry_of_mem (mem_of_lookup h)
  refine answer_of_reply (reply_eq_resolved_iff.2 ?_)
  rw [hawaited.given, Option.none_or]
  exact h

theorem verdict_ne_fresh_iff (carryOn : an.config.policy = .carryOn) (requests : List ClassName)
    (name : ClassName) :
    ∃ a b, an.answer requests name = .ok a ∧ an.answer [] name = .ok b ∧
      (a.verdict ≠ b.verdict ↔
        an.Mutable name ∧ an.MeetsCycle name ∧ Xor a.CutShort b.CutShort) := by
  obtain ⟨a, ha, hreply, -⟩ := exists_answer carryOn requests name
  obtain ⟨b, hb, hfresh, -⟩ := exists_answer carryOn [] name
  refine ⟨a, b, by rw [answer, ha], by rw [answer, hb], ?_⟩
  exact verdict_ne_iff (an.sound_after _) hreply (an.sound_after _) hfresh

/-- A class that waits for nobody gets a verdict on every other class that it asks about. -/
theorem Entry.exists_reply {l : Ledger} {c : ClassFacts} {other : ClassName}
    (h : an.Entry l [] name a) (hc : an.Checked name c) (ho : other ∈ an.lookups c)
    (hne : other ≠ name) : ∃ b, an.reply l other = .resolved b := by
  cases hr : an.reply l other with
  | resolved b => exact ⟨b, rfl⟩
  | cyclic =>
    obtain ⟨given, hnew⟩ := reply_eq_cyclic_iff.1 hr
    rcases (h.eq_judgement hc.read).2 other ho with h | h | h
    · simp [given] at h
    · exact absurd h hnew
    · exact absurd (by simpa using h) hne

/-- If verdicts do not depend on the order, a fresh session sees every derivation of mutability. -/
theorem OrderIndependent.notImmutable_of_mutable (h : an.OrderIndependent)
    (carryOn : an.config.policy = .carryOn) (hm : an.Mutable name)
    (ha : an.answer [] name = .ok a) : a.verdict = .notImmutable := by
  induction hm generalizing a with
  | given given verdict =>
    cases (reply_of_given given).symm.trans (reply_of_answer ha)
    exact verdict
  | own checked mem hard =>
    obtain ⟨before, path, -, hentry, -⟩ :=
      (an.sound_after _).entry_of_reply checked.given (reply_of_answer ha)
    exact (hentry.notImmutable_iff checked).2 (.inl ⟨_, mem, hard⟩)
  | @dependency name other c checked asked mutable ih =>
    by_cases hself : other = name
    · -- the derivation goes through the class itself and can do without
      exact ih (hself ▸ ha)
    · obtain ⟨a', l, ha', hledger, hnew, hl, hentry⟩ := fresh_entry carryOn checked.given
      cases ha.symm.trans ha'
      obtain ⟨b, hr⟩ := hentry.exists_reply checked asked hself
      -- the verdict on the other class is the one that a fresh session gives
      have hlater : Ledger.Later [] l (an.after [name]).ledger := ⟨_, hledger, by simp⟩
      have hb : an.answer [name] other = .ok b := by
        refine answer_of_reply ?_
        rw [reply_eq_of_later hlater (settled_of_reply hr), hr]
      obtain ⟨b₁, b₂, hb₁, hb₂, hverdict⟩ := h [name] other
      cases hb.symm.trans hb₁
      have hv : b.verdict = .notImmutable := hverdict.trans (ih hb₂)
      exact (hentry.notImmutable_iff checked).2 (.inr ⟨other, asked, b, hr, hv⟩)

theorem FindsAllMutable.notImmutable_of_reply (h : an.FindsAllMutable) (hm : an.Mutable name)
    (ha : an.reply (an.after requests).ledger name = .resolved a) : a.verdict = .notImmutable := by
  have hcached : an.config.hardcoded? name = none → a.verdict = .notImmutable := by
    intro given
    rw [reply_eq_resolved_iff, given, Option.none_or] at ha
    exact h requests name a ha hm
  cases hm with
  | given given verdict =>
    cases (reply_of_given given).symm.trans ha
    exact verdict
  | own checked _ _ => exact hcached checked.given
  | dependency checked _ _ => exact hcached checked.given

theorem orderIndependent_iff_findsAllMutable (carryOn : an.config.policy = .carryOn) :
    an.OrderIndependent ↔ an.FindsAllMutable := by
  constructor
  · intro h requests name a ha hm
    obtain ⟨a', b, ha', hb, hverdict⟩ := h requests name
    cases (answer_of_cached ha).symm.trans ha'
    exact hverdict.trans (h.notImmutable_of_mutable carryOn hm hb)
  · intro h requests name
    obtain ⟨a, b, ha, hb, hne⟩ := verdict_ne_fresh_iff carryOn requests name
    refine ⟨a, b, ha, hb, ?_⟩
    by_contra hdiff
    have hm : an.Mutable name := (hne.1 hdiff).1
    exact hdiff ((h.notImmutable_of_reply hm (reply_of_answer ha)).trans
      (h.notImmutable_of_reply hm (reply_of_answer hb)).symm)

theorem OrderIndependent.permutationIndependent (h : an.OrderIndependent)
    (carryOn : an.config.policy = .carryOn) : an.PermutationIndependent := by
  intro names names' _
  obtain ⟨as, has, hreplies⟩ := exists_answers carryOn names
  obtain ⟨bs, hbs, hreplies'⟩ := exists_answers carryOn names'
  refine ⟨as, bs, by rw [has], by rw [hbs], fun i j hij => ?_⟩
  cases hi : names[i]? with
  | none =>
    have hlen : as.length = names.length := by simpa using congrArg List.length hreplies
    have hlen' : bs.length = names'.length := by simpa using congrArg List.length hreplies'
    have hj : names'[j]? = none := hij ▸ hi
    rw [List.getElem?_eq_none_iff] at hi hj
    rw [List.getElem?_eq_none (by omega), List.getElem?_eq_none (by omega)]
  | some name =>
    obtain ⟨a, ha, hreply⟩ := exists_answer_at hreplies hi
    obtain ⟨b, hb, hreply'⟩ := exists_answer_at hreplies' (hij ▸ hi)
    obtain ⟨a', fresh, ha', hfresh, hverdict⟩ := h names name
    obtain ⟨b', fresh', hb', hfresh', hverdict'⟩ := h names' name
    cases (answer_of_reply hreply).symm.trans ha'
    cases (answer_of_reply hreply').symm.trans hb'
    cases hfresh.symm.trans hfresh'
    rw [ha, hb, Option.map_some, Option.map_some, hverdict, hverdict']

theorem PermutationIndependent.orderIndependent (h : an.PermutationIndependent)
    (carryOn : an.config.policy = .carryOn) : an.OrderIndependent := by
  intro requests name
  obtain ⟨a, ha, hreply, -⟩ := exists_answer carryOn requests name
  obtain ⟨b, hb, hfresh, -⟩ := exists_answer carryOn [] name
  refine ⟨a, b, by rw [answer, ha], by rw [answer, hb], ?_⟩
  -- the class is asked for last and, in the other order, first
  obtain ⟨as, bs, has, hbs, hsame⟩ := h _ _ (List.perm_append_singleton name requests)
  obtain ⟨as', has', hreplies⟩ := exists_answers carryOn (requests ++ [name])
  obtain ⟨bs', hbs', hreplies'⟩ := exists_answers carryOn (name :: requests)
  rw [has'] at has
  rw [hbs'] at hbs
  cases has
  cases hbs
  have hlast : (requests ++ [name])[requests.length]? = some name := by simp
  obtain ⟨a', ha', hreply'⟩ := exists_answer_at hreplies hlast
  obtain ⟨b', hb', hfresh'⟩ := exists_answer_at hreplies' (i := 0) rfl
  have hlater := (an.extends_after_append [name] requests).ledger
  rw [List.singleton_append] at hlater
  rw [reply_eq_of_later hlater (settled_of_reply hfresh)] at hfresh'
  cases hreply.symm.trans hreply'
  cases hfresh.symm.trans hfresh'
  have hverdicts := hsame requests.length 0 hlast
  rw [ha', hb'] at hverdicts
  exact Option.some.inj hverdicts

/-- Of two classes that ask about each other only, the first shows nothing against itself. When a
fresh session is asked about the second one, the first one is analysed while the second one waits,
which cuts its analysis short. -/
theorem exists_cutShort_of_mutual (first second : ClassName) {c d : ClassFacts}
    (carryOn : an.config.policy = .carryOn) (hc : an.Checked first c) (hd : an.Checked second d)
    (hne : second ≠ first) (hfirst : an.lookups c = [second]) (hsecond : an.lookups d = [first])
    (own : (an.own c).findings = []) :
    ∃ a b l, an.answer [] second = .ok b ∧ (an.after [second]).ledger = l ++ [(second, b)] ∧
      an.Entry l [] second b ∧ an.reply l first = .resolved a ∧ a.CutShort := by
  obtain ⟨b, l, hb, hledger, hnew, hl, hentry⟩ := fresh_entry carryOn hd.given
  have hasked : second ∈ an.lookups c := by simp [hfirst]
  have hasked' : first ∈ an.lookups d := by simp [hsecond]
  obtain ⟨a, ha⟩ := hentry.exists_reply hd hasked' hne.symm
  refine ⟨a, b, l, hb, hledger, hentry, ha, ?_⟩
  -- the second class was waiting when the first one was judged
  rw [reply_eq_resolved_iff, hc.given, Option.none_or] at ha
  obtain ⟨before, path, rest, rfl, -, -, hentry₁, -⟩ := hl.entry_of_mem (mem_of_lookup ha)
  have hcyclic : an.reply before second = .cyclic := by
    refine reply_eq_cyclic_iff.2 ⟨hd.given, fun h => hnew ?_⟩
    rw [Ledger.names_append]
    exact List.mem_append_left _ h
  rcases hentry₁.notImmutable_or_cutShort hc hasked (by rw [hcyclic]; rfl) with hv | hcut
  · simp [hentry₁.notImmutable_iff hc, own, hfirst, hcyclic] at hv
  · exact hcut

/-- If the second one is mutable, so is the first one, as it asks about the second. A session that is
asked about the second one takes the first one to be immutable in effect, which a fresh one does not.
-/
theorem answers_of_mutual (first second : ClassName) {c d : ClassFacts}
    (carryOn : an.config.policy = .carryOn) (hc : an.Checked first c) (hd : an.Checked second d)
    (hne : second ≠ first) (hfirst : an.lookups c = [second]) (hsecond : an.lookups d = [first])
    (own : (an.own c).findings = [])
    (hard : ∃ f ∈ (an.own d).findings, f.reason.isSoft = false) :
    ∃ a b, an.answer [second] first = .ok a ∧ an.answer [] first = .ok b ∧
      a.verdict = .effectivelyImmutable ∧ b.verdict = .notImmutable := by
  obtain ⟨b, l, hb, -, -, hl, hentry⟩ := fresh_entry carryOn hc.given
  have hasked : second ∈ an.lookups c := by simp [hfirst]
  have hb_verdict : b.verdict = .notImmutable := by
    obtain ⟨x, hx⟩ := hentry.exists_reply hc hasked hne
    obtain ⟨before, path, -, hentry₂, -⟩ := hl.entry_of_reply hd.given hx
    have hxv : x.verdict = .notImmutable := (hentry₂.notImmutable_iff hd).2 (.inl hard)
    exact (hentry.notImmutable_iff hc).2 (.inr ⟨second, hasked, x, hx, hxv⟩)
  obtain ⟨a, b', l', -, hledger', -, ha, hcut⟩ :=
    exists_cutShort_of_mutual first second carryOn hc hd hne hfirst hsecond own
  have hanswer : an.answer [second] first = .ok a := by
    have hlater : Ledger.Later [] l' (an.after [second]).ledger := ⟨_, hledger', by simp⟩
    refine answer_of_reply ?_
    rw [reply_eq_of_later hlater (settled_of_reply ha), ha]
  exact ⟨a, b, hanswer, hb, hcut.1, hb_verdict⟩

/-- A final class that holds one that can be extended. -/
def finalHolder : ClassFacts :=
  ((ClassFacts.named (.ofString "com.acme.A")).withFlags .finalFlag).holding
    (.ofString "com.acme.B")

/-- A class that can be extended and holds the final one. -/
def openHolder : ClassFacts :=
  (ClassFacts.named (.ofString "com.acme.B")).holding finalHolder.name

/-- The two classes under the default configuration. -/
def mutualHolders : Analyser := ⟨.ofList [finalHolder, openHolder], .default⟩

theorem answers_mutualHolders :
    ∃ a b, mutualHolders.answer [openHolder.name] finalHolder.name = .ok a ∧
      mutualHolders.answer [] finalHolder.name = .ok b ∧
      a.verdict = .effectivelyImmutable ∧ b.verdict = .notImmutable := by
  refine answers_of_mutual finalHolder.name openHolder.name rfl ⟨rfl, rfl, ?_⟩ ⟨rfl, rfl, ?_⟩
    ?_ ?_ ?_ ?_ ?_
  all_goals decide +kernel

/-- When verdicts depend on the order of requests. They do not, whether single requests or lists of
requests are compared, exactly if every session that gives a verdict on a mutable class finds it
mutable. Every request is answered in any case, and its verdict differs from that of a fresh session
exactly if the class is mutable and a cycle that it leads to cuts one of the two analyses short. -/
theorem orderIndependent_iff (an : Analyser) (carryOn : an.config.policy = .carryOn) :
    (an.OrderIndependent ↔ an.FindsAllMutable) ∧
    (an.OrderIndependent ↔ an.PermutationIndependent) ∧
    ∀ requests name, ∃ a b, an.answer requests name = .ok a ∧ an.answer [] name = .ok b ∧
      (a.verdict ≠ b.verdict ↔
        an.Mutable name ∧ an.MeetsCycle name ∧ Xor a.CutShort b.CutShort) :=
  ⟨orderIndependent_iff_findsAllMutable carryOn,
    ⟨fun h => h.permutationIndependent carryOn, fun h => h.orderIndependent carryOn⟩,
    verdict_ne_fresh_iff carryOn⟩

theorem orderIndependent_iff_mutualHolders :
    mutualHolders.config.policy = .carryOn ∧
    ∃ a b, mutualHolders.answer [openHolder.name] finalHolder.name = .ok a ∧
      mutualHolders.answer [] finalHolder.name = .ok b ∧
      (a.verdict ≠ b.verdict ↔
        mutualHolders.Mutable finalHolder.name ∧ mutualHolders.MeetsCycle finalHolder.name ∧
          Xor a.CutShort b.CutShort) :=
  ⟨rfl, (orderIndependent_iff mutualHolders rfl).2.2 _ _⟩

/-- Verdicts depend on the order of requests. -/
theorem not_orderIndependent_mutualHolders :
    mutualHolders.config.policy = .carryOn ∧ ¬ mutualHolders.OrderIndependent ∧
      ¬ mutualHolders.PermutationIndependent := by
  have hnot : ¬ mutualHolders.OrderIndependent := by
    intro h
    obtain ⟨a, b, ha, hb, hva, hvb⟩ := answers_mutualHolders
    obtain ⟨a', b', ha', hb', hverdict⟩ := h [openHolder.name] finalHolder.name
    cases ha.symm.trans ha'
    cases hb.symm.trans hb'
    rw [hva, hvb] at hverdict
    cases hverdict
  exact ⟨rfl, hnot, fun h => hnot (h.orderIndependent rfl)⟩

end Analyser

end Immutability

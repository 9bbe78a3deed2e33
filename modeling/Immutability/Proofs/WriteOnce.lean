import Immutability.Proofs.Requests

/-!
# The memory of a session is written once

A verdict that has been stored stays, and a request that is aborted leaves no verdict on the classes
that were waiting.

* `Ledger.lookup_reverse` says that the first verdict on a class is also the last one, and
  `Analyser.Tidy` what the memory looks like after any requests;
* `Session.Retains` compares the memory at two times;
* `Analyser.LeavesOpen` is what an aborted request leaves behind;
* `Analyser.memory_writtenOnce` puts them together.
-/

namespace Immutability

/-- Of distinct classes, each has the verdict with which it was entered. -/
theorem Ledger.lookup_eq_some {l : Ledger} (h : l.names.Nodup) {name : ClassName} {a : Assessment} :
    l.lookup name = some a ↔ (name, a) ∈ l := by
  refine ⟨mem_of_lookup, fun hm => ?_⟩
  obtain ⟨l₁, l₂, rfl⟩ := List.append_of_mem hm
  have hnew : name ∉ names l₁ := by
    rw [names_append] at h
    exact fun h₁ => (List.nodup_append.1 h).2.2 name h₁ name List.mem_cons_self rfl
  rw [List.lookup_append, lookup_eq_none.2 hnew, Option.none_or, List.lookup_cons_self]

/-- Of distinct classes, none is entered twice, so that the first verdict on a class is also the
last one. -/
theorem Ledger.lookup_reverse {l : Ledger} (h : l.names.Nodup) (name : ClassName) :
    l.reverse.lookup name = l.lookup name := by
  have hreverse : Ledger.names l.reverse = l.names.reverse := List.map_reverse
  have hnodup : (Ledger.names l.reverse).Nodup := hreverse ▸ List.nodup_reverse.2 h
  ext a
  exact (lookup_eq_some hnodup).trans (List.mem_reverse.trans (lookup_eq_some h).symm)

/-- The session `s'` still holds what `s` held, in the same order. -/
structure Session.Retains (s s' : Session) : Prop where
  analysed : s.analysed <+: s'.analysed
  failures : s.failures <+: s'.failures
  cached : ∀ name a, s.cached? name = some a → s'.cached? name = some a

theorem Session.Extends.retains {path : AnalysisPath} {s s' : Session} (h : s.Extends path s') :
    s.Retains s' := by
  refine ⟨?_, h.failures, fun name a ha => ?_⟩
  · obtain ⟨new, hnew, -⟩ := h.ledger
    exact ⟨Ledger.names new, by rw [analysed, analysed, hnew, List.map_append]; rfl⟩
  · have hn : name ∈ Ledger.names s.ledger := Ledger.mem_names.2 ⟨a, mem_of_lookup ha⟩
    exact (h.ledger.lookup_eq (.inl hn)).trans ha

namespace Analyser

/-- The memory of a session is in order: the analysed classes are distinct, they are the ones with a
verdict to look up, which is the one that was stored, first as well as last, and none of them has a
given verdict. -/
structure Tidy (an : Analyser) (s : Session) : Prop where
  distinct : s.analysed.Nodup
  keys : ∀ name, name ∈ s.analysed ↔ (s.cached? name).isSome
  stored : ∀ name a, s.cached? name = some a ↔ (name, a) ∈ s.ledger
  latest : ∀ name, s.ledger.reverse.lookup name = s.cached? name
  given : ∀ name ∈ s.analysed, an.config.hardcoded? name = none

/-- The request for `name`, made in the session `s`, ends with the abort `e`. It was raised in a
visit, and it has ended all the visits around it; neither the classes that were waiting then nor the
class that was asked for, which is the first of them, has a verdict. -/
structure LeavesOpen (an : Analyser) (s : Session) (name : ClassName) (e : Abort) (s' : Session) :
    Prop where
  raised : ∃ v, an.Nested s name v ∧ an.visit v = (.error e, s') ∧ an.Raises v s'.analysed e
  unfinished : ∀ v e' t, an.Nested s name v → an.visit v = (.error e', t) →
    e' = e ∧ t = s' ∧ v.chain.head? = some name ∧ ∀ c ∈ v.chain, c ∉ s'.analysed

variable {an : Analyser} {l : Ledger} {s s' : Session} {name : ClassName} {e : Abort}

theorem Sound.nodup_names (h : an.Sound l) : l.names.Nodup := by
  induction h with
  | nil => exact List.nodup_nil
  | snoc _ awaited _ _ ih =>
    rw [Ledger.names_append, Ledger.names_singleton, List.nodup_append]
    refine ⟨ih, by simp, ?_⟩
    rintro c hc d hd rfl
    exact awaited.new (List.mem_singleton.1 hd ▸ hc)

theorem Sound.given_eq_none (h : an.Sound l) (hn : name ∈ l.names) :
    an.config.hardcoded? name = none := by
  obtain ⟨a, ha⟩ := Ledger.mem_names.1 hn
  obtain ⟨before, path, rest, -, hawaited, -⟩ := h.entry_of_mem ha
  exact hawaited.given

theorem Sound.tidy (h : an.Sound s.ledger) : an.Tidy s where
  distinct := h.nodup_names
  keys name := by
    rw [← Option.ne_none_iff_isSome, ne_eq, Session.cached?, Ledger.lookup_eq_none, not_not]
    rfl
  stored _ _ := Ledger.lookup_eq_some h.nodup_names
  latest := Ledger.lookup_reverse h.nodup_names
  given _ hn := h.given_eq_none hn

theorem notMem_analysed {c : ClassName} (h : s.cached? c = none) : c ∉ s.analysed :=
  Ledger.lookup_eq_none.1 h

theorem visit_of_analyse_error (h : (an.analyse name).on s = (.error e, s')) :
    an.config.hardcoded? name = none ∧ s.cached? name = none ∧
      an.visit (.first s name) = (.error e, s') := by
  unfold analyse at h
  cases hg : an.config.hardcoded? name with
  | some a =>
    simp only [hg] at h
    cases h
  | none =>
    simp only [hg] at h
    rw [Analysis.on_bind_ok (Analysis.on_get s)] at h
    cases hl : s.cached? name with
    | some a =>
      simp only [hl] at h
      cases h
    | none =>
      simp only [hl] at h
      exact ⟨rfl, rfl, h⟩

theorem leavesOpen_of_error (h : (an.analyse name).on s = (.error e, s')) :
    an.LeavesOpen s name e s' := by
  obtain ⟨given, new, hfirst⟩ := visit_of_analyse_error h
  refine ⟨?_, fun v e' t hv hend => ?_⟩
  · obtain ⟨v, hspawned, hend, hraises⟩ := exists_raises (.first s name) hfirst
    exact ⟨v, ⟨given, new, hspawned⟩, hend, hraises⟩
  · -- the abort has gone all the way up to the request
    obtain ⟨rfl, rfl⟩ : e' = e ∧ t = s' := by
      have hsame := (visit_of_reflTransGen hv.spawned hend).symm.trans hfirst
      simpa using hsame
    refine ⟨rfl, rfl, hv.head_chain, fun c hc => notMem_analysed ?_⟩
    exact (extends_of_assess_error hend).cached?_eq_none hc (hv.inOrder.new c hc)

/-- The memory of a session is written once, under either policy and whatever requests are aborted.
It is in order at all times, it only grows, an aborted request leaves the waiting classes open, and
a request that has been answered is answered in the same way ever after, with nothing read and
nothing remembered anew. -/
theorem memory_writtenOnce (an : Analyser) (requests : List ClassName) :
    an.Tidy (an.after requests) ∧
    (∀ more, (an.after requests).Retains (an.after (requests ++ more))) ∧
    (∀ name e s', (an.analyse name).on (an.after requests) = (.error e, s') →
      an.LeavesOpen (an.after requests) name e s') ∧
    ∀ name a, an.answer requests name = .ok a → ∀ more,
      (an.analyse name).on (an.after (requests ++ name :: more)) =
        (.ok a, an.after (requests ++ name :: more)) := by
  refine ⟨(an.sound_after requests).tidy, fun more => (an.extends_after_append _ _).retains,
    fun name e s' h => leavesOpen_of_error h, fun name a h more => analyse_of_reply ?_⟩
  have hreply := reply_of_answer h
  have hlater := (an.extends_after_append (requests ++ [name]) more).ledger
  rw [← hreply, ← reply_eq_of_later hlater (settled_of_reply hreply), List.append_assoc,
    List.singleton_append]

end Analyser

end Immutability

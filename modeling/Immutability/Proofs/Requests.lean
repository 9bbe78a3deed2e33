import Immutability.Proofs.Visits

/-!
# The requests to a session

* `Analyser.after` is the session after some requests, and `Analyser.answer` the answer to one more;
* `Analyser.sound_after` is the account of the ledger of every such session, and
  `Analyser.extends_after_append` says that later requests only add to it;
* `Analyser.analyse_of_reply` says that a verdict is given again without any work;
* `Analyser.exists_answer` says that under the policy `carryOn` every request is answered.
-/

namespace Immutability

namespace Analyser

variable {an : Analyser} {l : Ledger} {s : Session}

/-- The session after some requests, of which each may have been completed or aborted. -/
def after (an : Analyser) (requests : List ClassName) : Session :=
  requests.foldl (fun s name => ((an.analyse name).on s).2) .empty

@[simp] theorem after_nil (an : Analyser) : an.after [] = .empty := rfl

@[simp] theorem after_append_singleton (an : Analyser) (requests : List ClassName)
    (name : ClassName) :
    an.after (requests ++ [name]) = ((an.analyse name).on (an.after requests)).2 := by
  simp [after]

/-- A class that is asked for by itself waits for nobody. -/
theorem awaited_nil {name : ClassName} (given : an.config.hardcoded? name = none)
    (new : name ∉ l.names) : an.Awaited l [] name :=
  ⟨given, new, by simp, by simp⟩

/-- A class that has no verdict yet is analysed, and its verdict is entered last. -/
theorem analyse_ensures_of_new {name : ClassName} (given : an.config.hardcoded? name = none)
    (new : name ∉ Ledger.names s.ledger) (hs : an.Sound s.ledger) :
    (an.analyse name).Ensures s (an.Entered [] s.ledger name) (an.Stopped [] s.ledger) := by
  have hcached : s.cached? name = none := Ledger.lookup_eq_none.2 new
  simp only [analyse, given]
  refine .get_bind ?_
  simp only [hcached]
  exact assess_ensures [] name (by simp) s ⟨hs, by simp⟩ (awaited_nil given new)

/-- A request is answered from the configuration or from the ledger, where the verdict is entered
first if need be. -/
theorem analyse_ensures (name : ClassName) (hs : an.Sound s.ledger) :
    (an.analyse name).Ensures s
      (fun a s' => an.Advances [] s.ledger s' ∧ an.reply s'.ledger name = .resolved a)
      (an.Stopped [] s.ledger) := by
  have hs' : an.Orderly [] s := ⟨hs, by simp⟩
  cases hg : an.config.hardcoded? name with
  | some a =>
    simp only [analyse, hg]
    exact .pure ⟨.refl hs', reply_of_given hg⟩
  | none =>
    cases hl : s.cached? name with
    | some a =>
      simp only [analyse, hg]
      refine .get_bind ?_
      simp only [hl]
      refine .pure ⟨.refl hs', reply_eq_resolved_iff.2 ?_⟩
      rw [hg, Option.none_or]
      exact hl
    | none =>
      have hnew : name ∉ Ledger.names s.ledger := Ledger.lookup_eq_none.1 hl
      exact (analyse_ensures_of_new hg hnew hs).mono (fun a s₂ h => ⟨h.1, h.reply_eq hg⟩)
        fun _ h => h

/-- The answer to a request for the verdict on a class, after some others. -/
def answer (an : Analyser) (requests : List ClassName) (name : ClassName) :
    Except Abort Assessment :=
  ((an.analyse name).on (an.after requests)).1

theorem sound_after (an : Analyser) (requests : List ClassName) :
    an.Sound (an.after requests).ledger := by
  induction requests using List.reverseRecOn with
  | nil => exact .nil
  | append_singleton requests name ih =>
    rw [after_append_singleton]
    have h := analyse_ensures name ih
    unfold Analysis.Ensures at h
    split at h
    · next hon => rw [hon]; exact h.1.orderly.sound
    · next hon => rw [hon]; exact h.2.orderly.sound

variable {name : ClassName} {requests : List ClassName} {a : Assessment}

theorem keeps_analyse (name : ClassName) : Analysis.Keeps [] (an.analyse name) := by
  unfold analyse
  cases an.config.hardcoded? name with
  | some a => exact .pure a
  | none =>
    refine Analysis.Keeps.get.bind fun t => ?_
    cases t.cached? name with
    | some a => exact .pure a
    | none => exact keeps_assess [] name (by simp)

/-- Later requests only add to what a session remembers. -/
theorem extends_after_append (an : Analyser) (xs ys : List ClassName) :
    (an.after xs).Extends [] (an.after (xs ++ ys)) := by
  induction ys using List.reverseRecOn with
  | nil =>
    rw [List.append_nil]
    exact .refl _ _
  | append_singleton ys name ih =>
    rw [← List.append_assoc, after_append_singleton]
    exact ih.trans (keeps_analyse name _)

theorem settled_of_reply {l : Ledger} (h : an.reply l name = .resolved a) :
    an.Settled [] l name := by
  cases hg : an.config.hardcoded? name with
  | some b => exact .inl (by simp [hg])
  | none =>
    rw [reply_eq_resolved_iff, hg, Option.none_or] at h
    exact .inr (.inl (Ledger.mem_names.2 ⟨a, mem_of_lookup h⟩))

/-- A verdict is given again without any work. -/
theorem analyse_of_reply (h : an.reply s.ledger name = .resolved a) :
    (an.analyse name).on s = (.ok a, s) := by
  rw [reply_eq_resolved_iff] at h
  unfold analyse
  cases hg : an.config.hardcoded? name with
  | some b =>
    rw [hg, Option.some_or] at h
    cases h
    rfl
  | none =>
    rw [hg, Option.none_or] at h
    have hcached : s.cached? name = some a := h
    simp only
    rw [Analysis.on_bind_ok (Analysis.on_get s)]
    simp only [hcached]
    rfl

/-- A class with a verdict is answered for with this verdict. -/
theorem answer_of_reply (h : an.reply (an.after requests).ledger name = .resolved a) :
    an.answer requests name = .ok a := by
  rw [answer, analyse_of_reply h]

/-- What has been answered is remembered. -/
theorem reply_of_answer (h : an.answer requests name = .ok a) :
    an.reply (an.after (requests ++ [name])).ledger name = .resolved a := by
  have hensures := analyse_ensures name (an.sound_after requests)
  rw [answer] at h
  rw [after_append_singleton]
  unfold Analysis.Ensures at hensures
  split at hensures
  · next hon =>
    rw [hon] at h ⊢
    cases h
    exact hensures.2
  · next hon =>
    rw [hon] at h
    cases h

/-! ### Sessions that carry on -/

theorem not_stopped (carryOn : an.config.policy = .carryOn) (path : AnalysisPath) (l : Ledger)
    (s : Session) : ¬ an.Stopped path l s := by
  rintro ⟨failFast, -⟩
  cases carryOn.symm.trans failFast

/-- Under the policy `carryOn` every request is answered, from then on in the same way. -/
theorem exists_answer (carryOn : an.config.policy = .carryOn) (requests : List ClassName)
    (name : ClassName) :
    ∃ a, (an.analyse name).on (an.after requests) = (.ok a, an.after (requests ++ [name])) ∧
      an.reply (an.after (requests ++ [name])).ledger name = .resolved a ∧
      Ledger.Later [] (an.after requests).ledger (an.after (requests ++ [name])).ledger := by
  obtain ⟨a, s, hon, hadvances, hreply⟩ :=
    (analyse_ensures name (an.sound_after requests)).exists_ok (not_stopped carryOn _ _)
  rw [after_append_singleton, hon]
  exact ⟨a, rfl, hreply, hadvances.later⟩

/-- In a fresh session the class that is asked for waits for nobody and is completed last. -/
theorem fresh_entry (carryOn : an.config.policy = .carryOn)
    (given : an.config.hardcoded? name = none) :
    ∃ a l, an.answer [] name = .ok a ∧ (an.after [name]).ledger = l ++ [(name, a)] ∧
      name ∉ Ledger.names l ∧ an.Sound l ∧ an.Entry l [] name a := by
  obtain ⟨a, s, hon, -, l, hl, hentry⟩ :=
    (analyse_ensures_of_new (s := .empty) given (by simp [Session.empty, Ledger.names])
      .nil).exists_ok (not_stopped carryOn _ _)
  refine ⟨a, l, ?_, ?_, hentry⟩
  · rw [answer, after_nil, hon]
  · rw [← List.nil_append [name], after_append_singleton, after_nil, hon]
    exact hl

/-- The answers to a list of requests are those that the session gives in the end. -/
theorem exists_answers (carryOn : an.config.policy = .carryOn) (names : List ClassName) :
    ∃ as, (an.analyseAll names).on .empty = (.ok as, an.after names) ∧
      as.map .resolved = names.map (an.reply (an.after names).ledger) := by
  induction names using List.reverseRecOn with
  | nil => exact ⟨[], rfl, rfl⟩
  | append_singleton names name ih =>
    obtain ⟨as, has, hreplies⟩ := ih
    obtain ⟨a, ha, hreply, hlater⟩ := exists_answer carryOn names name
    refine ⟨as ++ [a], ?_, ?_⟩
    · have hall : an.analyseAll (names ++ [name]) = do
          let as ← an.analyseAll names
          let a ← an.analyse name
          return as ++ [a] := by
        simp [analyseAll]
      rw [hall, Analysis.on_bind_ok has, Analysis.on_bind_ok ha]
      rfl
    · rw [List.map_append, List.map_append, hreplies, List.map_singleton, List.map_singleton, hreply]
      congr 1
      -- the last request has not changed the earlier answers
      refine List.map_congr_left fun other ho => ?_
      have hmem : an.reply (an.after names).ledger other ∈ as.map .resolved :=
        hreplies ▸ List.mem_map_of_mem ho
      obtain ⟨b, -, hb⟩ := List.mem_map.1 hmem
      exact (reply_eq_of_later hlater (settled_of_reply hb.symm)).symm

theorem exists_answer_at {names : List ClassName} {as : List Assessment}
    {replies : ClassName → Dependency} (h : as.map .resolved = names.map replies) {i : Nat}
    (hi : names[i]? = some name) : ∃ a, as[i]? = some a ∧ replies name = .resolved a := by
  have hmap : as[i]?.map .resolved = names[i]?.map replies := by
    rw [← List.getElem?_map, h, List.getElem?_map]
  rw [hi, Option.map_some] at hmap
  obtain ⟨a, ha, hreply⟩ := Option.map_eq_some_iff.1 hmap
  exact ⟨a, ha, hreply.symm⟩

end Analyser

end Immutability

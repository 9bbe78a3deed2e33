import Immutability.Proofs.Inquiry
import Immutability.Session

/-!
# Work in a session

* `Analysis.on` is what work in a session returns and the session that it leaves behind, with one
  equation for every way to put such work together;
* `Inquiry.gives_of_run` says that the answer of an inquiry in a session is one that some replies
  lead to;
* `Analysis.Ensures` says what holds after the work, whether it was completed or aborted;
* `Analyser.assess_unreadable` and `Analyser.assess_readable` are the equations of the analysis of a
  class.
-/

namespace Immutability

namespace Analysis

variable {α β : Type}

/-- What work in a session returns, and the session that it leaves behind. -/
def on (x : Analysis α) (s : Session) : Except Abort α × Session := x.run.run s

theorem on_get (s : Session) : on get s = (.ok s, s) := rfl

theorem on_modify (f : Session → Session) (s : Session) : on (modify f) s = (.ok ⟨⟩, f s) := rfl

theorem on_bind (x : Analysis α) (f : α → Analysis β) (s : Session) :
    on (x >>= f) s =
      match on x s with
      | (.ok a, s') => on (f a) s'
      | (.error e, s') => (.error e, s') := by
  simp only [on, ExceptT.run_bind, StateT.run_bind]
  rcases StateT.run (ExceptT.run x) s with ⟨r, s'⟩
  cases r <;> rfl

theorem on_bind_ok {x : Analysis α} {f : α → Analysis β} {s s' : Session} {a : α}
    (h : on x s = (.ok a, s')) : on (x >>= f) s = on (f a) s' := by
  rw [on_bind, h]

theorem on_bind_error {x : Analysis α} {f : α → Analysis β} {s s' : Session} {e : Abort}
    (h : on x s = (.error e, s')) : on (x >>= f) s = (.error e, s') := by
  rw [on_bind, h]

/-! ### What holds after work -/

/-- The work ends with `done` of its result and the session behind it, or is aborted with `aborted`
of the session behind it. -/
def Ensures (x : Analysis α) (s : Session) (done : α → Session → Prop)
    (aborted : Session → Prop) : Prop :=
  match on x s with
  | (.ok a, s') => done a s'
  | (.error _, s') => aborted s'

namespace Ensures

variable {x : Analysis α} {s : Session} {done done' : α → Session → Prop}
  {aborted aborted' : Session → Prop}

theorem pure {a : α} (h : done a s) : Ensures (Pure.pure a) s done aborted := h

theorem mono (h : Ensures x s done aborted) (hdone : ∀ a s', done a s' → done' a s')
    (haborted : ∀ s', aborted s' → aborted' s') : Ensures x s done' aborted' := by
  unfold Ensures at h ⊢
  split <;> simp_all

/-- Work that cannot be aborted is completed. -/
theorem exists_ok (h : Ensures x s done aborted) (hn : ∀ s', ¬ aborted s') :
    ∃ a s', on x s = (.ok a, s') ∧ done a s' := by
  unfold Ensures at h
  split at h
  · next a s' hx => exact ⟨a, s', hx, h⟩
  · next e s' hx => exact absurd h (hn s')

theorem bind {f : α → Analysis β} {done' : β → Session → Prop} (h : Ensures x s done aborted)
    (hf : ∀ a s', done a s' → Ensures (f a) s' done' aborted) :
    Ensures (x >>= f) s done' aborted := by
  unfold Ensures at h
  split at h
  · next a s' hx =>
    have := hf a s' h
    unfold Ensures at this ⊢
    rwa [on_bind_ok hx]
  · next e s' hx =>
    unfold Ensures
    rwa [on_bind_error hx]

theorem get_bind {f : Session → Analysis α} (h : Ensures (f s) s done aborted) :
    Ensures (get >>= f) s done aborted := by
  unfold Ensures at h ⊢
  rwa [on_bind_ok (on_get s)]

theorem modify_bind {g : Session → Session} {f : PUnit → Analysis α}
    (h : Ensures (f ⟨⟩) (g s) done aborted) : Ensures (modify g >>= f) s done aborted := by
  unfold Ensures at h ⊢
  rwa [on_bind_ok (on_modify g s)]

end Ensures

end Analysis

/-- The answer of an inquiry in a session is one that some replies lead to. -/
theorem Inquiry.gives_of_run {α : Type} {q : Inquiry α}
    {reads : ClassName → Analysis (Option ClassFacts)} {resolves : ClassName → Analysis Dependency}
    {s s' : Session} {a : α} (hrun : Analysis.on (q.run reads resolves) s = (.ok a, s')) :
    q.Gives a := by
  induction q generalizing s with
  | answer b =>
    cases hrun
    rfl
  | readFacts name next ih =>
    simp only [run, Analysis.on_bind] at hrun
    split at hrun
    · next facts s₁ _ => exact ⟨facts, ih facts hrun⟩
    · cases hrun
  | resolve name next ih =>
    simp only [run, Analysis.on_bind] at hrun
    split at hrun
    · next reply s₁ _ => exact ⟨reply, trivial, ih reply hrun⟩
    · cases hrun

/-! ### The analysis of a class -/

namespace Analyser

variable {an : Analyser} {path : AnalysisPath} {name : ClassName}

theorem assess_unreadable {e : ReadError} (h : an.source.read name = .error e)
    (fresh : name ∉ path) :
    an.assess path name fresh =
      (do modify (·.noteRead name); an.judgeUnreadable name e) := by
  rw [assess]
  congr 1
  funext _
  split
  · next e' h' =>
    cases h.symm.trans h'
    rfl
  · next facts h' => cases h.symm.trans h'

theorem assess_readable {facts : ClassFacts} (h : an.source.read name = .ok facts)
    (fresh : name ∉ path) :
    an.assess path name fresh =
      (do modify (·.noteRead name)
          an.judge (path ++ [name]) name facts (an.resolve (path ++ [name]))) := by
  rw [assess]
  congr 1
  funext _
  split
  · next e h' => cases h.symm.trans h'
  · next facts' h' =>
    cases h.symm.trans h'
    rfl

end Analyser

end Immutability

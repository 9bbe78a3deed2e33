import Immutability.Proofs.Visits
import Mathlib.Data.Finset.Card
import Mathlib.Data.Set.Card

/-!
# Every analysis comes to an end

The classes that wait for each other are distinct and can be read, so that visits are nested no
deeper than a source has classes.

* `ClassSource.size` is the number of the classes that can be read;
* `Analyser.assessWithin` is the analysis of a class with a bound on the depth of its visits, and
  `Analyser.assessWithin_eq` says that the size of the source is enough;
* `Analyser.analyse_terminates` is the account of all visits of a request.
-/

namespace Immutability

namespace ClassSource

variable {s : ClassSource}

theorem finite_readable (s : ClassSource) : {name | s.Readable name}.Finite := by
  refine s.readable.finite_toSet.subset fun name h => ?_
  obtain ⟨c, hc⟩ := h
  exact mem_readable hc

/-- The number of the classes that can be read. -/
noncomputable def size (s : ClassSource) : Nat := {name | s.Readable name}.ncard

theorem length_le_size {names : List ClassName} (distinct : names.Nodup)
    (readable : ∀ c ∈ names, s.Readable c) : names.length ≤ s.size := by
  have hsubset : (names.toFinset : Set ClassName) ⊆ {name | s.Readable name} := by
    intro c hc
    exact readable c (by simpa using hc)
  calc names.length = names.toFinset.card := (List.toFinset_card_of_nodup distinct).symm
    _ = (names.toFinset : Set ClassName).ncard := (Set.ncard_coe_finset _).symm
    _ ≤ s.size := Set.ncard_le_ncard hsubset s.finite_readable

end ClassSource

namespace Analyser

variable {an : Analyser} {path : AnalysisPath} {name : ClassName}

/-- The analysis of a class in which visits are nested to the given depth. A visit that would go
deeper is replaced by `deeper`. -/
def assessWithin (an : Analyser) (deeper : Analysis Assessment) :
    Nat → AnalysisPath → ClassName → Analysis Assessment
  | 0, _, _ => deeper
  | depth + 1, path, name => do
    modify (·.noteRead name)
    match an.source.read name with
    | .error e => an.judgeUnreadable name e
    | .ok c =>
      an.judge (path ++ [name]) name c fun other =>
        an.resolveWith (path ++ [name]) other fun _ =>
          assessWithin an deeper depth (path ++ [name]) other

/-- The verdict on a class, with visits nested to the given depth. -/
def analyseWithin (an : Analyser) (deeper : Analysis Assessment) (depth : Nat)
    (name : ClassName) : Analysis Assessment := do
  match an.config.hardcoded? name with
  | some a => return a
  | none =>
    match (← get).cached? name with
    | some a => return a
    | none => an.assessWithin deeper depth [] name

/-- The depth that is left at a path need not exceed the number of the classes that are left. -/
theorem assessWithin_eq (deeper : Analysis Assessment) {depth : Nat} (fresh : name ∉ path)
    (distinct : path.Nodup) (readable : ∀ c ∈ path, an.source.Readable c)
    (enough : an.source.size < path.length + depth) :
    an.assessWithin deeper depth path name = an.assess path name fresh := by
  induction depth generalizing path name with
  | zero =>
    have hlength := ClassSource.length_le_size distinct readable
    omega
  | succ depth ih =>
    cases hread : an.source.read name with
    | error e =>
      rw [assess_unreadable hread, assessWithin]
      simp only [hread]
    | ok c =>
      rw [assess_readable hread, assessWithin]
      simp only [hread]
      have hdistinct : (path ++ [name]).Nodup :=
        Visit.nodup_chain ⟨path, name, fresh, .empty⟩ distinct
      have hreadable : ∀ c ∈ path ++ [name], an.source.Readable c := by
        intro d hd
        rcases List.mem_append.1 hd with hd | hd
        · exact readable d hd
        · exact ⟨c, List.mem_singleton.1 hd ▸ hread⟩
      have hresolve : (fun other => an.resolveWith (path ++ [name]) other fun _ =>
          an.assessWithin deeper depth (path ++ [name]) other) = an.resolve (path ++ [name]) := by
        funext other
        rw [resolve]
        congr 1
        funext freshOther
        refine ih freshOther hdistinct hreadable ?_
        rw [List.length_append, List.length_singleton]
        omega
      rw [hresolve]

/-- Visits cannot be nested without end. -/
theorem wellFounded_spawns (an : Analyser) : WellFounded fun w v => an.Spawns v w := by
  refine Subrelation.wf (fun {w v} h => ?_) (measure fun v : Visit => an.source.unread v.path).wf
  obtain ⟨c, hread, -⟩ := h.asks
  change an.source.unread w.path < an.source.unread v.path
  rw [h.path]
  exact ClassSource.unread_append_lt hread v.fresh

/-- Every request comes to an end, whatever the session and whatever cycles there are: visits are
nested no deeper than there are readable classes and one class more, which may be unreadable. At
every visit the classes that wait are distinct, can be read, and have no verdict; and no class gets
a verdict without a visit. -/
theorem analyse_terminates (an : Analyser) (name : ClassName) :
    (∀ deeper, an.analyseWithin deeper (an.source.size + 1) name = an.analyse name) ∧
    (WellFounded fun w v => an.Spawns v w) ∧
    ∀ s : Session,
      (∀ c ∈ ((an.analyse name).on s).2.analysed,
        c ∈ s.analysed ∨ ∃ v, an.Nested s name v ∧ v.name = c) ∧
      ∀ v, an.Nested s name v →
        v.path.Nodup ∧
        (∀ c ∈ v.path, an.source.Readable c ∧ an.config.hardcoded? c = none ∧
          v.session.cached? c = none) ∧
        v.path.length ≤ an.source.size ∧
        (an.source.Readable v.name → v.chain.length ≤ an.source.size) := by
  refine ⟨fun deeper => ?_, an.wellFounded_spawns,
    fun s => ⟨fun c hc => exists_nested_of_mem_analysed hc, fun v hv => ?_⟩⟩
  · have hassess : an.assessWithin deeper (an.source.size + 1) [] name =
        an.assess [] name List.not_mem_nil :=
      assessWithin_eq deeper (by simp) List.nodup_nil (by simp) (by simp)
    unfold analyseWithin analyse
    exact hassess ▸ rfl
  · have h := hv.inOrder
    have hchain : ∀ c ∈ v.path, c ∈ v.chain := fun c hc => List.mem_append_left _ hc
    refine ⟨h.distinct,
      fun c hc => ⟨h.readable c hc, h.given c (hchain c hc), h.new c (hchain c hc)⟩,
      ClassSource.length_le_size h.distinct h.readable, fun hname => ?_⟩
    refine ClassSource.length_le_size (v.nodup_chain h.distinct) fun c hc => ?_
    rcases List.mem_append.1 hc with hc | hc
    · exact h.readable c hc
    · exact List.mem_singleton.1 hc ▸ hname

end Analyser

end Immutability

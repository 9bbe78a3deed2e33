import Immutability.Frame
import Mathlib.Tactic.SplitIfs

/-!
# What values and frames have in common

Merging is the join of an order: one value absorbs another one if it is what the two have in common.

* `Value.Absorbs` is this order of values, with its laws and `Value.merge` as an upper bound;
* `Frame.Absorbs` is the same for frames;
* `Value.rank` says how far a value is from the top of the order, and `Frame.rank_merge_lt` that a
  frame loses rank whenever a merge changes it.
-/

namespace Immutability

namespace Value

/-- Nothing about the value is lost in the merge with the other one. -/
def Absorbs (v w : Value) : Prop := v.merge w = v

@[simp] theorem merge_self (v : Value) : v.merge v = v := by
  simp [merge]

theorem Absorbs.refl (v : Value) : v.Absorbs v := merge_self v

/-- The cases of the order. -/
theorem absorbs_iff {v w : Value} :
    v.Absorbs w ↔ v = w ∨ v = top ∨ (w = null ∧ (v = this ∨ ∃ t o, v = reference t o)) ∨
      (∃ t o, v = reference t .unknown ∧ w = reference t o) ∨
      v = reference none .unknown ∧ (w = this ∨ ∃ t o, w = reference t o) := by
  unfold Absorbs merge
  cases v <;> cases w <;> simp <;> grind

theorem Absorbs.trans {u v w : Value} (h : u.Absorbs v) (h' : v.Absorbs w) : u.Absorbs w := by
  rw [absorbs_iff] at *
  grind

theorem Absorbs.antisymm {v w : Value} (h : v.Absorbs w) (h' : w.Absorbs v) : v = w := by
  rw [absorbs_iff] at h h'
  grind

/-- What two values have in common absorbs both. -/
theorem absorbs_merge (v w : Value) : (v.merge w).Absorbs v ∧ (v.merge w).Absorbs w := by
  rw [absorbs_iff, absorbs_iff]
  unfold merge
  cases v <;> cases w <;> grind

/-- What absorbs two values absorbs what they have in common. -/
theorem Absorbs.merge {u v w : Value} (h : u.Absorbs v) (h' : u.Absorbs w) :
    u.Absorbs (v.merge w) := by
  rw [absorbs_iff] at *
  unfold Value.merge
  cases v <;> cases w <;> grind

/-- The number of values on the longest way up from a value, with the value itself. -/
def rank : Value → Nat
  | top => 1
  | primitive _ => 2
  | uninitialized _ _ => 2
  | reference none .unknown => 2
  | reference (some _) .unknown => 3
  | reference _ _ => 4
  | this => 3
  | null => 5

theorem rank_bounds (v : Value) : 1 ≤ v.rank ∧ v.rank ≤ 5 := by
  fun_cases rank v <;> simp

/-- A merge that changes a value brings it closer to the top. -/
theorem rank_merge_lt {v w : Value} (h : v.merge w ≠ v) : (v.merge w).rank < v.rank := by
  have hup := (absorbs_merge v w).1
  generalize v.merge w = u at h hup
  rcases absorbs_iff.1 hup with heq | rfl | ⟨rfl, rfl | ⟨t, o, rfl⟩⟩ | ⟨t, o, rfl, rfl⟩ |
    ⟨rfl, rfl | ⟨t, o, rfl⟩⟩
  · exact absurd heq h
  · fun_cases rank v <;> simp_all [rank]
  · simp [rank]
  · cases t <;> cases o <;> simp [rank]
  · cases t <;> cases o <;> simp_all [rank]
  · simp [rank]
  · cases t <;> cases o <;> simp_all [rank]

/-- The order of values, entry by entry. -/
def AbsorbsAll (vs ws : List Value) : Prop := List.zipWith merge vs ws = vs

namespace AbsorbsAll

theorem cons_iff {v w : Value} {vs ws : List Value} :
    AbsorbsAll (v :: vs) (w :: ws) ↔ v.Absorbs w ∧ AbsorbsAll vs ws := by
  simp [AbsorbsAll, Absorbs]

theorem refl (vs : List Value) : AbsorbsAll vs vs := by
  induction vs with
  | nil => rfl
  | cons v vs ih => exact cons_iff.2 ⟨.refl v, ih⟩

theorem not_cons_nil {v : Value} {vs : List Value} : ¬ AbsorbsAll (v :: vs) [] := by
  simp [AbsorbsAll]

theorem trans {us vs ws : List Value} (h : AbsorbsAll us vs) (h' : AbsorbsAll vs ws) :
    AbsorbsAll us ws := by
  induction us generalizing vs ws with
  | nil => rfl
  | cons u us ih =>
    cases vs with
    | nil => exact absurd h not_cons_nil
    | cons v vs =>
      cases ws with
      | nil => exact absurd h' not_cons_nil
      | cons w ws =>
        rw [cons_iff] at h h' ⊢
        exact ⟨h.1.trans h'.1, ih h.2 h'.2⟩

theorem of_zipWith (vs ws : List Value) :
    AbsorbsAll (List.zipWith merge vs ws) vs ∧ AbsorbsAll (List.zipWith merge vs ws) ws := by
  induction vs generalizing ws with
  | nil => exact ⟨rfl, rfl⟩
  | cons v vs ih =>
    cases ws with
    | nil => exact ⟨rfl, rfl⟩
    | cons w ws =>
      rw [List.zipWith_cons_cons, cons_iff, cons_iff]
      exact ⟨⟨(absorbs_merge v w).1, (ih ws).1⟩, (absorbs_merge v w).2, (ih ws).2⟩

end AbsorbsAll

/-- The ranks of several values together. -/
def rankAll (vs : List Value) : Nat := vs.foldr (fun v total => v.rank + total) 0

theorem rankAll_bounds (vs : List Value) :
    vs.length ≤ rankAll vs ∧ rankAll vs ≤ 5 * vs.length := by
  induction vs with
  | nil => simp [rankAll]
  | cons v vs ih =>
    have := rank_bounds v
    simp only [rankAll, List.foldr_cons, List.length_cons] at ih ⊢
    omega

/-- A merge of several values that changes one of them brings them closer to the top. If there are
fewer values to merge with, the others are lost, and their ranks with them. -/
theorem rankAll_zipWith (vs ws : List Value) :
    List.zipWith merge vs ws = vs ∨ rankAll (List.zipWith merge vs ws) < rankAll vs := by
  induction vs generalizing ws with
  | nil => exact .inl rfl
  | cons v vs ih =>
    have hv := rank_bounds v
    cases ws with
    | nil =>
      refine .inr ?_
      simp only [rankAll, List.zipWith_nil_right, List.foldr_nil, List.foldr_cons]
      omega
    | cons w ws =>
      simp only [rankAll, List.zipWith_cons_cons, List.foldr_cons, List.cons.injEq] at ih ⊢
      by_cases hmerge : v.merge w = v
      · rw [hmerge]
        rcases ih ws with heq | hlt
        · exact .inl ⟨rfl, heq⟩
        · exact .inr (by omega)
      · have hlt := rank_merge_lt hmerge
        rcases ih ws with heq | hlt'
        · exact .inr (by rw [heq]; omega)
        · exact .inr (by omega)

end Value

namespace Frame

/-- Nothing about the frame is lost in the merge with the other one. -/
def Absorbs (f g : Frame) : Prop := f.merge g = some f

variable {f g h : Frame}

theorem merge_eq_some_iff :
    f.merge g = some h ↔ f.stack.length = g.stack.length ∧
      List.zipWith Value.merge f.locals.toList g.locals.toList = h.locals.toList ∧
      List.zipWith Value.merge f.stack g.stack = h.stack := by
  unfold merge
  split_ifs with hlen
  · rw [← Array.toList_zipWith, Array.toList_inj, Option.some.injEq]
    refine ⟨fun heq => heq ▸ ⟨hlen, rfl, rfl⟩, fun heq => ?_⟩
    rw [heq.2.1, heq.2.2]
  · simp [hlen]

theorem absorbs_iff :
    f.Absorbs g ↔ f.stack.length = g.stack.length ∧
      Value.AbsorbsAll f.locals.toList g.locals.toList ∧ Value.AbsorbsAll f.stack g.stack :=
  merge_eq_some_iff

theorem Absorbs.refl (f : Frame) : f.Absorbs f :=
  absorbs_iff.2 ⟨rfl, .refl _, .refl _⟩

theorem Absorbs.trans (hfg : f.Absorbs g) (hgh : g.Absorbs h) : f.Absorbs h := by
  rw [absorbs_iff] at *
  exact ⟨hfg.1.trans hgh.1, hfg.2.1.trans hgh.2.1, hfg.2.2.trans hgh.2.2⟩

/-- What two frames have in common absorbs both. -/
theorem absorbs_of_merge (hmerge : f.merge g = some h) : h.Absorbs f ∧ h.Absorbs g := by
  obtain ⟨hlen, hlocals, hstack⟩ := merge_eq_some_iff.1 hmerge
  have hlen' : h.stack.length = f.stack.length := by simp [← hstack, hlen]
  have hlocals' := Value.AbsorbsAll.of_zipWith f.locals.toList g.locals.toList
  have hstack' := Value.AbsorbsAll.of_zipWith f.stack g.stack
  rw [hlocals] at hlocals'
  rw [hstack] at hstack'
  exact ⟨absorbs_iff.2 ⟨hlen', hlocals'.1, hstack'.1⟩,
    absorbs_iff.2 ⟨hlen'.trans hlen, hlocals'.2, hstack'.2⟩⟩

/-- Merging keeps the number of local slots, where it is the same. -/
theorem locals_size_merge (hmerge : f.merge g = some h) (hsize : f.locals.size = g.locals.size) :
    h.locals.size = f.locals.size := by
  obtain ⟨-, hlocals, -⟩ := merge_eq_some_iff.1 hmerge
  have hlength := congrArg List.length hlocals
  simpa [hsize] using hlength.symm

/-- The ranks of all entries of a frame together. -/
def rank (f : Frame) : Nat := Value.rankAll f.locals.toList + Value.rankAll f.stack

theorem rank_bounds (f : Frame) :
    f.locals.size + f.stack.length ≤ f.rank ∧
      f.rank ≤ 5 * (f.locals.size + f.stack.length) := by
  have hlocals := Value.rankAll_bounds f.locals.toList
  have hstack := Value.rankAll_bounds f.stack
  rw [Array.length_toList] at hlocals
  unfold rank
  omega

/-- A merge that changes a frame brings it closer to the top. -/
theorem rank_merge_lt (hmerge : f.merge g = some h) (hne : h ≠ f) : h.rank < f.rank := by
  obtain ⟨-, hlocals, hstack⟩ := merge_eq_some_iff.1 hmerge
  have hl := Value.rankAll_zipWith f.locals.toList g.locals.toList
  have hs := Value.rankAll_zipWith f.stack g.stack
  rw [hlocals] at hl
  rw [hstack] at hs
  unfold rank
  rcases hl with hl | hl
  · rcases hs with hs | hs
    · obtain ⟨flocals, fstack⟩ := f
      obtain ⟨hlocals', hstack'⟩ := h
      cases Array.toList_inj.1 hl
      cases hs
      exact absurd rfl hne
    · rw [hl]
      omega
  · rcases hs with hs | hs
    · rw [hs]
      omega
    · omega

end Frame

end Immutability

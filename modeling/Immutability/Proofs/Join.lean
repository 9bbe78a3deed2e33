import Immutability.Proofs.Merge
import Mathlib.Data.List.Chain
import Mathlib.Data.List.Zip

/-!
# Merging is a join

What two values have in common is the least value that absorbs both. The laws of merging follow from
that, and with them those for frames, which are merged entry by entry.

* `Value.absorbs_merge_iff` says that a merge is a least upper bound, and `Value.merge_comm` and
  `Value.merge_assoc` are the laws;
* `Value.length_add_rank_le` counts the merges in which a value changes;
* `Frame.SameShape` says that two frames can be merged without loss of entries, and
  `Frame.exists_merge_merge` that it makes no difference which of three frames are merged first;
* `Frame.merge_isJoin` puts the laws together.
-/

namespace Immutability

namespace Value

theorem merge_comm (v w : Value) : v.merge w = w.merge v := by
  unfold merge
  cases v <;> cases w <;> grind

@[simp] theorem top_merge (v : Value) : top.merge v = top := by
  unfold merge
  cases v <;> grind

@[simp] theorem merge_top (v : Value) : v.merge top = top := by
  rw [merge_comm, top_merge]

/-- A merge is a least upper bound. -/
theorem absorbs_merge_iff {u v w : Value} :
    u.Absorbs (v.merge w) ↔ u.Absorbs v ∧ u.Absorbs w := by
  obtain ⟨hv, hw⟩ := absorbs_merge v w
  exact ⟨fun h => ⟨h.trans hv, h.trans hw⟩, fun h => h.1.merge h.2⟩

/-- Values that are absorbed by the same ones are equal. -/
theorem eq_of_forall_absorbs {v w : Value} (h : ∀ u : Value, u.Absorbs v ↔ u.Absorbs w) : v = w :=
  ((h v).1 (.refl v)).antisymm ((h w).2 (.refl w))

theorem merge_assoc (u v w : Value) : (u.merge v).merge w = u.merge (v.merge w) := by
  refine eq_of_forall_absorbs fun x => ?_
  simp only [absorbs_merge_iff, and_assoc]

/-- A value that changes in each of several merges loses rank in each of them. -/
theorem length_add_rank_le {v : Value} {ws : List Value}
    (h : (ws.scanl merge v).IsChain (· ≠ ·)) : ws.length + (ws.foldl merge v).rank ≤ v.rank := by
  induction ws generalizing v with
  | nil => simp
  | cons w ws ih =>
    rw [List.scanl_cons, List.isChain_cons] at h
    have hne : v ≠ v.merge w := h.1 _ (by rw [List.head?_scanl, Option.mem_some])
    have hlt := rank_merge_lt hne.symm
    have hrest := ih h.2
    rw [List.foldl_cons, List.length_cons]
    omega

theorem zipWith_merge_assoc (us vs ws : List Value) :
    List.zipWith merge (List.zipWith merge us vs) ws =
      List.zipWith merge us (List.zipWith merge vs ws) := by
  rw [List.zipWith_zipWith_left, List.zipWith_zipWith_right]
  simp only [merge_assoc]

end Value

namespace Frame

/-- The frames have as many local slots, and as many entries on the stack. -/
structure SameShape (f g : Frame) : Prop where
  locals : f.locals.size = g.locals.size
  stack : f.stack.length = g.stack.length

variable {f g h fg gh : Frame}

theorem merge_comm (f g : Frame) : f.merge g = g.merge f := by
  unfold merge
  rw [List.zipWith_comm_of_comm Value.merge_comm, Array.zipWith_comm_of_comm Value.merge_comm]
  simp only [eq_comm]

/-- Frames of the same shape have a frame of this shape in common. -/
theorem SameShape.exists_merge (hshape : f.SameShape g) :
    ∃ fg, f.merge g = some fg ∧ fg.SameShape f := by
  unfold merge
  rw [if_pos hshape.stack]
  refine ⟨_, rfl, ?_, ?_⟩
  · simp [hshape.locals]
  · simp [hshape.stack]

/-- Of three frames, the first two or the last two may be merged first. -/
theorem exists_merge_merge (hfg : f.merge g = some fg) (hgh : g.merge h = some gh) :
    ∃ all, fg.merge h = some all ∧ f.merge gh = some all := by
  obtain ⟨hlength, hlocals, hstack⟩ := merge_eq_some_iff.1 hfg
  obtain ⟨hlength', hlocals', hstack'⟩ := merge_eq_some_iff.1 hgh
  have hheight : fg.stack.length = h.stack.length := by simp [← hstack, hlength, hlength']
  have hheight' : f.stack.length = gh.stack.length := by simp [← hstack', hlength, hlength']
  refine ⟨⟨(List.zipWith Value.merge fg.locals.toList h.locals.toList).toArray,
    List.zipWith Value.merge fg.stack h.stack⟩, merge_eq_some_iff.2 ⟨hheight, rfl, rfl⟩,
    merge_eq_some_iff.2 ⟨hheight', ?_, ?_⟩⟩
  · rw [← hlocals, ← hlocals', Value.zipWith_merge_assoc]
  · rw [← hstack, ← hstack', Value.zipWith_merge_assoc]

/-- Merging is a join. Values are merged to their least upper bound, in any order and grouping and
with nothing above `top`; a value can be changed by merges at most four times. Frames of the same
shape have a frame of this shape in common, which does not depend on the order and grouping of the
merges either. -/
theorem merge_isJoin :
    (∀ v : Value, v.merge v = v) ∧
    (∀ v w : Value, v.merge w = w.merge v) ∧
    (∀ u v w : Value, (u.merge v).merge w = u.merge (v.merge w)) ∧
    (∀ u v w : Value, u.Absorbs (v.merge w) ↔ u.Absorbs v ∧ u.Absorbs w) ∧
    (∀ v : Value, Value.top.merge v = .top ∧ v.merge .top = .top) ∧
    (∀ (v : Value) (ws : List Value), (ws.scanl Value.merge v).IsChain (· ≠ ·) → ws.length ≤ 4) ∧
    ∀ f g h : Frame, f.SameShape g → g.SameShape h →
      f.merge f = some f ∧ ∃ fg gh all, f.merge g = some fg ∧ g.merge f = some fg ∧
        g.merge h = some gh ∧ fg.merge h = some all ∧ f.merge gh = some all ∧
        fg.SameShape f ∧ all.SameShape f := by
  refine ⟨Value.merge_self, Value.merge_comm, Value.merge_assoc,
    fun u v w => Value.absorbs_merge_iff, fun v => ⟨v.top_merge, v.merge_top⟩,
    fun v ws hchain => ?_, fun f g h hfg hgh => ?_⟩
  · have hlength := Value.length_add_rank_le hchain
    have hlow := (ws.foldl Value.merge v).rank_bounds.1
    have hhigh := v.rank_bounds.2
    omega
  · obtain ⟨fg, hmerge, hshape⟩ := hfg.exists_merge
    obtain ⟨gh, hmerge', -⟩ := hgh.exists_merge
    obtain ⟨all, hall, hall'⟩ := exists_merge_merge hmerge hmerge'
    have hshape' : fg.SameShape h :=
      ⟨hshape.locals.trans (hfg.locals.trans hgh.locals),
        hshape.stack.trans (hfg.stack.trans hgh.stack)⟩
    obtain ⟨all', hall'', hlast⟩ := hshape'.exists_merge
    obtain rfl : all = all' := Option.some.inj (hall.symm.trans hall'')
    exact ⟨Absorbs.refl f, fg, gh, all, hmerge, merge_comm f g ▸ hmerge, hmerge', hall, hall',
      hshape, hlast.locals.trans hshape.locals, hlast.stack.trans hshape.stack⟩

/-- Four changes are possible: the null reference may turn out to be a parameter, then any instance
of its class, then any reference, then anything. -/
example :
    let cls := FieldType.object (.ofString "com.acme.Key")
    ([Value.reference (some cls) (.parameter 1), .reference (some cls) .caught, .this, .top].scanl
      Value.merge .null).Nodup := by
  decide +kernel

end Frame

end Immutability

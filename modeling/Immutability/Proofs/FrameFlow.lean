import Immutability.FrameFlow
import Immutability.Proofs.Merge
import Immutability.Proofs.Steps

/-!
# The frames of a method are a post-fixpoint

When no instruction is pending any more, the frame before every instruction absorbs all that can flow
into it.

* `Frame.keeps_step` says that no instruction changes the number of local slots;
* `FrameFlow.Valid` is the invariant of the flow: an instruction whose frame has not been passed on
  is pending;
* `FrameFlow.Valid.serve` is the step, and `FrameFlow.Valid.settle` the run;
* `Method.frames_postFixpoint` is the property of the outcome.
-/

namespace Immutability

/-- Moving entries of the stack brings no new ones. -/
theorem StackMove.subset_of_apply {move : StackMove} {s t : List Value}
    (h : move.apply s = some t) : t ⊆ s := by
  unfold StackMove.apply at h
  repeat' split at h
  all_goals cases h
  all_goals
    simp only [List.subset_def, List.mem_cons]
    grind

/-! ### The number of local slots -/

namespace Frame

/-- The frame that a step returns has `n` local slots. -/
def Keeps (n : Nat) (r : Except StepError Frame) : Prop := ∀ g, r = .ok g → g.locals.size = n

namespace Keeps

variable {α : Type} {n : Nat} {f : Frame}

theorem ok (h : f.locals.size = n) : Keeps n (.ok f) := by
  rintro g ⟨⟩
  exact h

theorem bind {x : Except StepError α} {k : α → Except StepError Frame}
    (h : ∀ a, x = .ok a → Keeps n (k a)) : Keeps n (x >>= k) := by
  intro g hg
  obtain ⟨a, ha, hk⟩ := bind_eq_ok.1 hg
  exact h a ha g hk

theorem pop {k : Value × Frame → Except StepError Frame}
    (h : ∀ v g, g.locals.size = f.locals.size → Keeps n (k (v, g))) : Keeps n (f.pop >>= k) := by
  refine bind fun p hp => ?_
  unfold Frame.pop at hp
  split at hp <;> cases hp
  exact h _ _ rfl

theorem popMany {count : Nat} {k : List Value × Frame → Except StepError Frame}
    (h : ∀ vs g, g.locals.size = f.locals.size → Keeps n (k (vs, g))) :
    Keeps n (f.popMany count >>= k) := by
  refine bind fun p hp => ?_
  unfold Frame.popMany at hp
  split at hp <;> cases hp
  exact h _ _ rfl

theorem dropMany (f : Frame) (count : Nat) : Keeps f.locals.size (f.dropMany count) := by
  intro g hg
  unfold Frame.dropMany Frame.popMany at hg
  split at hg <;> cases hg
  rfl

theorem dropMany_bind {count : Nat} {k : Frame → Except StepError Frame}
    (h : ∀ g, g.locals.size = f.locals.size → Keeps n (k g)) : Keeps n (f.dropMany count >>= k) :=
  bind fun g hg => h g (dropMany f count g hg)

theorem setLocal (f : Frame) (kind : Kind) (slot : Nat) (v : Value) :
    Keeps f.locals.size (f.setLocal kind slot v) := by
  intro g hg
  unfold Frame.setLocal at hg
  split at hg <;> cases hg
  dsimp only
  split <;> simp

theorem call (f : Frame) (kind : CallKind) (method : MethodRef) :
    Keeps f.locals.size (f.call kind method) := by
  refine bind fun signature _ => popMany fun args g hg => ?_
  by_cases hstatic : kind = .static
  · simp only [hstatic, if_true]
    cases signature.result <;> exact ok hg
  · simp only [hstatic, if_false]
    refine pop fun receiver g' hg' => ?_
    have hsize : g'.locals.size = f.locals.size := hg'.trans hg
    cases receiver with
    | uninitialized cls site =>
      dsimp only
      split_ifs
      · exact ok (by simp [replace, hsize])
      · cases signature.result <;> exact ok hsize
    | top | primitive | null | this | reference => cases signature.result <;> exact ok hsize

end Keeps

/-- No instruction changes the number of local slots. -/
theorem keeps_step (f : Frame) (index : Nat) (instruction : Instruction) :
    Keeps f.locals.size (f.step index instruction) := by
  cases instruction with
  | nop | goto | constant | new => exact .ok rfl
  | load | getStatic => exact .bind fun v _ => .ok rfl
  | store kind slot => exact .pop fun v g hg => hg ▸ .setLocal g kind slot v
  | increment slot => exact .setLocal f _ slot _
  | arrayLoad kind =>
    refine .pop fun index g hg => .pop fun array g' hg' => ?_
    cases kind <;> exact .ok (hg'.trans hg)
  | arrayStore | branch | switch | raise | monitor | putField | putStatic => exact .dropMany f _
  | ret kind =>
    cases kind with
    | none => exact .ok rfl
    | some kind => exact .dropMany f _
  | stack move =>
    simp only [step]
    cases move.apply f.stack with
    | some s => exact .ok rfl
    | none => rintro g ⟨⟩
  | compute pops push =>
    refine .dropMany_bind fun g hg => ?_
    cases push <;> exact .ok hg
  | getField field => exact .dropMany_bind fun g hg => .bind fun v _ => .ok hg
  | invoke kind method => exact .call f kind method
  | invokeDynamic name descriptor bootstrap =>
    refine .bind fun signature _ => .dropMany_bind fun g hg => ?_
    cases signature.result <;> exact .ok hg
  | newArray descriptor dimensions =>
    exact .dropMany_bind fun g hg => .bind fun type _ => .ok hg
  | arrayLength | instanceOf => exact .dropMany_bind fun g hg => .ok hg
  | checkCast descriptor =>
    refine .pop fun v g hg => ?_
    cases v with
    | reference type origin => exact .bind fun type _ => .ok hg
    | top | primitive | null | this | uninitialized => exact .ok hg

/-- The frame may flow into instruction `t`: the frame before it is known and absorbs this one. -/
def FlowsInto (a : Frame) (frames : Array (Option Frame)) (t : Nat) : Prop :=
  ∃ g, frames[t]? = some (some g) ∧ g.Absorbs a

end Frame

/-! ### Flows grow -/

namespace FrameFlow

variable {n : Nat}

/-- The frame `a` may flow into instruction `t`. -/
def Covers (s : FrameFlow n) (t : Nat) (a : Frame) : Prop := a.FlowsInto s.frames.toArray t

theorem covers_iff {s : FrameFlow n} {t : Nat} {a : Frame} :
    s.Covers t a ↔ ∃ g, s.frames[t]? = some (some g) ∧ g.Absorbs a := by
  rw [Covers, Frame.FlowsInto, Vector.getElem?_toArray]

/-- All frames have `k` local slots. -/
def Uniform (k : Nat) (s : FrameFlow n) : Prop :=
  ∀ (t : Nat) (f : Frame), s.frames[t]? = some (some f) → f.locals.size = k

/-- What could flow into an instruction still can, and where the frame has changed the instruction
is pending. -/
structure Grows (s s' : FrameFlow n) : Prop where
  covers : ∀ t a, s.Covers t a → s'.Covers t a
  pending : ∀ i ∈ s.pending, i ∈ s'.pending
  changed : ∀ i : Fin n, i ∉ s'.pending → s'.frames[(i : Nat)]? = s.frames[(i : Nat)]?

namespace Grows

variable {s s' s'' : FrameFlow n}

theorem refl (s : FrameFlow n) : Grows s s := ⟨fun _ _ h => h, fun _ h => h, fun _ _ => rfl⟩

theorem trans (h : Grows s s') (h' : Grows s' s'') : Grows s s'' where
  covers t a ha := h'.covers t a (h.covers t a ha)
  pending i hi := h'.pending i (h.pending i hi)
  changed i hi := (h'.changed i hi).trans (h.changed i fun hi' => hi (h'.pending i hi'))

end Grows

theorem mem_pending_record (s : FrameFlow n) (i : Fin n) (f : Frame) :
    i ∈ (s.record i f).pending := by
  simp only [record]
  split
  · assumption
  · simp

theorem pending_record {s : FrameFlow n} {i j : Fin n} {f : Frame} (hj : j ∈ s.pending) :
    j ∈ (s.record i f).pending := by
  simp only [record]
  split
  · exact hj
  · exact List.mem_append_left _ hj

theorem getElem?_record (s : FrameFlow n) (i : Fin n) (f : Frame) (t : Nat) :
    (s.record i f).frames[t]? = if (i : Nat) = t then some (some f) else s.frames[t]? :=
  Vector.getElem?_set i.isLt

/-- A frame may be replaced by one that absorbs it. -/
theorem grows_record {s : FrameFlow n} {i : Fin n} {f : Frame}
    (h : ∀ known, s.frames[(i : Nat)]? = some (some known) → f.Absorbs known) :
    Grows s (s.record i f) where
  covers := by
    intro t a hcovers
    obtain ⟨g, hg, ha⟩ := covers_iff.1 hcovers
    rw [covers_iff, getElem?_record]
    split_ifs with ht
    · subst ht
      exact ⟨f, rfl, (h g hg).trans ha⟩
    · exact ⟨g, hg, ha⟩
  pending j hj := pending_record hj
  changed j hj := by
    have hne : (i : Nat) ≠ j := by
      intro hij
      rw [Fin.val_inj.1 hij] at hj
      exact hj (mem_pending_record s j f)
    rw [getElem?_record, if_neg hne]

theorem uniform_record {s : FrameFlow n} {i : Fin n} {f : Frame} {k : Nat} (hs : s.Uniform k)
    (hf : f.locals.size = k) : (s.record i f).Uniform k := by
  intro t g hg
  rw [getElem?_record] at hg
  split_ifs at hg
  · cases hg
    exact hf
  · exact hs t g hg

/-- What can happen when a frame reaches an instruction: it is the first one there, or it is merged
with the one that is known. -/
theorem reach_cases {s s' : FrameFlow n} {t : Nat} {a : Frame} (h : s.reach t a = .ok s') :
    ∃ ht : t < n, (s.frames[t]? = some none ∧ s' = s.record ⟨t, ht⟩ a) ∨
      ∃ known merged, s.frames[t]? = some (some known) ∧ known.merge a = some merged ∧
        s' = if merged = known then s else s.record ⟨t, ht⟩ merged := by
  unfold reach at h
  split_ifs at h with ht
  refine ⟨ht, ?_⟩
  rw [Vector.getElem?_eq_getElem ht]
  split at h
  · next hnone =>
    cases h
    exact .inl ⟨by rw [hnone], rfl⟩
  · next known hknown =>
    split at h
    · cases h
    · next merged hmerged =>
      cases h
      exact .inr ⟨known, merged, by rw [hknown], hmerged, rfl⟩

/-- A frame that has reached an instruction is absorbed there. -/
theorem reach_spec {s s' : FrameFlow n} {t : Nat} {a : Frame} (h : s.reach t a = .ok s') :
    Grows s s' ∧ s'.Covers t a ∧
      ∀ k, s.Uniform k → a.locals.size = k → s'.Uniform k := by
  obtain ⟨ht, hcases⟩ := reach_cases h
  have hcovers : ∀ f, f.Absorbs a → (s.record ⟨t, ht⟩ f).Covers t a := by
    intro f hf
    refine covers_iff.2 ⟨f, ?_, hf⟩
    rw [getElem?_record, if_pos rfl]
  rcases hcases with ⟨hnone, rfl⟩ | ⟨known, merged, hknown, hmerged, rfl⟩
  · refine ⟨grows_record fun known hknown => ?_, hcovers a (.refl a), fun k hs ha => ?_⟩
    · cases hnone.symm.trans hknown
    · exact uniform_record hs ha
  · obtain ⟨habsorbs, hincoming⟩ := Frame.absorbs_of_merge hmerged
    split_ifs with heq
    · -- nothing new has come in
      subst heq
      exact ⟨.refl s, covers_iff.2 ⟨merged, hknown, hincoming⟩, fun k hs _ => hs⟩
    · refine ⟨grows_record fun g hg => ?_, hcovers merged hincoming, fun k hs ha => ?_⟩
      · cases hknown.symm.trans hg
        exact habsorbs
      · refine uniform_record hs ?_
        have hsize : known.locals.size = k := hs t known hknown
        rw [Frame.locals_size_merge hmerged (hsize.trans ha.symm), hsize]

/-- The same for several instructions in turn. -/
theorem foldlM_reach_spec {ι : Type} {target : ι → Nat} {frame : ι → Frame} {items : List ι}
    {s s' : FrameFlow n}
    (h : items.foldlM (fun s x => s.reach (target x) (frame x)) s = .ok s') :
    Grows s s' ∧ (∀ x ∈ items, s'.Covers (target x) (frame x)) ∧
      ∀ k, s.Uniform k → (∀ x ∈ items, (frame x).locals.size = k) → s'.Uniform k := by
  induction items generalizing s with
  | nil =>
    cases h
    exact ⟨.refl _, by simp, fun k hs _ => hs⟩
  | cons x items ih =>
    rw [List.foldlM_cons] at h
    obtain ⟨s₁, h₁, h⟩ := bind_eq_ok.1 h
    obtain ⟨hgrows₁, hcovers₁, huniform₁⟩ := reach_spec h₁
    obtain ⟨hgrows, hcovers, huniform⟩ := ih h
    refine ⟨hgrows₁.trans hgrows, ?_, fun k hs hk => ?_⟩
    · rintro y hy
      rcases List.mem_cons.1 hy with rfl | hy
      · exact hgrows.covers _ _ hcovers₁
      · exact hcovers y hy
    · exact huniform k (huniform₁ k hs (hk x List.mem_cons_self))
        fun y hy => hk y (List.mem_cons_of_mem _ hy)

/-! ### Serving one instruction -/

variable {cls : ClassName} {m : Method} {s s' : FrameFlow m.code.size} {i : Fin m.code.size}

/-- The frame `f` before instruction `i` has been passed on: the instruction can be executed, and
what it leaves behind may flow into all instructions that can come next. -/
structure Served (m : Method) (frames : Array (Option Frame)) (i : Nat) (f : Frame) : Prop where
  step : ∃ instruction a, m.code[i]? = some instruction ∧ f.step i instruction = .ok a ∧
    (∀ t ∈ instruction.jumpTargets, a.FlowsInto frames t) ∧
    (instruction.fallsThrough = true → a.FlowsInto frames (i + 1))
  handlers : ∀ h ∈ m.handlers, h.covers i = true → (h.entry f).FlowsInto frames h.target

theorem Served.grows {t : Nat} {f : Frame} (hf : Served m s.frames.toArray t f) (h : Grows s s') :
    Served m s'.frames.toArray t f := by
  obtain ⟨⟨instruction, a, hcode, ha, hjumps, hfalls⟩, hhandlers⟩ := hf
  refine ⟨⟨instruction, a, hcode, ha, ?_, ?_⟩, ?_⟩
  · exact fun t ht => h.covers t a (hjumps t ht)
  · exact fun hft => h.covers _ a (hfalls hft)
  · exact fun handler hmem hc => h.covers _ _ (hhandlers handler hmem hc)

theorem serve_spec (h : serve cls m s i = .ok s') {f : Frame}
    (hf : s.frames[(i : Nat)]? = some (some f)) :
    Grows s s' ∧ Served m s'.frames.toArray i f ∧ ∀ k, s.Uniform k → s'.Uniform k := by
  have hf' : s.frames[i] = some f := by simpa using hf
  unfold serve at h
  rw [hf'] at h
  obtain ⟨s₁, h₁, h⟩ := bind_eq_ok.1 h
  obtain ⟨a, ha, h⟩ := bind_eq_ok.1 h
  obtain ⟨s₂, h₂, h⟩ := bind_eq_ok.1 h
  have hcode : m.code[(i : Nat)]? = some m.code[i] := Array.getElem?_eq_getElem i.isLt
  have hstep : f.step i m.code[i] = .ok a := mapError_eq_ok.1 ha
  obtain ⟨hgrows₁, hcovers₁, huniform₁⟩ := foldlM_reach_spec h₁
  obtain ⟨hgrows₂, hcovers₂, huniform₂⟩ := foldlM_reach_spec h₂
  have hlast : Grows s₂ s' ∧ (m.code[i].fallsThrough = true → s'.Covers (i + 1) a) ∧
      ∀ k, s₂.Uniform k → a.locals.size = k → s'.Uniform k := by
    split_ifs at h with hft hlt
    · obtain ⟨hgrows, hcovers, huniform⟩ := reach_spec h
      exact ⟨hgrows, fun _ => hcovers, huniform⟩
    · cases h
      exact ⟨.refl _, fun hft' => absurd hft' hft, fun k hs _ => hs⟩
  obtain ⟨hgrows₃, hfalls, huniform₃⟩ := hlast
  refine ⟨(hgrows₁.trans hgrows₂).trans hgrows₃, ⟨⟨_, a, hcode, hstep, ?_, hfalls⟩, ?_⟩, ?_⟩
  · intro t ht
    exact hgrows₃.covers t a (hcovers₂ t ht)
  · intro handler hmem hc
    have hactive : handler ∈ m.handlers.filter (·.covers i) := List.mem_filter.2 ⟨hmem, hc⟩
    exact hgrows₃.covers _ _ (hgrows₂.covers _ _ (hcovers₁ handler hactive))
  · intro k hs
    have hsize : f.locals.size = k := hs i f hf
    have hsize' : a.locals.size = k := (f.keeps_step i _ a hstep).trans hsize
    have hs₁ : s₁.Uniform k := huniform₁ k hs fun _ _ => hsize
    exact huniform₃ k (huniform₂ k hs₁ fun _ _ => hsize') hsize'

/-! ### Serving all instructions -/

/-- The invariant of the flow that starts with the frame `entry`: an instruction whose frame has not
been passed on is pending. -/
structure Valid (m : Method) (entry : Frame) (s : FrameFlow m.code.size) : Prop where
  start : s.Covers 0 entry
  uniform : s.Uniform entry.locals.size
  served : ∀ (i : Fin m.code.size) (f : Frame), s.frames[(i : Nat)]? = some (some f) →
    i ∉ s.pending → Served m s.frames.toArray i f

variable {entry : Frame}

theorem getElem?_start (h : 0 < m.code.size) (entry : Frame) (t : Nat) (f : Frame) :
    (FrameFlow.start h entry).frames[t]? = some (some f) ↔ t = 0 ∧ f = entry := by
  simp only [FrameFlow.start, Vector.getElem?_set, Vector.getElem?_replicate]
  split_ifs with h0
  · simp [← h0, eq_comm]
  · simp [Ne.symm h0]
  · simp [Ne.symm h0]

theorem valid_start (h : 0 < m.code.size) (entry : Frame) : Valid m entry (.start h entry) where
  start := covers_iff.2 ⟨entry, (getElem?_start h entry 0 entry).2 ⟨rfl, rfl⟩, .refl entry⟩
  uniform t f hf := by rw [((getElem?_start h entry t f).1 hf).2]
  served i f hf hi := by
    have h0 : (i : Nat) = 0 := ((getElem?_start h entry i f).1 hf).1
    have hi0 : i = ⟨0, h⟩ := Fin.ext h0
    exact absurd (by simp [FrameFlow.start, hi0]) hi

/-- The step: the instruction that is served is not pending any more, unless its own frame has
changed. -/
theorem Valid.serve {pending : List (Fin m.code.size)} (hs : Valid m entry s)
    (hpending : ∀ j ∈ s.pending, j = i ∨ j ∈ pending)
    (h : serve cls m { s with pending } i = .ok s') : Valid m entry s' := by
  have hother : ∀ j, j ≠ i → j ∉ pending → j ∉ s.pending :=
    fun j hji hj hmem => (hpending j hmem).elim hji hj
  have hget : s.frames[(i : Nat)]? = some s.frames[i] := Vector.getElem?_eq_getElem i.isLt
  cases hf : s.frames[i] with
  | none =>
    have hs' : s' = { s with pending } := by
      simp only [FrameFlow.serve, hf] at h
      cases h
      rfl
    subst hs'
    refine ⟨hs.start, hs.uniform, fun j g hg hj => hs.served j g hg (hother j ?_ hj)⟩
    rintro rfl
    rw [hget, hf] at hg
    cases hg
  | some f =>
    rw [hf] at hget
    obtain ⟨hgrows, hserved, huniform⟩ := serve_spec h hget
    refine ⟨hgrows.covers _ _ hs.start, huniform _ hs.uniform, fun j g hg hj => ?_⟩
    -- not pending now, so its frame is the one that was passed on
    rw [hgrows.changed j hj] at hg
    by_cases hji : j = i
    · subst hji
      cases hget.symm.trans hg
      exact hserved
    · have hj' : j ∉ s.pending := hother j hji fun hmem => hj (hgrows.pending j hmem)
      exact Served.grows (s := { s with pending }) (hs.served j g hg hj') hgrows

/-- The run: nothing is pending in the end. -/
theorem Valid.settle {left : Vector Nat m.code.size}
    {frames : Vector (Option Frame) m.code.size} (hs : Valid m entry s)
    (h : settle cls m s left = .ok frames) : Valid m entry ⟨frames, []⟩ := by
  fun_induction FrameFlow.settle cls m s left with
  | case1 s left hnil =>
    cases h
    exact ⟨hs.start, hs.uniform, fun i f hf _ => hs.served i f hf (by simp [hnil])⟩
  -- an instruction that is served too often, or cannot be served, ends the flow
  | case2 | case3 => cases h
  | case4 s left i pending hpending k hleft s' hserve ih =>
    exact ih (hs.serve (fun j hj => List.mem_cons.1 (hpending ▸ hj)) hserve) h

end FrameFlow

/-- The frames of a method are a post-fixpoint of the flow: there is one for every instruction that
control can get to, all with the same number of local slots, the first one absorbs the frame in which
the method starts, and every one has been passed on. -/
theorem Method.frames_postFixpoint (m : Method) (cls : ClassName) (frames : Array (Option Frame))
    (code : 0 < m.code.size) (h : m.frames cls = .ok frames) :
    frames.size = m.code.size ∧ ∃ entry, Frame.entry m = .ok entry ∧ entry.FlowsInto frames 0 ∧
      ∀ (i : Nat) (f : Frame), frames[i]? = some (some f) →
        f.locals.size = entry.locals.size ∧ FrameFlow.Served m frames i f := by
  simp only [Method.frames, code, dif_pos] at h
  obtain ⟨entry, hentry, h⟩ := bind_eq_ok.1 h
  obtain ⟨settled, hsettled, h⟩ := bind_eq_ok.1 h
  cases h
  have hvalid := (FrameFlow.valid_start code entry).settle hsettled
  refine ⟨settled.size_toArray, entry, mapError_eq_ok.1 hentry, hvalid.start, fun i f hf => ?_⟩
  rw [Vector.getElem?_toArray] at hf
  obtain ⟨hi, -⟩ := Vector.getElem?_eq_some_iff.1 hf
  exact ⟨hvalid.uniform i f hf, hvalid.served ⟨i, hi⟩ f hf (by simp)⟩

/-- A loop in which a local slot holds either nothing or the parameter, with a handler for what goes
wrong in it. -/
def Method.lookupLoop : Method where
  name := "lookup"
  descriptor := "(Ljava/lang/Object;)V"
  access := .publicFlag
  maxLocals := 3
  code := #[.constant .null, .store .reference 2, .load .reference 2, .branch 1 7,
    .load .reference 1, .store .reference 2, .goto 2, .ret none, .store .reference 2, .goto 7]
  handlers := [⟨4, 6, 8, none⟩]

theorem Method.frames_postFixpoint_lookupLoop :
    0 < lookupLoop.code.size ∧ ∃ frames, lookupLoop.frames .object = .ok frames ∧
      frames.size = lookupLoop.code.size ∧ ∃ entry, Frame.entry lookupLoop = .ok entry ∧
        entry.FlowsInto frames 0 ∧
        ∀ (i : Nat) (f : Frame), frames[i]? = some (some f) →
          f.locals.size = entry.locals.size ∧ FrameFlow.Served lookupLoop frames i f := by
  have hok : (lookupLoop.frames .object).toOption.isSome = true := by decide +kernel
  have hcode : 0 < lookupLoop.code.size := by decide
  cases h : lookupLoop.frames .object with
  | error e =>
    rw [h] at hok
    cases hok
  | ok frames =>
    exact ⟨hcode, frames, rfl, frames_postFixpoint lookupLoop .object frames hcode h⟩

end Immutability

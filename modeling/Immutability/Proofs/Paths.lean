import Immutability.Proofs.FrameFlow
import Mathlib.Logic.Relation

/-!
# Paths through a method

A path follows control from the first instruction on, through jumps, falls and exception handlers,
and changes the frame at every step without merging it with that of another path.

* `Method.Passes` is one step of control, and `Method.Path` says which frames arrive at an
  instruction along some path;
* `Method.frames_induction` is the induction over the flow of frames: what holds of the first frame,
  is passed on and survives a merge holds of all frames of the method;
* `Method.Leads` is one step of control without regard to frames, and
  `Method.frame_known_iff_reachable` says that the frames are those of the reachable instructions.
-/

namespace Immutability

namespace Method

/-- Control can go from instruction `i` with frame `f` to another instruction with another frame. -/
inductive Passes (m : Method) (i : Nat) (f : Frame) : Nat → Frame → Prop
  | jump {instruction : Instruction} {t : Nat} {a : Frame}
    (code : m.code[i]? = some instruction) (step : f.step i instruction = .ok a)
    (target : t ∈ instruction.jumpTargets) : Passes m i f t a
  | next {instruction : Instruction} {a : Frame}
    (code : m.code[i]? = some instruction) (step : f.step i instruction = .ok a)
    (falls : instruction.fallsThrough = true) : Passes m i f (i + 1) a
  | handler {h : Handler} (mem : h ∈ m.handlers) (covers : h.covers i = true) :
    Passes m i f h.target (h.entry f)

/-- Some path from the start of the method leads to instruction `i` with frame `f`. -/
inductive Path (m : Method) : Nat → Frame → Prop
  | start {f : Frame} (entry : Frame.entry m = .ok f) : Path m 0 f
  | pass {i t : Nat} {f a : Frame} (path : Path m i f) (passes : m.Passes i f t a) : Path m t a

theorem Passes.locals_size {m : Method} {i t : Nat} {f a : Frame} (h : m.Passes i f t a) :
    a.locals.size = f.locals.size := by
  cases h with
  | jump _ step _ => exact f.keeps_step i _ a step
  | next _ step _ => exact f.keeps_step i _ a step
  | handler => rfl

/-- Where a frame has been passed on, it may flow wherever control can go. -/
theorem Passes.flowsInto {m : Method} {frames : Array (Option Frame)} {i t : Nat} {f a : Frame}
    (h : m.Passes i f t a) (served : FrameFlow.Served m frames i f) : a.FlowsInto frames t := by
  obtain ⟨⟨instruction, b, hcode, hb, hjumps, hfalls⟩, hhandlers⟩ := served
  cases h with
  | jump code step target =>
    cases hcode.symm.trans code
    cases hb.symm.trans step
    exact hjumps _ target
  | next code step falls =>
    cases hcode.symm.trans code
    cases hb.symm.trans step
    exact hfalls falls
  | handler mem covers => exact hhandlers _ mem covers

end Method

/-! ### Induction over the flow -/

namespace FrameFlow

variable {n : Nat}

/-- Every known frame has the property, which may depend on the instruction. -/
def Every (P : Nat → Frame → Prop) (s : FrameFlow n) : Prop :=
  ∀ (t : Nat) (f : Frame), s.frames[t]? = some (some f) → P t f

/-- What two frames have in common has the property if both of them have it. -/
def MergeClosed (P : Nat → Frame → Prop) : Prop :=
  ∀ (t : Nat) (f g h : Frame), P t f → P t g → f.merge g = some h → P t h

variable {P : Nat → Frame → Prop}

theorem Every.record {s : FrameFlow n} {i : Fin n} {f : Frame} (hs : s.Every P) (hf : P i f) :
    (s.record i f).Every P := by
  intro t g hg
  rw [getElem?_record] at hg
  split_ifs at hg with ht
  · cases hg
    exact ht ▸ hf
  · exact hs t g hg

theorem Every.reach {s s' : FrameFlow n} {t : Nat} {a : Frame} (hs : s.Every P)
    (merges : MergeClosed P) (ha : P t a) (h : s.reach t a = .ok s') : s'.Every P := by
  obtain ⟨ht, ⟨-, rfl⟩ | ⟨known, merged, hknown, hmerged, rfl⟩⟩ := reach_cases h
  · exact hs.record ha
  · split_ifs
    · exact hs
    · exact hs.record (merges t known a merged (hs t known hknown) ha hmerged)

variable {cls : ClassName} {m : Method} {s s' : FrameFlow m.code.size} {i : Fin m.code.size}

theorem serve_of_none (hf : s.frames[(i : Nat)]? = some none) (h : serve cls m s i = .ok s') :
    s' = s := by
  have hnone : s.frames[i] = none := by simpa using hf
  simp only [serve, hnone] at h
  cases h
  rfl

section Preserved

variable {Q : FrameFlow m.code.size → Prop} {f : Frame}

/-- What is preserved whenever a frame that instruction `i` passes on reaches another instruction is
preserved when handlers are reached. -/
theorem reachHandlers_induction {handlers : List Handler} (hsub : handlers ⊆ m.handlers)
    (reach : ∀ t a s₁ s₂, m.Passes i f t a → Q s₁ → s₁.reach t a = .ok s₂ → Q s₂) (hs : Q s)
    (h : s.reachHandlers handlers i f = .ok s') : Q s' := by
  refine foldlM_ok_induction (fun s₁ handler hmem s₂ hs₁ h => ?_) hs h
  obtain ⟨hmem, hcovers⟩ := List.mem_filter.1 hmem
  exact reach _ _ s₁ s₂ (.handler (hsub hmem) hcovers) hs₁ h

/-- It is preserved when jump targets are reached. -/
theorem reachAll_induction {instruction : Instruction} {targets : List Nat} {a : Frame}
    (code : m.code[(i : Nat)]? = some instruction) (step : f.step i instruction = .ok a)
    (hsub : targets ⊆ instruction.jumpTargets)
    (reach : ∀ t a s₁ s₂, m.Passes i f t a → Q s₁ → s₁.reach t a = .ok s₂ → Q s₂) (hs : Q s)
    (h : s.reachAll targets a = .ok s') : Q s' :=
  foldlM_ok_induction
    (fun s₁ t ht s₂ hs₁ h => reach t a s₁ s₂ (.jump code step (hsub ht)) hs₁ h) hs h

/-- It is preserved when `i` is served. -/
theorem serve_induction (hf : s.frames[(i : Nat)]? = some (some f))
    (reach : ∀ t a s₁ s₂, m.Passes i f t a → Q s₁ → s₁.reach t a = .ok s₂ → Q s₂) (hs : Q s)
    (h : serve cls m s i = .ok s') : Q s' := by
  have hf' : s.frames[i] = some f := by simpa using hf
  have hcode : m.code[(i : Nat)]? = some m.code[i] := Array.getElem?_eq_getElem i.isLt
  unfold serve at h
  rw [hf'] at h
  obtain ⟨s₁, h₁, h⟩ := bind_eq_ok.1 h
  obtain ⟨a, ha, h⟩ := bind_eq_ok.1 h
  obtain ⟨s₂, h₂, h⟩ := bind_eq_ok.1 h
  have hstep : f.step i m.code[i] = .ok a := mapError_eq_ok.1 ha
  have hs₁ : Q s₁ := reachHandlers_induction (List.Subset.refl _) reach hs h₁
  have hs₂ : Q s₂ := reachAll_induction hcode hstep (List.Subset.refl _) reach hs₁ h₂
  split_ifs at h with hfalls hlt
  · exact reach _ a s₂ s' (.next hcode hstep hfalls) hs₂ h
  · cases h
    exact hs₂

end Preserved

/-- The step: an instruction passes on a frame with the property. -/
theorem Every.serve (hs : s.Every P) (merges : MergeClosed P)
    (passes : ∀ f t a, s.frames[(i : Nat)]? = some (some f) → m.Passes i f t a → P t a)
    (h : serve cls m s i = .ok s') : s'.Every P := by
  cases hf : s.frames[i] with
  | none => exact serve_of_none (by simpa using hf) h ▸ hs
  | some f =>
    have hget : s.frames[(i : Nat)]? = some (some f) := by simpa using hf
    refine serve_induction hget (fun t a s₁ s₂ hpass hs₁ h => ?_) hs h
    exact hs₁.reach merges (passes f t a hget hpass) h

theorem serve_covers {pending : List (Fin m.code.size)}
    (h : serve cls m { s with pending } i = .ok s') {t : Nat} {a : Frame} (ha : s.Covers t a) :
    s'.Covers t a := by
  cases hf : s.frames[i] with
  | none =>
    rw [serve_of_none (s := { s with pending }) (by simpa using hf) h]
    exact ha
  | some f => exact (serve_spec h (f := f) (by simpa using hf)).1.covers t a ha

/-- What may flow into an instruction still may in the end. -/
theorem settle_covers {left : Vector Nat m.code.size}
    {frames : Vector (Option Frame) m.code.size} (h : settle cls m s left = .ok frames) {t : Nat}
    {a : Frame} (ha : s.Covers t a) : a.FlowsInto frames.toArray t := by
  fun_induction FrameFlow.settle cls m s left with
  | case1 s left hnil =>
    cases h
    exact ha
  | case2 | case3 => cases h
  | case4 s left i pending hpending k hleft s' hserve ih => exact ih h (serve_covers hserve ha)

/-- The run: a property that is passed on by every frame absorbed in the end holds in the end. -/
theorem Every.settle {left : Vector Nat m.code.size}
    {frames : Vector (Option Frame) m.code.size} (hs : s.Every P) (merges : MergeClosed P)
    (passes : ∀ i f t a, P i f → f.FlowsInto frames.toArray i → m.Passes i f t a → P t a)
    (h : settle cls m s left = .ok frames) : Every P ⟨frames, s.pending⟩ := by
  fun_induction FrameFlow.settle cls m s left with
  | case1 s left hnil =>
    cases h
    exact hs
  | case2 | case3 => cases h
  | case4 s left i pending hpending k hleft s' hserve ih =>
    refine ih (Every.serve (s := { s with pending }) hs merges (fun f t a hf hpass => ?_) hserve) h
    have hcovers : s.Covers i f := covers_iff.2 ⟨f, hf, .refl f⟩
    exact passes i f t a (hs i f hf) (settle_covers h (serve_covers hserve hcovers)) hpass

end FrameFlow

/-- The frames of a method with code are what a valid flow has settled on. -/
theorem Method.exists_valid {m : Method} {cls : ClassName} {frames : Array (Option Frame)}
    (h : m.frames cls = .ok frames) (code : 0 < m.code.size) :
    ∃ (entry : Frame) (settled : Vector (Option Frame) m.code.size), Frame.entry m = .ok entry ∧
      frames = settled.toArray ∧ FrameFlow.Valid m entry ⟨settled, []⟩ := by
  simp only [Method.frames, code, dif_pos] at h
  obtain ⟨entry, hentry, h⟩ := bind_eq_ok.1 h
  obtain ⟨settled, hsettled, h⟩ := bind_eq_ok.1 h
  cases h
  exact ⟨entry, settled, mapError_eq_ok.1 hentry, rfl,
    (FrameFlow.valid_start code entry).settle hsettled⟩

theorem Method.size_pos_of_frames {m : Method} {cls : ClassName} {frames : Array (Option Frame)}
    (h : m.frames cls = .ok frames) {i : Nat} {f : Frame} (hf : frames[i]? = some (some f)) :
    0 < m.code.size := by
  by_contra hcode
  simp only [Method.frames, hcode, dif_neg, not_false_eq_true] at h
  cases h
  simp at hf

theorem Method.size_pos_of_frames_error {m : Method} {cls : ClassName} {e : FlowError}
    (h : m.frames cls = .error e) : 0 < m.code.size := by
  by_contra hcode
  simp only [Method.frames, hcode, dif_neg, not_false_eq_true] at h
  cases h

/-- The frame of every instruction has been passed on. -/
theorem Method.served_of_frames {m : Method} {cls : ClassName} {frames : Array (Option Frame)}
    (h : m.frames cls = .ok frames) {i : Nat} {f : Frame} (hf : frames[i]? = some (some f)) :
    FrameFlow.Served m frames i f := by
  obtain ⟨entry, settled, -, rfl, hvalid⟩ := exists_valid h (size_pos_of_frames h hf)
  rw [Vector.getElem?_toArray] at hf
  obtain ⟨hi, -⟩ := Vector.getElem?_eq_some_iff.1 hf
  exact hvalid.served ⟨i, hi⟩ f hf (by simp)

/-- What holds of the frame in which the method starts, is passed on from instruction to instruction
and survives a merge holds of all frames of the method. Only frames that the outcome absorbs need to
pass it on. -/
theorem Method.frames_induction {m : Method} {cls : ClassName} {frames : Array (Option Frame)}
    (h : m.frames cls = .ok frames) {P : Nat → Frame → Prop}
    (start : ∀ f, Frame.entry m = .ok f → P 0 f)
    (passes : ∀ i f t a, P i f → f.FlowsInto frames i → m.Passes i f t a → P t a)
    (merges : FrameFlow.MergeClosed P) {i : Nat} {f : Frame}
    (hf : frames[i]? = some (some f)) : P i f := by
  unfold Method.frames at h
  split_ifs at h with code
  · obtain ⟨entry, hentry, h⟩ := bind_eq_ok.1 h
    obtain ⟨settled, hsettled, h⟩ := bind_eq_ok.1 h
    cases h
    have hstart : FrameFlow.Every P (.start code entry) := by
      intro t f hf
      obtain ⟨rfl, rfl⟩ := (FrameFlow.getElem?_start code entry t f).1 hf
      exact start f (mapError_eq_ok.1 hentry)
    rw [Vector.getElem?_toArray] at hf
    exact hstart.settle merges passes hsettled i f hf
  · cases h
    simp at hf

/-! ### Reachable instructions -/

namespace Method

variable {m : Method} {cls : ClassName} {frames : Array (Option Frame)}

/-- Control may go from instruction `j` to instruction `i`, as far as the code tells. -/
inductive Leads (m : Method) (j : Nat) : Nat → Prop
  | jump {instruction : Instruction} {t : Nat} (code : m.code[j]? = some instruction)
    (target : t ∈ instruction.jumpTargets) : Leads m j t
  | next {instruction : Instruction} (code : m.code[j]? = some instruction)
    (falls : instruction.fallsThrough = true) : Leads m j (j + 1)
  | handler {h : Handler} (inside : j < m.code.size) (mem : h ∈ m.handlers)
    (covers : h.covers j = true) : Leads m j h.target

theorem Passes.leads {i t : Nat} {f a : Frame} (h : m.Passes i f t a) (hi : i < m.code.size) :
    m.Leads i t := by
  cases h with
  | jump code _ target => exact .jump code target
  | next code _ falls => exact .next code falls
  | handler mem covers => exact .handler hi mem covers

/-- A frame that has been passed on is followed by one wherever the code leads. -/
theorem exists_frame_of_leads {j i : Nat} {f : Frame} (served : FrameFlow.Served m frames j f)
    (h : m.Leads j i) : ∃ g, frames[i]? = some (some g) := by
  obtain ⟨⟨instruction, a, hcode, -, hjumps, hfalls⟩, hhandlers⟩ := served
  cases h with
  | jump code target =>
    cases hcode.symm.trans code
    obtain ⟨g, hg, -⟩ := hjumps _ target
    exact ⟨g, hg⟩
  | next code falls =>
    cases hcode.symm.trans code
    obtain ⟨g, hg, -⟩ := hfalls falls
    exact ⟨g, hg⟩
  | handler _ mem covers =>
    obtain ⟨g, hg, -⟩ := hhandlers _ mem covers
    exact ⟨g, hg⟩

theorem size_of_frames (h : m.frames cls = .ok frames) : frames.size = m.code.size := by
  by_cases code : 0 < m.code.size
  · obtain ⟨entry, settled, -, rfl, -⟩ := exists_valid h code
    exact settled.size_toArray
  · simp only [Method.frames, code, dif_neg, not_false_eq_true] at h
    cases h
    exact (Nat.eq_zero_of_not_pos code).symm

/-- The frames of a method are those of its reachable instructions: there is one for each instruction
that control may get to from the first one, and there are no others. -/
theorem frame_known_iff_reachable (m : Method) (cls : ClassName) (frames : Array (Option Frame))
    (h : m.frames cls = .ok frames) :
    frames.size = m.code.size ∧ ∀ i : Nat, (∃ f, frames[i]? = some (some f)) ↔
      0 < m.code.size ∧ Relation.ReflTransGen m.Leads 0 i := by
  refine ⟨size_of_frames h, fun i => ⟨?_, ?_⟩⟩
  · rintro ⟨f, hf⟩
    refine ⟨size_pos_of_frames h hf, ?_⟩
    refine frames_induction (P := fun i _ => Relation.ReflTransGen m.Leads 0 i) h
      (fun _ _ => .refl) ?_ (fun _ _ _ _ hf _ _ => hf) hf
    rintro i f t a hreach ⟨g, hg, -⟩ hpass
    have hi : i < m.code.size := size_of_frames h ▸ (Array.getElem?_eq_some_iff.1 hg).1
    exact hreach.tail (hpass.leads hi)
  · rintro ⟨code, hreach⟩
    induction hreach with
    | refl =>
      obtain ⟨entry, settled, -, rfl, hvalid⟩ := exists_valid h code
      obtain ⟨g, hg, -⟩ := hvalid.start
      exact ⟨g, hg⟩
    | tail _ hleads ih =>
      obtain ⟨f, hf⟩ := ih
      exact exists_frame_of_leads (served_of_frames h hf) hleads

/-- A method with a protected instruction, and with a handler of which the protected instructions
are skipped. -/
def skippedHandler : Method where
  name := "close"
  descriptor := "()V"
  access := .publicFlag
  maxLocals := 1
  code := #[.load .reference 0, .monitor, .goto 5, .constant .null, .raise, .ret none, .raise,
    .raise]
  handlers := [⟨1, 2, 6, none⟩, ⟨3, 5, 7, none⟩]

theorem frame_known_iff_reachable_skippedHandler :
    ∃ frames, skippedHandler.frames .object = .ok frames ∧
      (∃ f, frames[6]? = some (some f)) ∧ frames[7]? = some none ∧
      frames.size = skippedHandler.code.size ∧ ∀ i : Nat, (∃ f, frames[i]? = some (some f)) ↔
        0 < skippedHandler.code.size ∧ Relation.ReflTransGen skippedHandler.Leads 0 i := by
  have hframes : ∃ frames ∈ (skippedHandler.frames .object).toOption,
      (frames[6]?.join).isSome = true ∧ frames[7]? = some none := by decide +kernel
  obtain ⟨frames, hmem, h6, h7⟩ := hframes
  have h := mem_toOption_iff.1 hmem
  refine ⟨frames, h, ?_, h7, frame_known_iff_reachable skippedHandler .object frames h⟩
  obtain ⟨f, hf⟩ := Option.isSome_iff_exists.1 h6
  exact ⟨f, Option.join_eq_some_iff.1 hf⟩

end Method

end Immutability

import Immutability.Proofs.Agreement
import Immutability.Proofs.Receiver
import Immutability.Proofs.Serving

/-!
# The order of serving

The frames of a method come from serving the pending instructions first come, first served, each at
most so often. Here any pending instruction may be served next, as often as it takes.

* `FrameFlow.Always` says what is sure to hold in the end, and `FrameFlow.always_of_progress` is the
  rule to prove it: an invariant under which every pending instruction can be served;
* `FrameFlow.Within` says that the frames known so far are bounded by those of a flow that has
  settled, and `FrameFlow.Within.exists_serve` that serving keeps it so;
* `Method.frames_agree_inEveryOrder` says that all orders lead to frames that agree;
* `Method.not_inEveryOrder_view` is a method for which the order matters.
-/

namespace Immutability

namespace FrameFlow

variable {n : Nat} {cls : ClassName} {m : Method}

/-- Whichever pending instruction is served next, again and again, all of them can be served, an end
is reached, and the frames known then have the property. -/
inductive Always (cls : ClassName) (m : Method)
    (P : Vector (Option Frame) m.code.size → Prop) : FrameFlow m.code.size → Prop
  | intro {s : FrameFlow m.code.size} (settled : s.pending = [] → P s.frames)
    (serves : ∀ i ∈ s.pending, ∃ s', serve cls m (s.without i) i = .ok s')
    (turns : ∀ s', Turn cls m s s' → Always cls m P s') : Always cls m P s

/-- The rule for all orders: no row of turns goes on for ever, so an invariant under which every
pending instruction can be served is enough. -/
theorem always_of_progress {P : Vector (Option Frame) m.code.size → Prop}
    {I : FrameFlow m.code.size → Prop} (settled : ∀ s, I s → s.pending = [] → P s.frames)
    (serves : ∀ s, I s → ∀ i ∈ s.pending, ∃ s', serve cls m (s.without i) i = .ok s' ∧ I s')
    {s : FrameFlow m.code.size} (hs : I s) : Always cls m P s := by
  induction s using (wellFounded_turn cls m).induction with
  | _ s ih =>
    refine .intro (settled s hs) (fun i hi => ?_) ?_
    · obtain ⟨s', hserve, -⟩ := serves s hs i hi
      exact ⟨s', hserve⟩
    · rintro s' ⟨i, hi, hserve⟩
      obtain ⟨s'', hserve', hs''⟩ := serves s hs i hi
      cases hserve.symm.trans hserve'
      exact ih s' ⟨i, hi, hserve⟩ hs''

/-- Serve the given instructions one after the other, if each of them is pending then. -/
def follow (cls : ClassName) (m : Method) :
    List Nat → FrameFlow m.code.size → Option (FrameFlow m.code.size)
  | [], s => some s
  | i :: order, s =>
    if h : i < m.code.size then
      if ⟨i, h⟩ ∈ s.pending then
        (serve cls m (s.without ⟨i, h⟩) ⟨i, h⟩).toOption.bind (follow cls m order)
      else none
    else none

/-- What is sure to hold in the end is sure to hold after some turns. -/
theorem Always.follow {P : Vector (Option Frame) m.code.size → Prop} {order : List Nat}
    {s s' : FrameFlow m.code.size} (hs : Always cls m P s)
    (h : FrameFlow.follow cls m order s = some s') : Always cls m P s' := by
  induction order generalizing s with
  | nil =>
    cases h
    exact hs
  | cons i order ih =>
    unfold FrameFlow.follow at h
    split_ifs at h with hi hmem
    obtain ⟨s₁, h₁, h⟩ := Option.bind_eq_some_iff.1 h
    cases hs with
    | intro _ _ turns => exact ih (turns s₁ ⟨⟨i, hi⟩, hmem, mem_toOption_iff.1 h₁⟩) h

/-! ### Flows within the frames of another one -/

/-- The known frames are bounded by the given ones. -/
def Within (R : Value → Value → Prop) (final : Vector (Option Frame) n) (s : FrameFlow n) : Prop :=
  s.Every fun t f => ∃ g, final[t]? = some (some g) ∧ g.Bounds R f

/-- The frames of a flow that has settled bound other flows: they have been passed on, no entry of
an operand stack is unknown, and all instructions respect the relation. -/
structure Ceiling (R : Value → Value → Prop) (m : Method) (entry : Frame)
    (final : Vector (Option Frame) m.code.size) : Prop where
  bounding : Value.Bounding R
  respects : ∀ instruction ∈ m.code.toList, instruction.Respects R
  valid : Valid m entry ⟨final, []⟩
  definite : Method.Definite final.toArray

variable {R : Value → Value → Prop} {entry : Frame} {final : Vector (Option Frame) m.code.size}

namespace Ceiling

/-- What may flow into an instruction bounds what it bounds. -/
theorem exists_of_covers (h : Ceiling R m entry final) {t : Nat} {b a : Frame}
    (hcovers : b.FlowsInto final.toArray t) (hsize : b.locals.size = entry.locals.size)
    (hba : b.Bounds R a) : ∃ g, final[t]? = some (some g) ∧ g.Bounds R a := by
  obtain ⟨g, hg, habsorbs⟩ := covers_iff (s := ⟨final, []⟩) |>.1 hcovers
  exact ⟨g, hg, hba.absorbs h.bounding habsorbs ((h.valid.uniform t g hg).trans hsize.symm)⟩

/-- A frame that is bounded can be stepped as the bounding one. -/
theorem step (h : Ceiling R m entry final) {i : Fin m.code.size} {f g : Frame}
    (hg : final[(i : Nat)]? = some (some g)) (hf : g.Bounds R f) :
    ∃ instruction b a, m.code[(i : Nat)]? = some instruction ∧ g.step i instruction = .ok b ∧
      f.step i instruction = .ok a ∧ b.Bounds R a := by
  obtain ⟨instruction, b, hcode, hb, -⟩ := (h.valid.served i g hg (by simp)).step
  have hrespects := h.respects instruction (Array.mem_toList_iff.2 (Array.mem_of_getElem? hcode))
  have hdefinite : g.Definite := h.definite i g (by simpa using hg)
  obtain ⟨a, ha, hba⟩ :=
    Frame.follows_step h.bounding hf hdefinite i instruction hrespects b hb
  exact ⟨instruction, b, a, hcode, hb, ha, hba⟩

/-- What a bounded frame passes on is bounded. -/
theorem passes (h : Ceiling R m entry final) {i : Fin m.code.size} {t : Nat} {f g a : Frame}
    (hg : final[(i : Nat)]? = some (some g)) (hf : g.Bounds R f) (hpass : m.Passes i f t a) :
    ∃ g', final[t]? = some (some g') ∧ g'.Bounds R a := by
  have hserved := h.valid.served i g hg (by simp)
  have hsize : g.locals.size = entry.locals.size := h.valid.uniform i g hg
  obtain ⟨instruction, b, a', hcode, hb, ha', hba⟩ := h.step hg hf
  -- the bounding frame is passed on in the same way
  have hpass' : ∃ b, m.Passes i g t b ∧ b.Bounds R a := by
    cases hpass with
    | jump code step target =>
      cases hcode.symm.trans code
      cases ha'.symm.trans step
      exact ⟨b, .jump hcode hb target, hba⟩
    | next code step falls =>
      cases hcode.symm.trans code
      cases ha'.symm.trans step
      exact ⟨b, .next hcode hb falls, hba⟩
    | handler mem covers =>
      exact ⟨_, .handler mem covers, hf.locals, .cons (h.bounding.refl _) .nil⟩
  obtain ⟨b, hpass', hba⟩ := hpass'
  exact h.exists_of_covers (hpass'.flowsInto hserved) (hpass'.locals_size.trans hsize) hba

theorem start (h : Ceiling R m entry final) :
    ∃ g, final[0]? = some (some g) ∧ g.Bounds R entry :=
  h.exists_of_covers h.valid.start rfl (.refl h.bounding entry)

end Ceiling

theorem mergeClosed_bounds (hR : Value.Bounding R) (final : Vector (Option Frame) n) :
    MergeClosed fun t f => ∃ g, final[t]? = some (some g) ∧ g.Bounds R f := by
  rintro t f f' c ⟨g, hg, hf⟩ ⟨g', hg', hf'⟩ hmerge
  cases hg.symm.trans hg'
  exact ⟨g, hg, hf.merge hR hf' hmerge⟩

namespace Within

theorem start (h : Ceiling R m entry final) (code : 0 < m.code.size) :
    Within R final (.start code entry) := by
  intro t f hf
  obtain ⟨rfl, rfl⟩ := (getElem?_start code entry t f).1 hf
  exact h.start

/-- A frame that is bounded like the known ones can reach its instruction. -/
theorem exists_reach (hR : Value.Bounding R) {final : Vector (Option Frame) n} {s : FrameFlow n}
    {t : Nat} {a : Frame} (hs : s.Within R final)
    (ha : ∃ g, final[t]? = some (some g) ∧ g.Bounds R a) :
    ∃ s', s.reach t a = .ok s' ∧ s'.Within R final := by
  have hreach : ∃ s', s.reach t a = .ok s' := by
    obtain ⟨g, hg, hga⟩ := ha
    obtain ⟨ht, -⟩ := Vector.getElem?_eq_some_iff.1 hg
    unfold reach
    rw [dif_pos ht]
    cases hknown : s.frames[t] with
    | none => exact ⟨_, rfl⟩
    | some known =>
      obtain ⟨g', hg', hgknown⟩ := hs t known (by rw [Vector.getElem?_eq_getElem ht, hknown])
      cases hg.symm.trans hg'
      obtain ⟨merged, hmerged⟩ := hgknown.exists_merge hga
      dsimp only
      rw [hmerged]
      exact ⟨_, rfl⟩
  obtain ⟨s', hs'⟩ := hreach
  exact ⟨s', hs', Every.reach hs (mergeClosed_bounds hR final) ha hs'⟩

/-- The step: an instruction can be served, and all frames are still bounded. -/
theorem exists_serve (h : Ceiling R m entry final) {s : FrameFlow m.code.size}
    (hs : s.Within R final) (i : Fin m.code.size) :
    ∃ s', serve cls m s i = .ok s' ∧ s'.Within R final := by
  unfold serve
  cases hf : s.frames[i] with
  | none => exact ⟨s, rfl, hs⟩
  | some f =>
    obtain ⟨g, hg, hgf⟩ := hs i f (by simpa using hf)
    obtain ⟨instruction, -, a, hcode, -, ha, -⟩ := h.step hg hgf
    obtain rfl : m.code[i] = instruction := by simpa using hcode
    have hreach : ∀ {s : FrameFlow m.code.size} {t : Nat} {a : Frame}, m.Passes i f t a → s.Within R final →
        ∃ s', s.reach t a = .ok s' ∧ s'.Within R final :=
      fun hpass hs => hs.exists_reach h.bounding (h.passes hg hgf hpass)
    obtain ⟨s₁, h₁, hs₁⟩ : ∃ s₁, s.reachHandlers m.handlers i f = .ok s₁ ∧ s₁.Within R final := by
      refine exists_foldlM_eq_ok (fun s handler hmem hs => ?_) hs
      obtain ⟨hmem, hcovers⟩ := List.mem_filter.1 hmem
      exact hreach (.handler hmem hcovers) hs
    obtain ⟨s₂, h₂, hs₂⟩ : ∃ s₂, s₁.reachAll m.code[i].jumpTargets a = .ok s₂ ∧
        s₂.Within R final :=
      exists_foldlM_eq_ok (fun s t ht hs => hreach (.jump hcode ha ht) hs) hs₁
    have hstep : (f.step i m.code[i]).mapError (FlowError.step (m.ref cls) i) = .ok a :=
      mapError_eq_ok.2 ha
    by_cases hfalls : m.code[i].fallsThrough = true
    · obtain ⟨s₃, h₃, hs₃⟩ := hreach (.next hcode ha hfalls) hs₂
      obtain ⟨hlt, -⟩ := reach_cases h₃
      refine ⟨s₃, bind_eq_ok.2 ⟨s₁, h₁, bind_eq_ok.2 ⟨a, hstep, bind_eq_ok.2 ⟨s₂, h₂, ?_⟩⟩⟩, hs₃⟩
      rw [if_pos hfalls, if_pos hlt]
      exact h₃
    · refine ⟨s₂, bind_eq_ok.2 ⟨s₁, h₁, bind_eq_ok.2 ⟨a, hstep, bind_eq_ok.2 ⟨s₂, h₂, ?_⟩⟩⟩, hs₂⟩
      rw [if_neg hfalls]
      rfl

end Within

namespace Ceiling

/-- Frames below a ceiling on which a flow has settled are a ceiling themselves. -/
theorem of_within (h : Ceiling R m entry final) {other : Vector (Option Frame) m.code.size}
    (valid : Valid m entry ⟨other, []⟩) (within : Within R final ⟨other, []⟩) :
    Ceiling R m entry other where
  bounding := h.bounding
  respects := h.respects
  valid := valid
  definite t f hf := by
    obtain ⟨g, hg, hgf⟩ := within t f (by simpa using hf)
    exact hgf.definite h.bounding (h.definite t g (by simpa using hg))

/-- The frames of the method are below every ceiling. -/
theorem exists_of_frames (h : Ceiling R m entry final) {frames : Array (Option Frame)}
    (hentry : Frame.entry m = .ok entry) (hframes : m.frames cls = .ok frames) {t : Nat} {f : Frame}
    (hf : frames[t]? = some (some f)) : ∃ g, final[t]? = some (some g) ∧ g.Bounds R f := by
  refine Method.frames_induction (P := fun t f => ∃ g, final[t]? = some (some g) ∧ g.Bounds R f)
    hframes (fun f hf => ?_) ?_ (mergeClosed_bounds h.bounding final) hf
  · cases hf.symm.trans hentry
    exact h.start
  · rintro i f t a ⟨g, hg, hgf⟩ - hpass
    obtain ⟨hi, -⟩ := Vector.getElem?_eq_some_iff.1 hg
    exact h.passes (i := ⟨i, hi⟩) hg hgf hpass

/-- A flow that settles below a ceiling settles on frames that bound those of the method and are
bounded by them. -/
theorem rel_of_within (h : Ceiling R m entry final) {S : Value → Value → Prop}
    (hS : ∀ u v, R u v → R v u → S u v) {frames : Array (Option Frame)}
    (hentry : Frame.entry m = .ok entry) (hframes : m.frames cls = .ok frames)
    (hfinal : frames = final.toArray) {other : Vector (Option Frame) m.code.size}
    (valid : Valid m entry ⟨other, []⟩) (within : Within R final ⟨other, []⟩) (t : Nat) :
    Option.Rel (Frame.Bounds S) frames[t]?.join other.toArray[t]?.join := by
  have hother := h.of_within valid within
  cases hf : frames[t]?.join with
  | some f =>
    have hf' : frames[t]? = some (some f) := Option.join_eq_some_iff.1 hf
    obtain ⟨g, hg, hgf⟩ := hother.exists_of_frames hentry hframes hf'
    obtain ⟨f', hf'', hfg⟩ := within t g hg
    rw [hfinal, Vector.getElem?_toArray] at hf'
    cases hf'.symm.trans hf''
    rw [Vector.getElem?_toArray, hg]
    exact .some (hfg.both hgf hS)
  | none =>
    cases hg : other.toArray[t]?.join with
    | none => exact .none
    | some g =>
      rw [Vector.getElem?_toArray] at hg
      obtain ⟨f, hf', -⟩ := within t g (Option.join_eq_some_iff.1 hg)
      rw [hfinal, Vector.getElem?_toArray, hf'] at hf
      cases hf

end Ceiling

end FrameFlow

/-! ### Methods -/

/-- Frames with equal entries are equal. -/
theorem Frame.eq_of_rel {x y : Option Frame} (h : Option.Rel (Bounds Eq) x y) : x = y := by
  cases h with
  | none => rfl
  | @some f g hfg =>
    obtain ⟨flocals, fstack⟩ := f
    obtain ⟨glocals, gstack⟩ := g
    have hlocals : flocals.toList = glocals.toList := List.forall₂_eq_eq_eq ▸ hfg.locals
    have hstack : fstack = gstack := List.forall₂_eq_eq_eq ▸ hfg.stack
    rw [Array.toList_inj.1 hlocals, hstack]

namespace Method

variable {m : Method} {cls : ClassName}

/-- The frames of the method have the property in whichever order pending instructions are served,
and as often as it takes. -/
def InEveryOrder (m : Method) (cls : ClassName) (P : Array (Option Frame) → Prop) : Prop :=
  if code : 0 < m.code.size then
    ∃ entry, Frame.entry m = .ok entry ∧
      FrameFlow.Always cls m (fun frames => P frames.toArray) (.start code entry)
  else P #[]

theorem InEveryOrder.follow {P : Array (Option Frame) → Prop} (h : m.InEveryOrder cls P)
    (code : 0 < m.code.size) {entry : Frame} (hentry : Frame.entry m = .ok entry)
    {order : List Nat} {s : FrameFlow m.code.size}
    (hs : FrameFlow.follow cls m order (.start code entry) = some s) :
    FrameFlow.Always cls m (fun frames => P frames.toArray) s := by
  rw [InEveryOrder, dif_pos code] at h
  obtain ⟨entry', hentry', h⟩ := h
  cases hentry.symm.trans hentry'
  exact h.follow hs

/-- In whichever order pending instructions are served, the flow comes to an end without an error, and
its frames agree with those of the method, if no entry of an operand stack is unknown. They are the
same if no instruction looks at what is known about its operands. -/
theorem frames_agree_inEveryOrder (m : Method) (cls : ClassName) (frames : Array (Option Frame))
    (h : m.frames cls = .ok frames) (definite : Definite frames) :
    m.InEveryOrder cls fun frames' =>
      frames'.size = frames.size ∧
      (∀ t : Nat, Option.Rel (Frame.Bounds Value.Agrees) frames[t]?.join frames'[t]?.join) ∧
      ((∀ instruction ∈ m.code.toList, instruction.isBlind) → frames' = frames) := by
  unfold InEveryOrder
  split_ifs with code
  · obtain ⟨entry, final, hentry, rfl, hvalid⟩ := exists_valid h code
    have hceiling : ∀ {R}, Value.Bounding R →
        (∀ instruction ∈ m.code.toList, instruction.Respects R) →
        FrameFlow.Ceiling R m entry final :=
      fun hR hrespects => ⟨hR, hrespects, hvalid, definite⟩
    have hallows := hceiling Value.Allows.bounding fun instruction _ => instruction.respects_allows
    refine ⟨entry, hentry, ?_⟩
    -- bounded by the frames of the method in every sense that the instructions respect
    refine FrameFlow.always_of_progress (I := fun s => FrameFlow.Valid m entry s ∧
      ∀ R, FrameFlow.Ceiling R m entry final → s.Within R final) ?_ ?_ ?_
    · rintro ⟨other, pending⟩ ⟨hother, hwithin⟩ rfl
      refine ⟨?_, fun t => ?_, fun hblind => ?_⟩
      · simp
      · exact hallows.rel_of_within (fun _ _ => Value.agrees_of_allows) hentry h rfl hother
          (hwithin _ hallows) t
      · have habsorbs := hceiling Value.bounding_absorbs
          fun instruction hmem => Instruction.respects_absorbs (hblind instruction hmem)
        refine Array.ext (by simp) fun t ht ht' => ?_
        have hrel := habsorbs.rel_of_within (fun _ _ => Value.Absorbs.antisymm) hentry h rfl hother
          (hwithin _ habsorbs) t
        rw [Array.getElem?_eq_getElem ht, Array.getElem?_eq_getElem ht'] at hrel
        exact (Frame.eq_of_rel hrel).symm
    · rintro s ⟨hs, hwithin⟩ i -
      obtain ⟨s', hserve, -⟩ :=
        FrameFlow.Within.exists_serve (s := s.without i) hallows (hwithin _ hallows) i
      refine ⟨s', hserve, FrameFlow.valid_turn hs hserve, fun R hR => ?_⟩
      obtain ⟨s'', hserve', hwithin'⟩ :=
        FrameFlow.Within.exists_serve (s := s.without i) hR (hwithin R hR) i
      cases hserve.symm.trans hserve'
      exact hwithin'
    · exact ⟨FrameFlow.valid_start code entry, fun R hR => .start hR code⟩
  · simp only [Method.frames, code, dif_neg, not_false_eq_true] at h
    cases h
    exact ⟨rfl, fun _ => .none, fun _ => rfl⟩

/-- A loop of which the frames are the same in every order. -/
example : ∀ instruction ∈ lookupLoop.code.toList, instruction.isBlind := by decide +kernel

/-- A method that wraps one of two lists. Whether the wrapper is still known in the end depends on
whether the call is looked at before both lists have got there. -/
def view : Method where
  name := "view"
  descriptor := "(Ljava/util/List;Ljava/util/List;Z)Ljava/util/List;"
  access := .publicFlag
  maxLocals := 4
  code := #[.load .int 3, .branch 1 4, .load .reference 1, .goto 5, .load .reference 2,
    .invoke .static ⟨.ofString "java.util.Collections", "unmodifiableList",
      "(Ljava/util/List;)Ljava/util/List;"⟩, .ret (some .reference)]
  handlers := []

theorem view_code : 0 < view.code.size := by decide

theorem frames_agree_inEveryOrder_view :
    ∃ frames, view.frames .object = .ok frames ∧ Definite frames ∧
      view.InEveryOrder .object fun frames' =>
        frames'.size = frames.size ∧
        (∀ t : Nat, Option.Rel (Frame.Bounds Value.Agrees) frames[t]?.join frames'[t]?.join) ∧
        ((∀ instruction ∈ view.code.toList, instruction.isBlind) → frames' = frames) := by
  have hframes : ∃ frames ∈ (view.frames .object).toOption, Definite frames := by decide +kernel
  obtain ⟨frames, hmem, hdefinite⟩ := hframes
  have h := mem_toOption_iff.1 hmem
  exact ⟨frames, h, hdefinite, frames_agree_inEveryOrder view .object frames h hdefinite⟩

/-- A method that pops two entries of which the upper one is wide on one path only. -/
def mixedPair : Method where
  name := "drop"
  descriptor := "(I)V"
  access := .publicFlag
  maxLocals := 2
  code := #[.constant .int, .load .int 1, .branch 1 5, .constant .long, .goto 7, .constant .int,
    .nop, .stack .pop2, .ret none]
  handlers := []

theorem mixedPair_code : 0 < mixedPair.code.size := by decide

/-- The order matters: a method may end up with other frames, or even with an error. -/
theorem not_inEveryOrder_view :
    (∃ frames, view.frames .object = .ok frames ∧ Definite frames ∧
      ¬ view.InEveryOrder .object (· = frames)) ∧
    ∃ frames, mixedPair.frames .object = .ok frames ∧
      ¬ mixedPair.InEveryOrder .object fun _ => True := by
  constructor
  · have horder : ∃ frames ∈ (view.frames .object).toOption, ∃ entry ∈ (Frame.entry view).toOption,
        ∃ s ∈ FrameFlow.follow .object view [0, 1, 4, 2, 3, 5, 6] (.start view_code entry),
          Definite frames ∧ s.pending = [] ∧ s.frames.toArray ≠ frames := by decide +kernel
    obtain ⟨frames, hframes, entry, hentry, s, hs, hdefinite, hpending, hne⟩ := horder
    refine ⟨frames, mem_toOption_iff.1 hframes, hdefinite, fun h => ?_⟩
    cases h.follow view_code (mem_toOption_iff.1 hentry) hs with
    | intro settled _ _ => exact hne (settled hpending)
  · have horder : ∃ frames ∈ (mixedPair.frames .object).toOption,
        ∃ entry ∈ (Frame.entry mixedPair).toOption,
        ∃ s ∈ FrameFlow.follow .object mixedPair [0, 1, 2, 3, 4, 7, 5, 6] (.start mixedPair_code entry),
        ∃ i ∈ s.pending, (FrameFlow.serve .object mixedPair (s.without i) i).toOption.isNone := by
      decide +kernel
    obtain ⟨frames, hframes, entry, hentry, s, hs, i, hi, hfails⟩ := horder
    refine ⟨frames, mem_toOption_iff.1 hframes, fun h => ?_⟩
    cases h.follow mixedPair_code (mem_toOption_iff.1 hentry) hs with
    | intro _ serves _ =>
      obtain ⟨s', hs'⟩ := serves i hi
      rw [hs'] at hfails
      cases hfails

end Method

end Immutability

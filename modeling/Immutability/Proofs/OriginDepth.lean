import Immutability.Proofs.Serving

/-!
# How deep origins are remembered

A call remembers its arguments, and may itself be an argument of the next call. Since origins are
forgotten below some depth, values do not grow without bound.

* `Value.depth` is the number of calls inside of each other that a value remembers, and
  `Value.depth_truncate_le` the purpose of forgetting;
* `Frame.Leaves` lists the values that an instruction can leave in a frame, and `Frame.leaves_step`
  says that there are no others;
* `Method.Stores` says which frames are known at any time while those of a method are computed, and
  `Method.Stores.induction` is the induction over them;
* `Method.origins_bounded` is the bound.
-/

namespace Immutability

/-! ### Depth -/

mutual

/-- The number of calls inside of each other that an origin remembers. -/
def Origin.depth : Origin → Nat
  | .constructed _ args => 1 + Value.depthAll args
  | .returned _ args => 1 + Value.depthAll args
  | .parameter _ => 0
  | .field _ => 0
  | .constant => 0
  | .caught => 0
  | .newArray => 0
  | .unknown => 0

/-- The number of calls inside of each other that a value remembers. -/
def Value.depth : Value → Nat
  | .reference _ origin => origin.depth
  | .top => 0
  | .primitive _ => 0
  | .null => 0
  | .this => 0
  | .uninitialized _ _ => 0

/-- The greatest depth of some values. -/
def Value.depthAll : List Value → Nat
  | [] => 0
  | v :: vs => max v.depth (Value.depthAll vs)

end

namespace Value

theorem depthAll_le_iff {vs : List Value} {k : Nat} :
    depthAll vs ≤ k ↔ ∀ v ∈ vs, v.depth ≤ k := by
  induction vs with
  | nil => simp [depthAll]
  | cons v vs ih => simp [depthAll, ih]

theorem depth_ofType_le (type : FieldType) (origin : Origin) :
    (ofType type origin).depth ≤ origin.depth := by
  cases type with
  | primitive p => exact Nat.zero_le _
  | object cls => exact Nat.le_refl _
  | array element => exact Nat.le_refl _

/-- No more is remembered than is asked for. -/
theorem depth_truncate_le (n : Nat) (v : Value) : (v.truncate n).depth ≤ n := by
  induction n generalizing v with
  | zero =>
    cases v with
    | reference type origin => cases origin <;> simp [truncate, depth, Origin.depth]
    | top | primitive | null | this | uninitialized => simp [truncate, depth]
  | succ n ih =>
    have hargs : ∀ args : List Value, 1 + depthAll (args.map (truncate n)) ≤ n + 1 := by
      intro args
      have hall : depthAll (args.map (truncate n)) ≤ n := by
        rw [depthAll_le_iff, List.forall_mem_map]
        exact fun v _ => ih v
      omega
    cases v with
    | reference type origin =>
      cases origin with
      | constructed cls args => simpa [truncate, depth, Origin.depth] using hargs args
      | returned method args => simpa [truncate, depth, Origin.depth] using hargs args
      | parameter | field | constant | caught | newArray | unknown =>
        simp [truncate, depth, Origin.depth]
    | top | primitive | null | this | uninitialized => simp [truncate, depth]

/-- A merge takes one of the two values, or forgets where they came from. -/
theorem merge_cases (v w : Value) :
    v.merge w = v ∨ v.merge w = w ∨ v.merge w = top ∨ ∃ t, v.merge w = reference t .unknown := by
  unfold merge
  cases v <;> cases w <;> grind

theorem depth_merge_le {v w : Value} {k : Nat} (hv : v.depth ≤ k) (hw : w.depth ≤ k) :
    (v.merge w).depth ≤ k := by
  rcases merge_cases v w with h | h | h | ⟨t, h⟩ <;> rw [h]
  · exact hv
  · exact hw
  · exact Nat.zero_le k
  · exact Nat.zero_le k

theorem depth_le_of_mem_zipWith {vs ws : List Value} {v : Value} {k : Nat}
    (hvs : ∀ u ∈ vs, u.depth ≤ k) (hws : ∀ w ∈ ws, w.depth ≤ k)
    (h : v ∈ List.zipWith merge vs ws) : v.depth ≤ k := by
  obtain ⟨i, hi⟩ := List.mem_iff_getElem?.1 h
  obtain ⟨u, w, hu, hw, rfl⟩ := List.getElem?_zipWith_eq_some.1 hi
  exact depth_merge_le (hvs u (List.mem_of_getElem? hu)) (hws w (List.mem_of_getElem? hw))

end Value

/-! ### Values of a frame -/

namespace Frame

/-- The value is in some local slot or on the stack. -/
def Holds (f : Frame) (v : Value) : Prop := v ∈ f.locals ∨ v ∈ f.stack

/-- What an instruction can leave in the frame after it: a value that has been there before, maybe
with another type, one that remembers no call, or what a call makes of such values. -/
inductive Leaves (f : Frame) : Value → Prop
  | held {v : Value} (held : f.Holds v) : Leaves f v
  | plain {v : Value} (depth : v.depth = 0) : Leaves f v
  | cast {type type' : Option FieldType} {origin : Origin}
    (held : f.Holds (.reference type origin)) : Leaves f (.reference type' origin)
  | result {args : List Value} (type : FieldType) (method : MethodRef)
    (held : ∀ v ∈ args, f.Holds v) :
    Leaves f (.ofType type (.returned method (args.map (Value.truncate originDepth))))
  | made {args : List Value} (cls : ClassName) (held : ∀ v ∈ args, f.Holds v) :
    Leaves f (.instanceOf cls (.constructed cls (args.map (Value.truncate originDepth))))

/-- A step, if it succeeds, leaves only such values. -/
def Draws (f : Frame) (r : Except StepError Frame) : Prop :=
  ∀ g, r = .ok g → ∀ v, g.Holds v → f.Leaves v

/-- The frame holds all that the other one holds. -/
def Includes (f g : Frame) : Prop := ∀ v, g.Holds v → f.Holds v

theorem Includes.refl (f : Frame) : f.Includes f := fun _ h => h

theorem Includes.of_stack {f g : Frame} {s : List Value} (h : f.Includes g) (hs : s ⊆ g.stack) :
    f.Includes { g with stack := s } := by
  rintro v (hv | hv)
  · exact h v (.inl hv)
  · exact h v (.inr (hs hv))

namespace Draws

variable {α : Type} {f g : Frame}

theorem ok (h : f.Includes g) : Draws f (.ok g) := by
  rintro g' ⟨⟩ v hv
  exact .held (h v hv)

theorem push {v : Value} (h : f.Includes g) (hv : f.Leaves v) : Draws f (.ok (g.push v)) := by
  rintro g' ⟨⟩ w (hw | hw)
  · exact .held (h w (.inl hw))
  · rcases List.mem_cons.1 hw with rfl | hw
    · exact hv
    · exact .held (h w (.inr hw))

theorem bind {x : Except StepError α} {k : α → Except StepError Frame}
    (h : ∀ a, x = .ok a → Draws f (k a)) : Draws f (x >>= k) := by
  intro g hg
  obtain ⟨a, ha, hk⟩ := bind_eq_ok.1 hg
  exact h a ha g hk

theorem pop {k : Value × Frame → Except StepError Frame} (hg : f.Includes g)
    (h : ∀ v g', f.Holds v → f.Includes g' → Draws f (k (v, g'))) : Draws f (g.pop >>= k) := by
  refine bind fun p hp => ?_
  unfold Frame.pop at hp
  split at hp
  · rename_i v s hs
    cases hp
    refine h v _ (hg v (.inr ?_)) (hg.of_stack ?_)
    · rw [hs]
      exact List.mem_cons_self
    · rw [hs]
      exact List.subset_cons_self v s
  · cases hp

theorem popMany {count : Nat} {k : List Value × Frame → Except StepError Frame}
    (h : ∀ vs g, (∀ v ∈ vs, f.Holds v) → f.Includes g → Draws f (k (vs, g))) :
    Draws f (f.popMany count >>= k) := by
  refine bind fun p hp => ?_
  unfold Frame.popMany at hp
  split_ifs at hp with hcount
  cases hp
  refine h _ _ (fun v hv => .inr ?_) ((Includes.refl f).of_stack (List.drop_subset _ _))
  exact List.mem_of_mem_take (List.mem_reverse.1 hv)

theorem dropMany_bind {count : Nat} {k : Frame → Except StepError Frame}
    (h : ∀ g, f.Includes g → Draws f (k g)) : Draws f (f.dropMany count >>= k) := by
  refine bind fun g hg => ?_
  unfold Frame.dropMany Frame.popMany at hg
  split_ifs at hg with hcount
  · cases hg
    exact h _ ((Includes.refl f).of_stack (List.drop_subset _ _))
  · cases hg

theorem dropMany (f : Frame) (count : Nat) : Draws f (f.dropMany count) := by
  intro g hg
  exact dropMany_bind (fun g hg => ok hg) g (bind_eq_ok.2 ⟨g, hg, rfl⟩)

theorem setLocal {kind : Kind} {slot : Nat} {v : Value} (hg : f.Includes g) (hv : f.Leaves v) :
    Draws f (g.setLocal kind slot v) := by
  intro g' hg' w hw
  unfold Frame.setLocal at hg'
  split at hg'
  · cases hg'
    rcases hw with hw | hw
    · -- the slot holds the new value, the slot behind it nothing, and the others are the same
      have hcases : w = v ∨ w = .top ∨ w ∈ g.locals := by
        dsimp only at hw
        split_ifs at hw with hwide
        · rcases Array.mem_or_eq_of_mem_setIfInBounds hw with hw | hw
          · exact (Array.mem_or_eq_of_mem_setIfInBounds hw).symm.imp_right .inr
          · exact .inr (.inl hw)
        · exact (Array.mem_or_eq_of_mem_setIfInBounds hw).symm.imp_right .inr
      rcases hcases with rfl | rfl | hw
      · exact hv
      · exact .plain rfl
      · exact .held (hg w (.inl hw))
    · exact .held (hg w (.inr hw))
  · cases hg'

theorem replace {old new : Value} (hg : f.Includes g) (hnew : f.Leaves new) :
    Draws f (.ok (g.replace old new)) := by
  have hsubst : ∀ u, g.Holds u → f.Leaves (if u = old then new else u) := by
    intro u hu
    split_ifs
    · exact hnew
    · exact .held (hg u hu)
  rintro g' ⟨⟩ v (hv | hv)
  · obtain ⟨u, hu, rfl⟩ := Array.mem_map.1 hv
    exact hsubst u (.inl hu)
  · obtain ⟨u, hu, rfl⟩ := List.mem_map.1 hv
    exact hsubst u (.inr hu)

theorem call (f : Frame) (kind : CallKind) (method : MethodRef) :
    Draws f (f.call kind method) := by
  refine bind fun signature _ => popMany fun args g hargs hg => ?_
  by_cases hstatic : kind = .static
  · simp only [hstatic, if_true]
    cases signature.result
    exacts [ok hg, push hg (.result _ method hargs)]
  · simp only [hstatic, if_false]
    refine pop hg fun receiver g' _ hg' => ?_
    cases receiver with
    | uninitialized cls site =>
      dsimp only
      split_ifs
      · exact replace hg' (.made cls hargs)
      · cases signature.result
        exacts [ok hg', push hg' (.result _ method hargs)]
    | top | primitive | null | this | reference =>
      cases signature.result
      exacts [ok hg', push hg' (.result _ method hargs)]

theorem fieldValue {field : FieldRef} (hg : f.Includes g) :
    Draws f (Frame.fieldValue field >>= fun v => .ok (g.push v)) := by
  refine bind fun v hv => push hg (.plain ?_)
  obtain ⟨type, -, hv⟩ := bind_eq_ok.1 hv
  cases hv
  exact Nat.le_zero.1 (Value.depth_ofType_le type _)

end Draws

/-- The values that an instruction leaves are of the kinds listed. -/
theorem leaves_step (f : Frame) (index : Nat) (instruction : Instruction) :
    Draws f (f.step index instruction) := by
  have hf := Includes.refl f
  cases instruction with
  | nop | goto => exact .ok hf
  | constant c => exact .push hf (.plain (by cases c <;> rfl))
  | new cls => exact .push hf (.plain rfl)
  | load kind slot =>
    refine .bind fun v hv => .push hf (.held (.inl ?_))
    unfold getLocal at hv
    split at hv
    · rename_i hlocal
      cases hv
      exact Array.mem_of_getElem? hlocal
    · cases hv
  | getStatic field => exact .fieldValue hf
  | store kind slot => exact .pop hf fun v g hv hg => .setLocal hg (.held hv)
  | increment slot => exact .setLocal hf (.plain rfl)
  | arrayLoad kind =>
    refine .pop hf fun index g _ hg => .pop hg fun array g' _ hg' => ?_
    cases kind <;> exact .push hg' (.plain rfl)
  | arrayStore | branch | switch | raise | monitor | putField | putStatic => exact .dropMany f _
  | ret kind =>
    cases kind with
    | none => exact .ok hf
    | some kind => exact .dropMany f _
  | stack move =>
    simp only [step]
    cases hs : move.apply f.stack with
    | some s => exact .ok (hf.of_stack (StackMove.subset_of_apply hs))
    | none => rintro g ⟨⟩
  | compute pops push =>
    refine .dropMany_bind fun g hg => ?_
    cases push
    exacts [.ok hg, .push hg (.plain rfl)]
  | getField field => exact .dropMany_bind fun g hg => .fieldValue hg
  | invoke kind method => exact .call f kind method
  | invokeDynamic name descriptor bootstrap =>
    refine .bind fun signature _ => .dropMany_bind fun g hg => ?_
    cases signature.result with
    | none => exact .ok hg
    | some type => exact .push hg (.plain (Nat.le_zero.1 (Value.depth_ofType_le type _)))
  | newArray descriptor dimensions =>
    exact .dropMany_bind fun g hg => .bind fun type _ => .push hg (.plain rfl)
  | arrayLength | instanceOf => exact .dropMany_bind fun g hg => .push hg (.plain rfl)
  | checkCast descriptor =>
    refine .pop hf fun v g hv hg => ?_
    cases v with
    | reference type origin => exact .bind fun type' _ => .push hg (.cast hv)
    | top | primitive | null | this | uninitialized => exact .push hg (.held hv)

/-! ### Shallow frames -/

/-- All values of the frame remember at most one call more than the arguments of a call do. -/
def Shallow (f : Frame) : Prop := ∀ v, f.Holds v → v.depth ≤ originDepth + 1

variable {f g : Frame}

/-- One call around arguments that remember no more than they should. -/
theorem depth_call_le (args : List Value) :
    1 + Value.depthAll (args.map (Value.truncate originDepth)) ≤ originDepth + 1 := by
  have hargs : Value.depthAll (args.map (Value.truncate originDepth)) ≤ originDepth := by
    rw [Value.depthAll_le_iff, List.forall_mem_map]
    exact fun v _ => v.depth_truncate_le originDepth
  omega

theorem Shallow.leaves {v : Value} (hf : f.Shallow) (h : f.Leaves v) :
    v.depth ≤ originDepth + 1 := by
  cases h with
  | held held => exact hf v held
  | plain depth => exact depth ▸ Nat.zero_le _
  | @cast type _ origin held => exact hf (.reference type origin) held
  | @result args type method _ =>
    calc (Value.ofType type (.returned method (args.map (Value.truncate originDepth)))).depth
        ≤ (Origin.returned method (args.map (Value.truncate originDepth))).depth :=
          Value.depth_ofType_le type _
      _ ≤ originDepth + 1 := depth_call_le args
  | made cls _ => exact depth_call_le _

/-- The step: shallow frames stay shallow. -/
theorem Shallow.step {index : Nat} {instruction : Instruction} (hf : f.Shallow)
    (h : f.step index instruction = .ok g) : g.Shallow :=
  fun v hv => hf.leaves (f.leaves_step index instruction g h v hv)

theorem Shallow.handler (h : Handler) (hf : f.Shallow) : (h.entry f).Shallow := by
  rintro v (hv | hv)
  · exact hf v (.inl hv)
  · obtain rfl := List.mem_singleton.1 hv
    exact Nat.zero_le _

theorem Shallow.merge {h : Frame} (hf : f.Shallow) (hg : g.Shallow) (hmerge : f.merge g = some h) :
    h.Shallow := by
  obtain ⟨-, hlocals, hstack⟩ := merge_eq_some_iff.1 hmerge
  rintro v (hv | hv)
  · rw [← Array.mem_toList_iff, ← hlocals] at hv
    exact Value.depth_le_of_mem_zipWith (fun u hu => hf u (.inl (Array.mem_toList_iff.1 hu)))
      (fun w hw => hg w (.inl (Array.mem_toList_iff.1 hw))) hv
  · rw [← hstack] at hv
    exact Value.depth_le_of_mem_zipWith (fun u hu => hf u (.inr hu)) (fun w hw => hg w (.inr hw)) hv

theorem depth_of_mem_parameterLocals {slot : Nat} {types : List FieldType} {v : Value}
    (h : v ∈ parameterLocals slot types) : v.depth = 0 := by
  induction types generalizing slot with
  | nil => cases h
  | cons type types ih =>
    rcases List.mem_cons.1 h with rfl | h
    · exact Nat.le_zero.1 (Value.depth_ofType_le type _)
    · rcases List.mem_append.1 h with h | h
      · split_ifs at h
        · obtain rfl := List.mem_singleton.1 h
          rfl
        · cases h
      · exact ih h

theorem shallow_entry {m : Method} (h : entry m = .ok f) : f.Shallow := by
  obtain ⟨signature, -, h⟩ := bind_eq_ok.1 h
  cases h
  rintro v (hv | hv)
  · have hdepth : v.depth = 0 := by
      rcases List.mem_append.1 (List.mem_toArray.1 hv) with hv | hv
      · rcases List.mem_append.1 hv with hv | hv
        · split_ifs at hv
          · cases hv
          · obtain rfl := List.mem_singleton.1 hv
            rfl
        · exact depth_of_mem_parameterLocals hv
      · obtain rfl := List.eq_of_mem_replicate hv
        rfl
    exact hdepth ▸ Nat.zero_le _
  · cases hv

end Frame

/-! ### Stored frames -/

namespace FrameFlow

/-- A flow that comes up while instruction `i` is served: some of the active handlers have been
reached, or all of them and some of the jump targets, or the instruction has been served. -/
inductive Midway (cls : ClassName) (m : Method) (s : FrameFlow m.code.size)
    (i : Fin m.code.size) : FrameFlow m.code.size → Prop
  | handlers {f : Frame} {reached : List Handler} {s₁ : FrameFlow m.code.size}
    (known : s.frames[(i : Nat)]? = some (some f)) (some : reached <+: m.handlers)
    (reach : s.reachHandlers reached i f = .ok s₁) : Midway cls m s i s₁
  | jumps {f a : Frame} {instruction : Instruction} {reached : List Nat}
    {s₁ s₂ : FrameFlow m.code.size} (known : s.frames[(i : Nat)]? = some (some f))
    (code : m.code[(i : Nat)]? = some instruction)
    (handlers : s.reachHandlers m.handlers i f = .ok s₁) (step : f.step i instruction = .ok a)
    (some : reached <+: instruction.jumpTargets) (reach : s₁.reachAll reached a = .ok s₂) :
    Midway cls m s i s₂
  | served {s₁ : FrameFlow m.code.size} (serves : serve cls m s i = .ok s₁) : Midway cls m s i s₁

variable {cls : ClassName} {m : Method} {s s₁ : FrameFlow m.code.size} {i : Fin m.code.size}
  {P : Nat → Frame → Prop}

/-- The step: what an instruction passes on and survives a merge holds all the time. -/
theorem Every.midway (hs : s.Every P) (merges : MergeClosed P)
    (passes : ∀ f t a, P i f → m.Passes i f t a → P t a) (h : Midway cls m s i s₁) :
    s₁.Every P := by
  have hreach : ∀ f, s.frames[(i : Nat)]? = some (some f) → ∀ (t : Nat) (a : Frame)
      (s₁ s₂ : FrameFlow m.code.size), m.Passes i f t a → s₁.Every P → s₁.reach t a = .ok s₂ →
      s₂.Every P :=
    fun f known t a s₁ s₂ hpass hs₁ h => hs₁.reach merges (passes f t a (hs i f known) hpass) h
  cases h with
  | handlers known some reach => exact reachHandlers_induction some.subset (hreach _ known) hs reach
  | jumps known code handlers step some reach =>
    have hs₁ := reachHandlers_induction (List.Subset.refl _) (hreach _ known) hs handlers
    exact reachAll_induction code step some.subset (hreach _ known) hs₁ reach
  | served serves =>
    exact hs.serve merges (fun f t a known hpass => passes f t a (hs i f known) hpass) serves

/-- The run: it holds in all flows that come up in turn. -/
theorem Run.every {picks : FrameFlow m.code.size → Fin m.code.size → Prop}
    {s₀ : FrameFlow m.code.size} {taken : List (Fin m.code.size)} (hs : s₀.Every P)
    (merges : MergeClosed P) (passes : ∀ i f t a, P i f → m.Passes i f t a → P t a)
    (h : Run cls m picks s₀ taken s) : s.Every P := by
  induction h with
  | start => exact hs
  | @turn taken s s' i _ _ _ serves ih =>
    exact Every.midway (s := s.without i) ih merges (passes i) (.served serves)

end FrameFlow

namespace Method

open FrameFlow

/-- While the frames of a method of `cls` are computed, the frame is known before instruction `t` at
some time, which may be in the middle of a turn, and whatever becomes of it. -/
def Stores (m : Method) (cls : ClassName) (t : Nat) (f : Frame) : Prop :=
  ∃ code entry taken s i s₁, Frame.entry m = .ok entry ∧
    Run cls m FirstCome (.start code entry) taken s ∧ FirstCome s i ∧
    Midway cls m (s.without i) i s₁ ∧ s₁.frames[t]? = some (some f)

variable {m : Method} {cls : ClassName}

theorem Stores.induction {P : Nat → Frame → Prop} (start : ∀ f, Frame.entry m = .ok f → P 0 f)
    (passes : ∀ i f t a, P i f → m.Passes i f t a → P t a) (merges : MergeClosed P) {t : Nat}
    {f : Frame} (h : m.Stores cls t f) : P t f := by
  obtain ⟨code, entry, taken, s, i, s₁, hentry, hrun, -, hmidway, hf⟩ := h
  have hstart : FrameFlow.Every P (.start code entry) := by
    intro t f hf
    obtain ⟨rfl, rfl⟩ := (getElem?_start code entry t f).1 hf
    exact start f hentry
  have hs : s.Every P := hrun.every hstart merges passes
  exact Every.midway (s := s.without i) hs merges (passes i) hmidway t f hf

/-- The frames of a method are stored when the last instruction has been served. -/
theorem stores_of_frames {frames : Array (Option Frame)} (h : m.frames cls = .ok frames) {t : Nat}
    {f : Frame} (hf : frames[t]? = some (some f)) : m.Stores cls t f := by
  have code := size_pos_of_frames h hf
  obtain ⟨entry, settled, hentry, -, -⟩ := exists_valid h code
  obtain ⟨taken, s, outcome, hrun, hstops, hframes⟩ := exists_run cls code hentry
  rw [h] at hframes
  cases hstops with
  | exhausted => cases hframes
  | failed => cases hframes
  | settled pending =>
    cases hframes
    rw [Vector.getElem?_toArray] at hf
    cases hrun with
    | start => cases pending
    | turn run _ picked serves =>
      exact ⟨code, entry, _, _, _, s, hentry, run, picked, .served serves, hf⟩

/-- Through jumps, handlers and merges of any number, no value that a stored frame holds remembers
more than four calls inside of each other. The frames of the method are among those stored. -/
theorem origins_bounded (m : Method) (cls : ClassName) :
    (∀ t f, m.Stores cls t f → ∀ v, v ∈ f.locals ∨ v ∈ f.stack → v.depth ≤ 4) ∧
      ∀ frames, m.frames cls = .ok frames → ∀ (t : Nat) (f : Frame),
        frames[t]? = some (some f) → m.Stores cls t f := by
  refine ⟨fun t f hstores => ?_, fun frames h t f => stores_of_frames h⟩
  refine hstores.induction (P := fun _ f => f.Shallow) (fun f => Frame.shallow_entry) ?_ ?_
  · intro i f t a hf hpass
    cases hpass with
    | jump _ step _ => exact hf.step step
    | next _ step _ => exact hf.step step
    | handler => exact hf.handler _
  · exact fun t f g h hf hg hmerge => hf.merge hg hmerge

/-- A method that wraps its parameter five times. -/
def wrapping : Method where
  name := "wrapAll"
  descriptor := "(Ljava/lang/Object;)Ljava/lang/Object;"
  access := .staticFlag
  maxLocals := 1
  code :=
    let wrap : Instruction := .invoke .static
      ⟨.object, "wrap", "(Ljava/lang/Object;)Ljava/lang/Object;"⟩
    #[.load .reference 0, wrap, wrap, wrap, wrap, wrap, .ret (some .reference)]
  handlers := []

example : (wrapping.frames .object).toOption.map
      (fun frames => frames.toList.map fun f => f.map fun f => f.stack.map Value.depth) =
    some [some [], some [0], some [1], some [2], some [3], some [4], some [4]] := by
  decide +kernel

end Method

end Immutability

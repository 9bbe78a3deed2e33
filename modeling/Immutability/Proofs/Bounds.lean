import Immutability.Proofs.Covering

/-!
# Frames that bound others

One frame bounds another one if its entries bound those of the other one, place by place. What it
means for a value to bound another one is left open, up to a few laws.

* `Value.Bounding` states these laws;
* `Instruction.Respects` says that what an instruction makes of its operands is bounded if the
  operands are;
* `Frame.Follows` has one rule for each way to build a step, and `Frame.follows_step` says that every
  instruction that respects the relation keeps one frame bounded by another one, as long as no entry
  of the bounding operand stack is unknown.
-/

namespace Immutability

namespace Value

/-- The laws of a relation that says of two values that the first one bounds the second one. -/
structure Bounding (R : Value → Value → Prop) : Prop where
  refl (v : Value) : R v v
  top (v : Value) : R top v
  covers {u v : Value} : R u v → u.Covers v
  absorbs {u u' v : Value} : u'.Absorbs u → R u v → R u' v
  merge {u v w : Value} : R u v → R u w → R u (v.merge w)

/-- The value after a cast. -/
def castTo (type : FieldType) : Value → Value
  | reference _ origin => reference (some type) origin
  | v => v

namespace Bounding

variable {R : Value → Value → Prop} {us vs ws : List Value}

theorem refl_all (hR : Bounding R) (vs : List Value) : List.Forall₂ R vs vs :=
  List.forall₂_same.2 fun v _ => hR.refl v

theorem covers_all (hR : Bounding R) (h : List.Forall₂ R us vs) : CoversAll us vs :=
  h.imp fun _ _ => hR.covers

theorem merge_all (hR : Bounding R) (h : List.Forall₂ R us vs) (h' : List.Forall₂ R us ws) :
    List.Forall₂ R us (List.zipWith Value.merge vs ws) := by
  induction h generalizing ws with
  | nil => exact .nil
  | cons head _ ih =>
    cases h' with
    | cons head' tail' => exact .cons (hR.merge head head') (ih tail')

theorem absorbs_all (hR : Bounding R) {us' : List Value} (hlength : us'.length = us.length)
    (habsorbs : AbsorbsAll us' us) (h : List.Forall₂ R us vs) : List.Forall₂ R us' vs := by
  induction h generalizing us' with
  | nil =>
    obtain rfl : us' = [] := by simpa using hlength
    exact .nil
  | cons head _ ih =>
    cases us' with
    | nil => simp at hlength
    | cons u' us' =>
      rw [AbsorbsAll.cons_iff] at habsorbs
      exact .cons (hR.absorbs habsorbs.1 head) (ih (by simpa using hlength) habsorbs.2)

/-- After its constructor has run, a new instance is a reference in all places. -/
theorem replace (hR : Bounding R) {u v new new' : Value} {cls : ClassName} {site : Nat}
    (h : R u v) (hnew : R new new') :
    R (if u = uninitialized cls site then new else u)
      (if v = uninitialized cls site then new' else v) := by
  by_cases hu : u = uninitialized cls site
  · subst hu
    obtain rfl : v = uninitialized cls site := hR.covers h
    rwa [if_pos rfl, if_pos rfl]
  · rw [if_neg hu]
    split_ifs with hv
    · subst hv
      obtain rfl : u = Value.top := (hR.covers h).of_uninitialized.resolve_right hu
      exact hR.top new'
    · exact h

end Bounding

end Value

/-- What the instruction makes of its operands is bounded if the operands are. Only instructions that
look at what is known about a reference matter here. -/
def Instruction.Respects (R : Value → Value → Prop) : Instruction → Prop
  | .arrayLoad .reference => ∀ u v, R u v →
    R (.reference (u.type?.bind FieldType.element?) .unknown)
      (.reference (v.type?.bind FieldType.element?) .unknown)
  | .checkCast _ => ∀ type t o v, R (.reference t o) v →
    R (.reference (some type) o) (v.castTo type)
  | .invoke kind method => ∀ signature us vs, Signature.parse method.descriptor = .ok signature →
    us.length = signature.parameters.length → List.Forall₂ R us vs →
      (∀ type ∈ signature.result,
        R (.ofType type (.returned method (us.map (Value.truncate Frame.originDepth))))
          (.ofType type (.returned method (vs.map (Value.truncate Frame.originDepth))))) ∧
      (kind = .special ∧ method.isConstructor → ∀ cls,
        R (.instanceOf cls (.constructed cls (us.map (Value.truncate Frame.originDepth))))
          (.instanceOf cls (.constructed cls (vs.map (Value.truncate Frame.originDepth)))))
  | _ => True

/-- A stack that bounds another one is moved in the same way. A wide value cannot be taken for
another one where no entry is unknown. -/
theorem StackMove.exists_apply {R : Value → Value → Prop} (hR : Value.Bounding R)
    (move : StackMove) {us vs us' : List Value} (h : List.Forall₂ R us vs) (known : .top ∉ us)
    (hmove : move.apply us = some us') :
    ∃ vs', move.apply vs = some vs' ∧ List.Forall₂ R us' vs' := by
  have wide : ∀ {u v : Value}, R u v → u ∈ us → v.isWide = u.isWide :=
    fun hu hmem => (hR.covers hu).isWide_eq fun htop => known (htop ▸ hmem)
  clear known
  -- as deep as a move looks for wide values
  rcases h with _ | ⟨ha, h⟩
  · cases move <;> simp [apply] at hmove
  have hwa := wide ha (by simp)
  rcases h with _ | ⟨hb, h⟩
  · clear wide
    cases move <;> simp only [apply, hwa] at hmove ⊢ <;>
      grind [List.forall₂_cons, List.Forall₂.nil]
  have hwb := wide hb (by simp)
  rcases h with _ | ⟨hc, h⟩
  · clear wide
    cases move <;> simp only [apply, hwa, hwb] at hmove ⊢ <;>
      grind [List.forall₂_cons, List.Forall₂.nil]
  have hwc := wide hc (by simp)
  clear wide
  rcases h with _ | ⟨hd, h⟩ <;> cases move <;> simp only [apply, hwa, hwb, hwc] at hmove ⊢ <;>
    grind [List.forall₂_cons, List.Forall₂.nil]

namespace Frame

/-- The frame `g` bounds `f`, place by place. -/
structure Bounds (R : Value → Value → Prop) (g f : Frame) : Prop where
  locals : List.Forall₂ R g.locals.toList f.locals.toList
  stack : List.Forall₂ R g.stack f.stack

/-- Whenever the first step succeeds, so does the other one, and their results are related. -/
def Follows {α : Type} (S : α → α → Prop) (x y : Except StepError α) : Prop :=
  ∀ b, x = .ok b → ∃ a, y = .ok a ∧ S b a

namespace Follows

variable {α β : Type} {R : Value → Value → Prop} {S : α → α → Prop} {S' : β → β → Prop}
  {f g : Frame}

theorem ok {a b : α} (h : S b a) : Follows S (.ok b) (.ok a) := by
  rintro b' ⟨⟩
  exact ⟨a, rfl, h⟩

theorem bind {x y : Except StepError α} {k k' : α → Except StepError β} (h : Follows S x y)
    (hk : ∀ b a, S b a → Follows S' (k b) (k' a)) : Follows S' (x >>= k) (y >>= k') := by
  intro d hd
  obtain ⟨b, hb, hd⟩ := bind_eq_ok.1 hd
  obtain ⟨a, rfl, hab⟩ := h b hb
  exact hk b a hab d hd

/-- A part of the step that does not depend on the frame. -/
theorem same {x : Except StepError α} {k k' : α → Except StepError β}
    (hk : ∀ a, x = .ok a → Follows S' (k a) (k' a)) : Follows S' (x >>= k) (x >>= k') := by
  intro d hd
  obtain ⟨a, ha, hd⟩ := bind_eq_ok.1 hd
  obtain ⟨c, hc, hdc⟩ := hk a ha d hd
  exact ⟨c, bind_eq_ok.2 ⟨a, ha, hc⟩, hdc⟩

theorem pop {k k' : Value × Frame → Except StepError β} (h : g.Bounds R f) (hg : g.Definite)
    (hk : ∀ u v g' f', R u v → u ≠ .top → g'.Bounds R f' → g'.Definite →
      Follows S' (k (u, g')) (k' (v, f'))) :
    Follows S' (g.pop >>= k) (f.pop >>= k') := by
  obtain ⟨glocals, gstack⟩ := g
  obtain ⟨flocals, fstack⟩ := f
  obtain ⟨hlocals, hstack⟩ := h
  cases hstack with
  | nil =>
    intro d hd
    cases hd
  | cons head tail =>
    obtain ⟨hu, hus⟩ : _ ≠ Value.top ∧ Value.top ∉ _ := by
      simpa [Definite, eq_comm] using hg
    exact hk _ _ _ _ head hu ⟨hlocals, tail⟩ hus

theorem popMany {count : Nat} {k k' : List Value × Frame → Except StepError β}
    (h : g.Bounds R f) (hg : g.Definite)
    (hk : ∀ us vs g' f', us.length = count → List.Forall₂ R us vs → g'.Bounds R f' → g'.Definite →
      Follows S' (k (us, g')) (k' (vs, f'))) :
    Follows S' (g.popMany count >>= k) (f.popMany count >>= k') := by
  unfold Frame.popMany
  rw [← h.stack.length_eq]
  split_ifs with hcount
  · have hlength : (g.stack.take count).reverse.length = count := by
      rw [List.length_reverse, List.length_take, Nat.min_eq_left hcount]
    have hargs := List.forall₂_reverse_iff.2 (List.forall₂_take count h.stack)
    refine hk _ _ _ _ hlength hargs ⟨h.locals, List.forall₂_drop count h.stack⟩ fun htop => hg ?_
    exact List.mem_of_mem_drop htop
  · intro d hd
    cases hd

theorem dropMany (h : g.Bounds R f) (hg : g.Definite) (count : Nat) :
    Follows (Frame.Bounds R) (g.dropMany count) (f.dropMany count) := by
  have hmap : ∀ f : Frame, f.dropMany count = f.popMany count >>= fun p => .ok p.2 := by
    intro f
    unfold Frame.dropMany
    cases f.popMany count <;> rfl
  rw [hmap, hmap]
  exact popMany h hg fun _ _ _ _ _ _ h _ => ok h

theorem getLocal (h : g.Bounds R f) (slot : Nat) :
    Follows R (g.getLocal slot) (f.getLocal slot) := by
  intro u hu
  unfold Frame.getLocal at hu
  split at hu
  · next u' hget =>
    cases hu
    obtain ⟨v, hv, huv⟩ := exists_getElem?_of_forall₂ h.locals (n := slot) (by simpa using hget)
    refine ⟨v, ?_, huv⟩
    rw [Frame.getLocal, show f.locals[slot]? = some v by simpa using hv]
  · cases hu

theorem setLocal (hR : Value.Bounding R) {u v : Value} (h : g.Bounds R f) (hv : R u v)
    (kind : Kind) (slot : Nat) :
    Follows (Frame.Bounds R) (g.setLocal kind slot u) (f.setLocal kind slot v) := by
  have hsize : g.locals.size = f.locals.size := by simpa using h.locals.length_eq
  unfold Frame.setLocal
  rw [hsize]
  split_ifs
  · refine ok ⟨?_, h.stack⟩
    simpa using forall₂_set (forall₂_set h.locals hv slot) (hR.refl .top) (slot + 1)
  · refine ok ⟨?_, h.stack⟩
    simpa using forall₂_set h.locals hv slot
  · intro d hd
    cases hd

end Follows

namespace Bounds

variable {R : Value → Value → Prop} {f g : Frame}

theorem refl (hR : Value.Bounding R) (f : Frame) : f.Bounds R f :=
  ⟨hR.refl_all _, hR.refl_all _⟩

theorem definite (hR : Value.Bounding R) (h : g.Bounds R f) (hg : g.Definite) : f.Definite :=
  (hR.covers_all h.stack).top_notMem hg

theorem absorbs (hR : Value.Bounding R) {g' : Frame} (h : g.Bounds R f) (habsorbs : g'.Absorbs g)
    (hsize : g'.locals.size = g.locals.size) : g'.Bounds R f := by
  obtain ⟨hlength, hlocals, hstack⟩ := absorbs_iff.1 habsorbs
  exact ⟨hR.absorbs_all (by simpa using hsize) hlocals h.locals,
    hR.absorbs_all hlength hstack h.stack⟩

theorem merge (hR : Value.Bounding R) {f' c : Frame} (h : g.Bounds R f) (h' : g.Bounds R f')
    (hmerge : f.merge f' = some c) : g.Bounds R c := by
  obtain ⟨-, hlocals, hstack⟩ := merge_eq_some_iff.1 hmerge
  exact ⟨hlocals ▸ hR.merge_all h.locals h'.locals, hstack ▸ hR.merge_all h.stack h'.stack⟩

theorem both {S : Value → Value → Prop} (h : g.Bounds R f) (h' : f.Bounds R g)
    (hS : ∀ u v, R u v → R v u → S u v) : g.Bounds S f :=
  ⟨h.locals.mp hS h'.locals.flip, h.stack.mp hS h'.stack.flip⟩

/-- Frames that are bounded by the same one can be merged. -/
theorem exists_merge {f' : Frame} (h : g.Bounds R f) (h' : g.Bounds R f') :
    ∃ c, f.merge f' = some c := by
  have hlength : f.stack.length = f'.stack.length :=
    h.stack.length_eq.symm.trans h'.stack.length_eq
  exact ⟨_, if_pos hlength⟩

theorem push {u v : Value} (h : g.Bounds R f) (hv : R u v) : (g.push u).Bounds R (f.push v) :=
  ⟨h.locals, .cons hv h.stack⟩

theorem replace (hR : Value.Bounding R) {new new' : Value} (h : g.Bounds R f) (hnew : R new new')
    (cls : ClassName) (site : Nat) :
    (g.replace (.uninitialized cls site) new).Bounds R
      (f.replace (.uninitialized cls site) new') := by
  refine ⟨?_, ?_⟩
  · simp only [Frame.replace, Array.toList_map]
    exact List.rel_map (fun _ _ hv => hR.replace hv hnew) h.locals
  · exact List.rel_map (fun _ _ hv => hR.replace hv hnew) h.stack

end Bounds

variable {R : Value → Value → Prop} {f g : Frame}

theorem follows_call (hR : Value.Bounding R) (h : g.Bounds R f) (hg : g.Definite) (kind : CallKind)
    (method : MethodRef) (hcall : (Instruction.invoke kind method).Respects R) :
    Follows (Bounds R) (g.call kind method) (f.call kind method) := by
  refine .same fun signature hsignature =>
    .popMany h hg fun us vs g f hlength hargs h hg => ?_
  obtain ⟨hresult, hnew⟩ := hcall signature us vs (mapError_eq_ok.1 hsignature) hlength hargs
  by_cases hstatic : kind = .static
  · simp only [hstatic, if_true]
    cases hr : signature.result with
    | none => exact .ok h
    | some type => exact .ok (h.push (hresult type hr))
  · simp only [hstatic, if_false]
    refine .pop h hg fun u v g f hv hu h hg => ?_
    -- the receivers are the same new instance, or none of them is one
    cases u with
    | uninitialized cls site =>
      obtain rfl : v = .uninitialized cls site := hR.covers hv
      dsimp only
      split_ifs with hconstructor
      · exact .ok (h.replace hR (hnew hconstructor cls) cls site)
      · cases hr : signature.result with
        | none => exact .ok h
        | some type => exact .ok (h.push (hresult type hr))
    | top => exact absurd rfl hu
    | primitive | null | this | reference =>
      have hv' := (hR.covers hv).ne_uninitialized hu (by simp)
      cases v with
      | uninitialized cls site => exact absurd rfl (hv' cls site)
      | top | primitive | null | this | reference =>
        cases hr : signature.result with
        | none => exact .ok h
        | some type => exact .ok (h.push (hresult type hr))

/-- After an instruction that respects the relation, the first frame still bounds the second one. -/
theorem follows_step (hR : Value.Bounding R) (h : g.Bounds R f) (hg : g.Definite) (index : Nat)
    (instruction : Instruction) (hrespects : instruction.Respects R) :
    Follows (Bounds R) (g.step index instruction) (f.step index instruction) := by
  cases instruction with
  | nop | goto => exact .ok h
  | constant | new => exact .ok (h.push (hR.refl _))
  | load kind slot => exact .bind (.getLocal h slot) fun u v hv => .ok (h.push hv)
  | store kind slot => exact .pop h hg fun u v g f hv _ h _ => .setLocal hR h hv kind slot
  | increment slot => exact .setLocal hR h (hR.refl _) _ slot
  | arrayLoad kind =>
    refine .pop h hg fun _ _ g f _ _ h hg => .pop h hg fun u v g f hv _ h _ => ?_
    cases kind with
    | reference => exact .ok (h.push (hrespects u v hv))
    | int | long | float | double => exact .ok (h.push (hR.refl _))
  | arrayStore | branch | switch | raise | monitor | putField | putStatic =>
    exact .dropMany h hg _
  | ret kind =>
    cases kind with
    | none => exact .ok h
    | some kind => exact .dropMany h hg 1
  | stack move =>
    simp only [step]
    cases hmove : move.apply g.stack with
    | none =>
      rintro c ⟨⟩
    | some us =>
      obtain ⟨vs, hvs, hstack⟩ := move.exists_apply hR h.stack hg hmove
      rw [hvs]
      exact .ok ⟨h.locals, hstack⟩
  | compute pops push =>
    refine .bind (.dropMany h hg pops) fun g f h => ?_
    cases push with
    | none => exact .ok h
    | some kind => exact .ok (h.push (hR.refl _))
  | getField field =>
    exact .bind (.dropMany h hg 1) fun g f h => .same fun v _ => .ok (h.push (hR.refl v))
  | getStatic field => exact .same fun v _ => .ok (h.push (hR.refl v))
  | invoke kind method => exact follows_call hR h hg kind method hrespects
  | invokeDynamic name descriptor bootstrap =>
    refine .same fun signature _ => .bind (.dropMany h hg _) fun g f h => ?_
    cases signature.result with
    | none => exact .ok h
    | some type => exact .ok (h.push (hR.refl _))
  | newArray descriptor dimensions =>
    exact .bind (.dropMany h hg _) fun g f h => .same fun type _ => .ok (h.push (hR.refl _))
  | arrayLength | instanceOf =>
    exact .bind (.dropMany h hg 1) fun g f h => .ok (h.push (hR.refl _))
  | checkCast descriptor =>
    refine .pop h hg fun u v g f hv hu h _ => ?_
    cases u with
    | top => exact absurd rfl hu
    | reference t o =>
      intro c hc
      obtain ⟨type, htype, hc⟩ := bind_eq_ok.1 hc
      cases hc
      refine ⟨f.push (v.castTo type), ?_, h.push (hrespects type t o v hv)⟩
      cases v with
      | reference t' o' => exact bind_eq_ok.2 ⟨type, htype, rfl⟩
      | top | primitive | null | this | uninitialized => rfl
    | primitive | null | this | uninitialized =>
      have hv' := (hR.covers hv).ne_reference hu (by simp)
      cases v with
      | reference t' o' => exact absurd rfl (hv' t' o')
      | top | primitive | null | this | uninitialized => exact .ok (h.push hv)

end Frame

end Immutability

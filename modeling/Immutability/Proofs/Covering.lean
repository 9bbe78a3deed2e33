import Immutability.Proofs.FrameFlow

/-!
# Frames that stand for others

What two frames have in common stands for both of them. Types and origins do not matter here, only
whether an entry is the receiver, the null reference, another reference, a new instance or a
primitive value.

* `Value.Covers` says that one value may stand for another one;
* `Value.Unites` and `Frame.Unites` say that a value or frame stands for two others;
* `StackMove.moved_apply` and `Frame.unites_step` say that every instruction keeps it so, as long as
  no entry of the operand stack is unknown: an unknown entry could hide a wide value.
-/

namespace Immutability

namespace Value

/-- The receiver, or the null reference. -/
def ThisOrNull (v : Value) : Prop := v = this ∨ v = null

/-- The value `u` may stand for `v`, whatever their types and origins. -/
def Covers (u v : Value) : Prop :=
  match u with
  | top => True
  | primitive kind => v = primitive kind
  | null => v = null
  | this => v.ThisOrNull
  | uninitialized cls site => v = uninitialized cls site
  | reference _ _ => v.ThisOrNull ∨ ∃ t o, v = reference t o

namespace Covers

theorem refl (v : Value) : v.Covers v := by
  cases v <;> simp [Covers, ThisOrNull]

theorem trans {u v w : Value} (h : u.Covers v) (h' : v.Covers w) : u.Covers w := by
  cases u <;> cases v <;> simp_all [Covers, ThisOrNull]

theorem of_absorbs {u v : Value} (h : u.Absorbs v) : u.Covers v := by
  rcases absorbs_iff.1 h with rfl | rfl | ⟨rfl, rfl | ⟨t, o, rfl⟩⟩ | ⟨t, o, rfl, rfl⟩ |
    ⟨rfl, rfl | ⟨t, o, rfl⟩⟩
  · exact refl u
  all_goals simp [Covers, ThisOrNull]

/-- Nothing else stands for an unknown value. -/
theorem eq_top {u : Value} (h : u.Covers top) : u = top := by
  cases u <;> simp_all [Covers, ThisOrNull]

theorem isWide_eq {u v : Value} (h : u.Covers v) (known : u ≠ top) : v.isWide = u.isWide := by
  cases u <;> cases v <;> simp_all [Covers, ThisOrNull, isWide]

/-- Only an unknown value stands for a new instance, apart from the instance itself. -/
theorem of_uninitialized {u : Value} {cls : ClassName} {site : Nat}
    (h : u.Covers (uninitialized cls site)) : u = top ∨ u = uninitialized cls site := by
  cases u <;> simp_all [Covers, ThisOrNull]

theorem ne_uninitialized {u v : Value} (h : u.Covers v) (known : u ≠ top)
    (hu : ∀ cls site, u ≠ uninitialized cls site) (cls : ClassName) (site : Nat) :
    v ≠ uninitialized cls site := by
  rintro rfl
  exact h.of_uninitialized.elim known (hu cls site)

theorem ne_reference {u v : Value} (h : u.Covers v) (known : u ≠ top)
    (hu : ∀ t o, u ≠ reference t o) (t : Option FieldType) (o : Origin) : v ≠ reference t o := by
  rintro rfl
  cases u <;> simp_all [Covers, ThisOrNull]

end Covers

/-- The values of one list may stand for those of another one, entry by entry. -/
def CoversAll (us vs : List Value) : Prop := List.Forall₂ Covers us vs

namespace CoversAll

variable {us vs ws : List Value}

theorem trans (h : CoversAll us vs) (h' : CoversAll vs ws) : CoversAll us ws := by
  induction h generalizing ws with
  | nil => exact h'
  | cons head _ ih =>
    cases h' with
    | cons head' tail' => exact .cons (head.trans head') (ih tail')

theorem of_absorbsAll (hlength : us.length = vs.length) (h : AbsorbsAll us vs) :
    CoversAll us vs := by
  induction us generalizing vs with
  | nil =>
    obtain rfl : vs = [] := by simpa using hlength.symm
    exact .nil
  | cons u us ih =>
    cases vs with
    | nil => exact absurd h AbsorbsAll.not_cons_nil
    | cons v vs =>
      rw [AbsorbsAll.cons_iff] at h
      exact .cons (.of_absorbs h.1) (ih (by simpa using hlength) h.2)

theorem exists_cover {v : Value} {n : Nat} (h : CoversAll us vs) (hv : vs[n]? = some v) :
    ∃ u, us[n]? = some u ∧ u.Covers v :=
  exists_getElem?_of_forall₂ (R := flip Covers) h.flip hv

theorem exists_covered {u : Value} {n : Nat} (h : CoversAll us vs) (hu : us[n]? = some u) :
    ∃ v, vs[n]? = some v ∧ u.Covers v :=
  exists_getElem?_of_forall₂ h hu

theorem top_notMem (h : CoversAll us vs) (hus : top ∉ us) : top ∉ vs := by
  intro hvs
  obtain ⟨n, hn⟩ := List.mem_iff_getElem?.1 hvs
  obtain ⟨u, hu, hcovers⟩ := h.exists_cover hn
  rw [hcovers.eq_top] at hu
  exact hus (List.mem_of_getElem? hu)

end CoversAll

/-- The value `u` stands for both `v` and `w`, whatever their types and origins: it may stand for
each of them, and it is the receiver or null if both are. -/
structure Unites (v w u : Value) : Prop where
  left : u.Covers v
  right : u.Covers w
  thisOrNull : v.ThisOrNull → w.ThisOrNull → u.ThisOrNull
  null : v = null → w = null → u = null

namespace Unites

variable {v w u : Value}

theorem refl (v : Value) : v.Unites v v := ⟨.refl v, .refl v, fun h _ => h, fun h _ => h⟩

theorem of_covers (h : u.Covers v) : v.Unites u u := ⟨h, .refl u, fun _ h => h, fun _ h => h⟩

theorem references (t t' t'' : Option FieldType) (o o' o'' : Origin) :
    (reference t o).Unites (reference t' o') (reference t'' o'') := by
  constructor <;> simp [Covers, ThisOrNull]

theorem ofType (type : FieldType) (o o' o'' : Origin) :
    (Value.ofType type o).Unites (.ofType type o') (.ofType type o'') := by
  cases type with
  | primitive p => exact refl _
  | object | array => exact references _ _ _ _ _ _

theorem merge (v w : Value) : v.Unites w (v.merge w) := by
  refine ⟨.of_absorbs (absorbs_merge v w).1, .of_absorbs (absorbs_merge v w).2, ?_, ?_⟩
  · rintro (rfl | rfl) (rfl | rfl) <;> simp [Value.merge, ThisOrNull]
  · rintro rfl rfl
    simp

/-- The receiver comes from one of the two. -/
theorem eq_this (h : v.Unites w this) : v = this ∨ w = this := by
  rcases h.left with hv | hv
  · exact .inl hv
  · rcases h.right with hw | hw
    · exact .inr hw
    · exact absurd (h.null hv hw) (by simp)

/-- After its constructor has run, a new instance is a reference in all places. -/
theorem replace (h : v.Unites w u) (cls cls' : ClassName) (site : Nat) (o o' o'' : Origin) :
    Unites (if v = uninitialized cls site then instanceOf cls' o else v)
      (if w = uninitialized cls site then instanceOf cls' o' else w)
      (if u = uninitialized cls site then instanceOf cls' o'' else u) := by
  by_cases hu : u = uninitialized cls site
  · subst hu
    have hv : v = uninitialized cls site := h.left
    have hw : w = uninitialized cls site := h.right
    rw [if_pos hv, if_pos hw, if_pos rfl]
    exact references _ _ _ _ _ _
  · rw [if_neg hu]
    -- of two places only one of which holds the instance nothing is known
    by_cases hv : v = uninitialized cls site
    · obtain rfl : u = top := (Covers.of_uninitialized (hv ▸ h.left)).resolve_right hu
      rw [if_pos hv]
      constructor <;> simp [Covers, ThisOrNull, instanceOf]
    · by_cases hw : w = uninitialized cls site
      · obtain rfl : u = top := (Covers.of_uninitialized (hw ▸ h.right)).resolve_right hu
        rw [if_pos hw]
        constructor <;> simp [Covers, ThisOrNull, instanceOf]
      · rwa [if_neg hv, if_neg hw]

end Unites

/-- The values of one list stand for those of two others, entry by entry. -/
inductive UnitesAll : List Value → List Value → List Value → Prop
  | nil : UnitesAll [] [] []
  | cons {v w u : Value} {vs ws us : List Value} (head : v.Unites w u) (tail : UnitesAll vs ws us) :
    UnitesAll (v :: vs) (w :: ws) (u :: us)

namespace UnitesAll

variable {vs ws us : List Value}

theorem length_eq (h : UnitesAll vs ws us) : vs.length = us.length ∧ ws.length = us.length := by
  induction h with
  | nil => simp
  | cons _ _ ih => simp [ih]

theorem of_zipWith (h : vs.length = ws.length) :
    UnitesAll vs ws (List.zipWith Value.merge vs ws) := by
  induction vs generalizing ws with
  | nil =>
    obtain rfl : ws = [] := by simpa using h.symm
    exact nil
  | cons v vs ih =>
    cases ws with
    | nil => simp at h
    | cons w ws => exact cons (.merge v w) (ih (by simpa using h))

theorem of_covers (h : CoversAll us vs) : UnitesAll vs us us := by
  induction h with
  | nil => exact nil
  | cons h _ ih => exact cons (.of_covers h) ih

theorem covers_left (h : UnitesAll vs ws us) : CoversAll us vs := by
  induction h with
  | nil => exact .nil
  | cons h _ ih => exact .cons h.left ih

theorem covers_right (h : UnitesAll vs ws us) : CoversAll us ws := by
  induction h with
  | nil => exact .nil
  | cons h _ ih => exact .cons h.right ih

theorem drop (h : UnitesAll vs ws us) (n : Nat) :
    UnitesAll (vs.drop n) (ws.drop n) (us.drop n) := by
  induction h generalizing n with
  | nil => simpa using nil
  | cons head tail ih =>
    cases n with
    | zero => exact cons head tail
    | succ n => exact ih n

theorem set {v w u : Value} (h : UnitesAll vs ws us) (n : Nat) (hv : v.Unites w u) :
    UnitesAll (vs.set n v) (ws.set n w) (us.set n u) := by
  induction h generalizing n with
  | nil => simpa using nil
  | cons head tail ih =>
    cases n with
    | zero => exact cons hv tail
    | succ n => exact cons head (ih n)

theorem map {p q r : Value → Value} (h : UnitesAll vs ws us)
    (hpqr : ∀ v w u, v.Unites w u → (p v).Unites (q w) (r u)) :
    UnitesAll (vs.map p) (ws.map q) (us.map r) := by
  induction h with
  | nil => exact nil
  | cons head tail ih => exact cons (hpqr _ _ _ head) ih

theorem exists_getElem? {u : Value} {n : Nat} (h : UnitesAll vs ws us) (hu : us[n]? = some u) :
    ∃ v w, vs[n]? = some v ∧ ws[n]? = some w ∧ v.Unites w u := by
  induction h generalizing n with
  | nil => simp at hu
  | @cons v w u' vs ws us head tail ih =>
    cases n with
    | zero =>
      obtain rfl : u' = u := by simpa using hu
      exact ⟨v, w, rfl, rfl, head⟩
    | succ n => simpa using ih (by simpa using hu)

end UnitesAll

end Value

/-! ### Stack moves -/

namespace StackMove

/-- Whenever the third move succeeds, so do the other two, and the third result stands for theirs.
-/
def Moved (x y z : Option (List Value)) : Prop :=
  ∀ us, z = some us → ∃ vs ws, x = some vs ∧ y = some ws ∧ Value.UnitesAll vs ws us

theorem Moved.none (x y : Option (List Value)) : Moved x y none := by
  rintro us ⟨⟩

theorem Moved.some {vs ws us : List Value} (h : Value.UnitesAll vs ws us) :
    Moved (some vs) (some ws) (some us) := by
  rintro us' ⟨⟩
  exact ⟨vs, ws, rfl, rfl, h⟩

/-- Three stacks of which one stands for the other two are moved in the same way. A wide value
cannot be taken for another one where no entry is unknown. -/
theorem moved_apply (move : StackMove) {vs ws us : List Value} (h : Value.UnitesAll vs ws us)
    (known : .top ∉ us) : Moved (move.apply vs) (move.apply ws) (move.apply us) := by
  have wide : ∀ {v w u : Value}, v.Unites w u → u ∈ us →
      v.isWide = u.isWide ∧ w.isWide = u.isWide := by
    intro v w u hu hmem
    have hne : u ≠ .top := fun htop => known (htop ▸ hmem)
    exact ⟨hu.left.isWide_eq hne, hu.right.isWide_eq hne⟩
  rcases h with _ | ⟨ha, h⟩
  · cases move <;> exact .none _ _
  · have hwa := wide ha (by simp)
    cases move with
    | pop => exact .some h
    | pop2 =>
      simp only [apply, hwa]
      split_ifs
      · exact .some h
      · rcases h with _ | ⟨hb, h⟩
        · exact .none _ _
        · exact .some h
    | dup => exact .some (.cons ha (.cons ha h))
    | dup2 =>
      simp only [apply, hwa]
      split_ifs
      · exact .some (.cons ha (.cons ha h))
      · rcases h with _ | ⟨hb, h⟩
        · exact .none _ _
        · exact .some (.cons ha (.cons hb (.cons ha (.cons hb h))))
    | dupX1 =>
      rcases h with _ | ⟨hb, h⟩
      · exact .none _ _
      · exact .some (.cons ha (.cons hb (.cons ha h)))
    | dupX2 =>
      rcases h with _ | ⟨hb, h⟩
      · exact .none _ _
      · simp only [apply, wide hb (by simp)]
        split_ifs
        · exact .some (.cons ha (.cons hb (.cons ha h)))
        · rcases h with _ | ⟨hc, h⟩
          · exact .none _ _
          · exact .some (.cons ha (.cons hb (.cons hc (.cons ha h))))
    | dup2X1 =>
      rcases h with _ | ⟨hb, h⟩
      · exact .none _ _
      · simp only [apply, hwa]
        split_ifs
        · exact .some (.cons ha (.cons hb (.cons ha h)))
        · rcases h with _ | ⟨hc, h⟩
          · exact .none _ _
          · exact .some (.cons ha (.cons hb (.cons hc (.cons ha (.cons hb h)))))
    | dup2X2 =>
      rcases h with _ | ⟨hb, h⟩
      · exact .none _ _
      · simp only [apply, hwa, wide hb (by simp)]
        split_ifs
        · exact .some (.cons ha (.cons hb (.cons ha h)))
        · rcases h with _ | ⟨hc, h⟩
          · exact .none _ _
          · exact .some (.cons ha (.cons hb (.cons hc (.cons ha h))))
        · rcases h with _ | ⟨hc, h⟩
          · exact .none _ _
          · simp only [wide hc (by simp)]
            split_ifs
            · exact .some (.cons ha (.cons hb (.cons hc (.cons ha (.cons hb h)))))
            · rcases h with _ | ⟨hd, h⟩
              · exact .none _ _
              · exact .some
                  (.cons ha (.cons hb (.cons hc (.cons hd (.cons ha (.cons hb h))))))
    | swap =>
      rcases h with _ | ⟨hb, h⟩
      · exact .none _ _
      · exact .some (.cons hb (.cons ha h))

end StackMove

/-! ### Frames -/

namespace Frame

/-- The frame `u` stands for both `f` and `g`, place by place. -/
structure Unites (f g u : Frame) : Prop where
  locals : Value.UnitesAll f.locals.toList g.locals.toList u.locals.toList
  stack : Value.UnitesAll f.stack g.stack u.stack

/-- No entry of the operand stack is unknown. -/
def Definite (f : Frame) : Prop := .top ∉ f.stack

/-- The frame `u` may stand for `f`, place by place. -/
def Covers (u f : Frame) : Prop :=
  Value.CoversAll u.locals.toList f.locals.toList ∧ Value.CoversAll u.stack f.stack

/-- Whenever the third step succeeds, so do the other two, and their results are related. -/
def Together {α : Type} (R : α → α → α → Prop) (x y z : Except StepError α) : Prop :=
  ∀ c, z = .ok c → ∃ a b, x = .ok a ∧ y = .ok b ∧ R a b c

namespace Together

variable {α β : Type} {R : α → α → α → Prop} {S : β → β → β → Prop} {f g u : Frame}

theorem ok {a b c : α} (h : R a b c) : Together R (.ok a) (.ok b) (.ok c) := by
  rintro c' ⟨⟩
  exact ⟨a, b, rfl, rfl, h⟩

theorem bind {x y z : Except StepError α} {k k' k'' : α → Except StepError β}
    (h : Together R x y z) (hk : ∀ a b c, R a b c → Together S (k a) (k' b) (k'' c)) :
    Together S (x >>= k) (y >>= k') (z >>= k'') := by
  intro d hd
  obtain ⟨c, hc, hd⟩ := bind_eq_ok.1 hd
  obtain ⟨a, b, rfl, rfl, habc⟩ := h c hc
  exact hk a b c habc d hd

/-- A part of the step that does not depend on the frame. -/
theorem same {x : Except StepError α} {k k' k'' : α → Except StepError β}
    (hk : ∀ a, Together S (k a) (k' a) (k'' a)) : Together S (x >>= k) (x >>= k') (x >>= k'') := by
  intro d hd
  obtain ⟨a, rfl, hd⟩ := bind_eq_ok.1 hd
  exact hk a d hd

theorem pop {k k' k'' : Value × Frame → Except StepError β} (h : f.Unites g u) (hu : u.Definite)
    (hk : ∀ v w x f' g' u', v.Unites w x → x ≠ .top → f'.Unites g' u' → u'.Definite →
      Together S (k (v, f')) (k' (w, g')) (k'' (x, u'))) :
    Together S (f.pop >>= k) (g.pop >>= k') (u.pop >>= k'') := by
  obtain ⟨flocals, fstack⟩ := f
  obtain ⟨glocals, gstack⟩ := g
  obtain ⟨ulocals, ustack⟩ := u
  obtain ⟨hlocals, hstack⟩ := h
  cases hstack with
  | nil =>
    intro d hd
    cases hd
  | cons head tail =>
    obtain ⟨hx, hus⟩ : _ ≠ Value.top ∧ Value.top ∉ _ := by
      simpa [Definite, eq_comm] using hu
    exact hk _ _ _ _ _ _ head hx ⟨hlocals, tail⟩ hus

theorem popMany {count : Nat} {k k' k'' : List Value × Frame → Except StepError β}
    (h : f.Unites g u) (hu : u.Definite)
    (hk : ∀ vs ws xs f' g' u', f'.Unites g' u' → u'.Definite →
      Together S (k (vs, f')) (k' (ws, g')) (k'' (xs, u'))) :
    Together S (f.popMany count >>= k) (g.popMany count >>= k') (u.popMany count >>= k'') := by
  obtain ⟨hf, hg⟩ := h.stack.length_eq
  unfold Frame.popMany
  rw [hf, hg]
  split_ifs
  · refine hk _ _ _ _ _ _ ⟨h.locals, h.stack.drop count⟩ fun htop => hu ?_
    exact List.mem_of_mem_drop htop
  · intro d hd
    cases hd

theorem dropMany (h : f.Unites g u) (hu : u.Definite) (count : Nat) :
    Together Frame.Unites (f.dropMany count) (g.dropMany count) (u.dropMany count) := by
  have hmap : ∀ f : Frame, f.dropMany count = f.popMany count >>= fun p => .ok p.2 := by
    intro f
    unfold Frame.dropMany
    cases f.popMany count <;> rfl
  rw [hmap, hmap, hmap]
  exact popMany h hu fun _ _ _ f' g' u' h _ => ok h

theorem getLocal (h : f.Unites g u) (slot : Nat) :
    Together Value.Unites (f.getLocal slot) (g.getLocal slot) (u.getLocal slot) := by
  intro x hx
  unfold Frame.getLocal at hx
  split at hx
  · next x' hu =>
    cases hx
    obtain ⟨v, w, hv, hw, hvw⟩ := h.locals.exists_getElem? (n := slot) (by simpa using hu)
    refine ⟨v, w, ?_, ?_, hvw⟩
    · rw [Frame.getLocal, show f.locals[slot]? = some v by simpa using hv]
    · rw [Frame.getLocal, show g.locals[slot]? = some w by simpa using hw]
  · cases hx

theorem setLocal {v w x : Value} (h : f.Unites g u) (hv : v.Unites w x) (kind : Kind)
    (slot : Nat) :
    Together Frame.Unites (f.setLocal kind slot v) (g.setLocal kind slot w)
      (u.setLocal kind slot x) := by
  have hsize : f.locals.size = u.locals.size ∧ g.locals.size = u.locals.size := by
    simpa using h.locals.length_eq
  unfold Frame.setLocal
  rw [hsize.1, hsize.2]
  split_ifs
  · refine ok ⟨?_, h.stack⟩
    simpa using (h.locals.set slot hv).set (slot + 1) (.refl .top)
  · refine ok ⟨?_, h.stack⟩
    simpa using h.locals.set slot hv
  · intro d hd
    cases hd

end Together

theorem Unites.push {f g u : Frame} {v w x : Value} (h : f.Unites g u) (hv : v.Unites w x) :
    (f.push v).Unites (g.push w) (u.push x) :=
  ⟨h.locals, .cons hv h.stack⟩

theorem Unites.replace {f g u : Frame} (h : f.Unites g u) (cls cls' : ClassName) (site : Nat)
    (o o' o'' : Origin) :
    (f.replace (.uninitialized cls site) (.instanceOf cls' o)).Unites
      (g.replace (.uninitialized cls site) (.instanceOf cls' o'))
      (u.replace (.uninitialized cls site) (.instanceOf cls' o'')) := by
  refine ⟨?_, ?_⟩
  · simpa [Frame.replace] using h.locals.map fun v w x hv => hv.replace cls cls' site o o' o''
  · exact h.stack.map fun v w x hv => hv.replace cls cls' site o o' o''

theorem unites_call {f g u : Frame} (h : f.Unites g u) (hu : u.Definite) (kind : CallKind)
    (method : MethodRef) :
    Together Unites (f.call kind method) (g.call kind method) (u.call kind method) := by
  refine .same fun signature => .popMany h hu fun vs ws xs f g u h hu => ?_
  by_cases hstatic : kind = .static
  · simp only [hstatic, if_true]
    cases signature.result with
    | none => exact .ok h
    | some type => exact .ok (h.push (.ofType _ _ _ _))
  · simp only [hstatic, if_false]
    refine .pop h hu fun v w x f g u hv hx h hu => ?_
    -- the three receivers are the same new instance, or none of them is one
    cases x with
    | uninitialized cls site =>
      obtain rfl : v = .uninitialized cls site := hv.left
      obtain rfl : w = .uninitialized cls site := hv.right
      dsimp only
      split_ifs
      · exact .ok (h.replace _ _ _ _ _ _)
      · cases signature.result with
        | none => exact .ok h
        | some type => exact .ok (h.push (.ofType _ _ _ _))
    | top => exact absurd rfl hx
    | primitive | null | this | reference =>
      have hv' := hv.left.ne_uninitialized hx (by simp)
      have hw' := hv.right.ne_uninitialized hx (by simp)
      cases v with
      | uninitialized cls site => exact absurd rfl (hv' cls site)
      | top | primitive | null | this | reference =>
        cases w with
        | uninitialized cls site => exact absurd rfl (hw' cls site)
        | top | primitive | null | this | reference =>
          cases signature.result with
          | none => exact .ok h
          | some type => exact .ok (h.push (.ofType _ _ _ _))

/-- After every instruction the third frame still stands for the other two. -/
theorem unites_step {f g u : Frame} (h : f.Unites g u) (hu : u.Definite) (index : Nat)
    (instruction : Instruction) :
    Together Unites (f.step index instruction) (g.step index instruction)
      (u.step index instruction) := by
  cases instruction with
  | nop | goto => exact .ok h
  | constant | new => exact .ok (h.push (.refl _))
  | load kind slot => exact .bind (.getLocal h slot) fun v w x hv => .ok (h.push hv)
  | store kind slot => exact .pop h hu fun v w x f g u hv _ h _ => .setLocal h hv kind slot
  | increment slot => exact .setLocal h (.refl _) _ slot
  | arrayLoad kind =>
    refine .pop h hu fun _ _ _ f g u _ _ h hu => .pop h hu fun v w x f g u _ _ h _ => ?_
    cases kind with
    | reference => exact .ok (h.push (.references _ _ _ _ _ _))
    | int | long | float | double => exact .ok (h.push (.refl _))
  | arrayStore | branch | switch | raise | monitor | putField | putStatic =>
    exact .dropMany h hu _
  | ret kind =>
    cases kind with
    | none => exact .ok h
    | some kind => exact .dropMany h hu 1
  | stack move =>
    simp only [step]
    cases hmove : move.apply u.stack with
    | none =>
      rintro c ⟨⟩
    | some us =>
      obtain ⟨vs, ws, hvs, hws, hstack⟩ := move.moved_apply h.stack hu us hmove
      rw [hvs, hws]
      exact .ok ⟨h.locals, hstack⟩
  | compute pops push =>
    refine .bind (.dropMany h hu pops) fun f g u h => ?_
    cases push with
    | none => exact .ok h
    | some kind => exact .ok (h.push (.refl _))
  | getField field =>
    exact .bind (.dropMany h hu 1) fun f g u h => .same fun v => .ok (h.push (.refl v))
  | getStatic field => exact .same fun v => .ok (h.push (.refl v))
  | invoke kind method => exact unites_call h hu kind method
  | invokeDynamic name descriptor bootstrap =>
    refine .same fun signature => .bind (.dropMany h hu _) fun f g u h => ?_
    cases signature.result with
    | none => exact .ok h
    | some type => exact .ok (h.push (.refl _))
  | newArray descriptor dimensions =>
    exact .bind (.dropMany h hu _) fun f g u h => .same fun type => .ok (h.push (.refl _))
  | arrayLength | instanceOf =>
    exact .bind (.dropMany h hu 1) fun f g u h => .ok (h.push (.refl _))
  | checkCast descriptor =>
    refine .pop h hu fun v w x f g u hv hx h hu => ?_
    cases x with
    | top => exact absurd rfl hx
    | reference type origin =>
      -- references stay references, and the receiver and null stay what they are
      intro c hc
      obtain ⟨type, htype, hc⟩ := bind_eq_ok.1 hc
      cases hc
      rcases hv.left with hthis | ⟨t, o, rfl⟩
      · have hw : ¬ w.ThisOrNull := fun hw => by
          simpa [Value.ThisOrNull] using hv.thisOrNull hthis hw
        obtain ⟨t, o, rfl⟩ := hv.right.resolve_left hw
        refine ⟨f.push v, _, ?_, bind_eq_ok.2 ⟨type, htype, rfl⟩,
          h.push ⟨.inl hthis, .inr ⟨_, _, rfl⟩, ?_, ?_⟩⟩
        · rcases hthis with rfl | rfl <;> rfl
        · simp [Value.ThisOrNull]
        · simp
      · rcases hv.right with hthis | ⟨t', o', rfl⟩
        · refine ⟨_, g.push w, bind_eq_ok.2 ⟨type, htype, rfl⟩, ?_,
            h.push ⟨.inr ⟨_, _, rfl⟩, .inl hthis, ?_, ?_⟩⟩
          · rcases hthis with rfl | rfl <;> rfl
          · simp [Value.ThisOrNull]
          · simp
        · exact ⟨_, _, bind_eq_ok.2 ⟨type, htype, rfl⟩, bind_eq_ok.2 ⟨type, htype, rfl⟩,
            h.push (.references _ _ _ _ _ _)⟩
    | primitive | null | this | uninitialized =>
      dsimp only
      split
      · exact absurd rfl (hv.left.ne_reference hx (by simp) _ _)
      · split
        · exact absurd rfl (hv.right.ne_reference hx (by simp) _ _)
        · exact .ok (h.push hv)

theorem unites_merge {f g h : Frame} (hmerge : f.merge g = some h)
    (hsize : f.locals.size = g.locals.size) : f.Unites g h := by
  obtain ⟨hlength, hlocals, hstack⟩ := merge_eq_some_iff.1 hmerge
  refine ⟨hlocals ▸ ?_, hstack ▸ ?_⟩
  · exact .of_zipWith (by simpa using hsize)
  · exact .of_zipWith hlength

/-- A frame that stands for another one has the same number of local slots. -/
theorem Unites.locals_size {f g u : Frame} (h : f.Unites g u) :
    f.locals.size = u.locals.size := by
  simpa using h.locals.length_eq.1

theorem Unites.definite {f g u : Frame} (h : f.Unites g u) (hu : u.Definite) :
    f.Definite ∧ g.Definite :=
  ⟨h.stack.covers_left.top_notMem hu, h.stack.covers_right.top_notMem hu⟩

namespace Covers

theorem unites {f u : Frame} (h : u.Covers f) : f.Unites u u :=
  ⟨.of_covers h.1, .of_covers h.2⟩

theorem of_unites {f g u : Frame} (h : f.Unites g u) : u.Covers f :=
  ⟨h.locals.covers_left, h.stack.covers_left⟩

theorem trans {u f g : Frame} (h : u.Covers f) (h' : f.Covers g) : u.Covers g :=
  ⟨h.1.trans h'.1, h.2.trans h'.2⟩

theorem of_absorbs {u f : Frame} (hsize : u.locals.size = f.locals.size) (h : u.Absorbs f) :
    u.Covers f := by
  obtain ⟨hlength, hlocals, hstack⟩ := absorbs_iff.1 h
  exact ⟨.of_absorbsAll (by simpa using hsize) hlocals, .of_absorbsAll hlength hstack⟩

end Covers

end Frame

end Immutability

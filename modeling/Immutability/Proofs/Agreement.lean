import Immutability.Proofs.Bounds

/-!
# Values that agree

Which frame is found before an instruction may depend on the order in which frames flow, but not by
much: the result of a call remembers the arguments that were known when the call was looked at, and
the type of an array element or of a cast reference depends on what was known of the operand.

* `Value.Allows` says which values may be found where another one is found in the end, in whatever
  order frames flow, and `Value.Agrees` how far values differ that allow each other;
* `Instruction.respects_allows` says that no instruction breaks it;
* `Instruction.isBlind` tells the instructions that do not look at what is known about references, and
  `Instruction.respects_absorbs` says that they keep the order of values itself.
-/

namespace Immutability

namespace Value

theorem truncate_top (depth : Nat) : top.truncate depth = top := by cases depth <;> rfl

theorem truncate_null (depth : Nat) : null.truncate depth = null := by cases depth <;> rfl

theorem truncate_this (depth : Nat) : this.truncate depth = this := by cases depth <;> rfl

theorem truncate_unknown (depth : Nat) (t : Option FieldType) :
    (reference t .unknown).truncate depth = reference t .unknown := by
  cases depth <;> rfl

/-- The origin of a reference may be forgotten, but not its type. -/
theorem exists_truncate_reference (depth : Nat) (t : Option FieldType) (o : Origin) :
    ∃ o', (reference t o).truncate depth = reference t o' := by
  cases depth <;> cases o <;> exact ⟨_, rfl⟩

/-- The value `v` may be found in one order of serving where `u` is found in the end in another one:
the result of a call may remember other arguments or be of unknown origin, and a reference of unknown
origin may have lost its type. -/
inductive Allows : Value → Value → Prop
  | top (v : Value) : Allows top v
  | refl (v : Value) : Allows v v
  | thisNull : Allows this null
  | null (t : Option FieldType) (o : Origin) : Allows (reference t o) null
  | this (t : Option FieldType) : Allows (reference t .unknown) this
  | origin (t : Option FieldType) (o : Origin) : Allows (reference t .unknown) (reference t o)
  | untyped (t : Option FieldType) (o : Origin) :
    Allows (reference none .unknown) (reference t o)
  | typeLost (t : Option FieldType) : Allows (reference t .unknown) (reference none .unknown)
  | returned (t : Option FieldType) (method : MethodRef) {args args' : List Value}
    (h : List.Forall₂ Allows args args') :
    Allows (reference t (.returned method args)) (reference t (.returned method args'))
  | returnedLost (t : Option FieldType) (method : MethodRef) (args : List Value) :
    Allows (reference t (.returned method args)) (reference t .unknown)
  | constructed (t : Option FieldType) (cls : ClassName) {args args' : List Value}
    (h : List.Forall₂ Allows args args') :
    Allows (reference t (.constructed cls args)) (reference t (.constructed cls args'))
  | constructedLost (t : Option FieldType) (cls : ClassName) (args : List Value) :
    Allows (reference t (.constructed cls args)) (reference t .unknown)

namespace Allows

theorem covers {u v : Value} (h : u.Allows v) : u.Covers v := by
  cases h with
  | refl => exact .refl u
  | _ => simp [Covers, ThisOrNull]

theorem absorbs {u u' v : Value} (habsorbs : u'.Absorbs u) (h : u.Allows v) : u'.Allows v := by
  rcases absorbs_iff.1 habsorbs with rfl | rfl | ⟨rfl, rfl | ⟨t, o, rfl⟩⟩ | ⟨t, o, rfl, rfl⟩ |
    ⟨rfl, rfl | ⟨t, o, rfl⟩⟩
  · exact h
  · exact .top v
  all_goals cases h <;> constructor

theorem merge {u v w : Value} (h : u.Allows v) (h' : u.Allows w) : u.Allows (v.merge w) := by
  cases h <;> cases h' <;> simp only [Value.merge] <;> split_ifs <;> constructor <;> assumption

theorem bounding : Bounding Allows where
  refl := refl
  top := top
  covers := covers
  absorbs := absorbs
  merge := merge

/-- Forgetting origins below some depth does not set values apart. -/
theorem truncate {u v : Value} (h : u.Allows v) (depth : Nat) :
    (u.truncate depth).Allows (v.truncate depth) := by
  induction depth using Nat.strongRecOn generalizing u v with
  | ind depth ih =>
    cases h with
    | top =>
      rw [truncate_top]
      exact top _
    | refl => exact refl _
    | thisNull =>
      rw [truncate_this, truncate_null]
      exact thisNull
    | null t o =>
      obtain ⟨o', ho'⟩ := exists_truncate_reference depth t o
      rw [ho', truncate_null]
      exact null t o'
    | this t =>
      rw [truncate_unknown, truncate_this]
      exact this t
    | origin t o =>
      obtain ⟨o', ho'⟩ := exists_truncate_reference depth t o
      rw [ho', truncate_unknown]
      exact origin t o'
    | untyped t o =>
      obtain ⟨o', ho'⟩ := exists_truncate_reference depth t o
      rw [ho', truncate_unknown]
      exact untyped t o'
    | typeLost t =>
      rw [truncate_unknown, truncate_unknown]
      exact typeLost t
    | returned t method hargs =>
      cases depth with
      | zero => exact refl _
      | succ depth =>
        exact returned t method (List.rel_map (fun _ _ h => ih depth depth.lt_succ_self h) hargs)
    | returnedLost t method args =>
      rw [truncate_unknown]
      cases depth with
      | zero => exact refl _
      | succ depth => exact returnedLost t method _
    | constructed t cls hargs =>
      cases depth with
      | zero => exact refl _
      | succ depth =>
        exact constructed t cls (List.rel_map (fun _ _ h => ih depth depth.lt_succ_self h) hargs)
    | constructedLost t cls args =>
      rw [truncate_unknown]
      cases depth with
      | zero => exact refl _
      | succ depth => exact constructedLost t cls _

end Allows

/-- The two values are equal, apart from what is known about the results of calls and the types of
references of unknown origin. -/
inductive Agrees : Value → Value → Prop
  | refl (v : Value) : Agrees v v
  | symm {v w : Value} (h : Agrees v w) : Agrees w v
  | typeLost (t : Option FieldType) : Agrees (reference t .unknown) (reference none .unknown)
  | returned (t : Option FieldType) (method : MethodRef) {args args' : List Value}
    (h : List.Forall₂ Agrees args args') :
    Agrees (reference t (.returned method args)) (reference t (.returned method args'))
  | returnedLost (t : Option FieldType) (method : MethodRef) (args : List Value) :
    Agrees (reference t (.returned method args)) (reference t .unknown)
  | constructed (t : Option FieldType) (cls : ClassName) {args args' : List Value}
    (h : List.Forall₂ Agrees args args') :
    Agrees (reference t (.constructed cls args)) (reference t (.constructed cls args'))
  | constructedLost (t : Option FieldType) (cls : ClassName) (args : List Value) :
    Agrees (reference t (.constructed cls args)) (reference t .unknown)

/-- Values of which each may be found where the other one is found agree. -/
theorem agrees_of_allows {v w : Value} (h : v.Allows w) (h' : w.Allows v) : v.Agrees w := by
  induction hn : sizeOf v using Nat.strongRecOn generalizing v w with
  | ind n ih =>
    have hargs : ∀ {args args' : List Value}, sizeOf args < n → List.Forall₂ Allows args args' →
        List.Forall₂ Allows args' args → List.Forall₂ Agrees args args' := by
      intro args args' hsize hall hall'
      have hsmall : ∀ a ∈ args, sizeOf a < n :=
        fun a ha => Nat.lt_trans (List.sizeOf_lt_of_mem ha) hsize
      have hboth := (List.forall₂_and_left args args').2 ⟨hsmall, hall⟩
      exact hboth.mp (fun a b hab hba => ih _ hab.1 hab.2 hba rfl) hall'.flip
    subst hn
    cases h with
    | refl => exact .refl _
    | top =>
      cases h' <;> exact .refl _
    -- no reference may be found where the receiver or null is found
    | thisNull | null | this => cases h'
    | origin t o =>
      cases h' with
      | refl | origin | untyped | typeLost => exact .refl _
      | returnedLost _ method args => exact .symm (.returnedLost t method args)
      | constructedLost _ cls args => exact .symm (.constructedLost t cls args)
    | untyped t o =>
      cases h' with
      | refl | origin | untyped => exact .refl _
      | typeLost => exact .symm (.typeLost t)
      | returnedLost _ method args => exact .symm (.returnedLost _ method args)
      | constructedLost _ cls args => exact .symm (.constructedLost _ cls args)
    | typeLost t => exact .typeLost t
    | returned t method h =>
      cases h' with
      | refl => exact .refl _
      | returned _ _ h' => exact .returned t method (hargs (by simp; omega) h h')
    | returnedLost t method args => exact .returnedLost t method args
    | constructed t cls h =>
      cases h' with
      | refl => exact .refl _
      | constructed _ _ h' => exact .constructed t cls (hargs (by simp; omega) h h')
    | constructedLost t cls args => exact .constructedLost t cls args

/-- The order of values is the strictest relation of the kind. -/
theorem bounding_absorbs : Bounding Absorbs where
  refl := .refl
  top _ := absorbs_iff.2 (.inr (.inl rfl))
  covers := .of_absorbs
  absorbs h h' := h.trans h'
  merge h h' := h.merge h'

end Value

namespace Instruction

theorem respects_allows (instruction : Instruction) : instruction.Respects Value.Allows := by
  cases instruction with
  | arrayLoad kind =>
    cases kind with
    | reference =>
      intro u v h
      cases h <;> constructor
    | int | long | float | double => trivial
  | checkCast descriptor =>
    intro type t o v h
    cases h <;> constructor
    all_goals assumption
  | invoke kind method =>
    intro signature us vs _ _ h
    have hargs : List.Forall₂ Value.Allows (us.map (.truncate Frame.originDepth))
        (vs.map (.truncate Frame.originDepth)) :=
      List.rel_map (fun _ _ h => h.truncate Frame.originDepth) h
    refine ⟨fun type _ => ?_, fun _ cls => .constructed _ cls hargs⟩
    cases type with
    | primitive p => exact .refl _
    | object | array => exact .returned _ method hargs
  | _ => trivial

/-- What the instruction leaves on the stack does not depend on what is known about its operands. -/
def isBlind : Instruction → Bool
  | .arrayLoad .reference => false
  | .checkCast _ => false
  | .invoke kind method =>
    match Signature.parse method.descriptor with
    | .ok signature => signature.parameters.isEmpty || (!(kind = .special ∧ method.isConstructor) &&
        signature.result.all fun type => type matches .primitive _)
    | .error _ => true
  | _ => true

theorem respects_absorbs {instruction : Instruction} (h : instruction.isBlind) :
    instruction.Respects Value.Absorbs := by
  cases instruction with
  | arrayLoad kind =>
    cases kind with
    | reference => cases h
    | int | long | float | double => trivial
  | checkCast descriptor => cases h
  | invoke kind method =>
    intro signature us vs hsignature hlength hargs
    simp only [isBlind, hsignature, Bool.or_eq_true, List.isEmpty_iff] at h
    rcases h with hnone | h
    · -- no arguments to remember
      obtain rfl : us = [] := by simpa [hnone] using hlength
      cases hargs
      exact ⟨fun _ _ => .refl _, fun _ _ => .refl _⟩
    · simp only [Bool.and_eq_true, Bool.not_eq_true', decide_eq_false_iff_not] at h
      refine ⟨fun type htype => ?_, fun hconstructor => absurd hconstructor h.1⟩
      rw [Option.mem_def] at htype
      rw [htype] at h
      cases type with
      | primitive p => exact .refl _
      | object | array => simp at h
  | _ => trivial

end Instruction

end Immutability

import Immutability.Frame
import Immutability.Idiom
import Immutability.Proofs.Steps
import Mathlib.Tactic.SplitIfs

/-!
# Idioms and forgotten origins

Values are kept small by forgetting origins below some depth. An idiom looks at two calls, one
inside of the other: the call that wraps a collection, and the one that made its first argument.

* `Idiom.isCopy_truncate` says that one level is enough to tell a copy, and
  `Idiom.exists_truncate_classify` that two levels are enough to tell how far a value follows an
  idiom;
* `Frame.Calling` is a frame before a call, and `Frame.Calling.step_eq` the frame behind it;
* `Idiom.classify_of_truncate` puts them together: what is forgotten in the arguments of a call makes
  no difference to any idiom.
-/

namespace Immutability

namespace Idiom

variable {i : Idiom} {type : Option FieldType} {origin : Origin} {depth : Nat}

/-- Whether a value is a copy shows in the call that made it. -/
theorem isCopy_truncate (i : Idiom) (depth : Nat) (v : Value) :
    i.isCopy (v.truncate (depth + 1)) = i.isCopy v := by
  cases v with
  | reference type origin => cases origin <;> rfl
  | top | primitive | null | this | uninitialized => rfl

/-- Nothing is a copy whose origin is forgotten. -/
theorem isCopy_truncate_zero (i : Idiom) (v : Value) : i.isCopy (v.truncate 0) = false := by
  cases v with
  | reference type origin => cases origin <;> rfl
  | top | primitive | null | this | uninitialized => rfl

/-- Of the arguments of a call only matters whether the first one is a copy. -/
theorem classify_returned (i : Idiom) (method : MethodRef) (args : List Value) :
    i.classify (.returned method args) =
      if i.copyAndWrap.any (·.covers method) then .copiedAndWrapped
      else if i.wrap.any (·.covers method) then
        if args.head?.any i.isCopy then .copiedAndWrapped else .wrappedWithoutCopy
      else if i.copy.any (·.covers method) then .copiedWithoutWrap else .notAttempted := rfl

theorem classify_wrapped {method : MethodRef} {args : List Value}
    (hwrap : i.wrap.any (·.covers method) = true) (hcopy : args.head?.any i.isCopy = true) :
    i.classify (.returned method args) = .copiedAndWrapped := by
  rw [classify_returned, if_pos hwrap, if_pos hcopy, ite_self]

theorem head?_any_isCopy_truncate (i : Idiom) (depth : Nat) (args : List Value) :
    (args.map (Value.truncate (depth + 1))).head?.any i.isCopy = args.head?.any i.isCopy := by
  cases args with
  | nil => rfl
  | cons v args => exact i.isCopy_truncate depth v

/-- An idiom sees no difference between arguments and what is remembered of them. -/
theorem classify_returned_truncate (i : Idiom) (depth : Nat) (method : MethodRef)
    (args : List Value) :
    i.classify (.returned method (args.map (Value.truncate (depth + 1)))) =
      i.classify (.returned method args) := by
  rw [classify_returned, classify_returned, head?_any_isCopy_truncate]

/-- Two levels are enough to tell how far a reference follows an idiom. -/
theorem exists_truncate_classify (i : Idiom) (type : Option FieldType) (origin : Origin)
    (h : 2 ≤ depth) :
    ∃ kept, (Value.reference type origin).truncate depth = .reference type kept ∧
      i.classify kept = i.classify origin := by
  obtain ⟨d, rfl⟩ := Nat.exists_eq_add_of_le' h
  cases origin with
  | returned method args => exact ⟨_, rfl, i.classify_returned_truncate d method args⟩
  -- how a new instance follows an idiom shows in its class
  | constructed cls args => exact ⟨_, rfl, rfl⟩
  | parameter | field | constant | caught | newArray | unknown => exact ⟨_, rfl, rfl⟩

end Idiom

namespace Frame

/-- The frame before the call of a method that returns a reference: the arguments are on top of the
stack, the last one uppermost, with the receiver below them unless the method is static. -/
structure Calling (f : Frame) (kind : CallKind) (method : MethodRef) (args rest : List Value)
    (type : FieldType) : Prop where
  named : method.isConstructor = false
  reference : ∀ p, type ≠ .primitive p
  signature : ∃ s, Signature.parse method.descriptor = .ok s ∧
    s.parameters.length = args.length ∧ s.result = some type
  stack : ∃ receiver : List Value, receiver.length = (if kind = .static then 0 else 1) ∧
    f.stack = args.reverse ++ receiver ++ rest

theorem popMany_append {locals : Array Value} {args rest : List Value} :
    (⟨locals, args.reverse ++ rest⟩ : Frame).popMany args.length = .ok (args, ⟨locals, rest⟩) := by
  have hle : args.length ≤ (args.reverse ++ rest).length := by simp
  have hlength : args.length = args.reverse.length := List.length_reverse.symm
  simp only [popMany, if_pos hle]
  rw [hlength, List.take_left, List.drop_left, List.reverse_reverse]

variable {f : Frame} {kind : CallKind} {method : MethodRef} {args rest : List Value}
  {type : FieldType}

/-- A call leaves its result, which remembers the arguments up to the depth of origins. -/
theorem Calling.step_eq (h : f.Calling kind method args rest type) (index : Nat) :
    f.step index (.invoke kind method) = .ok ⟨f.locals,
      .reference (some type) (.returned method (args.map (Value.truncate originDepth))) :: rest⟩ := by
  obtain ⟨s, hs, hparameters, hresult⟩ := h.signature
  obtain ⟨receiver, hreceiver, hstack⟩ := h.stack
  have hvalue : ∀ o, Value.ofType type o = .reference (some type) o := by
    intro o
    cases htype : type with
    | primitive p => exact absurd htype (h.reference p)
    | object | array => rfl
  have hpop : f.popMany s.parameters.length = .ok (args, ⟨f.locals, receiver ++ rest⟩) := by
    rw [hparameters, ← popMany_append, ← List.append_assoc, ← hstack]
  show f.call kind method = _
  refine bind_eq_ok.2 ⟨s, mapError_eq_ok.2 hs, bind_eq_ok.2 ⟨_, hpop, ?_⟩⟩
  by_cases hstatic : kind = .static
  · rw [if_pos hstatic] at hreceiver
    obtain rfl := List.length_eq_zero_iff.1 hreceiver
    simp only [hstatic, if_true, hresult, hvalue]
    rfl
  · rw [if_neg hstatic] at hreceiver
    obtain ⟨v, rfl⟩ := List.length_eq_one_iff.1 hreceiver
    simp only [hstatic, if_false, hresult, hvalue]
    have hnew : ¬(kind = .special ∧ method.isConstructor = true) := by simp [h.named]
    cases v with
    | uninitialized cls site => exact if_neg hnew
    | top | primitive | null | this | reference => rfl

end Frame

namespace Idiom

/-- What is forgotten of a value, two levels down or deeper, makes no difference to an idiom. So the
result of a call is taken for what it would be if all of its arguments were remembered; and a
wrapper around a copy is recognised, whatever was copied. -/
theorem classify_of_truncate (i : Idiom) :
    (∀ (type : Option FieldType) (origin : Origin) (depth : Nat), 2 ≤ depth →
      ∃ kept, (Value.reference type origin).truncate depth = .reference type kept ∧
        i.classify kept = i.classify origin) ∧
    ∀ (f : Frame) (kind : CallKind) (method : MethodRef) (args rest : List Value)
      (type : FieldType) (index : Nat), f.Calling kind method args rest type →
      ∃ kept, f.step index (.invoke kind method) =
          .ok ⟨f.locals, .reference (some type) kept :: rest⟩ ∧
        i.classify kept = i.classify (.returned method args) ∧
        (i.wrap.any (·.covers method) = true → args.head?.any i.isCopy = true →
          i.classify kept = .copiedAndWrapped) := by
  refine ⟨fun type origin depth h => i.exists_truncate_classify type origin h, ?_⟩
  intro f kind method args rest type index h
  have hkept := i.classify_returned_truncate 2 method args
  exact ⟨_, h.step_eq index, hkept, fun hwrap hcopy => hkept.trans (classify_wrapped hwrap hcopy)⟩

/-- The idiom for lists with a single copying and a single wrapping method. -/
def plainLists : Idiom :=
  ofNames "java.util.List" [("java.util.ArrayList", constructorName)]
    [("java.util.Collections", "unmodifiableList")] []

/-- The wrapping method of the idiom. -/
def unmodifiableList : MethodRef :=
  ⟨.ofString "java.util.Collections", "unmodifiableList", "(Ljava/util/List;)Ljava/util/List;"⟩

/-- A copy of a view of a view of a view of a parameter. -/
def copiedView : Value :=
  let view (v : Value) : Value :=
    .instanceOf (.ofString "java.util.List") (.returned unmodifiableList [v])
  .instanceOf (.ofString "java.util.ArrayList") (.constructed (.ofString "java.util.ArrayList")
    [view (view (view (.instanceOf (.ofString "java.util.List") (.parameter 1))))])

theorem classify_of_truncate_copiedView :
    ∃ kept, Frame.step ⟨#[.this], [copiedView, .this]⟩ 8 (.invoke .static unmodifiableList) =
        .ok ⟨#[.this], [.instanceOf (.ofString "java.util.List") kept, .this]⟩ ∧
      copiedView.truncate Frame.originDepth ≠ copiedView ∧
      plainLists.classify kept = .copiedAndWrapped := by
  have hcalling : Frame.Calling ⟨#[.this], [copiedView, .this]⟩ .static unmodifiableList [copiedView]
      [.this] (.object (.ofString "java.util.List")) :=
    ⟨by decide, fun p => by simp,
      ⟨⟨[.object (.ofString "java.util.List")], some (.object (.ofString "java.util.List"))⟩,
        by decide +kernel, rfl, rfl⟩,
      ⟨[], rfl, rfl⟩⟩
  obtain ⟨kept, hstep, -, hwrap⟩ := (classify_of_truncate plainLists).2 _ _ _ _ _ _ 8 hcalling
  exact ⟨kept, hstep, by decide +kernel, hwrap (by decide +kernel) (by decide +kernel)⟩

/-- One level is not enough: a wrapper around a copy is then taken for one around a parameter. -/
theorem exists_truncate_one_classify {i : Idiom} {method : MethodRef} (type : Option FieldType)
    (args : List Value) (hwrap : i.wrap.any (·.covers method) = true)
    (hboth : i.copyAndWrap.any (·.covers method) = false) :
    ∃ kept, (Value.reference type (.returned method args)).truncate 1 = .reference type kept ∧
      i.classify kept = .wrappedWithoutCopy := by
  refine ⟨_, rfl, ?_⟩
  have hhead : (args.map (Value.truncate 0)).head?.any i.isCopy = false := by
    cases args with
    | nil => rfl
    | cons v args => exact i.isCopy_truncate_zero v
  rw [classify_returned, if_neg (Bool.eq_false_iff.1 hboth), if_pos hwrap,
    if_neg (Bool.eq_false_iff.1 hhead)]

end Idiom

end Immutability

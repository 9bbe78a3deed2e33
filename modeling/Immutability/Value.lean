import Immutability.Instruction

/-!
# Abstract values

What is known about the value in a local slot or on the operand stack.

* `Value` tells the receiver of a method from other references, and `Origin` says where a
  reference came from, with the arguments of the call that made it;
* `Value.truncate` forgets origins below a given depth;
* `Value.merge` is what two values have in common.

Equality of values is decided by `Value.same`, a comparison of the two trees.
-/

namespace Immutability

mutual

/-- Where a reference came from. -/
inductive Origin where
  /-- The parameter in the given local slot. -/
  | parameter (slot : Nat)
  /-- A new instance, once its constructor has run on the arguments. -/
  | constructed (cls : ClassName) (args : List Value)
  /-- The result of a call. -/
  | returned (method : MethodRef) (args : List Value)
  | field (field : FieldRef)
  | constant
  /-- The exception at the start of a handler. -/
  | caught
  | newArray
  /-- Lost by a merge, an array access or a dynamic call. -/
  | unknown

/-- What is known about a value. -/
inductive Value where
  /-- Nothing: the slot is unset, or holds values that have nothing in common. -/
  | top
  | primitive (kind : Kind)
  | null
  /-- The receiver of an instance method. -/
  | this
  /-- The instance made by instruction `site`, before its constructor has run. -/
  | uninitialized (cls : ClassName) (site : Nat)
  /-- A reference with its static type, if known. -/
  | reference (type : Option FieldType) (origin : Origin)

end

instance : Inhabited Origin := ⟨.unknown⟩

instance : Inhabited Value := ⟨.top⟩

/-! ### Equality -/

mutual

/-- Whether two origins are equal. -/
def Origin.same : Origin → Origin → Bool
  | .parameter s, .parameter s' => s == s'
  | .constructed c args, .constructed c' args' => c == c' && Value.sameAll args args'
  | .returned m args, .returned m' args' => m == m' && Value.sameAll args args'
  | .field f, .field f' => f == f'
  | .constant, .constant => true
  | .caught, .caught => true
  | .newArray, .newArray => true
  | .unknown, .unknown => true
  | _, _ => false

/-- Whether two values are equal. -/
def Value.same : Value → Value → Bool
  | .top, .top => true
  | .primitive k, .primitive k' => k == k'
  | .null, .null => true
  | .this, .this => true
  | .uninitialized c s, .uninitialized c' s' => c == c' && s == s'
  | .reference t o, .reference t' o' => t == t' && Origin.same o o'
  | _, _ => false

/-- Whether two lists of values are equal. -/
def Value.sameAll : List Value → List Value → Bool
  | [], [] => true
  | v :: vs, w :: ws => Value.same v w && Value.sameAll vs ws
  | _, _ => false

end

mutual

theorem Origin.same_self : ∀ o : Origin, Origin.same o o = true
  | .parameter _ => by simp [Origin.same]
  | .constructed _ args => by simp [Origin.same, Value.sameAll_self args]
  | .returned _ args => by simp [Origin.same, Value.sameAll_self args]
  | .field _ => by simp [Origin.same]
  | .constant => rfl
  | .caught => rfl
  | .newArray => rfl
  | .unknown => rfl

theorem Value.same_self : ∀ v : Value, Value.same v v = true
  | .top => rfl
  | .primitive _ => by simp [Value.same]
  | .null => rfl
  | .this => rfl
  | .uninitialized _ _ => by simp [Value.same]
  | .reference _ o => by simp [Value.same, Origin.same_self o]

theorem Value.sameAll_self : ∀ vs : List Value, Value.sameAll vs vs = true
  | [] => rfl
  | v :: vs => by simp [Value.sameAll, Value.same_self v, Value.sameAll_self vs]

end

mutual

theorem Origin.eq_of_same : ∀ {o p : Origin}, Origin.same o p = true → o = p
  | .parameter _, p, h => by cases p <;> simp_all [Origin.same]
  | .constructed _ args, p, h => by
    cases p <;> simp only [Origin.same, Bool.and_eq_true, beq_iff_eq, reduceCtorEq] at h
    rw [h.1, Value.eq_of_sameAll h.2]
  | .returned _ args, p, h => by
    cases p <;> simp only [Origin.same, Bool.and_eq_true, beq_iff_eq, reduceCtorEq] at h
    rw [h.1, Value.eq_of_sameAll h.2]
  | .field _, p, h => by cases p <;> simp_all [Origin.same]
  | .constant, p, h => by cases p <;> simp_all [Origin.same]
  | .caught, p, h => by cases p <;> simp_all [Origin.same]
  | .newArray, p, h => by cases p <;> simp_all [Origin.same]
  | .unknown, p, h => by cases p <;> simp_all [Origin.same]

theorem Value.eq_of_same : ∀ {v w : Value}, Value.same v w = true → v = w
  | .top, w, h => by cases w <;> simp_all [Value.same]
  | .primitive _, w, h => by cases w <;> simp_all [Value.same]
  | .null, w, h => by cases w <;> simp_all [Value.same]
  | .this, w, h => by cases w <;> simp_all [Value.same]
  | .uninitialized _ _, w, h => by cases w <;> simp_all [Value.same]
  | .reference _ o, w, h => by
    cases w <;> simp only [Value.same, Bool.and_eq_true, beq_iff_eq, reduceCtorEq] at h
    rw [h.1, Origin.eq_of_same h.2]

theorem Value.eq_of_sameAll : ∀ {vs ws : List Value}, Value.sameAll vs ws = true → vs = ws
  | [], [], _ => rfl
  | [], _ :: _, h => by simp [Value.sameAll] at h
  | _ :: _, [], h => by simp [Value.sameAll] at h
  | v :: vs, w :: ws, h => by
    simp only [Value.sameAll, Bool.and_eq_true] at h
    rw [Value.eq_of_same h.1, Value.eq_of_sameAll h.2]

end

theorem Origin.same_iff {o p : Origin} : Origin.same o p = true ↔ o = p :=
  ⟨Origin.eq_of_same, fun h => h ▸ Origin.same_self o⟩

theorem Value.same_iff {v w : Value} : Value.same v w = true ↔ v = w :=
  ⟨Value.eq_of_same, fun h => h ▸ Value.same_self v⟩

instance : DecidableEq Origin := fun _ _ => decidable_of_iff _ Origin.same_iff

instance : DecidableEq Value := fun _ _ => decidable_of_iff _ Value.same_iff

namespace Value

/-- A value of the given type; the origin is kept for references only. -/
def ofType (type : FieldType) (origin : Origin) : Value :=
  match type with
  | .primitive p => primitive p.kind
  | other => reference (some other) origin

/-- An instance of the given class. -/
def instanceOf (cls : ClassName) (origin : Origin) : Value := reference (some (.object cls)) origin

/-- Whether the value fills two local slots. -/
def isWide : Value → Bool
  | primitive kind => kind.isWide
  | _ => false

/-- The static type of a reference. -/
def type? : Value → Option FieldType
  | reference type _ => type
  | _ => none

/-- The value with the origins of call arguments forgotten below `depth`. -/
def truncate : Nat → Value → Value
  | 0, reference type (.constructed _ _) => reference type .unknown
  | 0, reference type (.returned _ _) => reference type .unknown
  | depth + 1, reference type (.constructed cls args) =>
    reference type (.constructed cls (args.map (truncate depth)))
  | depth + 1, reference type (.returned method args) =>
    reference type (.returned method (args.map (truncate depth)))
  | _, value => value

/-- What two values have in common. The null reference is an instance of every class, and the
receiver is a reference of which nothing else is known once it meets another one. -/
def merge (v w : Value) : Value :=
  if v = w then v
  else match v, w with
    | null, reference _ _ => w
    | null, this => w
    | reference _ _, null => v
    | this, null => v
    | reference t _, reference t' _ => reference (if t = t' then t else none) .unknown
    | this, reference _ _ => reference none .unknown
    | reference _ _, this => reference none .unknown
    | _, _ => top

end Value

end Immutability

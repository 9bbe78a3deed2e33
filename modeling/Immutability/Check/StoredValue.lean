import Immutability.Check

/-!
# Values stored into fields

A class is no more immutable than the values it stores into its own fields.

* `ownStores` lists the stores of a method into fields of its class;
* `inspectStore` judges the value of one store: by the idiom of the field type first, then by the
  verdict given for the type of the value, then by what can be found out about that type;
* `storedValues` is the check.
-/

namespace Immutability.Check

/-- The stores of a method into fields of the class `cls`, with their instruction indices. -/
def ownStores (cls : ClassName) (m : Method) : List (Nat × FieldRef) :=
  m.code.toList.zipIdx.filterMap fun p =>
    match p.1 with
    | .putField f => if f.owner = cls then some (p.2, f) else none
    | _ => none

/-- The class whose mutability matters for a stored reference, given the type of the reference. -/
def storedClass? (type : Option FieldType) (declared : ClassName) : Option ClassName :=
  match type with
  | some (.object name) => some name
  | some _ => none
  | none => some declared

/-- The finding for a collection that is not both copied and wrapped. -/
def collectionFinding (location : Location) (field : FieldRef) (declared : ClassName)
    (idiom : Idiom) : Finding :=
  ⟨.abstractCollectionTypeToField, location,
    s!"Field [{field.name}] is a {declared.simple} that is not both copied and wrapped in an " ++
      s!"unmodifiable view. Assign {idiom.suggestion} instead."⟩

/-- The finding for a value of an abstract type. -/
def abstractFinding (location : Location) (field : FieldRef) (type : ClassName) : Finding :=
  ⟨.abstractTypeToField, location,
    s!"Field [{field.name}] can have an abstract type ({type}) assigned to it."⟩

/-- The message for a stored value whose type gives rise to doubt. -/
def storedMessage (path : AnalysisPath) (field : FieldRef) (type : ClassName) : Reason → String
  | .cyclicReference =>
    s!"Field [{field.name}] has type {type} which is part of a reference cycle: " ++
      path.describeCycle type
  | .cannotAnalyse =>
    s!"Field [{field.name}] has type {type} which could not be fully analysed."
  | _ => s!"Field [{field.name}] can have a mutable type ({type}) assigned to it."

/-- The finding for a value whose type gives rise to doubt. -/
def dependencyFinding? (ctx : CheckContext) (location : Location) (field : FieldRef)
    (type : ClassName) (dependency : Dependency) : Option Finding :=
  (dependency.reasonFor .mutableTypeToField).map fun reason =>
    ⟨reason, location, storedMessage ctx.path field type reason⟩

/-- Judge a value by its class. -/
def inspectClass (ctx : CheckContext) (location : Location) (field : FieldRef)
    (declared type : ClassName) : Inquiry (Option Finding) := do
  match ctx.config.hardcoded? type with
  | some given => return dependencyFinding? ctx location field type (.resolved given)
  | none =>
    match ctx.config.idiom? type with
    | some idiom => return some (collectionFinding location field declared idiom)
    | none =>
      let facts ← Inquiry.factsOf type
      if facts.any fun c => c.access.isInterface || c.access.isAbstract then
        return some (abstractFinding location field type)
      return dependencyFinding? ctx location field type (← Inquiry.mutabilityOf type)

/-- Judge a reference of the given static type and origin that is stored into a field of the
declared class. -/
def inspectReference (ctx : CheckContext) (location : Location) (field : FieldRef)
    (declared : ClassName) (type : Option FieldType) (origin : Origin) :
    Inquiry (Option Finding) :=
  let byClass :=
    match storedClass? type declared with
    | none => pure none
    | some type => inspectClass ctx location field declared type
  match ctx.config.idiom? declared with
  | none => byClass
  | some idiom =>
    match idiom.classify origin with
    | .copiedAndWrapped => pure none
    | .wrappedWithoutCopy | .copiedWithoutWrap =>
      pure (some (collectionFinding location field declared idiom))
    | .notAttempted => byClass

/-- Judge the value that is stored into a field at `location`. -/
def inspectStore (ctx : CheckContext) (location : Location) (field : FieldRef) (value : Value) :
    Examination (Option Finding) := do
  match value with
  | .reference type origin =>
    match ← Examination.ofExcept .descriptor (FieldType.parse field.descriptor) with
    | .object declared => inspectReference ctx location field declared type origin
    | _ => return none
  | _ => return none

/-- Judge one store of a method with known frames. A store that is never reached is fine. -/
def examineStore (ctx : CheckContext) (c : ClassFacts) (m : Method)
    (frames : Array (Option Frame)) (store : Nat × FieldRef) : Examination (Option Finding) := do
  match frames[store.1]? with
  | some (some frame) =>
    match frame.peek 0 with
    | none => throw (.missingValue store.1)
    | some value =>
      inspectStore ctx (.method c.name m.name m.descriptor (some store.1)) store.2 value
  | _ => return none

/-- Judge all stores of a method. -/
def examineStores (ctx : CheckContext) (c : ClassFacts) (m : Method) :
    Examination (List Finding) := do
  let stores := ownStores c.name m
  if stores.isEmpty then return []
  let frames ← Examination.frames c.name m
  let found ← stores.mapM (examineStore ctx c m frames)
  return found.filterMap id

/-- A class is no more immutable than the values it stores into its own fields. -/
def storedValues : Check where
  name := "mutable_type_to_field"
  examine ctx c := do
    let found ← c.methods.mapM (examineStores ctx c)
    return found.flatten

end Immutability.Check

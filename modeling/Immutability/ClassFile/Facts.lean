import Immutability.ClassFile.Code
import Immutability.ClassFile.Parse

/-!
# Facts of class files

`ClassFile.readFacts` turns the bytes of a class file into the facts about the class, and
`ClassFile.Error` says why it cannot.
-/

namespace Immutability.ClassFile

/-- The symbolic references of a class file outside its code. -/
inductive Reference where
  | className | superclass | interface | bootstraps
  | fieldName | fieldDescriptor | methodName | methodDescriptor
  deriving DecidableEq, Repr

/-- A reference in words. -/
def Reference.describe : Reference → String
  | className => "class name"
  | superclass => "super class name"
  | interface => "interface name"
  | bootstraps => "bootstrap methods"
  | fieldName => "field name"
  | fieldDescriptor => "field descriptor"
  | methodName => "method name"
  | methodDescriptor => "method descriptor"

/-- Why a class cannot be read from bytes. -/
inductive Error where
  | format (cause : FormatError)
  | reference (reference : Reference) (cause : PoolError)
  | code (method : MethodRef) (cause : CodeError)
  deriving DecidableEq, Repr

/-- The wording of an error. -/
def Error.message : Error → String
  | format cause => "failed to parse class file bytes: " ++ cause.message
  | reference r cause => s!"resolve {r.describe}: {cause.message}"
  | code method cause => s!"decode {method.display}: {cause.message}"

/-- The classes of the bootstrap methods, from the first table of them. -/
def bootstrapOwners (file : ClassFile) : Except PoolError (List ClassName) :=
  let handles := file.attributes.findSome? fun
    | .bootstrapMethods handles => some handles
    | _ => none
  (handles.getD []).mapM file.pool.handleOwner

/-- The facts of a field. -/
def fieldFacts (pool : Pool) (m : Member) : Except Error Field := do
  let name ← (pool.text m.name).mapError (.reference .fieldName)
  let descriptor ← (pool.text m.descriptor).mapError (.reference .fieldDescriptor)
  return ⟨name, descriptor, m.access⟩

/-- The body of a method, which is its first attribute of that kind. -/
def Member.body? (m : Member) : Option Body :=
  m.attributes.findSome? fun
    | .code body => some body
    | _ => none

/-- The facts of a method of `cls`. -/
def methodFacts (s : Symbols) (cls : ClassName) (m : Member) : Except Error Method := do
  let name ← (s.pool.text m.name).mapError (.reference .methodName)
  let descriptor ← (s.pool.text m.descriptor).mapError (.reference .methodDescriptor)
  match m.body? with
  | none => return ⟨name, descriptor, m.access, 0, #[], []⟩
  | some body =>
    let (code, handlers) ←
      (decodeBody s body.code body.ranges).mapError (.code ⟨cls, name, descriptor⟩)
    return ⟨name, descriptor, m.access, body.maxLocals, code, handlers⟩

/-- The facts of a class file. -/
def facts (file : ClassFile) : Except Error ClassFacts := do
  let pool := file.pool
  let name ← (pool.className file.cls).mapError (.reference .className)
  let superclass ←
    if file.superclass = 0 then pure none
    else some <$> (pool.className file.superclass).mapError (Error.reference .superclass)
  let interfaces ← (file.interfaces.mapM pool.className).mapError (.reference .interface)
  let bootstraps ← (bootstrapOwners file).mapError (.reference .bootstraps)
  let fields ← file.fields.mapM (fieldFacts pool)
  let methods ← file.methods.mapM (methodFacts ⟨pool, bootstraps.toArray⟩ name)
  return ⟨name, superclass, interfaces, file.access, fields, methods⟩

/-- The facts of the class in the given bytes. -/
def readFacts (data : ByteArray) : Except Error ClassFacts := do
  facts (← (parse data).mapError .format)

end Immutability.ClassFile

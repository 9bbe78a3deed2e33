import Immutability.Configuration
import Immutability.FrameFlow
import Immutability.Inquiry
import Immutability.Path

/-!
# Checks

A check looks at one class for one family of reasons why its instances may change.

* `CheckContext` is what a check knows besides the class;
* `Examination` is the work of a check, and `CheckError` why it can fail;
* `Check` is a check with the name under which its failures are reported.
-/

namespace Immutability

/-- Why a check cannot be made. -/
inductive CheckError where
  /-- The frames of a method are unknown. -/
  | flow (cause : FlowError)
  | descriptor (cause : DescriptorError)
  /-- A field store without a value to store. -/
  | missingValue (index : Nat)
  /-- A call with a malformed descriptor. -/
  | callDescriptor (cls : ClassName) (method : String) (index : Nat) (cause : DescriptorError)
  /-- A call with fewer values on the stack than it has arguments. -/
  | shortStack (cls : ClassName) (method : String) (index : Nat)
  /-- A failure for any other reason, in the words of the check. -/
  | other (message : String)
  deriving DecidableEq, Repr

/-- The wording of an error. -/
def CheckError.message : CheckError → String
  | flow cause => cause.message
  | descriptor cause => cause.message
  | missingValue index => s!"no value on the stack for putfield at {index}"
  | callDescriptor cls method index cause =>
    s!"{cls}.{method} at instruction {index}: {cause.message}"
  | shortStack cls method index =>
    s!"{cls}.{method} at instruction {index}: operand stack shorter than the call's arguments"
  | other message => message

/-- What a check knows besides the class under examination. -/
structure CheckContext where
  config : Configuration
  /-- The classes being analysed, the one under examination last. -/
  path : AnalysisPath

/-- The work of a check: it may ask about other classes, and it may fail. -/
abbrev Examination := ExceptT CheckError Inquiry

namespace Examination

/-- A part of the work that asks no questions. -/
def ofExcept {ε α : Type} (wrap : ε → CheckError) : Except ε α → Examination α
  | .ok a => pure a
  | .error e => throw (wrap e)

/-- The frames of a method of the given class. -/
def frames (cls : ClassName) (m : Method) : Examination (Array (Option Frame)) :=
  ofExcept .flow (m.frames cls)

end Examination

/-- A check with its name. -/
structure Check where
  name : String
  examine : CheckContext → ClassFacts → Examination (List Finding)

/-- A check that only needs the facts of the class itself. -/
def Check.ofFacts (name : String) (findings : ClassFacts → List Finding) : Check :=
  ⟨name, fun _ c => pure (findings c)⟩

end Immutability

import Immutability.Frame

/-!
# Frames of a method

Frames flow from the first instruction along jumps, falls and exception handlers until no frame
changes any more.

* `FrameFlow` is the state of that process: the frame known before each instruction, and the
  instructions whose frame changed since they were served;
* `FrameFlow.serve` passes on the frame of one instruction, and `FrameFlow.settle` serves the
  pending instructions, first come first served, each at most `visitLimit` times;
* `Method.frames` is the outcome for a whole method, and `FlowError` what can go wrong.
-/

namespace Immutability

/-- What can go wrong while frames flow through a method. -/
inductive FlowError where
  | descriptor (cause : DescriptorError)
  | step (method : MethodRef) (index : Nat) (cause : StepError)
  | target (target : Nat)
  | height (known incoming : Nat)
  | fallsOff (method : MethodRef)
  | diverged (method : MethodRef) (index : Nat)
  deriving DecidableEq, Repr

/-- The wording of an error. -/
def FlowError.message : FlowError → String
  | descriptor cause => cause.message
  | step method index cause => s!"{method.display} at instruction {index}: {cause.message}"
  | target t => s!"jump target {t} out of range"
  | height known incoming =>
    s!"operand stack height mismatch at merge ({known} vs {incoming})"
  | fallsOff method => s!"{method.display}: execution falls off the end of the code"
  | diverged method index =>
    s!"{method.display}: analysis did not converge at instruction {index}"

/-- The frames known before each of `n` instructions, and the instructions still to be served. -/
structure FrameFlow (n : Nat) where
  frames : Vector (Option Frame) n
  pending : List (Fin n)

/-- The value with which a handler starts. -/
def Handler.caughtValue (h : Handler) : Value :=
  .instanceOf (h.catches.getD (.ofString "java.lang.Throwable")) .caught

/-- The frame in which a handler starts when an instruction with frame `before` raises. -/
def Handler.entry (h : Handler) (before : Frame) : Frame := ⟨before.locals, [h.caughtValue]⟩

namespace FrameFlow

variable {n : Nat}

/-- The flow with a new frame for an instruction, which then has to be served. -/
def record (s : FrameFlow n) (i : Fin n) (f : Frame) : FrameFlow n where
  frames := s.frames.set i (some f)
  pending := if i ∈ s.pending then s.pending else s.pending ++ [i]

/-- The flow after a frame has reached an instruction. -/
def reach (s : FrameFlow n) (target : Nat) (incoming : Frame) : Except FlowError (FrameFlow n) :=
  if h : target < n then
    match s.frames[target] with
    | none => .ok (s.record ⟨target, h⟩ incoming)
    | some known =>
      match known.merge incoming with
      | none => .error (.height known.stack.length incoming.stack.length)
      | some merged => .ok (if merged = known then s else s.record ⟨target, h⟩ merged)
  else .error (.target target)

/-- The flow after a frame has reached several instructions in turn. -/
def reachAll (s : FrameFlow n) (targets : List Nat) (incoming : Frame) :
    Except FlowError (FrameFlow n) :=
  targets.foldlM (fun s t => s.reach t incoming) s

/-- The flow after the handlers active at an instruction have been reached. -/
def reachHandlers (s : FrameFlow n) (handlers : List Handler) (index : Nat) (before : Frame) :
    Except FlowError (FrameFlow n) :=
  (handlers.filter (·.covers index)).foldlM (fun s h => s.reach h.target (h.entry before)) s

/-- The flow after an instruction of a method of `cls` has passed on its frame: first to the active
handlers, then to its jump targets, and last to the next instruction. -/
def serve (cls : ClassName) (m : Method) (s : FrameFlow m.code.size) (i : Fin m.code.size) :
    Except FlowError (FrameFlow m.code.size) :=
  match s.frames[i] with
  | none => .ok s
  | some before => do
    let instruction := m.code[i]
    let s ← s.reachHandlers m.handlers i before
    let after ← (before.step i instruction).mapError (.step (m.ref cls) i)
    let s ← s.reachAll instruction.jumpTargets after
    if instruction.fallsThrough then
      if i + 1 < m.code.size then s.reach (i + 1) after else throw (.fallsOff (m.ref cls))
    else return s

/-- How often one instruction may be served. -/
def visitLimit : Nat := 64

theorem sum_set_lt {l : List Nat} {i k : Nat} (h : l[i]? = some (k + 1)) :
    @List.sum Nat _ ⟨0⟩ (l.set i k) < @List.sum Nat _ ⟨0⟩ l := by
  obtain ⟨hi, hk⟩ := List.getElem?_eq_some_iff.1 h
  calc (l.set i k).sum
    _ = (l.take i).sum + (k + (l.drop (i + 1)).sum) := by
      rw [List.set_eq_take_append_cons_drop, if_pos hi, List.sum_append_nat, List.sum_cons]
    _ < (l.take i).sum + (k + 1 + (l.drop (i + 1)).sum) := by omega
    _ = l.sum := by
      rw [← hk, ← List.sum_cons, ← List.drop_eq_getElem_cons hi, ← List.sum_append_nat,
        List.take_append_drop]

/-- Serve the pending instructions in turn until none is left. The numbers in `left` say how often
each instruction may still be served. -/
def settle (cls : ClassName) (m : Method) (s : FrameFlow m.code.size)
    (left : Vector Nat m.code.size) : Except FlowError (Vector (Option Frame) m.code.size) :=
  match s.pending with
  | [] => .ok s.frames
  | i :: pending =>
    match h : left[i] with
    | 0 => .error (.diverged (m.ref cls) i)
    | k + 1 =>
      match serve cls m { s with pending } i with
      | .error e => .error e
      | .ok s => settle cls m s (left.set i k)
termination_by @List.sum Nat _ ⟨0⟩ left.toList
decreasing_by
  rw [Vector.toList_set]
  apply sum_set_lt
  simpa using h

/-- The flow that starts with one frame before the first instruction. -/
def start (h : 0 < n) (f : Frame) : FrameFlow n where
  frames := (Vector.replicate n none).set 0 (some f)
  pending := [⟨0, h⟩]

end FrameFlow

/-- The frame before each instruction of a method of `cls`, with none where control never gets. -/
def Method.frames (m : Method) (cls : ClassName) : Except FlowError (Array (Option Frame)) :=
  if h : 0 < m.code.size then do
    let f ← (Frame.entry m).mapError .descriptor
    let frames ← FrameFlow.settle cls m (.start h f) (.replicate _ FrameFlow.visitLimit)
    return frames.toArray
  else .ok #[]

end Immutability

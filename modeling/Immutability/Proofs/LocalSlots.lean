import Immutability.Proofs.Serving

/-!
# Local slots are sufficient

A method that declares as many local slots as are derived from its descriptor and its instructions
never reads or writes a slot that does not exist.

* `Method.neededLocals` is the number of slots needed, before it is cut to the limit;
* `Frame.sparesSlots_step` says that an instruction does not miss a slot in a frame with the slots
  that the instruction needs;
* `Method.lt_neededLocals_of_frames` says the same of the whole flow: where a slot is missing, the
  instruction needs more slots than there are at the start;
* `Method.frames_ne_slot` is the property of the derived number.
-/

namespace Immutability

namespace Frame

/-- The step does not fail for want of a local slot. -/
def SparesSlots {α : Type} (r : Except StepError α) : Prop := ∀ slot, r ≠ .error (.slot slot)

namespace SparesSlots

variable {α β : Type} {f : Frame}

theorem ok (a : α) : SparesSlots (.ok a) := by
  rintro slot ⟨⟩

theorem bind {x : Except StepError α} {k : α → Except StepError β} (hx : SparesSlots x)
    (h : ∀ a, x = .ok a → SparesSlots (k a)) : SparesSlots (x >>= k) := by
  intro slot hslot
  rcases bind_eq_error.1 hslot with hslot | ⟨a, ha, hslot⟩
  · exact hx slot hslot
  · exact h a ha slot hslot

theorem descriptor (x : Except DescriptorError α) : SparesSlots (x.mapError .descriptor) := by
  intro slot hslot
  cases x <;> cases hslot

theorem pop {k : Value × Frame → Except StepError β}
    (h : ∀ v g, g.locals = f.locals → SparesSlots (k (v, g))) : SparesSlots (f.pop >>= k) := by
  refine bind ?_ fun p hp => ?_
  · intro slot hslot
    unfold Frame.pop at hslot
    split at hslot <;> cases hslot
  · unfold Frame.pop at hp
    split at hp <;> cases hp
    exact h _ _ rfl

theorem popMany (f : Frame) (count : Nat) : SparesSlots (f.popMany count) := by
  intro slot hslot
  unfold Frame.popMany at hslot
  split at hslot <;> cases hslot

theorem dropMany (f : Frame) (count : Nat) : SparesSlots (f.dropMany count) := by
  intro slot hslot
  unfold Frame.dropMany Frame.popMany at hslot
  split at hslot <;> cases hslot

theorem fieldValue (field : FieldRef) : SparesSlots (fieldValue field) :=
  (descriptor _).bind fun _ _ => ok _

theorem getLocal {slot : Nat} (h : slot < f.locals.size) : SparesSlots (f.getLocal slot) := by
  intro slot' hslot
  rw [Frame.getLocal, Array.getElem?_eq_getElem h] at hslot
  cases hslot

theorem setLocal {kind : Kind} {slot : Nat} (h : slot + kind.slots ≤ f.locals.size) (v : Value) :
    SparesSlots (f.setLocal kind slot v) := by
  intro slot' hslot
  rw [Frame.setLocal, if_pos h] at hslot
  cases hslot

theorem call (f : Frame) (kind : CallKind) (method : MethodRef) :
    SparesSlots (f.call kind method) := by
  refine (descriptor _).bind fun signature _ => (popMany f _).bind fun popped _ => ?_
  by_cases hstatic : kind = .static
  · simp only [hstatic, if_true]
    exact ok _
  · simp only [hstatic, if_false]
    refine pop fun receiver g _ => ?_
    cases receiver with
    | uninitialized cls site =>
      dsimp only
      split_ifs <;> exact ok _
    | top | primitive | null | this | reference => exact ok _

end SparesSlots

/-- The step: an instruction misses no slot where there are as many as it needs. -/
theorem sparesSlots_step {f : Frame} {instruction : Instruction} (index : Nat)
    (h : instruction.neededLocals ≤ f.locals.size) : SparesSlots (f.step index instruction) := by
  cases instruction with
  | nop | goto | constant | new => exact .ok _
  | load kind slot =>
    -- a wide value is read from the first of its two slots
    have hslot : slot < f.locals.size := by
      simp only [Instruction.neededLocals, Kind.slots] at h
      split at h <;> omega
    exact (SparesSlots.getLocal hslot).bind fun v _ => .ok _
  | store kind slot => exact .pop fun v g hg => .setLocal (hg ▸ h) v
  | increment slot => exact .setLocal h _
  | arrayLoad kind =>
    refine .pop fun index g _ => .pop fun array g' _ => ?_
    cases kind <;> exact .ok _
  | arrayStore | branch | switch | raise | monitor | putField | putStatic => exact .dropMany f _
  | ret kind =>
    cases kind with
    | none => exact .ok _
    | some kind => exact .dropMany f _
  | stack move =>
    simp only [step]
    cases move.apply f.stack with
    | some s => exact .ok _
    | none => rintro slot ⟨⟩
  | compute pops push =>
    refine (SparesSlots.dropMany f pops).bind fun g _ => ?_
    cases push <;> exact .ok _
  | getField field =>
    exact (SparesSlots.dropMany f 1).bind fun g _ => (SparesSlots.fieldValue field).bind fun v _ =>
      .ok _
  | getStatic field => exact (SparesSlots.fieldValue field).bind fun v _ => .ok _
  | invoke kind method => exact .call f kind method
  | invokeDynamic name descriptor bootstrap =>
    refine (SparesSlots.descriptor _).bind fun signature _ =>
      (SparesSlots.dropMany f _).bind fun g _ => ?_
    cases signature.result <;> exact .ok _
  | newArray descriptor dimensions =>
    exact (SparesSlots.dropMany f dimensions).bind fun g _ =>
      (SparesSlots.descriptor _).bind fun type _ => .ok _
  | arrayLength | instanceOf => exact (SparesSlots.dropMany f 1).bind fun g _ => .ok _
  | checkCast descriptor =>
    refine .pop fun v g _ => ?_
    cases v with
    | reference type origin => exact (SparesSlots.descriptor _).bind fun type _ => .ok _
    | top | primitive | null | this | uninitialized => exact .ok _

theorem le_locals_size_of_entry {m : Method} {f : Frame} (h : entry m = .ok f) :
    m.maxLocals ≤ f.locals.size := by
  obtain ⟨signature, -, h⟩ := bind_eq_ok.1 h
  cases h
  simp only [List.size_toArray, List.length_append, List.length_replicate]
  omega

end Frame

namespace Method

/-- The number of local slots that the parameters fill, none if the descriptor is malformed. -/
def parameterSlots (m : Method) : Nat :=
  match Signature.parse m.descriptor with
  | .ok s => s.parameterSlots
  | .error _ => 0

/-- The number of local slots that receiver, parameters and instructions need. -/
def neededLocals (m : Method) : Nat :=
  max (m.receiverSlots + m.parameterSlots) (m.code.foldl (fun n i => max n i.neededLocals) 0)

theorem derivedLocals_eq (m : Method) : m.derivedLocals = min localsLimit m.neededLocals := rfl

theorem neededLocals_le {m : Method} {index : Nat} {instruction : Instruction}
    (h : m.code[index]? = some instruction) : instruction.neededLocals ≤ m.neededLocals := by
  have hmem : instruction.neededLocals ∈ m.code.toList.map Instruction.neededLocals :=
    List.mem_map_of_mem (Array.mem_toList_iff.2 (Array.mem_of_getElem? h))
  rw [neededLocals, ← Array.foldl_toList, ← List.foldl_map]
  exact Nat.le_trans (le_foldl_max 0 (.inl hmem)) (Nat.le_max_right _ _)

open FrameFlow in
/-- The run: where a slot is missing, the instruction needs more slots than the method declares. -/
theorem lt_neededLocals_of_frames {m : Method} {cls : ClassName} {method : MethodRef}
    {index slot : Nat} (h : m.frames cls = .error (.step method index (.slot slot))) :
    ∃ instruction, m.code[index]? = some instruction ∧
      m.maxLocals < instruction.neededLocals := by
  have hcode := size_pos_of_frames_error h
  cases hentry : Frame.entry m with
  | error cause =>
    rw [Method.frames, dif_pos hcode, hentry] at h
    cases h
  | ok entry =>
    obtain ⟨taken, s, outcome, hrun, hstops, hframes⟩ := exists_run cls hcode hentry
    rw [hframes] at h
    cases hstops with
    | settled => cases h
    | exhausted => cases h
    | @failed i e next fails =>
      cases h
      cases serveFault_of_serve fails with
      | @step f instruction _ known code fails =>
        refine ⟨instruction, code, ?_⟩
        by_contra henough
        have hsize : f.locals.size = entry.locals.size := hrun.valid.uniform i f known
        have hdeclared := Frame.le_locals_size_of_entry hentry
        exact Frame.sparesSlots_step i (by omega) slot fails

/-- A method with the derived number of local slots misses none, unless it needs more than a method
can declare. -/
theorem frames_ne_slot (m : Method) (cls : ClassName) (fits : m.neededLocals ≤ localsLimit)
    (method : MethodRef) (index slot : Nat) :
    m.withDerivedLocals.frames cls ≠ .error (.step method index (.slot slot)) := by
  intro h
  obtain ⟨instruction, hcode, hmissing⟩ := lt_neededLocals_of_frames h
  have hneeded : instruction.neededLocals ≤ m.neededLocals := neededLocals_le hcode
  have hderived : m.derivedLocals = m.neededLocals := by
    rw [derivedLocals_eq, Nat.min_eq_right fits]
  have hdeclared : m.derivedLocals < instruction.neededLocals := hmissing
  omega

/-- Counts in slot 3 and adds up in the two slots above it, until an addition raises. -/
def summing : Method where
  name := "sum"
  descriptor := "(J)V"
  access := .publicFlag
  maxLocals := 0
  code := #[.constant .int, .store .int 3, .load .long 1, .store .long 4, .increment 3,
    .load .long 4, .constant .long, .compute 2 (some .long), .store .long 4, .goto 4,
    .store .reference 3, .ret none]
  handlers := [⟨5, 8, 10, none⟩]

theorem frames_ne_slot_summing :
    summing.neededLocals = 6 ∧
    (∀ method index slot,
      summing.withDerivedLocals.frames .object ≠ .error (.step method index (.slot slot))) ∧
    (Method.frames { summing with maxLocals := 5 } .object =
      .error (.step (summing.ref .object) 3 (.slot 4))) := by
  refine ⟨by decide +kernel, ?_, by decide +kernel⟩
  exact frames_ne_slot summing .object (by decide +kernel)

end Method

end Immutability

import Immutability.ClassFile.Code
import Immutability.Proofs.Steps
import Mathlib.Tactic.SplitIfs

/-!
# The bytes of an instruction

An instruction is decoded from its own bytes: those in front of it and behind it make no difference.

* `SameBytes` says that two bodies agree on a range of offsets;
* `Reads` says that an operand lies within some bytes behind the opcode, and `Local` that an
  instruction is read from no more bytes than it is said to have;
* `decodeAt_of_sameBytes` says that all instructions are read in this way.
-/

namespace Immutability.ClassFile

variable {α : Type} {code code' : Array UInt8} {start stop offset width : Nat}

/-- The two bodies have the same bytes from `start` up to `stop`. -/
def SameBytes (code code' : Array UInt8) (start stop : Nat) : Prop :=
  ∀ k, start ≤ k → k < stop → code[k]? = code'[k]?

theorem SameBytes.mono {start' stop' : Nat} (h : SameBytes code code' start stop)
    (hstart : start ≤ start') (hstop : stop' ≤ stop) : SameBytes code code' start' stop' :=
  fun k hk hk' => h k (Nat.le_trans hstart hk) (Nat.lt_of_lt_of_le hk' hstop)

/-! ### Operands -/

/-- The operand is found in the first `width` bytes behind the opcode. -/
def Reads (offset width : Nat) (operand : Array UInt8 → Except DecodeError α) : Prop :=
  ∀ code code', SameBytes code code' (offset + 1) (offset + 1 + width) →
    operand code = operand code'

namespace Reads

theorem const (x : Except DecodeError α) : Reads offset width fun _ => x := fun _ _ _ => rfl

theorem bind {β : Type} {x : Array UInt8 → Except DecodeError α}
    {f : α → Except DecodeError β} (h : Reads offset width x) :
    Reads offset width fun code => x code >>= f := by
  intro code code' hsame
  simp only [h code code' hsame]

variable {position : Nat} (behind : offset < position)
include behind

theorem byteAt (operand : Operand) (within : position + 1 ≤ offset + 1 + width) :
    Reads offset width fun code => byteAt operand code position := by
  intro code code' hsame
  simp only [ClassFile.byteAt, hsame position (by omega) (by omega)]

theorem wordAt (within : position + 2 ≤ offset + 1 + width) :
    Reads offset width fun code => wordAt code position := by
  intro code code' hsame
  simp only [ClassFile.wordAt, hsame position (by omega) (by omega),
    hsame (position + 1) (by omega) (by omega)]

theorem doubleAt (within : position + 4 ≤ offset + 1 + width) :
    Reads offset width fun code => doubleAt code position := by
  intro code code' hsame
  simp only [ClassFile.doubleAt, hsame position (by omega) (by omega),
    hsame (position + 1) (by omega) (by omega), hsame (position + 2) (by omega) (by omega),
    hsame (position + 3) (by omega) (by omega)]

theorem longTarget (within : position + 4 ≤ offset + 1 + width) :
    Reads offset width fun code => longTarget code offset position :=
  (doubleAt behind within).bind

theorem targetsFrom {stride count : Nat}
    (within : ∀ i < count, position + i * stride + 4 ≤ offset + 1 + width) :
    Reads offset width fun code => targetsFrom code offset stride position count := by
  induction count generalizing position with
  | zero => exact const _
  | succ count ih =>
    intro code code' hsame
    have hfirst := longTarget behind (by simpa using within 0 (by omega)) code code' hsame
    have hrest := @ih (position + stride) (by omega) (fun i hi => by
      have := within (i + 1) (by omega)
      rw [Nat.add_mul] at this
      omega) code code' hsame
    simp only [ClassFile.targetsFrom, hfirst, hrest]

end Reads

theorem reads_shortTarget (within : 2 ≤ width) :
    Reads offset width fun code => shortTarget code offset :=
  (Reads.wordAt (by omega) (by omega)).bind

theorem length_targetsFrom {stride position count : Nat} {targets : List Nat}
    (h : targetsFrom code offset stride position count = .ok targets) : targets.length = count := by
  induction count generalizing position targets with
  | zero =>
    cases h
    rfl
  | succ count ih =>
    obtain ⟨first, -, h⟩ := bind_eq_ok.1 h
    obtain ⟨rest, hrest, h⟩ := bind_eq_ok.1 h
    cases h
    rw [List.length_cons, ih hrest]

/-! ### Instructions -/

/-- The instruction has at least `width` bytes behind the opcode, and it is read from no others than
those it is said to have. -/
def Local (offset width : Nat)
    (decode : Array UInt8 → Except DecodeError (Instruction × Nat)) : Prop :=
  ∀ code code' i n, decode code = .ok (i, n) → width ≤ n ∧
    (SameBytes code code' (offset + 1) (offset + 1 + n) → decode code' = .ok (i, n))

namespace Local

theorem of_le (width : Nat) {width' : Nat}
    {decode : Array UInt8 → Except DecodeError (Instruction × Nat)} (hw : width' ≤ width)
    (h : Local offset width decode) : Local offset width' decode :=
  fun code code' i n hd => (h code code' i n hd).imp_left (Nat.le_trans hw)

theorem pure {i : Instruction} {n : Nat} (h : width ≤ n) :
    Local offset width fun _ => Pure.pure (i, n) := by
  intro code code' j m hd
  cases hd
  exact ⟨h, fun _ => rfl⟩

theorem throw (e : DecodeError) : Local offset width fun _ => MonadExcept.throw e := by
  intro code code' i n hd
  cases hd

theorem ite {c : Prop} [Decidable c]
    {f g : Array UInt8 → Except DecodeError (Instruction × Nat)} (hf : Local offset width f)
    (hg : Local offset width g) : Local offset width fun code => if c then f code else g code := by
  by_cases h : c
  · simpa only [h, if_true] using hf
  · simpa only [h, if_false] using hg

/-- An operand is read before the rest. -/
theorem bind {operand : Array UInt8 → Except DecodeError α}
    {f : Array UInt8 → α → Except DecodeError (Instruction × Nat)}
    (h : Reads offset width operand)
    (hf : ∀ code a, operand code = .ok a → Local offset width fun code => f code a) :
    Local offset width fun code => operand code >>= f code := by
  intro code code' i n hd
  obtain ⟨a, ha, hd⟩ := bind_eq_ok.1 hd
  obtain ⟨hn, hrest⟩ := hf code a ha code code' i n hd
  refine ⟨hn, fun hsame => bind_eq_ok.2 ⟨a, ?_, hrest hsame⟩⟩
  rw [← h code code' (hsame.mono (Nat.le_refl _) (by omega)), ha]

/-- Something is looked up for the rest. -/
theorem look {x : Except DecodeError α}
    {f : Array UInt8 → α → Except DecodeError (Instruction × Nat)}
    (hf : ∀ a, Local offset width fun code => f code a) :
    Local offset width fun code => x >>= f code :=
  bind (.const x) fun _ a _ => hf a

section

variable {f : Array UInt8 → Nat → Except DecodeError (Instruction × Nat)}

theorem byte {operand : Operand} (hf : ∀ a, Local offset 1 fun code => f code a) :
    Local offset 0 fun code => byteAt operand code (offset + 1) >>= f code :=
  of_le 1 (by omega) (bind (.byteAt (by omega) operand (by omega)) fun _ a _ => hf a)

theorem word (hf : ∀ a, Local offset 2 fun code => f code a) :
    Local offset 0 fun code => wordAt code (offset + 1) >>= f code :=
  of_le 2 (by omega) (bind (.wordAt (by omega) (by omega)) fun _ a _ => hf a)

theorem jump {i : Nat → Instruction} :
    Local offset 0 fun code => do return (i (← shortTarget code offset), 2) :=
  of_le 2 (by omega) (bind (reads_shortTarget (by omega)) fun _ _ _ => pure (by omega))

end

end Local

variable {s : Symbols} {opcode : Nat}

theorem local_transferOpcode :
    Local offset 0 fun code => transferOpcode s code offset opcode := by
  unfold transferOpcode
  repeat' refine .ite ?_ ?_
  any_goals exact .pure (Nat.zero_le _)
  · exact .byte fun index => .look fun constant => .pure (Nat.le_refl 1)
  · exact .word fun index => .look fun constant => .pure (Nat.le_refl 2)
  · exact .byte fun slot => .pure (Nat.le_refl 1)
  · exact .byte fun slot => .pure (Nat.le_refl 1)

theorem local_computeOpcode :
    Local offset 0 fun code => computeOpcode code offset opcode := by
  unfold computeOpcode
  repeat' refine .ite ?_ ?_
  any_goals exact .pure (Nat.zero_le _)
  exact .byte fun slot => .pure (by omega)

theorem local_tableSwitch : Local offset 0 fun code => tableSwitch code offset := by
  refine .of_le (padding offset + 12) (by omega) ?_
  refine .bind (.longTarget (by omega) (by omega)) fun _ default _ => ?_
  refine .bind (.doubleAt (by omega) (by omega)) fun _ low _ => ?_
  refine .bind (.doubleAt (by omega) (by omega)) fun _ high _ => ?_
  refine .ite (.throw _) ?_
  -- every target takes four bytes
  refine .of_le (padding offset + 12 + 4 * (high - low + 1).toNat) (by omega) ?_
  refine .bind (.targetsFrom (by omega) (by omega)) fun _ targets htargets => .pure ?_
  exact (length_targetsFrom htargets).symm ▸ Nat.le_refl _

theorem local_lookupSwitch : Local offset 0 fun code => lookupSwitch code offset := by
  refine .of_le (padding offset + 8) (by omega) ?_
  refine .bind (.longTarget (by omega) (by omega)) fun _ default _ => ?_
  refine .bind (.doubleAt (by omega) (by omega)) fun _ pairs _ => ?_
  refine .ite (.throw _) ?_
  -- every pair takes eight bytes
  refine .of_le (padding offset + 8 + 8 * pairs.toNat) (by omega) ?_
  refine .bind (.targetsFrom (by omega) (by omega)) fun _ targets htargets => .pure ?_
  exact (length_targetsFrom htargets).symm ▸ Nat.le_refl _

theorem local_wideForm : Local offset 0 fun code => wideForm code offset := by
  refine .of_le 3 (by omega) ?_
  refine .bind (.byteAt (by omega) _ (by omega)) fun _ opcode _ => ?_
  refine .bind (.wordAt (by omega) (by omega)) fun _ slot _ => ?_
  repeat' refine .ite ?_ ?_
  any_goals exact .pure (by omega)
  all_goals exact .throw _

theorem local_controlOpcode :
    Local offset 0 fun code => controlOpcode code offset opcode := by
  unfold controlOpcode
  repeat' refine .ite ?_ ?_
  · exact .jump
  · exact .jump
  · exact .jump
  · exact .throw _
  · exact local_tableSwitch
  · exact local_lookupSwitch
  · exact .pure (Nat.zero_le _)
  · exact .pure (Nat.zero_le _)

theorem local_memberOpcode :
    Local offset 0 fun code => memberOpcode s code offset opcode := by
  refine .word fun index => ?_
  refine .ite (.look fun field => ?_) (.ite (.look fun method => ?_) (.look fun site => ?_))
  · split <;> exact .pure (Nat.le_refl 2)
  · exact .pure (by split <;> omega)
  · exact .pure (by omega)

theorem local_objectOpcode :
    Local offset 0 fun code => objectOpcode s code offset opcode := by
  unfold objectOpcode
  split
  any_goals exact .pure (Nat.zero_le _)
  any_goals exact .throw _
  any_goals exact .jump
  · exact .word fun index => .look fun name => .pure (Nat.le_refl 2)
  · refine .byte fun type => ?_
    split
    · exact .pure (Nat.le_refl 1)
    · exact .throw _
  · exact .word fun index => .look fun element => .pure (Nat.le_refl 2)
  · exact .word fun index => .look fun target => .pure (Nat.le_refl 2)
  · exact local_wideForm
  · refine .word fun index => .look fun descriptor => .of_le 3 (by omega) ?_
    exact .bind (.byteAt (by omega) _ (by omega)) fun _ dimensions _ => .pure (Nat.le_refl 3)
  · refine .of_le 4 (by omega) ?_
    exact .bind (.longTarget (by omega) (by omega)) fun _ target _ => .pure (Nat.le_refl 4)

theorem local_decodeOpcode :
    Local offset 0 fun code => decodeOpcode s code offset opcode :=
  .ite local_transferOpcode (.ite local_computeOpcode (.ite local_controlOpcode
    (.ite local_memberOpcode local_objectOpcode)))

theorem decodeAt_eq_ok {i : Instruction} {n : Nat} {inside : offset < code.size} :
    decodeAt s code offset inside = .ok (i, n) ↔
      ∃ operands, decodeOpcode s code offset code[offset].toNat = .ok (i, operands) ∧
        n = operands + 1 ∧ offset + n ≤ code.size := by
  refine bind_eq_ok.trans ⟨?_, ?_⟩
  · rintro ⟨⟨j, operands⟩, hj, h⟩
    by_cases htruncated : code.size < offset + (operands + 1)
    · simp only [htruncated, if_true] at h
      cases h
    · simp only [htruncated, if_false] at h
      cases h
      exact ⟨operands, hj, rfl, by omega⟩
  · rintro ⟨operands, hi, rfl, hend⟩
    refine ⟨(i, operands), hi, ?_⟩
    simp only [show ¬ code.size < offset + (operands + 1) by omega, if_false]
    rfl

/-- An instruction is the same in all bodies that have its bytes. -/
theorem decodeAt_of_sameBytes {i : Instruction} {n : Nat} {inside : offset < code.size}
    (h : decodeAt s code offset inside = .ok (i, n))
    (hsame : SameBytes code code' offset (offset + n)) :
    ∃ inside' : offset < code'.size, decodeAt s code' offset inside' = .ok (i, n) := by
  obtain ⟨operands, hdecode, rfl, hend⟩ := decodeAt_eq_ok.1 h
  have hlast : offset + operands < code'.size := by
    have hbyte := hsame (offset + operands) (by omega) (by omega)
    rw [Array.getElem?_eq_getElem (by omega)] at hbyte
    exact (Array.getElem?_eq_some_iff.1 hbyte.symm).1
  have hopcode : code[offset] = code'[offset] := by
    have hbyte := hsame offset (by omega) (by omega)
    rwa [Array.getElem?_eq_getElem inside, Array.getElem?_eq_getElem (by omega),
      Option.some.injEq] at hbyte
  refine ⟨by omega, decodeAt_eq_ok.2 ⟨operands, ?_, rfl, by omega⟩⟩
  rw [← hopcode]
  exact (local_decodeOpcode code code' i operands hdecode).2 (hsame.mono (by omega) (by omega))

end Immutability.ClassFile

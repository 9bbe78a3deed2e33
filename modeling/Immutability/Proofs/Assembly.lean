import Immutability.Proofs.Encoding
import Immutability.Proofs.Offsets
import Mathlib.Data.Fintype.Basic
import Mathlib.Tactic.FinCases

/-!
# Decoding undoes encoding

The bytes of a program are decoded to the instructions of the program.

* `Lies` says that bytes stand in the code from an offset on, and what the decoder reads there
  follows;
* `decodeOpcode_of_lies` decodes an instruction from its operands, with one case for each form;
* `layout_of_lies` finds the instructions of a program one after the other, and
  `Encoding.retargeted` replaces the targets of their jumps;
* `decodeBody_assemble` is the result.
-/

namespace Immutability.ClassFile

/-! ### References -/

namespace Pool

variable {pool : Pool} {index : Nat}

theorem entry_eq_ok {e : PoolEntry} (h : pool[index]? = some e) : pool.entry index = .ok e := by
  rw [entry, h]

theorem HasText.text_eq {text : String} (h : pool.HasText index text) :
    pool.text index = .ok text := by
  exact bind_eq_ok.2 ⟨_, entry_eq_ok h, rfl⟩

theorem HasClass.classText_eq {text : String} (h : pool.HasClass index text) :
    pool.classText index = .ok text := by
  obtain ⟨name, hentry, htext⟩ := h
  exact bind_eq_ok.2 ⟨_, entry_eq_ok hentry, htext.text_eq⟩

theorem HasClass.className_eq {text : String} (h : pool.HasClass index text) :
    pool.className index = .ok (.ofString text) := by
  exact bind_eq_ok.2 ⟨text, h.classText_eq, rfl⟩

theorem HasMember.nameAndType_eq {name descriptor : String}
    (h : pool.HasMember index name descriptor) :
    pool.nameAndType index = .ok (name, descriptor) := by
  obtain ⟨n, d, hentry, hname, hdescriptor⟩ := h
  refine bind_eq_ok.2 ⟨_, entry_eq_ok hentry, ?_⟩
  exact bind_eq_ok.2 ⟨name, hname.text_eq, bind_eq_ok.2 ⟨descriptor, hdescriptor.text_eq, rfl⟩⟩

theorem HasField.fieldRef_eq {ref : FieldRef} (h : pool.HasField index ref) :
    pool.fieldRef index = .ok ref := by
  obtain ⟨owner, member, text, hentry, howner, hname, hmember⟩ := h
  refine bind_eq_ok.2 ⟨_, entry_eq_ok hentry, ?_⟩
  refine bind_eq_ok.2 ⟨ref.owner, mapError_eq_ok.2 (hname ▸ howner.className_eq), ?_⟩
  exact bind_eq_ok.2 ⟨_, hmember.nameAndType_eq, rfl⟩

theorem HasMethod.methodRef_eq {ref : MethodRef} (h : pool.HasMethod index ref) :
    pool.methodRef index = .ok ref := by
  obtain ⟨owner, member, text, hentry, howner, hname, hmember⟩ := h
  have href : pool.memberRef owner member = .ok ref := by
    refine bind_eq_ok.2 ⟨ref.owner, mapError_eq_ok.2 (hname ▸ howner.className_eq), ?_⟩
    exact bind_eq_ok.2 ⟨_, hmember.nameAndType_eq, rfl⟩
  rcases hentry with hentry | hentry
  · exact bind_eq_ok.2 ⟨_, entry_eq_ok hentry, href⟩
  · exact bind_eq_ok.2 ⟨_, entry_eq_ok hentry, href⟩

theorem HasCallSite.callSite_eq {bootstrap : Nat} {name descriptor : String}
    (h : pool.HasCallSite index bootstrap name descriptor) :
    pool.callSite index = .ok (bootstrap, name, descriptor) := by
  obtain ⟨member, hentry, hmember⟩ := h
  refine bind_eq_ok.2 ⟨_, entry_eq_ok hentry, ?_⟩
  exact bind_eq_ok.2 ⟨_, hmember.nameAndType_eq, rfl⟩

theorem HasConstant.constant_eq {value : Constant} (h : pool.HasConstant index value) :
    pool.constant index = .ok value := by
  cases h with
  | int h | float h | long h | double h | string h | classLiteral h | methodHandle h | methodType h
  | dynamic h =>
    exact bind_eq_ok.2 ⟨_, entry_eq_ok h, rfl⟩

end Pool

theorem typeDescriptor_of_ne {cs : List Char} (h : cs.head? ≠ some '[') :
    typeDescriptor cs = 'L' :: cs.map (fun c => if c = '.' then '/' else c) ++ [';'] := by
  rw [typeDescriptor]
  rintro rest rfl
  exact h rfl

theorem classDescriptor_eq (text : String) :
    classDescriptor text = String.ofList (typeDescriptor text.toList) := by
  unfold classDescriptor
  split
  · next h =>
    obtain ⟨cs, hcs⟩ := List.head?_eq_some_iff.1 h
    rw [hcs, typeDescriptor, ← hcs, String.ofList_toList]
  · next h =>
    rw [typeDescriptor_of_ne h, ← String.toList_inj]
    simp [ClassName.slashed]

theorem mapError_pool {α : Type} {x : Except PoolError α} {a : α} (h : x = .ok a) :
    x.mapError DecodeError.pool = .ok a :=
  mapError_eq_ok.2 h

/-! ### Operands -/

theorem targetAt_eq_ok {offset : Nat} {distance : Int} (h : 0 ≤ (offset : Int) + distance) :
    targetAt offset distance = .ok ((offset : Int) + distance).toNat := by
  rw [targetAt, if_neg (by omega)]

/-- The bytes are found in the code at the offset. -/
def Lies (bytes : List UInt8) (code : Array UInt8) (offset : Nat) : Prop :=
  ∀ k b, bytes[k]? = some b → code[offset + k]? = some b

namespace Lies

variable {bytes bytes' : List UInt8} {code : Array UInt8} {offset position : Nat}

theorem left (h : Lies (bytes ++ bytes') code offset) : Lies bytes code offset :=
  fun k b hb => h k b (List.getElem?_append_left (List.getElem?_eq_some_iff.1 hb).1 ▸ hb)

theorem right (h : Lies (bytes ++ bytes') code offset) :
    Lies bytes' code (offset + bytes.length) := by
  intro k b hb
  rw [Nat.add_assoc]
  exact h (bytes.length + k) b (by rw [List.getElem?_append_right (by omega)]; simpa using hb)

theorem tail {b : UInt8} (h : Lies (b :: bytes) code offset) : Lies bytes code (offset + 1) :=
  right (show Lies ([b] ++ bytes) code offset from h)

theorem byteAt {b : UInt8} (h : Lies (b :: bytes) code offset) (operand : Operand) :
    byteAt operand code offset = .ok b.toNat := by
  have hbyte := h 0 b rfl
  rw [Nat.add_zero] at hbyte
  rw [ClassFile.byteAt, hbyte]

theorem wordAt {w : UInt16} (h : Lies (wordBytes w) code offset) :
    wordAt code offset = .ok w.toNat := by
  have hhigh := h 0 _ rfl
  have hlow := h 1 _ rfl
  have hw := w.toNat_lt
  rw [Nat.add_zero] at hhigh
  simp only [ClassFile.wordAt, hhigh, hlow, UInt8.toNat_ofNat', Except.ok.injEq]
  omega

theorem doubleAt {d : Int32} (h : Lies (doubleBytes d.toUInt32) code offset) :
    doubleAt code offset = .ok d.toInt := by
  have h₀ := h 0 _ rfl
  have h₁ := h 1 _ rfl
  have h₂ := h 2 _ rfl
  have h₃ := h 3 _ rfl
  have hd := d.toUInt32.toNat_lt
  rw [Nat.add_zero] at h₀
  have hvalue : Int.bmod d.toUInt32.toNat 0x100000000 = d.toInt :=
    (BitVec.toInt_eq_toNat_bmod d.toBitVec).symm
  simp only [ClassFile.doubleAt, h₀, h₁, h₂, h₃, UInt8.toNat_ofNat']
  rw [← hvalue]
  refine congrArg (fun n : Nat => Except.ok (Int.bmod n 0x100000000)) ?_
  omega

theorem size_le (h : Lies bytes code offset) (hne : bytes ≠ []) :
    offset + bytes.length ≤ code.size := by
  have hpos := List.length_pos_iff.2 hne
  have hlast := h (bytes.length - 1) _ (List.getElem?_eq_getElem (by omega))
  have := (Array.getElem?_eq_some_iff.1 hlast).1
  omega

theorem shortTarget {d : Int16} (h : Lies (wordBytes d.toUInt16) code (offset + 1))
    (hd : 0 ≤ (offset : Int) + d.toInt) :
    shortTarget code offset = .ok ((offset : Int) + d.toInt).toNat := by
  have hvalue : signedWord d.toUInt16.toNat = d.toInt :=
    (BitVec.toInt_eq_toNat_bmod d.toBitVec).symm
  refine bind_eq_ok.2 ⟨_, h.wordAt, ?_⟩
  rw [hvalue, targetAt_eq_ok hd]

theorem longTarget {d : Int32} (h : Lies (doubleBytes d.toUInt32) code position)
    (hd : 0 ≤ (offset : Int) + d.toInt) :
    longTarget code offset position = .ok ((offset : Int) + d.toInt).toNat :=
  bind_eq_ok.2 ⟨_, h.doubleAt, targetAt_eq_ok hd⟩

/-- Targets that stand at the ends of entries of the same length. -/
theorem targetsFrom {ι : Type} (key : ι → List UInt8) {distance : ι → Int32} {gap : Nat}
    (hkey : ∀ i, (key i).length = gap) {items : List ι}
    (h : Lies (items.flatMap fun i => key i ++ doubleBytes (distance i).toUInt32) code position)
    (hd : ∀ i ∈ items, 0 ≤ (offset : Int) + (distance i).toInt) :
    targetsFrom code offset (gap + 4) (position + gap) items.length =
      .ok (items.map fun i => ((offset : Int) + (distance i).toInt).toNat) := by
  induction items generalizing position with
  | nil => rfl
  | cons i items ih =>
    rw [List.flatMap_cons] at h
    have hfirst : Lies (doubleBytes (distance i).toUInt32) code (position + gap) :=
      hkey i ▸ h.left.right
    have hrest := ih h.right fun j hj => hd j (List.mem_cons_of_mem _ hj)
    have hnext : position + (key i ++ doubleBytes (distance i).toUInt32).length + gap =
        position + gap + (gap + 4) := by
      rw [List.length_append, hkey i, doubleBytes]
      simp only [List.length_cons, List.length_nil]
      omega
    rw [hnext] at hrest
    exact bind_eq_ok.2 ⟨_, hfirst.longTarget (hd i List.mem_cons_self),
      bind_eq_ok.2 ⟨_, hrest, rfl⟩⟩

end Lies

theorem lies_toArray (bytes : List UInt8) : Lies bytes bytes.toArray 0 := by
  intro k b hb
  rw [Nat.zero_add, List.getElem?_toArray, hb]

/-! ### Opcodes -/

section Opcodes

variable (s : Symbols) (code : Array UInt8) (offset : Nat)

theorem decodeOpcode_plain (p : Plain) :
    decodeOpcode s code offset p.opcode = .ok (p.instruction, 0) := by
  cases p with
  | int value => fin_cases value <;> rfl
  | long value => fin_cases value <;> rfl
  | float value => fin_cases value <;> rfl
  | double value => fin_cases value <;> rfl
  | load kind slot => cases kind <;> fin_cases slot <;> rfl
  | store kind slot => cases kind <;> fin_cases slot <;> rfl
  | arrayLoad element => cases element <;> rfl
  | arrayStore element => cases element <;> rfl
  | stack move => cases move <;> rfl
  | arithmetic operation type => cases operation <;> cases type <;> rfl
  | negate type => cases type <;> rfl
  | bitwise operation wide => cases operation <;> cases wide <;> rfl
  | convert conversion => cases conversion <;> rfl
  | compare comparison => cases comparison <;> rfl
  | ret kind =>
    cases kind with
    | none => rfl
    | some kind => cases kind <;> rfl
  | nop | null | arrayLength | raise | monitorEnter | monitorExit => rfl

theorem decodeOpcode_load (kind : Kind) :
    decodeOpcode s code offset (loadOpcode kind) = do
      let slot ← byteAt .loadSlot code (offset + 1)
      return (.load kind slot, 1) := by
  cases kind <;> rfl

theorem decodeOpcode_store (kind : Kind) :
    decodeOpcode s code offset (storeOpcode kind) = do
      let slot ← byteAt .storeSlot code (offset + 1)
      return (.store kind slot, 1) := by
  cases kind <;> rfl

theorem decodeOpcode_test (test : Test) :
    decodeOpcode s code offset test.opcode = do
      let target ← shortTarget code offset
      return (.branch test.operands target, 2) := by
  cases test with
  | zero condition => cases condition <;> rfl
  | ints condition => cases condition <;> rfl
  | references equal => cases equal <;> rfl
  | null equal => cases equal <;> rfl

theorem decodeOpcode_field (access : FieldAccess) :
    decodeOpcode s code offset access.opcode = do
      let index ← wordAt code (offset + 1)
      let ref ← (s.pool.fieldRef index).mapError .pool
      return (access.instruction ref, 2) := by
  cases access <;> rfl

theorem decodeOpcode_call (call : CallKind) :
    decodeOpcode s code offset (callOpcode call) = do
      let index ← wordAt code (offset + 1)
      let ref ← (s.pool.methodRef index).mapError .pool
      return (.invoke call ref, if call = .interface then 4 else 2) := by
  cases call <;> rfl

end Opcodes

/-! ### Instructions -/

section Instructions

variable {s : Symbols} {code : Array UInt8} {offset : Nat}

theorem length_padBytes (pad : Fin 3 → UInt8) (offset : Nat) :
    (padBytes pad offset).length = padding offset := by
  have haligned := padBytes_aligned pad offset
  rw [padding]
  omega

theorem length_doubleBytes (d : UInt32) : (doubleBytes d).length = 4 := rfl

theorem length_entries {ι : Type} {entry : ι → List UInt8} {n : Nat}
    (h : ∀ i, (entry i).length = n) (items : List ι) :
    (items.flatMap entry).length = n * items.length := by
  simp [List.length_flatMap, h, Nat.mul_comm]

theorem length_operands_tableSwitch (t : TableSwitch) (offset : Nat) :
    ((Encoding.tableSwitch t).operands offset).length =
      padding offset + 12 + 4 * t.distances.length := by
  have hentry (d : Int32) : (doubleBytes d.toUInt32).length = 4 := rfl
  simp only [Encoding.operands, List.length_append, length_padBytes, length_doubleBytes,
    length_entries hentry]
  omega

theorem length_operands_lookupSwitch (l : LookupSwitch) (offset : Nat) :
    ((Encoding.lookupSwitch l).operands offset).length =
      padding offset + 8 + 8 * l.pairs.length := by
  have hentry (p : Int32 × Int32) :
      (doubleBytes p.1.toUInt32 ++ doubleBytes p.2.toUInt32).length = 8 := rfl
  simp only [Encoding.operands, List.length_append, length_padBytes, length_doubleBytes,
    length_entries hentry]
  omega

theorem tableSwitch_of_lies {t : TableSwitch}
    (h : Lies ((Encoding.tableSwitch t).operands offset) code (offset + 1))
    (hd : ∀ d ∈ (Encoding.tableSwitch t).distances, 0 ≤ (offset : Int) + d) :
    tableSwitch code offset =
      .ok ((Encoding.tableSwitch t).instruction fun d => ((offset : Int) + d).toNat,
        ((Encoding.tableSwitch t).operands offset).length) := by
  -- the numbers stand behind the padding: the default, the bounds, and the distances
  have hbase := h.right
  rw [length_padBytes] at hbase
  have hdefault := hbase.left.longTarget (hd _ List.mem_cons_self)
  have hlow := hbase.right.left.doubleAt
  have hhigh := hbase.right.right.left.doubleAt
  have htargets : targetsFrom code offset 4 (offset + 1 + padding offset + 12)
      t.distances.length = .ok (t.distances.map fun d => ((offset : Int) + d.toInt).toNat) :=
    Lies.targetsFrom (fun _ => []) (fun _ => rfl) hbase.right.right.right fun d hmem =>
      hd _ (List.mem_cons_of_mem _ (List.mem_map_of_mem hmem))
  have hnonneg : ¬ t.high.toInt - t.low.toInt + 1 < 0 := by
    have := t.low_le_high
    omega
  have hcount : (t.high.toInt - t.low.toInt + 1).toNat = t.distances.length := by
    rw [← t.length_eq, Int.toNat_natCast]
  refine bind_eq_ok.2 ⟨_, hdefault, bind_eq_ok.2 ⟨_, hlow, bind_eq_ok.2 ⟨_, hhigh, ?_⟩⟩⟩
  simp only [hnonneg, if_false, hcount]
  refine bind_eq_ok.2 ⟨_, htargets, ?_⟩
  rw [length_operands_tableSwitch, List.length_map]
  rfl

theorem lookupSwitch_of_lies {l : LookupSwitch}
    (h : Lies ((Encoding.lookupSwitch l).operands offset) code (offset + 1))
    (hd : ∀ d ∈ (Encoding.lookupSwitch l).distances, 0 ≤ (offset : Int) + d) :
    lookupSwitch code offset =
      .ok ((Encoding.lookupSwitch l).instruction fun d => ((offset : Int) + d).toNat,
        ((Encoding.lookupSwitch l).operands offset).length) := by
  -- the numbers stand behind the padding: the default, the number of pairs, and the pairs
  have hbase := h.right
  rw [length_padBytes] at hbase
  have hdefault := hbase.left.longTarget (hd _ List.mem_cons_self)
  have hcount : doubleAt code (offset + 1 + padding offset + 4) = .ok l.pairs.length := by
    have hvalue : (Int32.ofNat l.pairs.length).toInt = l.pairs.length :=
      Int32.toInt_ofNat_of_lt l.length_lt
    exact hvalue ▸ Lies.doubleAt (d := .ofNat l.pairs.length) hbase.right.left
  have htargets : targetsFrom code offset 8 (offset + 1 + padding offset + 12) l.pairs.length =
      .ok (l.pairs.map fun p => ((offset : Int) + p.2.toInt).toNat) :=
    Lies.targetsFrom (fun p : Int32 × Int32 => doubleBytes p.1.toUInt32) (fun _ => rfl)
      hbase.right.right fun p hmem => hd _ (List.mem_cons_of_mem _ (List.mem_map_of_mem hmem))
  refine bind_eq_ok.2 ⟨_, hdefault, bind_eq_ok.2 ⟨_, hcount, ?_⟩⟩
  simp only [Int.not_ofNat_neg, if_false, Int.toNat_natCast]
  refine bind_eq_ok.2 ⟨_, htargets, ?_⟩
  rw [length_operands_lookupSwitch, List.length_map]
  rfl

/-- An instruction is decoded from its operands. -/
theorem decodeOpcode_of_lies {e : Encoding} (h : Lies (e.operands offset) code (offset + 1))
    (resolves : e.Resolves s) (hd : ∀ d ∈ e.distances, 0 ≤ (offset : Int) + d) :
    decodeOpcode s code offset e.opcode =
      .ok (e.instruction fun d => ((offset : Int) + d).toNat, (e.operands offset).length) := by
  cases e with
  | plain p => exact decodeOpcode_plain s code offset p
  | pushByte value | pushShort value => rfl
  | constant index value =>
    have hvalue := mapError_pool resolves.constant_eq
    exact bind_eq_ok.2 ⟨_, h.byteAt .constantIndex, bind_eq_ok.2 ⟨value, hvalue, rfl⟩⟩
  | constantWord index value | constantWide index value =>
    have hvalue := mapError_pool resolves.constant_eq
    exact bind_eq_ok.2 ⟨_, h.wordAt, bind_eq_ok.2 ⟨value, hvalue, rfl⟩⟩
  | load kind slot =>
    rw [Encoding.opcode, decodeOpcode_load]
    exact bind_eq_ok.2 ⟨_, h.byteAt .loadSlot, rfl⟩
  | store kind slot =>
    rw [Encoding.opcode, decodeOpcode_store]
    exact bind_eq_ok.2 ⟨_, h.byteAt .storeSlot, rfl⟩
  | increment slot amount => exact bind_eq_ok.2 ⟨_, h.byteAt .incrementSlot, rfl⟩
  | wideLoad kind slot | wideStore kind slot =>
    cases kind <;>
      exact bind_eq_ok.2 ⟨_, h.byteAt .wideOpcode, bind_eq_ok.2 ⟨_, h.tail.wordAt, rfl⟩⟩
  | wideIncrement slot amount =>
    exact bind_eq_ok.2 ⟨_, h.byteAt .wideOpcode, bind_eq_ok.2 ⟨_, h.tail.left.wordAt, rfl⟩⟩
  | branch test distance =>
    rw [Encoding.opcode, decodeOpcode_test]
    exact bind_eq_ok.2 ⟨_, h.shortTarget (hd _ List.mem_cons_self), rfl⟩
  | goto distance => exact bind_eq_ok.2 ⟨_, h.shortTarget (hd _ List.mem_cons_self), rfl⟩
  | gotoWide distance => exact bind_eq_ok.2 ⟨_, h.longTarget (hd _ List.mem_cons_self), rfl⟩
  | tableSwitch t => exact tableSwitch_of_lies h hd
  | lookupSwitch l => exact lookupSwitch_of_lies h hd
  | field access index ref =>
    have href := mapError_pool resolves.fieldRef_eq
    rw [Encoding.opcode, decodeOpcode_field]
    exact bind_eq_ok.2 ⟨_, h.wordAt, bind_eq_ok.2 ⟨ref, href, rfl⟩⟩
  | invoke call index ref count =>
    have href := mapError_pool resolves.methodRef_eq
    rw [Encoding.opcode, decodeOpcode_call]
    cases call with
    | interface => exact bind_eq_ok.2 ⟨_, h.left.wordAt, bind_eq_ok.2 ⟨ref, href, rfl⟩⟩
    | virtual | special | static =>
      exact bind_eq_ok.2 ⟨_, h.wordAt, bind_eq_ok.2 ⟨ref, href, rfl⟩⟩
  | invokeDynamic index name descriptor bootstrap =>
    obtain ⟨number, hsite, rfl⟩ := resolves
    have hsite := mapError_pool hsite.callSite_eq
    exact bind_eq_ok.2 ⟨_, h.left.wordAt, bind_eq_ok.2 ⟨_, hsite, rfl⟩⟩
  | new index cls =>
    have hclass := mapError_pool resolves.className_eq
    exact bind_eq_ok.2 ⟨_, h.wordAt, bind_eq_ok.2 ⟨_, hclass, rfl⟩⟩
  | newArray element => cases element <;> exact bind_eq_ok.2 ⟨_, h.byteAt .arrayType, rfl⟩
  | newReferenceArray index text =>
    have htext := mapError_pool resolves.classText_eq
    have hdescriptor : "[" ++ classDescriptor text =
        String.ofList ('[' :: typeDescriptor text.toList) := by
      rw [classDescriptor_eq, ← String.toList_inj]
      simp
    refine bind_eq_ok.2 ⟨_, h.wordAt, bind_eq_ok.2 ⟨text, htext, ?_⟩⟩
    rw [hdescriptor]
    rfl
  | checkCast index text =>
    have htext := mapError_pool resolves.classText_eq
    refine bind_eq_ok.2 ⟨_, h.wordAt, bind_eq_ok.2 ⟨text, htext, ?_⟩⟩
    rw [classDescriptor_eq]
    rfl
  | instanceOf index text => rfl
  | newMultiArray index text dimensions =>
    have htext := mapError_pool resolves.classText_eq
    refine bind_eq_ok.2 ⟨_, h.left.wordAt, bind_eq_ok.2 ⟨text, htext, ?_⟩⟩
    exact bind_eq_ok.2 ⟨_, h.right.byteAt .arrayDimensions, rfl⟩

/-- An instruction is decoded from its bytes. -/
theorem decodeAt_of_lies {e : Encoding} (h : Lies (e.bytes offset) code offset)
    (resolves : e.Resolves s) (hd : ∀ d ∈ e.distances, 0 ≤ (offset : Int) + d) :
    ∃ inside : offset < code.size, decodeAt s code offset inside =
      .ok (e.instruction fun d => ((offset : Int) + d).toNat, (e.bytes offset).length) := by
  obtain ⟨inside, hbyte⟩ := Array.getElem?_eq_some_iff.1 (h 0 _ rfl)
  have hopcode : code[offset].toNat = e.opcode := by
    have hbounds := e.opcode_bounds.1
    rw [show code[offset] = .ofNat e.opcode from hbyte]
    exact UInt8.toNat_ofNat_of_lt (Nat.lt_of_le_of_lt hbounds (by decide))
  refine ⟨inside, decodeAt_eq_ok.2 ⟨(e.operands offset).length, ?_, rfl, h.size_le (List.cons_ne_nil _ _)⟩⟩
  rw [hopcode]
  exact decodeOpcode_of_lies h.tail resolves hd

end Instructions

/-! ### Programs -/

section Programs

variable {s : Symbols} {code : Array UInt8} {offset : Nat} {program : List Encoding}

theorem length_starts (program : List Encoding) (offset : Nat) :
    (starts offset program).length = program.length := by
  induction program generalizing offset with
  | nil => rfl
  | cons e es ih => rw [starts, List.length_cons, List.length_cons, ih]

/-- The instructions of a program lie where they start. -/
theorem layout_of_lies (h : Lies (assemble offset program) code offset)
    (resolves : ∀ e ∈ program, e.Resolves s)
    (hd : ∀ p ∈ program.zip (starts offset program), ∀ d ∈ p.1.distances, 0 ≤ (p.2 : Int) + d) :
    Layout s code (starts offset program ++ [offset + (assemble offset program).length])
      ((program.zip (starts offset program)).map fun p =>
        p.1.instruction fun d => ((p.2 : Int) + d).toNat)
      offset (offset + (assemble offset program).length) := by
  induction program generalizing offset with
  | nil => exact .nil offset
  | cons e es ih =>
    obtain ⟨he, hes⟩ := List.forall_mem_cons.1 resolves
    obtain ⟨hde, hdes⟩ := List.forall_mem_cons.1 hd
    obtain ⟨inside, hfirst⟩ := decodeAt_of_lies h.left he hde
    have hrest := ih h.right hes hdes
    rw [Nat.add_assoc, ← List.length_append] at hrest
    exact hrest.cons hfirst

theorem forall₂_map_same {α β γ : Type} {R : β → γ → Prop} {f : α → β} {g : α → γ} {l : List α} :
    List.Forall₂ R (l.map f) (l.map g) ↔ ∀ a ∈ l, R (f a) (g a) := by
  rw [List.forall₂_map_left_iff, List.forall₂_map_right_iff, List.forall₂_same]

/-- Only the targets of an instruction depend on where its jumps land. -/
theorem Encoding.retargeted {R : Nat → Nat → Prop} {before after : Int → Nat} (e : Encoding)
    (h : ∀ d ∈ e.distances, R (before d) (after d)) :
    Instruction.Retargeted R (e.instruction before) (e.instruction after) := by
  cases e with
  | plain p => exact .other (by cases p <;> rfl)
  | branch test distance => exact .branch (h _ List.mem_cons_self)
  | goto distance | gotoWide distance => exact .goto (h _ List.mem_cons_self)
  | tableSwitch t =>
    obtain ⟨hdefault, hdistances⟩ := List.forall_mem_cons.1 h
    refine .switch (forall₂_map_same.2 fun d hd => ?_) hdefault
    exact hdistances _ (List.mem_map_of_mem hd)
  | lookupSwitch l =>
    obtain ⟨hdefault, hdistances⟩ := List.forall_mem_cons.1 h
    refine .switch (forall₂_map_same.2 fun p hp => ?_) hdefault
    exact hdistances _ (List.mem_map_of_mem hp)
  | field access index ref => cases access <;> exact .other rfl
  | _ => exact .other rfl

theorem Lands.nonneg (h : Lands program) :
    ∀ p ∈ program.zip (starts 0 program), ∀ d ∈ p.1.distances, 0 ≤ (p.2 : Int) + d := by
  intro p hp d hd
  obtain ⟨target, -, htarget⟩ := h p hp d hd
  omega

/-- An instruction starts where a jump lands. -/
theorem Lands.getElem?_landing (h : Lands program) {p : Encoding × Nat}
    (hp : p ∈ program.zip (starts 0 program)) {d : Int} (hd : d ∈ p.1.distances) :
    (starts 0 program)[landing program p.2 d]? = some ((p.2 : Int) + d).toNat := by
  obtain ⟨target, hmem, htarget⟩ := h p hp d hd
  rw [landing, htarget]
  exact List.getElem?_idxOf hmem

/-- A loop around a switch, which is padded. On the way out, a field is read through a cast, and new
arrays are made, one of them of elements whose class has the name of a letter of descriptors. -/
def counterLoop : List Encoding :=
  [.plain (.load .int 1),
    .tableSwitch ⟨fun _ => 0, 39, 0, 1, by decide, [23, 39], by decide⟩,
    .plain (.load .reference 0),
    .checkCast 1 "Counter",
    .field .getField 3 ⟨.ofString "Counter", "limit", "I"⟩,
    .newArray .long,
    .newReferenceArray 7 "I",
    .checkCast 9 "[LI;",
    .plain (.ret (some .reference)),
    .wideIncrement 1 1,
    .goto (-46)]

def counterSymbols : Symbols :=
  ⟨#[.empty, .cls 2, .utf8 "Counter", .field 1 4, .nameAndType 5 6, .utf8 "limit", .utf8 "I",
    .cls 6, .utf8 "[LI;", .cls 8], #[]⟩

end Programs

end Immutability.ClassFile

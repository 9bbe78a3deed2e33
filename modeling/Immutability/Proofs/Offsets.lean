import Immutability.Proofs.Operands

/-!
# Offsets and indices

The instructions of a body lie end to end, and every offset at which one of them starts, or at which
the body ends, has an index. Decoding replaces the one by the other, and nothing else.

* `Layout` says which instructions lie at which offsets, and `IsIndex` which index an offset has;
* `Instruction.Retargeted` and `ExceptionRange.Retargeted` say that numbers were replaced, and
  nothing else;
* `decodeAll_eq_ok` says what the instructions of a body are, and `decodeBody_retargets` what becomes
  of them and of the handlers.
-/

namespace Immutability

namespace Instruction

/-- The second instruction is the first one with related numbers in place of its targets. -/
inductive Retargeted (R : Nat → Nat → Prop) : Instruction → Instruction → Prop
  | branch {pops target index : Nat} (related : R target index) :
    Retargeted R (.branch pops target) (.branch pops index)
  | goto {target index : Nat} (related : R target index) :
    Retargeted R (.goto target) (.goto index)
  | switch {targets indices : List Nat} {default index : Nat}
    (related : List.Forall₂ R targets indices) (relatedDefault : R default index) :
    Retargeted R (.switch targets default) (.switch indices index)
  | other {i : Instruction} (none : i.jumpTargets = []) : Retargeted R i i

variable {ε : Type} {f : Nat → Except ε Nat} {R : Nat → Nat → Prop} {i i' : Instruction}

theorem mapTargets_eq_ok (hf : ∀ target index, f target = .ok index ↔ R target index) :
    i.mapTargets f = .ok i' ↔ Retargeted R i i' := by
  constructor
  · intro h
    cases i with
    | branch pops target =>
      obtain ⟨index, hindex, h⟩ := bind_eq_ok.1 h
      cases h
      exact .branch ((hf _ _).1 hindex)
    | goto target =>
      obtain ⟨index, hindex, h⟩ := bind_eq_ok.1 h
      cases h
      exact .goto ((hf _ _).1 hindex)
    | switch targets default =>
      obtain ⟨indices, hindices, h⟩ := bind_eq_ok.1 h
      obtain ⟨index, hindex, h⟩ := bind_eq_ok.1 h
      cases h
      exact .switch ((mapM_eq_ok.1 hindices).imp fun _ _ => (hf _ _).1) ((hf _ _).1 hindex)
    | _ =>
      cases h
      exact .other rfl
  · intro h
    cases h with
    | branch related => exact bind_eq_ok.2 ⟨_, (hf _ _).2 related, rfl⟩
    | goto related => exact bind_eq_ok.2 ⟨_, (hf _ _).2 related, rfl⟩
    | switch related relatedDefault =>
      refine bind_eq_ok.2 ⟨_, mapM_eq_ok.2 (related.imp fun _ _ => (hf _ _).2), ?_⟩
      exact bind_eq_ok.2 ⟨_, (hf _ _).2 relatedDefault, rfl⟩
    | other none => cases i <;> first | rfl | simp [jumpTargets] at none

theorem exists_of_mapTargets_error {e : ε} (h : i.mapTargets f = .error e) :
    ∃ target ∈ i.jumpTargets, f target = .error e := by
  cases i with
  | branch _ target | goto target =>
    rcases bind_eq_error.1 h with h | ⟨index, -, h⟩
    · exact ⟨target, List.mem_singleton_self _, h⟩
    · cases h
  | switch targets default =>
    rcases bind_eq_error.1 h with h | ⟨indices, -, h⟩
    · obtain ⟨target, htarget, h⟩ := exists_of_mapM_error h
      exact ⟨target, List.mem_append_left _ htarget, h⟩
    · rcases bind_eq_error.1 h with h | ⟨index, -, h⟩
      · exact ⟨default, List.mem_append_right _ (List.mem_singleton_self _), h⟩
      · cases h
  | _ => cases h

/-- Every target has been replaced. -/
theorem Retargeted.exists_rel (h : Retargeted R i i') {target : Nat}
    (ht : target ∈ i.jumpTargets) : ∃ index, R target index := by
  cases h with
  | branch related | goto related =>
    cases List.mem_singleton.1 ht
    exact ⟨_, related⟩
  | switch related relatedDefault =>
    rcases List.mem_append.1 ht with ht | ht
    · obtain ⟨index, -, hindex⟩ := exists_mem_of_forall₂ related ht
      exact ⟨index, hindex⟩
    · cases List.mem_singleton.1 ht
      exact ⟨_, relatedDefault⟩
  | other none => simp [none] at ht

end Instruction

namespace ClassFile

/-- The handler is the range with related numbers in place of its ends and of its target, and with
the class that it names. -/
structure ExceptionRange.Retargeted (pool : Pool) (R : Nat → Nat → Prop) (r : ExceptionRange)
    (h : Handler) : Prop where
  start : R r.start h.start
  stop : R r.stop h.stop
  target : R r.handler h.target
  catchesAll : r.catches = 0 → h.catches = none
  catchesOne : r.catches ≠ 0 → ∃ name, pool.className r.catches = .ok name ∧ h.catches = some name

variable {s : Symbols} {code : Array UInt8} {offsets : List Nat} {raw : List Instruction}
  {start stop : Nat}

/-! ### Layouts -/

/-- The instructions `raw` lie end to end from `start` to `stop`. The last of the offsets is where
they stop. -/
structure Layout (s : Symbols) (code : Array UInt8) (offsets : List Nat) (raw : List Instruction)
    (start stop : Nat) : Prop where
  starts : offsets.head? = some start
  stops : offsets.getLast? = some stop
  length_eq : offsets.length = raw.length + 1
  ascending : offsets.Pairwise (· < ·)
  decoded : ∀ (k : Nat) (i : Instruction), raw[k]? = some i →
    ∃ offset next, offsets[k]? = some offset ∧ offsets[k + 1]? = some next ∧
      ∃ inside : offset < code.size, decodeAt s code offset inside = .ok (i, next - offset)

namespace Layout

theorem nil (offset : Nat) : Layout s code [offset] [] offset offset :=
  ⟨rfl, rfl, rfl, List.pairwise_singleton _ _, by simp⟩

theorem eq_of_nil (h : Layout s code offsets [] start stop) : offsets = [start] ∧ start = stop := by
  obtain ⟨offset, rfl⟩ := List.length_eq_one_iff.1 h.length_eq
  exact ⟨by simpa using h.starts, by simpa using h.starts.symm.trans h.stops⟩

theorem nodup (h : Layout s code offsets raw start stop) : offsets.Nodup :=
  h.ascending.imp fun hlt => Nat.ne_of_lt hlt

theorem le_of_mem (h : Layout s code offsets raw start stop) {offset : Nat}
    (ho : offset ∈ offsets) : start ≤ offset := by
  obtain ⟨rest, rfl⟩ := List.head?_eq_some_iff.1 h.starts
  rcases List.mem_cons.1 ho with rfl | ho
  · exact Nat.le_refl _
  · exact Nat.le_of_lt ((List.pairwise_cons.1 h.ascending).1 offset ho)

/-- One more instruction in front. -/
theorem cons {i : Instruction} {n : Nat} {inside : start < code.size}
    (hd : decodeAt s code start inside = .ok (i, n))
    (h : Layout s code offsets raw (start + n) stop) :
    Layout s code (start :: offsets) (i :: raw) start stop where
  starts := rfl
  stops := by rw [List.getLast?_cons, h.stops]; rfl
  length_eq := by rw [List.length_cons, List.length_cons, h.length_eq]
  ascending := by
    refine List.pairwise_cons.2 ⟨fun offset ho => ?_, h.ascending⟩
    have hpos := (decodeAt_length hd).1
    have hle := h.le_of_mem ho
    omega
  decoded := by
    intro k j hk
    cases k with
    | zero =>
      cases hk
      refine ⟨start, start + n, rfl, ?_, inside, ?_⟩
      · rw [List.getElem?_cons_succ, ← List.head?_eq_getElem?, h.starts]
      · rw [hd, Nat.add_sub_cancel_left]
    | succ k => exact h.decoded k j hk

theorem exists_of_cons {i : Instruction} (h : Layout s code offsets (i :: raw) start stop) :
    ∃ n rest, ∃ inside : start < code.size, offsets = start :: rest ∧
      decodeAt s code start inside = .ok (i, n) ∧ Layout s code rest raw (start + n) stop := by
  obtain ⟨rest, rfl⟩ := List.head?_eq_some_iff.1 h.starts
  obtain ⟨offset, next, hoffset, hnext, inside, hd⟩ := h.decoded 0 i rfl
  cases hoffset
  rw [List.getElem?_cons_succ, ← List.head?_eq_getElem?] at hnext
  obtain ⟨hhead, hascending⟩ := List.pairwise_cons.1 h.ascending
  have hlt : start < next := hhead next (List.mem_of_head? hnext)
  refine ⟨next - start, rest, inside, rfl, hd, ?_⟩
  rw [Nat.add_sub_cancel' (Nat.le_of_lt hlt)]
  refine ⟨hnext, ?_, by simpa using h.length_eq, hascending, fun k j hk => h.decoded (k + 1) j hk⟩
  have hne : rest ≠ [] := List.ne_nil_of_mem (List.mem_of_head? hnext)
  rw [← List.getLast?_cons_of_ne_nil hne, h.stops]

/-- The offsets and the instructions of a layout come in pairs, up to the last offset. -/
theorem exists_pairs (h : Layout s code offsets raw start stop) :
    ∃ pairs : List (Nat × Instruction),
      offsets = pairs.map (·.1) ++ [stop] ∧ raw = pairs.map (·.2) := by
  induction raw generalizing offsets start with
  | nil =>
    obtain ⟨rfl, rfl⟩ := h.eq_of_nil
    exact ⟨[], rfl, rfl⟩
  | cons i raw ih =>
    obtain ⟨n, rest, -, rfl, -, hrest⟩ := h.exists_of_cons
    obtain ⟨pairs, rfl, rfl⟩ := ih hrest
    exact ⟨(start, i) :: pairs, rfl, rfl⟩

end Layout

/-! ### The instructions of a body -/

variable {done all : Array (Nat × Instruction)}

/-- The instructions that are decoded from an offset on are those of the layout from there to the
end. -/
theorem decodeFrom_eq_ok (hstart : start ≤ code.size) :
    decodeFrom s code start done = .ok all ↔
      ∃ pairs : List (Nat × Instruction), all.toList = done.toList ++ pairs ∧
        Layout s code (pairs.map (·.1) ++ [code.size]) (pairs.map (·.2)) start code.size := by
  fun_induction decodeFrom s code start done with
  | case1 start done inside e hd =>
    refine ⟨fun h => (nomatch h), ?_⟩
    rintro ⟨pairs, -, h⟩
    cases pairs with
    | nil => exact absurd h.eq_of_nil.2 (Nat.ne_of_lt inside)
    | cons p pairs =>
      obtain ⟨n, rest, inside', -, hd', -⟩ := h.exists_of_cons
      cases hd.symm.trans hd'
  | case2 start done inside i n hd hpos ih =>
    rw [ih (decodeAt_length hd).2]
    constructor
    · rintro ⟨pairs, hall, h⟩
      exact ⟨(start, i) :: pairs, by simpa using hall, h.cons hd⟩
    · rintro ⟨pairs, hall, h⟩
      cases pairs with
      | nil => exact absurd h.eq_of_nil.2 (Nat.ne_of_lt inside)
      | cons p pairs =>
        -- the first instruction of the layout is the one that was decoded
        obtain ⟨n', rest, inside', hrest, hd', h'⟩ := h.exists_of_cons
        obtain ⟨offset, j⟩ := p
        obtain ⟨rfl, rfl⟩ := List.cons.inj hrest
        cases hd.symm.trans hd'
        exact ⟨pairs, by simpa using hall, h'⟩
  | case3 start done h =>
    obtain rfl : start = code.size := by omega
    constructor
    · intro hdone
      cases hdone
      exact ⟨[], (List.append_nil _).symm, .nil _⟩
    · rintro ⟨pairs, hall, h'⟩
      cases pairs with
      | nil => rw [Array.toList_inj.1 (hall.trans (List.append_nil _))]
      | cons p pairs =>
        obtain ⟨n, rest, inside, -⟩ := h'.exists_of_cons
        exact absurd inside h

/-- Decoding stops at the first offset inside the code at which there is no instruction. -/
theorem decodeFrom_error {e : CodeError} (h : decodeFrom s code start done = .error e) :
    ∃ offsets raw offset cause, ∃ inside : offset < code.size,
      Layout s code offsets raw start offset ∧ decodeAt s code offset inside = .error cause ∧
        e = .instruction offset cause := by
  fun_induction decodeFrom s code start done with
  | case1 start done inside cause hd =>
    cases h
    exact ⟨[start], [], start, cause, inside, .nil _, hd, rfl⟩
  | case2 start done inside i n hd hpos ih =>
    obtain ⟨offsets, raw, offset, cause, inside', hlayout, hcause, rfl⟩ := ih h
    exact ⟨start :: offsets, i :: raw, offset, cause, inside', hlayout.cons hd, hcause, rfl⟩
  | case3 start done => cases h

theorem decodeAll_eq_ok :
    decodeAll s code = .ok all ↔
      Layout s code (all.toList.map (·.1) ++ [code.size]) (all.toList.map (·.2)) 0 code.size := by
  rw [decodeAll, decodeFrom_eq_ok (Nat.zero_le _)]
  constructor
  · rintro ⟨pairs, hall, h⟩
    rwa [hall]
  · exact fun h => ⟨all.toList, rfl, h⟩

/-! ### Indices -/

/-- The index of an offset: no other index has this offset. -/
def IsIndex (offsets : List Nat) (offset index : Nat) : Prop :=
  offsets[index]? = some offset ∧ ∀ k, offsets[k]? = some offset → k = index

theorem isIndex_iff (distinct : offsets.Nodup) {offset index : Nat} :
    IsIndex offsets offset index ↔ offsets[index]? = some offset := by
  refine ⟨And.left, fun h => ⟨h, fun k hk => ?_⟩⟩
  obtain ⟨hlt, -⟩ := List.getElem?_eq_some_iff.1 hk
  exact (List.getElem?_inj hlt distinct).1 (hk.trans h.symm)

namespace Boundaries

theorem index_of_getElem? (distinct : (offsets ++ [stop]).Nodup) {offset index : Nat}
    (h : (offsets ++ [stop])[index]? = some offset) :
    (ofOffsets offsets stop).index offset = .ok index := by
  -- no offset is entered twice, so that no entry replaces another one
  have hdistinct : (offsets ++ [stop]).zipIdx.Pairwise fun a b => (a.1 == b.1) = false := by
    have hmap : ((offsets ++ [stop]).zipIdx.map Prod.fst).Pairwise (· ≠ ·) := by
      rwa [List.zipIdx_map_fst]
    exact (List.pairwise_map.1 hmap).imp fun hne => by simpa using hne
  have hfound : (ofOffsets offsets stop)[offset]? = some index :=
    Std.HashMap.getElem?_ofList_of_mem (beq_self_eq_true offset) hdistinct
      (List.mk_mem_zipIdx_iff_getElem?.2 h)
  rw [Boundaries.index, hfound]

theorem index_of_notMem {offset : Nat} (h : offset ∉ offsets ++ [stop]) :
    (ofOffsets offsets stop).index offset = .error (.boundary offset) := by
  have hmissing : (ofOffsets offsets stop)[offset]? = none := by
    refine Std.HashMap.getElem?_ofList_of_contains_eq_false ?_
    rw [List.zipIdx_map_fst]
    simpa using h
  rw [Boundaries.index, hmissing]

theorem index_eq_ok (distinct : (offsets ++ [stop]).Nodup) (offset index : Nat) :
    (ofOffsets offsets stop).index offset = .ok index ↔
      IsIndex (offsets ++ [stop]) offset index := by
  rw [isIndex_iff distinct]
  refine ⟨fun h => ?_, index_of_getElem? distinct⟩
  by_cases hmem : offset ∈ offsets ++ [stop]
  · obtain ⟨k, hk⟩ := List.mem_iff_getElem?.1 hmem
    cases (index_of_getElem? distinct hk).symm.trans h
    exact hk
  · cases (index_of_notMem hmem).symm.trans h

theorem index_eq_error (distinct : (offsets ++ [stop]).Nodup) {offset : Nat} {e : CodeError}
    (h : (ofOffsets offsets stop).index offset = .error e) :
    e = .boundary offset ∧ offset ∉ offsets ++ [stop] := by
  by_cases hmem : offset ∈ offsets ++ [stop]
  · obtain ⟨k, hk⟩ := List.mem_iff_getElem?.1 hmem
    cases (index_of_getElem? distinct hk).symm.trans h
  · cases (index_of_notMem hmem).symm.trans h
    exact ⟨rfl, hmem⟩

end Boundaries

/-! ### Bodies -/

namespace ExceptionRange

variable {pool : Pool} {b : Boundaries} {r : ExceptionRange} {h : Handler}

/-- The class that a range names, if it is not for all exceptions. -/
def caught (r : ExceptionRange) (pool : Pool) : Except CodeError (Option ClassName) :=
  if r.catches = 0 then .ok none
  else some <$> (pool.className r.catches).mapError CodeError.catches

theorem caught_eq_ok {catches : Option ClassName} :
    r.caught pool = .ok catches ↔ (r.catches = 0 → catches = none) ∧
      (r.catches ≠ 0 → ∃ name, pool.className r.catches = .ok name ∧ catches = some name) := by
  by_cases hzero : r.catches = 0
  · simp [caught, hzero, eq_comm]
  · cases hname : pool.className r.catches <;>
      simp [caught, hzero, hname, Except.mapError, eq_comm]

theorem caught_error {e : CodeError} (h : r.caught pool = .error e) :
    r.catches ≠ 0 ∧ ∃ cause, pool.className r.catches = .error cause ∧ e = .catches cause := by
  by_cases hzero : r.catches = 0
  · simp [caught, hzero] at h
  · refine ⟨hzero, ?_⟩
    cases hname : pool.className r.catches with
    | ok name => simp [caught, hzero, hname, Except.mapError] at h
    | error cause =>
      refine ⟨cause, rfl, ?_⟩
      simpa [caught, hzero, hname, Except.mapError] using h.symm

theorem handlerIn_eq (r : ExceptionRange) (pool : Pool) (b : Boundaries) :
    r.handlerIn pool b = do
      let catches ← r.caught pool
      let start ← b.index r.start
      let stop ← b.index r.stop
      let target ← b.index r.handler
      return ⟨start, stop, target, catches⟩ := by
  unfold handlerIn caught
  by_cases hzero : r.catches = 0
  · simp only [hzero, if_true]
    rfl
  · simp only [hzero, if_false]

theorem handlerIn_eq_ok {R : Nat → Nat → Prop}
    (hb : ∀ offset index, b.index offset = .ok index ↔ R offset index) :
    r.handlerIn pool b = .ok h ↔ r.Retargeted pool R h := by
  rw [handlerIn_eq]
  constructor
  · intro hok
    obtain ⟨catches, hcatches, hok⟩ := bind_eq_ok.1 hok
    obtain ⟨start, hstart, hok⟩ := bind_eq_ok.1 hok
    obtain ⟨stop, hstop, hok⟩ := bind_eq_ok.1 hok
    obtain ⟨target, htarget, hok⟩ := bind_eq_ok.1 hok
    cases hok
    obtain ⟨hall, hone⟩ := caught_eq_ok.1 hcatches
    exact ⟨(hb _ _).1 hstart, (hb _ _).1 hstop, (hb _ _).1 htarget, hall, hone⟩
  · rintro ⟨hstart, hstop, htarget, hall, hone⟩
    refine bind_eq_ok.2 ⟨h.catches, caught_eq_ok.2 ⟨hall, hone⟩, ?_⟩
    refine bind_eq_ok.2 ⟨h.start, (hb _ _).2 hstart, ?_⟩
    refine bind_eq_ok.2 ⟨h.stop, (hb _ _).2 hstop, ?_⟩
    exact bind_eq_ok.2 ⟨h.target, (hb _ _).2 htarget, rfl⟩

theorem handlerIn_error {e : CodeError} (h : r.handlerIn pool b = .error e) :
    r.caught pool = .error e ∨
      ∃ offset ∈ [r.start, r.stop, r.handler], b.index offset = .error e := by
  rw [handlerIn_eq] at h
  rcases bind_eq_error.1 h with h | ⟨catches, -, h⟩
  · exact .inl h
  rcases bind_eq_error.1 h with h | ⟨start, -, h⟩
  · exact .inr ⟨r.start, by simp, h⟩
  rcases bind_eq_error.1 h with h | ⟨stop, -, h⟩
  · exact .inr ⟨r.stop, by simp, h⟩
  rcases bind_eq_error.1 h with h | ⟨target, -, h⟩
  · exact .inr ⟨r.handler, by simp, h⟩
  · cases h

/-- All offsets of a range have been replaced. -/
theorem Retargeted.exists_rel {R : Nat → Nat → Prop} (hr : r.Retargeted pool R h) {offset : Nat}
    (ho : offset ∈ [r.start, r.stop, r.handler]) : ∃ index, R offset index := by
  simp only [List.mem_cons, List.not_mem_nil, or_false] at ho
  rcases ho with rfl | rfl | rfl
  · exact ⟨_, hr.start⟩
  · exact ⟨_, hr.stop⟩
  · exact ⟨_, hr.target⟩

end ExceptionRange

variable {ranges : List ExceptionRange}

/-- The body refers to the offset, as the target of a jump or as one of the offsets of a range. -/
def Refers (raw : List Instruction) (ranges : List ExceptionRange) (offset : Nat) : Prop :=
  (∃ i ∈ raw, offset ∈ i.jumpTargets) ∨ ∃ r ∈ ranges, offset ∈ [r.start, r.stop, r.handler]

/-- The reasons for which a body is not decoded. -/
inductive Fault (s : Symbols) (code : Array UInt8) (ranges : List ExceptionRange) : CodeError → Prop
  /-- There is no instruction where the one before it ends. -/
  | instruction {offsets : List Nat} {raw : List Instruction} {offset : Nat} {cause : DecodeError}
    (layout : Layout s code offsets raw 0 offset) (inside : offset < code.size)
    (fails : decodeAt s code offset inside = .error cause) :
    Fault s code ranges (.instruction offset cause)
  /-- The body refers to an offset between those of the instructions, or beyond. -/
  | boundary {offsets : List Nat} {raw : List Instruction} {offset : Nat}
    (layout : Layout s code offsets raw 0 code.size) (refers : Refers raw ranges offset)
    (missing : offset ∉ offsets) : Fault s code ranges (.boundary offset)
  /-- A range names a class that is not in the pool. -/
  | catches {offsets : List Nat} {raw : List Instruction} {r : ExceptionRange} {cause : PoolError}
    (layout : Layout s code offsets raw 0 code.size) (mem : r ∈ ranges) (named : r.catches ≠ 0)
    (fails : s.pool.className r.catches = .error cause) : Fault s code ranges (.catches cause)

/-- The second half of the decoding of a body, given its instructions with their offsets. -/
theorem decodeBody_of_decodeAll {all : Array (Nat × Instruction)}
    (h : decodeAll s code = .ok all) (ranges : List ExceptionRange) :
    decodeBody s code ranges = do
      let b := Boundaries.ofOffsets (all.toList.map (·.1)) code.size
      let instructions ← all.toList.mapM fun p => p.2.mapTargets b.index
      let handlers ← ranges.mapM fun r => r.handlerIn s.pool b
      return (instructions.toArray, handlers) := by
  simp only [decodeBody, h, Array.mapM_eq_mapM_toList, map_eq_pure_bind, bind_assoc, pure_bind]
  rfl

/-- Given the layout of a body, decoding replaces the offsets by indices. -/
theorem Layout.decodeBody_eq_ok (h : Layout s code offsets raw 0 code.size)
    {instructions : Array Instruction} {handlers : List Handler} :
    decodeBody s code ranges = .ok (instructions, handlers) ↔
      List.Forall₂ (Instruction.Retargeted (IsIndex offsets)) raw instructions.toList ∧
        List.Forall₂ (ExceptionRange.Retargeted s.pool (IsIndex offsets)) ranges handlers := by
  obtain ⟨pairs, rfl, rfl⟩ := h.exists_pairs
  have hall : decodeAll s code = .ok pairs.toArray := decodeAll_eq_ok.2 h
  have hindex := Boundaries.index_eq_ok h.nodup
  rw [decodeBody_of_decodeAll hall, List.forall₂_map_left_iff]
  constructor
  · intro hok
    obtain ⟨is, his, hok⟩ := bind_eq_ok.1 hok
    obtain ⟨hs, hhs, hok⟩ := bind_eq_ok.1 hok
    cases hok
    exact ⟨(mapM_eq_ok.1 his).imp fun _ _ => (Instruction.mapTargets_eq_ok hindex).1,
      (mapM_eq_ok.1 hhs).imp fun _ _ => (ExceptionRange.handlerIn_eq_ok hindex).1⟩
  · rintro ⟨his, hhs⟩
    refine bind_eq_ok.2 ⟨instructions.toList, mapM_eq_ok.2 ?_, ?_⟩
    · exact his.imp fun _ _ => (Instruction.mapTargets_eq_ok hindex).2
    refine bind_eq_ok.2 ⟨handlers, mapM_eq_ok.2 ?_, rfl⟩
    exact hhs.imp fun _ _ => (ExceptionRange.handlerIn_eq_ok hindex).2

/-- A body is refused for one of the reasons only. -/
theorem fault_of_decodeBody {e : CodeError} (h : decodeBody s code ranges = .error e) :
    Fault s code ranges e := by
  cases hall : decodeAll s code with
  | error e' =>
    rw [decodeBody, hall] at h
    cases h
    obtain ⟨offsets, raw, offset, cause, inside, hlayout, hcause, rfl⟩ := decodeFrom_error hall
    exact .instruction hlayout inside hcause
  | ok all =>
    have hlayout := decodeAll_eq_ok.1 hall
    rw [decodeBody_of_decodeAll hall] at h
    have hboundary : ∀ offset, Refers (all.toList.map (·.2)) ranges offset →
        (Boundaries.ofOffsets (all.toList.map (·.1)) code.size).index offset = .error e →
          Fault s code ranges e := by
      intro offset hrefers herror
      obtain ⟨rfl, hmissing⟩ := Boundaries.index_eq_error hlayout.nodup herror
      exact .boundary hlayout hrefers hmissing
    rcases bind_eq_error.1 h with h | ⟨instructions, -, h⟩
    · obtain ⟨p, hp, h⟩ := exists_of_mapM_error h
      obtain ⟨offset, hoffset, h⟩ := Instruction.exists_of_mapTargets_error h
      exact hboundary offset (.inl ⟨p.2, List.mem_map_of_mem hp, hoffset⟩) h
    rcases bind_eq_error.1 h with h | ⟨handlers, -, h⟩
    · obtain ⟨r, hr, h⟩ := exists_of_mapM_error h
      rcases ExceptionRange.handlerIn_error h with h | ⟨offset, hoffset, h⟩
      · obtain ⟨hnamed, cause, hcause, rfl⟩ := ExceptionRange.caught_error h
        exact .catches hlayout hr hnamed hcause
      · exact hboundary offset (.inr ⟨r, hr, hoffset⟩) h
    · cases h

/-- Every offset that the body refers to has an index. -/
theorem Layout.mem_of_refers (h : Layout s code offsets raw 0 code.size)
    {instructions : Array Instruction} {handlers : List Handler}
    (hok : decodeBody s code ranges = .ok (instructions, handlers)) {offset : Nat}
    (hrefers : Refers raw ranges offset) : offset ∈ offsets := by
  obtain ⟨his, hhs⟩ := h.decodeBody_eq_ok.1 hok
  have hindex : ∃ index, IsIndex offsets offset index := by
    rcases hrefers with ⟨i, hi, ho⟩ | ⟨r, hr, ho⟩
    · obtain ⟨i', -, hii'⟩ := exists_mem_of_forall₂ his hi
      exact hii'.exists_rel ho
    · obtain ⟨handler, -, hrh⟩ := exists_mem_of_forall₂ hhs hr
      exact hrh.exists_rel ho
  obtain ⟨index, hindex, -⟩ := hindex
  exact List.mem_iff_getElem?.2 ⟨index, hindex⟩

/-- Decoding a body replaces offsets by indices, and nothing else: it succeeds exactly if the
instructions lie end to end from the first byte to the last and every offset that is referred to is
that of an instruction or the end. Otherwise there is a reason for an error. No instruction is read
from bytes other than its own. -/
theorem decodeBody_retargets (s : Symbols) (code : Array UInt8) (ranges : List ExceptionRange) :
    (∀ instructions handlers, decodeBody s code ranges = .ok (instructions, handlers) ↔
      ∃ offsets raw, Layout s code offsets raw 0 code.size ∧
        List.Forall₂ (Instruction.Retargeted (IsIndex offsets)) raw instructions.toList ∧
        List.Forall₂ (ExceptionRange.Retargeted s.pool (IsIndex offsets)) ranges handlers) ∧
    (∀ offsets raw offset, Layout s code offsets raw 0 code.size → Refers raw ranges offset →
      offset ∉ offsets → ∃ e, decodeBody s code ranges = .error e) ∧
    (∀ e, decodeBody s code ranges = .error e → Fault s code ranges e) ∧
    ∀ offsets raw start stop, Layout s code offsets raw start stop →
      ∀ (k offset next : Nat) (i : Instruction), offsets[k]? = some offset →
        offsets[k + 1]? = some next → raw[k]? = some i →
        ∀ code', SameBytes code code' offset next →
          ∃ inside, decodeAt s code' offset inside = .ok (i, next - offset) := by
  refine ⟨fun instructions handlers => ⟨fun hok => ?_, ?_⟩, ?_, fun e => fault_of_decodeBody, ?_⟩
  · obtain ⟨all, hall, -⟩ := bind_eq_ok.1 hok
    have hlayout := decodeAll_eq_ok.1 hall
    exact ⟨_, _, hlayout, hlayout.decodeBody_eq_ok.1 hok⟩
  · rintro ⟨offsets, raw, hlayout, hretargeted⟩
    exact hlayout.decodeBody_eq_ok.2 hretargeted
  · intro offsets raw offset hlayout hrefers hmissing
    cases hbody : decodeBody s code ranges with
    | error e => exact ⟨e, rfl⟩
    | ok body => exact absurd (hlayout.mem_of_refers hbody hrefers) hmissing
  · intro offsets raw start stop hlayout k offset next i hoffset hnext hi code' hsame
    obtain ⟨offset', next', hoffset', hnext', inside, hd⟩ := hlayout.decoded k i hi
    cases hoffset.symm.trans hoffset'
    cases hnext.symm.trans hnext'
    have hlt := (decodeAt_length hd).1
    exact decodeAt_of_sameBytes hd (hsame.mono (Nat.le_refl _) (by omega))

end ClassFile

end Immutability

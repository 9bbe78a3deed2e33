import Immutability.Proofs.Checks
import Immutability.Proofs.Receiver

/-!
# Which reassignments are reported

A check of field stores takes a store for one into the receiver if the receiver has been loaded
since the store before it, in the order of the instructions. The frames know better.

* `FieldStore.LoadedSince` says what the check looks at, and `FieldStore.sees_iff` that
  it sees exactly this;
* `Frame.Unaliased` says that a frame has the receiver in slot 0 at most, and `Frame.unaliased_step`
  that it stays so until slot 0 is loaded;
* `Check.reassignmentReported_or_carried` compares the two: a store into the receiver is reported
  unless the receiver has been carried past a store or a jump, on the stack or in another slot.
-/

namespace Immutability

/-! ### What the check sees -/

namespace FieldStore

/-- No field is stored from instruction `k` up to but not including instruction `n`. -/
def Quiet (code : List Instruction) (k n : Nat) : Prop :=
  ∀ j, k ≤ j → j < n → ∀ field, code[j]? ≠ some (.putField field)

/-- A slot has been loaded before instruction `n`, and no field has been stored in between. -/
def LoadedSince (code : List Instruction) (n slot : Nat) : Prop :=
  ∃ k < n, (∃ kind, code[k]? = some (.load kind slot)) ∧ Quiet code (k + 1) n

variable {i : Instruction} {code : List Instruction} {k n slot : Nat}

@[simp] theorem quiet_cons_succ : Quiet (i :: code) (k + 1) (n + 1) ↔ Quiet code k n := by
  constructor
  · intro h j hk hn field
    simpa using h (j + 1) (by omega) (by omega) field
  · intro h j hk hn field
    cases j with
    | zero => omega
    | succ j => simpa using h j (by omega) (by omega) field

@[simp] theorem quiet_cons_zero :
    Quiet (i :: code) 0 (n + 1) ↔ (∀ field, i ≠ .putField field) ∧ Quiet code 0 n := by
  constructor
  · intro h
    refine ⟨fun field => ?_, fun j _ hn field => ?_⟩
    · simpa using h 0 (by omega) (by omega) field
    · simpa using h (j + 1) (by omega) (by omega) field
  · rintro ⟨hi, h⟩ j _ hn field
    cases j with
    | zero => simpa using hi field
    | succ j => simpa using h j (by omega) (by omega) field

@[simp] theorem not_loadedSince_zero : ¬LoadedSince code 0 slot := by
  rintro ⟨k, hk, -⟩
  omega

@[simp] theorem loadedSince_cons : LoadedSince (i :: code) (n + 1) slot ↔
    LoadedSince code n slot ∨ (∃ kind, i = .load kind slot) ∧ Quiet code 0 n := by
  constructor
  · rintro ⟨k, hk, hload, hquiet⟩
    cases k with
    | zero => exact .inr ⟨by simpa using hload, by simpa using hquiet⟩
    | succ k => exact .inl ⟨k, by omega, by simpa using hload, by simpa using hquiet⟩
  · rintro (⟨k, hk, hload, hquiet⟩ | ⟨hload, hquiet⟩)
    · exact ⟨k + 1, by omega, by simpa using hload, by simpa using hquiet⟩
    · exact ⟨0, by omega, by simpa using hload, by simpa using hquiet⟩

theorem le_index_of_mem_scan {s : FieldStore} {index : Nat} {loaded : List Nat}
    (h : s ∈ scan index loaded code) : index ≤ s.index := by
  fun_induction scan index loaded code with
  | case1 => simp at h
  | case2 index loaded kind slot rest ih => exact Nat.le_of_succ_le (ih h)
  | case3 index loaded field rest ih =>
    rcases List.mem_cons.1 h with rfl | h
    · exact Nat.le_refl _
    · exact Nat.le_of_succ_le (ih h)
  | case4 index loaded i rest _ _ ih => exact Nat.le_of_succ_le (ih h)

/-- The check sees a store into the field at instruction `n`, after a load of the slot. -/
def Sees (index : Nat) (loaded : List Nat) (code : List Instruction) (n slot : Nat)
    (field : FieldRef) : Prop :=
  ∃ s ∈ scan index loaded code, s.index = index + n ∧ s.field = field ∧ slot ∈ s.loaded

section Sees

variable {index : Nat} {loaded : List Nat} {field : FieldRef}

/-- What is scanned from the next instruction on comes later. -/
theorem exists_mem_scan_succ : (∃ s ∈ scan (index + 1) loaded code,
    s.index = index + n ∧ s.field = field ∧ slot ∈ s.loaded) ↔
      ∃ k, n = k + 1 ∧ Sees (index + 1) loaded code k slot field := by
  constructor
  · rintro ⟨s, hs, hindex, h⟩
    have hle := le_index_of_mem_scan hs
    exact ⟨n - 1, by omega, s, hs, by omega, h⟩
  · rintro ⟨k, rfl, s, hs, hindex, h⟩
    exact ⟨s, hs, by omega, h⟩

/-- The check sees the stores, and the slots that have been loaded since the store before, or since
the start of the scan and earlier. -/
theorem sees_iff : Sees index loaded code n slot field ↔ code[n]? = some (.putField field) ∧
    (LoadedSince code n slot ∨ slot ∈ loaded ∧ Quiet code 0 n) := by
  induction code generalizing index loaded n with
  | nil => simp [Sees, scan]
  | cons i code ih =>
    cases i with
    | putField field' =>
      have hput : Sees index loaded (.putField field' :: code) n slot field ↔
          (n = 0 ∧ field' = field ∧ slot ∈ loaded) ∨
            ∃ k, n = k + 1 ∧ Sees (index + 1) [] code k slot field := by
        rw [← exists_mem_scan_succ]
        simp [Sees, scan, eq_comm]
      rw [hput]
      cases n with
      | zero => simp [Quiet]
      | succ n => simp [ih]
    | load kind slot' =>
      refine exists_mem_scan_succ.trans ?_
      cases n with
      | zero => simp
      | succ n =>
        have hslot : (∃ kind', Instruction.load kind slot' = .load kind' slot) ↔ slot = slot' := by
          simp [eq_comm]
        simp only [Nat.add_right_cancel_iff, exists_eq_left', ih, List.getElem?_cons_succ,
          List.mem_append, List.mem_singleton, loadedSince_cons, quiet_cons_zero, hslot]
        grind
    | _ =>
      refine exists_mem_scan_succ.trans ?_
      cases n with
      | zero => simp
      | succ n => simp [ih]

end Sees

end FieldStore

/-! ### Where the receiver cannot be -/

theorem Value.ofType_ne_this (type : FieldType) (o : Origin) : Value.ofType type o ≠ .this := by
  cases type <;> simp [Value.ofType]

namespace Frame

/-- The receiver is in local slot 0 at most. -/
structure Unaliased (f : Frame) : Prop where
  stack : .this ∉ f.stack
  locals : ∀ slot, slot ≠ 0 → f.locals[slot]? ≠ some .this

/-- A step, if it succeeds, leaves the receiver in local slot 0 at most. -/
def Hides (r : Except StepError Frame) : Prop := ∀ g, r = .ok g → g.Unaliased

theorem Unaliased.push {f : Frame} {v : Value} (h : f.Unaliased) (hv : v ≠ .this) :
    (f.push v).Unaliased := by
  refine ⟨?_, h.locals⟩
  simp [Frame.push, h.stack, hv.symm]

theorem Unaliased.replace {f : Frame} {v w : Value} (h : f.Unaliased) (hw : w ≠ .this) :
    (f.replace v w).Unaliased := by
  constructor
  · intro hmem
    obtain ⟨u, hu, hthis⟩ := List.mem_map.1 hmem
    split_ifs at hthis with huv
    · exact hw hthis
    · exact h.stack (hthis ▸ hu)
  · intro slot hslot hthis
    simp only [Frame.replace, Array.getElem?_map, Option.map_eq_some_iff] at hthis
    obtain ⟨u, hu, hthis⟩ := hthis
    split_ifs at hthis with huv
    · exact hw hthis
    · exact h.locals slot hslot (hthis ▸ hu)

namespace Hides

variable {α : Type} {f : Frame}

theorem ok (h : f.Unaliased) : Hides (.ok f) := by
  rintro g ⟨⟩
  exact h

theorem bind {x : Except StepError α} {k : α → Except StepError Frame}
    (h : ∀ a, x = .ok a → Hides (k a)) : Hides (x >>= k) := by
  intro g hg
  obtain ⟨a, ha, hk⟩ := bind_eq_ok.1 hg
  exact h a ha g hk

theorem pop {k : Value × Frame → Except StepError Frame} (hf : f.Unaliased)
    (h : ∀ v g, v ≠ .this → g.Unaliased → Hides (k (v, g))) : Hides (f.pop >>= k) := by
  refine bind fun p hp => ?_
  unfold Frame.pop at hp
  split at hp
  · rename_i v s hs
    cases hp
    have hstack := hf.stack
    rw [hs, List.mem_cons, not_or] at hstack
    exact h v _ (Ne.symm hstack.1) ⟨hstack.2, hf.locals⟩
  · cases hp

theorem popMany {count : Nat} {k : List Value × Frame → Except StepError Frame}
    (hf : f.Unaliased) (h : ∀ vs g, g.Unaliased → Hides (k (vs, g))) :
    Hides (f.popMany count >>= k) := by
  refine bind fun p hp => ?_
  unfold Frame.popMany at hp
  split_ifs at hp with hcount
  cases hp
  exact h _ _ ⟨fun hmem => hf.stack (List.mem_of_mem_drop hmem), hf.locals⟩

theorem dropMany {count : Nat} (hf : f.Unaliased) : Hides (f.dropMany count) := by
  intro g hg
  unfold Frame.dropMany Frame.popMany at hg
  split_ifs at hg with hcount
  · cases hg
    exact ⟨fun hmem => hf.stack (List.mem_of_mem_drop hmem), hf.locals⟩
  · cases hg

theorem dropMany_bind {count : Nat} {k : Frame → Except StepError Frame} (hf : f.Unaliased)
    (h : ∀ g, g.Unaliased → Hides (k g)) : Hides (f.dropMany count >>= k) :=
  bind fun g hg => h g (dropMany hf g hg)

theorem setLocal {kind : Kind} {slot : Nat} {v : Value} (hf : f.Unaliased) (hv : v ≠ .this) :
    Hides (f.setLocal kind slot v) := by
  intro g hg
  unfold Frame.setLocal at hg
  split at hg
  · cases hg
    refine ⟨hf.stack, fun slot' hslot hthis => ?_⟩
    have hold := hf.locals slot' hslot
    -- the slot is set to a value other than the receiver, or stays as it was
    dsimp only at hthis
    split_ifs at hthis <;> grind
  · cases hg

theorem call {kind : CallKind} {method : MethodRef} (hf : f.Unaliased) :
    Hides (f.call kind method) := by
  refine bind fun signature _ => popMany hf fun args g hg => ?_
  by_cases hstatic : kind = .static
  · simp only [hstatic, if_true]
    cases signature.result
    exacts [ok hg, ok (hg.push (Value.ofType_ne_this _ _))]
  · simp only [hstatic, if_false]
    refine pop hg fun receiver g' _ hg' => ?_
    cases receiver with
    | uninitialized cls site =>
      dsimp only
      split_ifs
      · exact ok (hg'.replace (by simp [Value.instanceOf]))
      · cases signature.result
        exacts [ok hg', ok (hg'.push (Value.ofType_ne_this _ _))]
    | top | primitive | null | this | reference =>
      cases signature.result
      exacts [ok hg', ok (hg'.push (Value.ofType_ne_this _ _))]

theorem fieldValue {field : FieldRef} (hf : f.Unaliased) :
    Hides (Frame.fieldValue field >>= fun v => .ok (f.push v)) := by
  refine bind fun v hv => ok (hf.push ?_)
  obtain ⟨type, -, hv⟩ := bind_eq_ok.1 hv
  cases hv
  exact Value.ofType_ne_this _ _

end Hides

/-- The receiver stays in its slot until slot 0 is loaded. -/
theorem unaliased_step {f : Frame} (hf : f.Unaliased) (index : Nat) {instruction : Instruction}
    (hload : ∀ kind, instruction ≠ .load kind 0) : Hides (f.step index instruction) := by
  cases instruction with
  | nop | goto => exact .ok hf
  | constant c => exact .ok (hf.push (by cases c <;> simp [Constant.value, Value.instanceOf]))
  | new cls => exact .ok (hf.push (by simp))
  | load kind slot =>
    refine .bind fun v hv => .ok (hf.push ?_)
    rintro rfl
    have hslot : slot ≠ 0 := fun h => hload kind (h ▸ rfl)
    unfold getLocal at hv
    split at hv
    · rename_i v hlocal
      cases hv
      exact hf.locals slot hslot hlocal
    · cases hv
  | getStatic field => exact .fieldValue hf
  | store kind slot => exact .pop hf fun v g hv hg => .setLocal hg hv
  | increment slot => exact .setLocal hf (by simp)
  | arrayLoad kind =>
    refine .pop hf fun index g _ hg => .pop hg fun array g' _ hg' => ?_
    cases kind <;> exact .ok (hg'.push (by simp))
  | arrayStore | branch | switch | raise | monitor | putField | putStatic => exact .dropMany hf
  | ret kind =>
    cases kind with
    | none => exact .ok hf
    | some kind => exact .dropMany hf
  | stack move =>
    simp only [step]
    cases hs : move.apply f.stack with
    | some s => exact .ok ⟨fun hmem => hf.stack (StackMove.subset_of_apply hs hmem), hf.locals⟩
    | none => rintro g ⟨⟩
  | compute pops push =>
    refine .dropMany_bind hf fun g hg => ?_
    cases push
    exacts [.ok hg, .ok (hg.push (by simp))]
  | getField field => exact .dropMany_bind hf fun g hg => .fieldValue hg
  | invoke kind method => exact .call hf
  | invokeDynamic name descriptor bootstrap =>
    refine .bind fun signature _ => .dropMany_bind hf fun g hg => ?_
    cases signature.result
    exacts [.ok hg, .ok (hg.push (Value.ofType_ne_this _ _))]
  | newArray descriptor dimensions =>
    exact .dropMany_bind hf fun g hg => .bind fun type _ => .ok (hg.push (by simp))
  | arrayLength | instanceOf => exact .dropMany_bind hf fun g hg => .ok (hg.push (by simp))
  | checkCast descriptor =>
    refine .pop hf fun v g hv hg => ?_
    cases v with
    | reference type origin => exact .bind fun type _ => .ok (hg.push (by simp))
    | top | primitive | null | this | uninitialized => exact .ok (hg.push hv)

theorem this_notMem_parameterLocals (slot : Nat) (types : List FieldType) :
    .this ∉ parameterLocals slot types := by
  induction types generalizing slot with
  | nil => simp [parameterLocals]
  | cons type types ih =>
    have hwide : Value.this ∉ (if type.isWide then [Value.top] else []) := by
      split_ifs <;> simp
    simp [parameterLocals, ih, hwide, (Value.ofType_ne_this _ _).symm]

/-- A method starts with the receiver in slot 0 at most. -/
theorem unaliased_entry {m : Method} {f : Frame} (h : Frame.entry m = .ok f) : f.Unaliased := by
  obtain ⟨signature, -, h⟩ := bind_eq_ok.1 h
  cases h
  refine ⟨by simp, fun slot hslot hthis => ?_⟩
  obtain ⟨n, rfl⟩ := Nat.exists_eq_succ_of_ne_zero hslot
  have hmem := Array.mem_of_getElem? hthis
  have hparameters := this_notMem_parameterLocals m.receiverSlots signature.parameters
  cases hstatic : m.access.isStatic with
  | true => simp [hstatic, hparameters] at hmem
  | false =>
    -- behind the receiver there are parameters and unset slots
    simp only [hstatic, Bool.false_eq_true, if_false, List.cons_append, List.nil_append,
      List.getElem?_toArray, List.getElem?_cons_succ] at hthis
    simpa [hparameters] using List.mem_of_getElem? hthis

end Frame

namespace Method

/-- Instruction `k` comes before the field store `i`, and no field is stored in between. -/
def Window (m : Method) (i k : Nat) : Prop := k ≤ i ∧ FieldStore.Quiet m.code.toList k i

/-- The receiver is loaded between the field store `i` and the store before it. -/
def LoadsThis (m : Method) (i : Nat) : Prop := FieldStore.LoadedSince m.code.toList i 0

/-- On some path, control enters the instructions between the field store `i` and the store before
it with the receiver on the stack or in a local slot other than 0. -/
def CarriesThis (m : Method) (i : Nat) : Prop :=
  ∃ j f k a, m.Path j f ∧ m.Passes j f k a ∧ ¬m.Window i j ∧ m.Window i k ∧ ¬a.Unaliased

variable {m : Method} {i k : Nat}

theorem Passes.unaliased {j : Nat} {f a : Frame} {field : FieldRef} (h : m.Passes j f k a)
    (hstore : m.code[i]? = some (.putField field)) (hj : m.Window i j) (hloads : ¬m.LoadsThis i)
    (hf : f.Unaliased) : a.Unaliased := by
  have hstep : ∀ instruction, m.code[j]? = some instruction → f.step j instruction = .ok a →
      a.Unaliased := by
    intro instruction hcode hstep
    refine Frame.unaliased_step hf j (fun kind hload => ?_) a hstep
    subst hload
    rcases Nat.lt_or_eq_of_le hj.1 with hlt | rfl
    · refine hloads ⟨j, hlt, ⟨kind, by simpa using hcode⟩, fun n hn => hj.2 n (by omega)⟩
    · cases hstore.symm.trans hcode
  cases h with
  | jump code step _ => exact hstep _ code step
  | next code step _ => exact hstep _ code step
  | handler => exact ⟨by simp [Handler.entry, Handler.caughtValue, Value.instanceOf], hf.locals⟩

/-- An alias of the receiver between two stores has been carried there. -/
theorem Path.carriesThis {f : Frame} {field : FieldRef} (h : m.Path k f)
    (hstore : m.code[i]? = some (.putField field)) (hk : m.Window i k) (hloads : ¬m.LoadsThis i)
    (hf : ¬f.Unaliased) : m.CarriesThis i := by
  induction h with
  | start entry => exact absurd (Frame.unaliased_entry entry) hf
  | @pass j k f a path passes ih =>
    by_cases hj : m.Window i j
    · exact ih hj fun hunaliased => hf (passes.unaliased hstore hj hloads hunaliased)
    · exact ⟨j, f, k, a, path, passes, hj, hk, hf⟩

end Method

/-! ### What is reported -/

namespace Check

variable {c : ClassFacts} {m : Method} {i : Nat}

/-- A store into a field of the object itself is one of the method's instructions. -/
theorem store_of_mem_selfStores {cls : ClassName} {s : FieldStore} (h : s ∈ selfStores cls m) :
    m.code[s.index]? = some (.putField s.field) ∧ s.field.owner = cls ∧ m.LoadsThis s.index := by
  simp only [selfStores, List.mem_filter, Bool.and_eq_true, beq_iff_eq] at h
  obtain ⟨hs, hthis, howner⟩ := h
  have hsees : FieldStore.Sees 0 [] m.code.toList s.index 0 s.field :=
    ⟨s, hs, by simp, rfl, by simpa [FieldStore.involvesThis] using hthis⟩
  obtain ⟨hcode, hloaded⟩ := FieldStore.sees_iff.1 hsees
  exact ⟨by simpa using hcode, howner, by simpa [Method.LoadsThis] using hloaded⟩

/-- The check takes a store for one into the receiver exactly if the receiver has been loaded. -/
theorem exists_selfStore_iff {cls : ClassName} {field : FieldRef}
    (hcode : m.code[i]? = some (.putField field)) (howner : field.owner = cls) :
    (∃ s ∈ selfStores cls m, s.index = i) ↔ m.LoadsThis i := by
  constructor
  · rintro ⟨s, hs, rfl⟩
    exact (store_of_mem_selfStores hs).2.2
  · intro hloaded
    have hsees : FieldStore.Sees 0 [] m.code.toList i 0 field :=
      FieldStore.sees_iff.2 ⟨by simpa using hcode, .inl hloaded⟩
    obtain ⟨s, hs, hindex, rfl, hthis⟩ := hsees
    refine ⟨s, List.mem_filter.2 ⟨hs, ?_⟩, by simpa using hindex⟩
    simp [FieldStore.involvesThis, hthis, howner]

/-- In a method that can run after construction, every store into the receiver is reported. -/
theorem reassignmentsIn_of_callable {graph : CallGraph} {cls : ClassName}
    (hstatic : m.access.isStatic = false) (hconstructor : m.isConstructor = false)
    (hcallable : m.access.isPrivate = false ∨
      graph.onlyFromConstructors? (m.ref cls) = some false) :
    reassignmentsIn graph cls m = (selfStores cls m).map (reassignmentFinding cls m) := by
  simp only [reassignmentsIn, hstatic, hconstructor, Bool.false_or]
  split_ifs with hempty hprivate
  · rw [List.isEmpty_iff.1 hempty, List.map_nil]
  · have hgraph := hcallable.resolve_left (by simp [hprivate])
    simp [hgraph]
  · rfl

/-- In a method that anyone may call, every store into the receiver is reported. -/
theorem reassignmentsIn_eq {graph : CallGraph} {cls : ClassName}
    (hstatic : m.access.isStatic = false) (hconstructor : m.isConstructor = false)
    (hprivate : m.access.isPrivate = false) :
    reassignmentsIn graph cls m = (selfStores cls m).map (reassignmentFinding cls m) :=
  reassignmentsIn_of_callable hstatic hconstructor (.inl hprivate)

theorem location_of_mem_reassignmentsIn {graph : CallGraph} {cls : ClassName} {finding : Finding}
    (h : finding ∈ reassignmentsIn graph cls m) :
    ∃ index, finding.location = .method cls m.name m.descriptor index := by
  have hall : ∀ finding ∈ (selfStores cls m).map (reassignmentFinding cls m),
      ∃ index, finding.location = .method cls m.name m.descriptor index := by
    intro finding hmem
    obtain ⟨s, -, rfl⟩ := List.mem_map.1 hmem
    exact ⟨_, rfl⟩
  simp only [reassignmentsIn] at h
  split_ifs at h
  · cases h
  · cases hcalled : graph.onlyFromConstructors? (m.ref cls) with
    | none =>
      rw [hcalled, List.mem_singleton] at h
      rw [h]
      exact ⟨_, rfl⟩
    | some constructing =>
      rw [hcalled] at h
      cases constructing with
      | true => cases h
      | false => exact hall finding h
  · exact hall finding h

theorem exists_selfStore_of_reports (hunambiguous : c.Unambiguous m)
    (hstatic : m.access.isStatic = false) (hconstructor : m.isConstructor = false)
    (hprivate : m.access.isPrivate = false)
    (h : Reports (reassignmentFindings c) .fieldCanBeReassigned (c.site m i)) :
    ∃ s ∈ selfStores c.name m, s.index = i := by
  obtain ⟨finding, hmem, hreason, hsite⟩ := h
  obtain ⟨m', hm', hmem⟩ := List.mem_flatMap.1 hmem
  obtain ⟨index, hlocation⟩ := location_of_mem_reassignmentsIn hmem
  -- the place of the finding names the method
  obtain ⟨hname, hdescriptor, -⟩ :
      m'.name = m.name ∧ m'.descriptor = m.descriptor ∧ index = some i := by
    simpa [ClassFacts.site] using hlocation.symm.trans hsite
  obtain rfl := hunambiguous m' hm' hname hdescriptor
  rw [reassignmentsIn_eq hstatic hconstructor hprivate] at hmem
  obtain ⟨s, hs, rfl⟩ := List.mem_map.1 hmem
  exact ⟨s, hs, by simpa [reassignmentFinding, ClassFacts.site] using hsite⟩

/-- Which stores are reported. A store into a field of the receiver, in a method that anyone may
call at any time, is reported if the receiver is loaded after the store before it, in the order of
the instructions, and only then. Otherwise some path carries the receiver past that store or past a
jump, on the stack or in another slot. -/
theorem reassignmentReported_or_carried (c : ClassFacts) (m : Method)
    (frames : Array (Option Frame)) (i : Nat) (field : FieldRef) (f : Frame) (hm : m ∈ c.methods)
    (hstatic : m.access.isStatic = false) (hconstructor : m.isConstructor = false)
    (hprivate : m.access.isPrivate = false) (hframes : m.frames c.name = .ok frames)
    (hcode : m.code[i]? = some (.putField field)) (howner : field.owner = c.name)
    (hf : frames[i]? = some (some f)) (hthis : f.peek 1 = some .this) :
    (m.LoadsThis i → Reports (reassignmentFindings c) .fieldCanBeReassigned (c.site m i)) ∧
    (c.Unambiguous m → Reports (reassignmentFindings c) .fieldCanBeReassigned (c.site m i) →
      m.LoadsThis i) ∧
    (Method.Definite frames →
      Reports (reassignmentFindings c) .fieldCanBeReassigned (c.site m i) ∨ m.CarriesThis i) := by
  have hreports : m.LoadsThis i →
      Reports (reassignmentFindings c) .fieldCanBeReassigned (c.site m i) := by
    intro hloads
    obtain ⟨s, hs, rfl⟩ := (exists_selfStore_iff hcode howner).2 hloads
    refine ⟨reassignmentFinding c.name m s, List.mem_flatMap.2 ⟨m, hm, ?_⟩, rfl, rfl⟩
    rw [reassignmentsIn_eq hstatic hconstructor hprivate]
    exact List.mem_map_of_mem hs
  refine ⟨hreports, fun hunambiguous h => ?_, fun hdefinite => ?_⟩
  · rw [← exists_selfStore_iff hcode howner]
    exact exists_selfStore_of_reports hunambiguous hstatic hconstructor hprivate h
  · by_cases hloads : m.LoadsThis i
    · exact .inl (hreports hloads)
    · obtain ⟨g, hg, hgthis⟩ := ((Method.peek_eq_this_iff hframes hdefinite hf 1).1 hthis).1
      have hwindow : m.Window i i := ⟨Nat.le_refl i, fun j hj hlt => by omega⟩
      have haliased : ¬g.Unaliased := fun h => h.stack (List.mem_of_getElem? hgthis)
      exact .inr (hg.carriesThis hcode hwindow hloads haliased)

/-- A method that stores one value into a field of its parameter and into a field of the receiver.
-/
def align : Method :=
  Method.withDerivedLocals
    { name := "align", descriptor := "(Lcom/acme/Pixel;I)V", access := .publicFlag, maxLocals := 0
      code := #[.load .reference 0, .load .reference 1, .load .int 2, .stack .dupX1,
        .putField ⟨.ofString "com.acme.Pixel", "x", "I"⟩,
        .putField ⟨.ofString "com.acme.Point", "x", "I"⟩, .ret none]
      handlers := [] }

/-- A final class with such a method. -/
def pointClass : ClassFacts :=
  (((ClassFacts.named (.ofString "com.acme.Point")).withFlags .finalFlag).withField
    ⟨"x", "I", .privateFlag⟩).withMethod align

/-- The frame before the second store of the method is known, and the store is one into the
receiver. -/
theorem frames_align : ∃ frames, align.frames pointClass.name = .ok frames ∧
    Method.Definite frames ∧ ∃ f, frames[5]? = some (some f) ∧ f.peek 1 = some .this := by
  have h : ∃ frames ∈ (align.frames pointClass.name).toOption, Method.Definite frames ∧
      ∃ o ∈ frames[5]?, ∃ f ∈ o, f.peek 1 = some .this := by decide +kernel
  obtain ⟨frames, hframes, hdefinite, o, ho, f, rfl, hthis⟩ := h
  exact ⟨frames, mem_toOption_iff.1 hframes, hdefinite, f, ho, hthis⟩

theorem reassignmentReported_or_carried_align :
    ∃ frames f, align.frames pointClass.name = .ok frames ∧ Method.Definite frames ∧
      frames[5]? = some (some f) ∧ f.peek 1 = some .this ∧ align.CarriesThis 5 := by
  obtain ⟨frames, hframes, hdefinite, f, hf, hthis⟩ := frames_align
  have hmem : align ∈ pointClass.methods := List.mem_singleton_self _
  have hcarried := (reassignmentReported_or_carried pointClass align frames 5 _ f hmem rfl rfl rfl
    hframes rfl rfl hf hthis).2.2 hdefinite
  exact ⟨frames, f, hframes, hdefinite, hf, hthis, hcarried.resolve_left (by decide +kernel)⟩

/-- A store into the receiver that is not reported: the store before it takes the load of the
receiver. -/
theorem not_reassignmentReported_align :
    align ∈ pointClass.methods ∧ align.access.isStatic = false ∧ align.isConstructor = false ∧
      align.access.isPrivate = false ∧
      align.code[5]? = some (.putField ⟨pointClass.name, "x", "I"⟩) ∧
      (∃ frames f, align.frames pointClass.name = .ok frames ∧ frames[5]? = some (some f) ∧
        f.peek 1 = some .this) ∧
      ¬Reports (reassignmentFindings pointClass) .fieldCanBeReassigned
        (pointClass.site align 5) := by
  obtain ⟨frames, hframes, -, f, hf, hthis⟩ := frames_align
  exact ⟨List.mem_singleton_self _, rfl, rfl, rfl, rfl, ⟨frames, f, hframes, hf, hthis⟩,
    by decide +kernel⟩

end Check

end Immutability

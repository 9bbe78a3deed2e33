import Immutability.Proofs.Escape
import Immutability.Proofs.StoredValues

/-!
# How checks can fail

Two checks look at the operand stack before an instruction, and are prepared for a stack that is too
short. This never happens: the instruction has been executed on the same frame, so that all entries
which it takes are there.

* `Check.StoreFault` lists the errors of the check of stored values;
* `Check.throws_storedValues` and `Check.not_gives_of_storeFault` say that it fails with one of them
  if there is one, and not otherwise;
* `Analyser.stackErrors_unreachable` says how the two checks can fail in a session.
-/

namespace Immutability

namespace Check

variable {ctx : CheckContext} {c : ClassFacts} {m : Method} {frames : Array (Option Frame)}
  {e : CheckError}

/-! ### Escape of the receiver -/

/-- The check of the receiver fails if the frames of an instance method are unknown. -/
theorem exists_escapeFindings_error_iff :
    (∃ e, escapeFindings c = .error e) ↔ ∃ m ∈ c.methods, m.access.isStatic = false ∧
      0 < m.code.size ∧ ∃ cause, m.frames c.name = .error cause := by
  have hok : (∃ e, escapeFindings c = .error e) ↔ ¬c.FramesKnown := by
    rw [← exists_escapeFindings_iff]
    cases escapeFindings c <;> simp
  rw [hok]
  constructor
  · intro hunknown
    simp only [ClassFacts.FramesKnown, not_forall] at hunknown
    obtain ⟨m, hm, hstatic, hframes⟩ := hunknown
    cases h : m.frames c.name with
    | ok frames => exact absurd ⟨frames, h⟩ hframes
    | error cause => exact ⟨m, hm, hstatic, m.size_pos_of_frames_error h, cause, h⟩
  · rintro ⟨m, hm, hstatic, -, cause, hcause⟩ hknown
    obtain ⟨frames, hframes⟩ := hknown m hm hstatic
    cases hcause.symm.trans hframes

/-! ### Stored values -/

/-- What can go wrong in the check of stored values: the frames of a method with stores into fields
of the class are unknown, or the field that a reference is stored into has a malformed descriptor.
-/
inductive StoreFault (c : ClassFacts) : CheckError → Prop
  | flow {m : Method} {cause : FlowError} (mem : m ∈ c.methods)
    (stores : ownStores c.name m ≠ []) (unknown : m.frames c.name = .error cause) :
    StoreFault c (.flow cause)
  | descriptor {m : Method} {frames : Array (Option Frame)} {i : Nat} {field : FieldRef}
    {frame : Frame} {type : Option FieldType} {origin : Origin} {cause : DescriptorError}
    (mem : m ∈ c.methods) (known : m.frames c.name = .ok frames)
    (store : (i, field) ∈ ownStores c.name m) (reached : frames[i]? = some (some frame))
    (value : frame.peek 0 = some (.reference type origin))
    (malformed : FieldType.parse field.descriptor = .error cause) :
    StoreFault c (.descriptor cause)

theorem throws_inspectStore {location : Location} {field : FieldRef} {value : Value} :
    (inspectStore ctx location field value).Throws e ↔ ∃ type origin cause,
      value = .reference type origin ∧ FieldType.parse field.descriptor = .error cause ∧
        e = .descriptor cause := by
  unfold inspectStore
  constructor
  · intro h
    cases value with
    | reference type origin =>
      rcases Examination.throws_bind.1 h with h | ⟨t, -, h⟩
      · obtain ⟨cause, hparse, rfl⟩ := Examination.throws_ofExcept.1 h
        exact ⟨type, origin, cause, rfl, hparse, rfl⟩
      · cases t with
        | object declared => exact absurd h Examination.not_throws_lift
        | primitive | array => exact absurd h Examination.not_throws_pure
    | top | primitive | null | this | uninitialized => exact absurd h Examination.not_throws_pure
  · rintro ⟨type, origin, cause, rfl, hparse, rfl⟩
    exact Examination.throws_bind.2 (.inl (Examination.throws_ofExcept.2 ⟨cause, hparse, rfl⟩))

/-- A store that can be executed finds the value to be stored. -/
theorem exists_peek_of_step {f a : Frame} {i : Nat} {field : FieldRef}
    (h : f.step i (.putField field) = .ok a) : ∃ value, f.peek 0 = some value := by
  simp only [Frame.step, Frame.dropMany, Frame.popMany] at h
  split_ifs at h with hlength
  · exact ⟨f.stack[0], List.getElem?_eq_getElem (by omega)⟩
  · cases h

/-- The only error about a single store is that of a malformed descriptor. -/
theorem throws_examineStore {i : Nat} {field : FieldRef} (hm : m ∈ c.methods)
    (hframes : m.frames c.name = .ok frames) (hstore : (i, field) ∈ ownStores c.name m)
    (h : (examineStore ctx c m frames (i, field)).Throws e) : StoreFault c e := by
  unfold examineStore at h
  split at h
  · next frame hframe =>
    obtain ⟨instruction, a, hcode, hstep, -⟩ := (Method.served_of_frames hframes hframe).step
    cases hcode.symm.trans (mem_ownStores.1 hstore).1
    obtain ⟨value, hvalue⟩ := exists_peek_of_step hstep
    simp only [hvalue] at h
    obtain ⟨type, origin, cause, rfl, hparse, rfl⟩ := throws_inspectStore.1 h
    exact .descriptor hm hframes hstore hframe hvalue hparse
  · exact absurd h Examination.not_throws_pure

theorem throws_examineStores (hm : m ∈ c.methods) (h : (examineStores ctx c m).Throws e) :
    StoreFault c e := by
  simp only [examineStores] at h
  split_ifs at h with hempty
  · exact absurd h Examination.not_throws_pure
  · rcases Examination.throws_bind.1 h with h | ⟨frames, hframes, h⟩
    · obtain ⟨cause, hcause, rfl⟩ := Examination.throws_ofExcept.1 h
      exact .flow hm (by simpa using hempty) hcause
    · rcases Examination.throws_bind.1 h with h | ⟨found, -, h⟩
      · obtain ⟨⟨i, field⟩, hstore, h⟩ := Examination.exists_of_throws_mapM h
        exact throws_examineStore hm (Examination.gives_ofExcept.1 hframes) hstore h
      · exact absurd h Examination.not_throws_pure

/-- The check of stored values has no other errors. -/
theorem throws_storedValues (h : (storedValues.examine ctx c).Throws e) : StoreFault c e := by
  rcases Examination.throws_bind.1 h with h | ⟨found, -, h⟩
  · obtain ⟨m, hm, h⟩ := Examination.exists_of_throws_mapM h
    exact throws_examineStores hm h
  · exact absurd h Examination.not_throws_pure

/-- Where something is wrong, the check of stored values has no result. -/
theorem not_gives_of_storeFault {found : List Finding} (hfault : StoreFault c e)
    (h : (storedValues.examine ctx c).Gives found) : False := by
  obtain ⟨parts, hparts, -⟩ := gives_storedValues h
  cases hfault with
  | @flow m cause mem stores unknown =>
    obtain ⟨part, -, hpart⟩ := exists_mem_of_forall₂ hparts mem
    rcases gives_examineStores hpart with ⟨hnil, -⟩ | ⟨frames, judged, hframes, -⟩
    · exact stores hnil
    · cases unknown.symm.trans hframes
  | @descriptor m frames i field frame type origin cause mem known store reached value malformed =>
    obtain ⟨part, -, hpart⟩ := exists_mem_of_forall₂ hparts mem
    rcases gives_examineStores hpart with ⟨hnil, -⟩ | ⟨frames', judged, hframes, hjudged, -⟩
    · rw [hnil] at store
      cases store
    · cases known.symm.trans hframes
      obtain ⟨o, -, ho⟩ := exists_mem_of_forall₂ hjudged store
      simp only [examineStore, reached, value] at ho
      obtain ⟨t, ht, -⟩ := Examination.gives_bind.1 ho
      cases malformed.symm.trans (Examination.gives_ofExcept.1 ht)

end Check

/-! ### In a session -/

namespace Analyser

variable {an : Analyser} {path : AnalysisPath} {s : Session} {c : ClassFacts}

theorem ask_escape : an.ask path s (an.examination path c Check.escape) =
    .ok (Check.escapeFindings c) := by
  simp only [examination, Check.escape]
  cases Check.escapeFindings c <;> rfl

/-- The two checks that look at the operand stack never find it too short. The check of the receiver
fails exactly if the frames of an instance method are unknown. The check of stored values fails
exactly if the frames of a method that stores into a field of the class are unknown or such a field
has a malformed descriptor, unless it is aborted together with a question that it asks. -/
theorem stackErrors_unreachable (an : Analyser) (path : AnalysisPath) (s : Session)
    (c : ClassFacts) :
    ((∃ result, an.ask path s (an.examination path c Check.escape) = .ok result) ∧
      ((∃ e, an.ask path s (an.examination path c Check.escape) = .ok (.error e)) ↔
        ∃ m ∈ c.methods, m.access.isStatic = false ∧ 0 < m.code.size ∧
          ∃ cause, m.frames c.name = .error cause)) ∧
    (∀ index, an.ask path s (an.examination path c Check.storedValues) ≠
      .ok (.error (.missingValue index))) ∧
    (∀ e, an.ask path s (an.examination path c Check.storedValues) = .ok (.error e) →
      Check.StoreFault c e) ∧
    (∀ found, an.ask path s (an.examination path c Check.storedValues) = .ok (.ok found) →
      ∀ e, ¬Check.StoreFault c e) ∧
    ∀ abort, an.ask path s (an.examination path c Check.storedValues) = .error abort →
      ∃ name t, (an.examination path c Check.storedValues).Asks an.factsOf (an.resolve path) s
        name t ∧ ((an.resolve path name).on t).1 = .error abort := by
  have hfault : ∀ e, an.ask path s (an.examination path c Check.storedValues) = .ok (.error e) →
      Check.StoreFault c e :=
    fun e h => Check.throws_storedValues (gives_of_ask h)
  refine ⟨⟨⟨_, ask_escape⟩, ?_⟩, fun index h => ?_, hfault, fun found h e he => ?_,
    fun abort h => ?_⟩
  · simp only [ask_escape, Except.ok.injEq]
    exact Check.exists_escapeFindings_error_iff
  · cases hfault _ h
  · exact Check.not_gives_of_storeFault he (gives_of_ask h)
  · obtain ⟨name, t, hasks, hname⟩ := Inquiry.exists_asks_of_run_error
      (fun name s => ⟨_, _, rfl⟩) (Prod.ext h rfl)
    exact ⟨name, t, hasks, congrArg Prod.fst hname⟩

end Analyser

end Immutability

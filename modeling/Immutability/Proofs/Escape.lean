import Immutability.Proofs.Checks
import Immutability.Proofs.Receiver

/-!
# Which escapes are reported

A check of the receiver looks at one frame for each instruction, which stands for all paths that
lead there. What it reports is therefore a matter of all these paths together.

* `Check.HandsOut` says which entries of the stack an instruction hands to someone else;
* `Check.escapeRoute?_of_step` says when an instruction that can be executed is a route of escape;
* `Check.escapeReported_iff` says which instructions of a method are reported, in terms of the paths
  that lead to them: a path on which the receiver leaves the object goes unnoticed if another one
  brings a different object to the same place.
-/

namespace Immutability

namespace Check

/-- The entry at depth `d` of the stack is an argument of a call with the given descriptor. -/
def IsArgument (descriptor : String) (d : Nat) : Prop :=
  ∃ signature, Signature.parse descriptor = .ok signature ∧ d < signature.parameters.length

/-- An instruction of a method of `cls` hands the entry at depth `d` of the stack to someone else. A
field is safe if it is one of `cls` and of type `cls` and if the object stored into is the receiver,
which `own` says. -/
def HandsOut (cls : ClassName) (own : Prop) : Instruction → Nat → Prop
  | .invoke _ method, d => IsArgument method.descriptor d
  | .invokeDynamic _ descriptor bootstrap, d =>
    (∀ owner ∈ bootstrap, owner.text ∉ containedBootstraps) ∧ IsArgument descriptor d
  | .putStatic _, d => d = 0
  | .arrayStore .reference, d => d = 0
  | .putField field, d =>
    d = 0 ∧ ¬(own ∧ field.owner = cls ∧ isOwnType cls field.descriptor = true)
  | _, _ => False

/-! ### One instruction -/

theorem contains_this_iff {f : Frame} {n : Nat} :
    ((f.stack.take n).reverse.contains .this) = true ↔ ∃ d < n, f.peek d = some .this := by
  rw [List.contains_iff_mem, List.mem_reverse, List.mem_iff_getElem?]
  constructor
  · rintro ⟨d, hd⟩
    rw [List.getElem?_take] at hd
    split_ifs at hd with hn
    exact ⟨d, hn, hd⟩
  · rintro ⟨d, hn, hd⟩
    refine ⟨d, ?_⟩
    rw [List.getElem?_take, if_pos hn]
    exact hd

/-- The arguments of a call are known if there are enough entries on the stack. -/
theorem passesThis_eq_ok {f : Frame} {descriptor : String} {signature : Signature}
    (hparse : Signature.parse descriptor = .ok signature)
    (hstack : signature.parameters.length ≤ f.stack.length) :
    ∃ passes, passesThis f descriptor = .ok passes ∧
      (passes = true ↔ ∃ d, IsArgument descriptor d ∧ f.peek d = some .this) := by
  refine ⟨(f.stack.take signature.parameters.length).reverse.contains .this, ?_, ?_⟩
  · refine bind_eq_ok.2 ⟨signature, mapError_eq_ok.2 hparse, ?_⟩
    simp only [Frame.top?, if_pos hstack]
    rfl
  · rw [contains_this_iff]
    constructor
    · rintro ⟨d, hd, hthis⟩
      exact ⟨d, ⟨signature, hparse, hd⟩, hthis⟩
    · rintro ⟨d, ⟨signature', hparse', hd⟩, hthis⟩
      cases hparse.symm.trans hparse'
      exact ⟨d, hd, hthis⟩

/-- A frame that a call leaves has held the arguments. -/
theorem exists_arguments_of_call {f a : Frame} {kind : CallKind} {method : MethodRef}
    (h : f.call kind method = .ok a) :
    ∃ signature, Signature.parse method.descriptor = .ok signature ∧
      signature.parameters.length ≤ f.stack.length := by
  obtain ⟨signature, hparse, h⟩ := bind_eq_ok.1 h
  obtain ⟨⟨args, g⟩, hpop, -⟩ := bind_eq_ok.1 h
  refine ⟨signature, mapError_eq_ok.1 hparse, ?_⟩
  unfold Frame.popMany at hpop
  split_ifs at hpop with hle
  exact hle

theorem exists_arguments_of_invokeDynamic {f a : Frame} {i : Nat} {name descriptor : String}
    {bootstrap : Option ClassName}
    (h : f.step i (.invokeDynamic name descriptor bootstrap) = .ok a) :
    ∃ signature, Signature.parse descriptor = .ok signature ∧
      signature.parameters.length ≤ f.stack.length := by
  obtain ⟨signature, hparse, h⟩ := bind_eq_ok.1 h
  obtain ⟨g, hdrop, -⟩ := bind_eq_ok.1 h
  refine ⟨signature, mapError_eq_ok.1 hparse, ?_⟩
  unfold Frame.dropMany Frame.popMany at hdrop
  split_ifs at hdrop with hle
  · exact hle
  · cases hdrop

theorem contained_eq_false_iff {bootstrap : Option ClassName} :
    (bootstrap.any fun owner => containedBootstraps.contains owner.text) = false ↔
      ∀ owner ∈ bootstrap, owner.text ∉ containedBootstraps := by
  cases bootstrap <;> simp

/-- Where an instruction can be executed, it is clear whether it lets the receiver escape: it does
if it hands out an entry that is the receiver. -/
theorem escapeRoute?_of_step (cls : ClassName) {f a : Frame} {i : Nat} {instruction : Instruction}
    (h : f.step i instruction = .ok a) :
    ∃ route, escapeRoute? cls f instruction = .ok route ∧
      (route.isSome = true ↔
        ∃ d, HandsOut cls (f.peek 1 = some .this) instruction d ∧ f.peek d = some .this) := by
  cases instruction with
  | invoke kind method =>
    obtain ⟨signature, hparse, hstack⟩ := exists_arguments_of_call h
    obtain ⟨passes, hpasses, hiff⟩ := passesThis_eq_ok hparse hstack
    cases passes with
    | false => exact ⟨none, bind_eq_ok.2 ⟨false, hpasses, rfl⟩, by simp [HandsOut, ← hiff]⟩
    | true =>
      refine ⟨some (if method.isConstructor then .constructorArgument method.owner
        else .argument method.owner method.name), bind_eq_ok.2 ⟨true, hpasses, ?_⟩,
        by simp [HandsOut, ← hiff]⟩
      cases method.isConstructor <;> rfl
  | invokeDynamic name descriptor bootstrap =>
    obtain ⟨signature, hparse, hstack⟩ := exists_arguments_of_invokeDynamic h
    obtain ⟨passes, hpasses, hiff⟩ := passesThis_eq_ok hparse hstack
    simp only [HandsOut, and_assoc, exists_and_left, ← hiff, ← contained_eq_false_iff]
    simp only [escapeRoute?]
    cases bootstrap.any fun owner => containedBootstraps.contains owner.text with
    | true => exact ⟨none, rfl, by simp⟩
    | false =>
      cases passes with
      | false => exact ⟨none, bind_eq_ok.2 ⟨false, hpasses, rfl⟩, by simp⟩
      | true => exact ⟨some (.captured name), bind_eq_ok.2 ⟨true, hpasses, rfl⟩, by simp⟩
  | putStatic field =>
    refine ⟨_, rfl, ?_⟩
    by_cases hthis : f.peek 0 = some .this <;> simp [HandsOut, isThisAt, hthis]
  | arrayStore kind =>
    cases kind with
    | reference =>
      refine ⟨_, rfl, ?_⟩
      by_cases hthis : f.peek 0 = some .this <;> simp [HandsOut, isThisAt, hthis]
    | _ => exact ⟨none, rfl, by simp [HandsOut]⟩
  | putField field =>
    refine ⟨_, rfl, ?_⟩
    by_cases hthis : f.peek 0 = some .this
    · by_cases hown : f.peek 1 = some .this
      · by_cases hcls : field.owner = cls <;> simp [HandsOut, isThisAt, hthis, hown, hcls]
      · simp [HandsOut, isThisAt, hthis, hown]
    · simp [HandsOut, isThisAt, hthis]
  | _ => exact ⟨none, rfl, by simp [HandsOut]⟩

/-! ### All instructions -/

section Findings

variable {cls : ClassName} {m : Method} {frames : Array (Option Frame)}

theorem escapeAt_eq_some {instruction : Instruction} {i : Nat} {finding : Finding} :
    escapeAt cls m frames (instruction, i) = .ok (some finding) ↔
      ∃ f route, frames[i]? = some (some f) ∧
        escapeRoute? cls f instruction = .ok (some route) ∧
        escapeFinding cls m i route = finding := by
  unfold escapeAt
  rcases frames[i]? with _ | _ | f
  · simp
  · simp
  · cases hroute : escapeRoute? cls f instruction with
    | error e => simp [hroute]
    | ok route => simp [hroute]

/-- No instruction of a method with known frames has unknown arguments. -/
theorem exists_escapeAt (h : m.frames cls = .ok frames) {p : Instruction × Nat}
    (hp : p ∈ m.code.toList.zipIdx) : ∃ found, escapeAt cls m frames p = .ok found := by
  obtain ⟨instruction, i⟩ := p
  have hcode : m.code[i]? = some instruction := by simpa using List.mem_zipIdx_iff_getElem?.1 hp
  unfold escapeAt
  rcases hf : frames[i]? with _ | _ | f
  · exact ⟨none, rfl⟩
  · exact ⟨none, rfl⟩
  · obtain ⟨instruction', a, hcode', hstep, -⟩ := (Method.served_of_frames h hf).step
    cases hcode.symm.trans hcode'
    obtain ⟨route, hroute, -⟩ := escapeRoute?_of_step cls hstep
    exact ⟨route.map (escapeFinding cls m i), by simp [hroute]⟩

theorem escapesIn_of_static (h : m.access.isStatic = true) : escapesIn cls m = .ok [] := by
  unfold escapesIn
  rw [h]
  rfl

/-- What the check says about a method with known frames. -/
theorem exists_escapesIn (hstatic : m.access.isStatic = false) (h : m.frames cls = .ok frames) :
    ∃ found, escapesIn cls m = .ok found ∧ ∀ finding, finding ∈ found ↔
      ∃ i f instruction route, frames[i]? = some (some f) ∧ m.code[i]? = some instruction ∧
        escapeRoute? cls f instruction = .ok (some route) ∧
        escapeFinding cls m i route = finding := by
  obtain ⟨found, hfound⟩ := exists_mapM_eq_ok fun _ => exists_escapeAt h
  refine ⟨found.filterMap id, ?_, fun finding => ?_⟩
  · unfold escapesIn
    rw [hstatic]
    exact bind_eq_ok.2 ⟨frames, mapError_eq_ok.2 h, bind_eq_ok.2 ⟨found, hfound, rfl⟩⟩
  · rw [List.mem_filterMap]
    constructor
    · rintro ⟨_, hmem, rfl⟩
      obtain ⟨⟨instruction, i⟩, hp, hat⟩ := exists_of_mem_mapM hfound hmem
      obtain ⟨f, route, hf, hroute, hfinding⟩ := escapeAt_eq_some.1 hat
      exact ⟨i, f, instruction, route, hf, by simpa using List.mem_zipIdx_iff_getElem?.1 hp,
        hroute, hfinding⟩
    · rintro ⟨i, f, instruction, route, hf, hcode, hroute, hfinding⟩
      have hp : (instruction, i) ∈ m.code.toList.zipIdx :=
        List.mem_zipIdx_iff_getElem?.2 (by simpa using hcode)
      obtain ⟨o, ho, hat⟩ := exists_mem_of_mapM hfound hp
      cases (escapeAt_eq_some.2 ⟨f, route, hf, hroute, hfinding⟩).symm.trans hat
      exact ⟨_, ho, rfl⟩

end Findings

end Check

/-- The frames of all instance methods are known. -/
def ClassFacts.FramesKnown (c : ClassFacts) : Prop :=
  ∀ m ∈ c.methods, m.access.isStatic = false → ∃ frames, m.frames c.name = .ok frames

namespace Check

variable {c : ClassFacts}

theorem exists_escapeFindings_iff : (∃ found, escapeFindings c = .ok found) ↔ c.FramesKnown := by
  constructor
  · rintro ⟨_, h⟩ m hm hstatic
    obtain ⟨found, hfound, -⟩ := bind_eq_ok.1 h
    obtain ⟨in_m, -, hin⟩ := exists_mem_of_mapM hfound hm
    unfold escapesIn at hin
    rw [hstatic] at hin
    obtain ⟨frames, hframes, -⟩ := bind_eq_ok.1 hin
    exact ⟨frames, mapError_eq_ok.1 hframes⟩
  · intro hknown
    have hall : ∀ m ∈ c.methods, ∃ found, escapesIn c.name m = .ok found := by
      intro m hm
      cases hstatic : m.access.isStatic with
      | true => exact ⟨[], escapesIn_of_static hstatic⟩
      | false =>
        obtain ⟨frames, hframes⟩ := hknown m hm hstatic
        obtain ⟨found, hfound, -⟩ := exists_escapesIn hstatic hframes
        exact ⟨found, hfound⟩
    obtain ⟨found, hfound⟩ := exists_mapM_eq_ok hall
    exact ⟨found.flatten, bind_eq_ok.2 ⟨found, hfound, rfl⟩⟩

/-- The check reports that the receiver escapes at instruction `i` of a method. -/
def EscapeReported (c : ClassFacts) (m : Method) (i : Nat) : Prop :=
  ∃ found, escapeFindings c = .ok found ∧ Reports found .escapedThisReference (c.site m i)

theorem escapeReported_iff_mem {m : Method} {i : Nat} :
    EscapeReported c m i ↔ ∃ found ∈ (escapeFindings c).toOption,
      Reports found .escapedThisReference (c.site m i) := by
  simp only [EscapeReported, mem_toOption_iff]

instance (m : Method) (i : Nat) : Decidable (EscapeReported c m i) :=
  decidable_of_iff _ escapeReported_iff_mem.symm

section Reports

variable {m : Method} {frames : Array (Option Frame)} {i : Nat} {instruction : Instruction}

theorem escapeReported_of_route {f : Frame} {route : EscapeRoute} (hknown : c.FramesKnown)
    (hm : m ∈ c.methods) (hstatic : m.access.isStatic = false)
    (hframes : m.frames c.name = .ok frames) (hf : frames[i]? = some (some f))
    (hcode : m.code[i]? = some instruction)
    (hroute : escapeRoute? c.name f instruction = .ok (some route)) : EscapeReported c m i := by
  obtain ⟨found, hfound⟩ := exists_escapeFindings_iff.2 hknown
  obtain ⟨parts, hparts, hflat⟩ := bind_eq_ok.1 hfound
  obtain ⟨part, hpart, hin⟩ := exists_mem_of_mapM hparts hm
  obtain ⟨part', hin', hmem⟩ := exists_escapesIn hstatic hframes
  cases hin.symm.trans hin'
  cases hflat
  refine ⟨_, hfound, escapeFinding c.name m i route, ?_, rfl, rfl⟩
  rw [List.mem_flatten]
  exact ⟨part, hpart, (hmem _).2 ⟨i, f, instruction, route, hf, hcode, hroute, rfl⟩⟩

theorem exists_route_of_escapeReported (h : EscapeReported c m i)
    (hstatic : m.access.isStatic = false) (hframes : m.frames c.name = .ok frames)
    (hunambiguous : c.Unambiguous m) :
    c.FramesKnown ∧ ∃ f instruction route, frames[i]? = some (some f) ∧
      m.code[i]? = some instruction ∧ escapeRoute? c.name f instruction = .ok (some route) := by
  obtain ⟨found, hfound, finding, hmem, -, hlocation⟩ := h
  have hknown : c.FramesKnown := exists_escapeFindings_iff.1 ⟨found, hfound⟩
  refine ⟨hknown, ?_⟩
  obtain ⟨parts, hparts, hflat⟩ := bind_eq_ok.1 hfound
  cases hflat
  obtain ⟨part, hpart, hmem⟩ := List.mem_flatten.1 hmem
  obtain ⟨m', hm', hin⟩ := exists_of_mem_mapM hparts hpart
  cases hstatic' : m'.access.isStatic with
  | true =>
    rw [escapesIn_of_static hstatic'] at hin
    cases hin
    cases hmem
  | false =>
    obtain ⟨frames', hframes'⟩ := hknown m' hm' hstatic'
    obtain ⟨part', hin', hpart'⟩ := exists_escapesIn hstatic' hframes'
    cases hin.symm.trans hin'
    obtain ⟨j, f, instruction, route, hf, hcode, hroute, rfl⟩ := (hpart' finding).1 hmem
    obtain ⟨rfl, rfl⟩ := hunambiguous.eq_of_site hm' hlocation
    cases hframes.symm.trans hframes'
    exact ⟨f, instruction, route, hf, hcode, hroute⟩

/-- Whether there is a route of escape in the frame of an instruction is a matter of the paths that
lead to it. -/
theorem exists_route_iff (hframes : m.frames c.name = .ok frames)
    (hdefinite : Method.Definite frames) (hcode : m.code[i]? = some instruction) :
    (∃ f route, frames[i]? = some (some f) ∧
      escapeRoute? c.name f instruction = .ok (some route)) ↔
      ∃ d, HandsOut c.name (m.ThisAt i 1) instruction d ∧ m.ThisAt i d := by
  have hframe : ∀ {f : Frame}, frames[i]? = some (some f) →
      ((∃ route, escapeRoute? c.name f instruction = .ok (some route)) ↔
        ∃ d, HandsOut c.name (m.ThisAt i 1) instruction d ∧ m.ThisAt i d) := by
    intro f hf
    obtain ⟨instruction', a, hcode', hstep, -⟩ := (Method.served_of_frames hframes hf).step
    cases hcode.symm.trans hcode'
    obtain ⟨route, hroute, hsome⟩ := escapeRoute?_of_step c.name hstep
    simp only [Method.peek_eq_this_iff hframes hdefinite hf] at hsome
    rw [← hsome, hroute, Option.isSome_iff_exists]
    simp
  constructor
  · rintro ⟨f, route, hf, hroute⟩
    exact (hframe hf).1 ⟨route, hroute⟩
  · rintro ⟨d, hout, hthis⟩
    obtain ⟨g, hg, -⟩ := hthis.1
    have hsize : 0 < m.code.size := Nat.zero_lt_of_lt (Array.getElem?_eq_some_iff.1 hcode).1
    obtain ⟨f, hf, -⟩ := Method.covers_of_path hframes hdefinite hsize hg
    obtain ⟨route, hroute⟩ := (hframe hf).2 ⟨d, hout, hthis⟩
    exact ⟨f, route, hf, hroute⟩

end Reports

/-- Which instructions are reported. An instruction of a method with known frames is reported if it
hands out an entry of the stack that is the receiver on some path and the receiver or null on every
other one, and if the frames of all other methods are known, too. Nothing else is reported. A field
counts as one of the receiver itself if the paths agree on the object in the same way. -/
theorem escapeReported_iff (c : ClassFacts) (m : Method) (frames : Array (Option Frame)) (i : Nat)
    (instruction : Instruction) (hm : m ∈ c.methods) (hstatic : m.access.isStatic = false)
    (hframes : m.frames c.name = .ok frames) (hdefinite : Method.Definite frames)
    (hcode : m.code[i]? = some instruction) :
    (c.FramesKnown ∧ (∃ d, HandsOut c.name (m.ThisAt i 1) instruction d ∧ m.ThisAt i d) →
      EscapeReported c m i) ∧
    (c.Unambiguous m → EscapeReported c m i →
      c.FramesKnown ∧ ∃ d, HandsOut c.name (m.ThisAt i 1) instruction d ∧ m.ThisAt i d) := by
  rw [← exists_route_iff hframes hdefinite hcode]
  constructor
  · rintro ⟨hknown, f, route, hf, hroute⟩
    exact escapeReported_of_route hknown hm hstatic hframes hf hcode hroute
  · intro hunambiguous h
    obtain ⟨hknown, f, instruction', route, hf, hcode', hroute⟩ :=
      exists_route_of_escapeReported h hstatic hframes hunambiguous
    cases hcode.symm.trans hcode'
    exact ⟨hknown, f, route, hf, hroute⟩

/-- The call of a static method that keeps its argument. -/
def register : Instruction :=
  .invoke .static ⟨.ofString "com.acme.Registry", "add", "(Ljava/lang/Object;)V"⟩

/-- A method that hands out the receiver or what another instruction loads. -/
def publish (other : Instruction) : Method :=
  Method.withDerivedLocals
    { name := "publish", descriptor := "(Ljava/lang/Object;Z)V", access := .publicFlag
      maxLocals := 0
      code := #[.load .int 2, .branch 1 4, .load .reference 0, .goto 5, other, register, .ret none]
      handlers := [] }

/-- A final class with such a method. -/
def nodeClass (other : Instruction) : ClassFacts :=
  ((ClassFacts.named (.ofString "com.acme.Node")).withFlags .finalFlag).withMethod (publish other)

theorem escapeReported_iff_orNull :
    EscapeReported (nodeClass (.constant .null)) (publish (.constant .null)) 5 ∧
      ∃ d, HandsOut (nodeClass (.constant .null)).name ((publish (.constant .null)).ThisAt 5 1)
        register d ∧ (publish (.constant .null)).ThisAt 5 d := by
  have hframes : ∃ frames ∈ ((publish (.constant .null)).frames
      (nodeClass (.constant .null)).name).toOption, Method.Definite frames := by decide +kernel
  obtain ⟨frames, hframes, hdefinite⟩ := hframes
  have hreported : EscapeReported (nodeClass (.constant .null)) (publish (.constant .null)) 5 := by
    decide +kernel
  have hmem : publish (.constant .null) ∈ (nodeClass (.constant .null)).methods :=
    List.mem_singleton_self _
  have hiff := escapeReported_iff _ _ frames 5 register hmem rfl (mem_toOption_iff.1 hframes)
    hdefinite rfl
  exact ⟨hreported, (hiff.2 (fun m' hm' _ _ => List.mem_singleton.1 hm') hreported).2⟩

/-- The receiver leaves the object on one path, and nothing is reported, since the other path brings
a parameter to the same place. -/
theorem not_escapeReported_orParameter :
    (∃ frames, (publish (.load .reference 1)).frames (nodeClass (.load .reference 1)).name =
      .ok frames) ∧
    (∃ f, (publish (.load .reference 1)).Path 5 f ∧
      HandsOut (nodeClass (.load .reference 1)).name (f.peek 1 = some .this) register 0 ∧
      f.peek 0 = some .this) ∧
    ¬EscapeReported (nodeClass (.load .reference 1)) (publish (.load .reference 1)) 5 := by
  refine ⟨?_, ?_, by decide +kernel⟩
  · have h : ∃ frames ∈ ((publish (.load .reference 1)).frames
        (nodeClass (.load .reference 1)).name).toOption, True := by decide +kernel
    obtain ⟨frames, hframes, -⟩ := h
    exact ⟨frames, mem_toOption_iff.1 hframes⟩
  · have hentry : Frame.entry (publish (.load .reference 1)) = .ok
        ⟨#[.this, .instanceOf .object (.parameter 1), .primitive .int], []⟩ :=
      mem_toOption_iff.1 (by decide +kernel)
    have h0 := Method.Path.start hentry
    have h1 := h0.pass (.next rfl rfl rfl)
    have h2 := h1.pass (.next rfl rfl rfl)
    have h3 := h2.pass (.next rfl rfl rfl)
    have h5 := h3.pass (.jump rfl rfl (List.mem_singleton_self 5))
    have hparse : ∃ signature ∈ (Signature.parse "(Ljava/lang/Object;)V").toOption,
        0 < signature.parameters.length := by decide +kernel
    obtain ⟨signature, hsignature, hpos⟩ := hparse
    exact ⟨_, h5, ⟨signature, mem_toOption_iff.1 hsignature, hpos⟩, rfl⟩

end Check

end Immutability

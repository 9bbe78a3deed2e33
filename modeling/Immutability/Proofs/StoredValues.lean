import Immutability.Proofs.Grounded

/-!
# Which stored values are reported

What a check finds out about a stored value depends on its type and its origin, and on what the
session says about other classes.

* `Configuration.Follows` and `Configuration.HalfFollows` say how far a value follows the idiom of
  the field type, and `Check.inspectReference_cases` how it is judged then;
* `Check.exists_store_of_storedValues` and `Check.storedValues_of_store` say that the findings about
  stored values are those about the single stores;
* `Analyser.storedArray_reported_iff` says which stores of arrays are reported: neither the check of
  declarations nor that of stored values looks for an array behind a field of another type;
* `Analyser.Doubts` says that a class gives a session reason to doubt a field;
* `Analyser.merged_reported_iff` says when a finding about a value is still made after the value has
  been merged with another one.
-/

namespace Immutability

/-- A value of the given origin follows the idiom of the field type. -/
def Configuration.Follows (config : Configuration) (declared : ClassName) (origin : Origin) :
    Prop :=
  ∃ idiom, config.idiom? declared = some idiom ∧ idiom.classify origin = .copiedAndWrapped

/-- A value of the given origin follows the idiom of the field type halfway. -/
def Configuration.HalfFollows (config : Configuration) (declared : ClassName) (origin : Origin) :
    Prop :=
  ∃ idiom, config.idiom? declared = some idiom ∧
    (idiom.classify origin = .wrappedWithoutCopy ∨ idiom.classify origin = .copiedWithoutWrap)

theorem Configuration.Follows.not_halfFollows {config : Configuration} {declared : ClassName}
    {origin : Origin} (h : config.Follows declared origin) :
    ¬config.HalfFollows declared origin := by
  rintro ⟨idiom', hidiom', hhalf⟩
  obtain ⟨idiom, hidiom, hcopied⟩ := h
  cases hidiom.symm.trans hidiom'
  simp [hcopied] at hhalf

namespace Check

variable {ctx : CheckContext} {c : ClassFacts} {m : Method}

/-! ### One store -/

section Store

variable {location : Location} {field : FieldRef} {declared type : ClassName} {finding : Finding}
  {possible : ClassName → Dependency → Prop}

/-- Judge a reference by its class alone. -/
def inspectByClass (ctx : CheckContext) (location : Location) (field : FieldRef)
    (declared : ClassName) (type : Option FieldType) : Inquiry (Option Finding) :=
  match storedClass? type declared with
  | none => pure none
  | some cls => inspectClass ctx location field declared cls

/-- A reference is judged by its class unless it follows the idiom of the field type, or tries to.
-/
theorem inspectReference_cases (ctx : CheckContext) (location : Location) (field : FieldRef)
    (declared : ClassName) (type : Option FieldType) (origin : Origin) :
    ctx.config.Follows declared origin ∧
        inspectReference ctx location field declared type origin = pure none ∨
      ctx.config.HalfFollows declared origin ∧
        (∃ idiom, inspectReference ctx location field declared type origin =
          pure (some (collectionFinding location field declared idiom))) ∨
      (¬ctx.config.Follows declared origin ∧ ¬ctx.config.HalfFollows declared origin) ∧
        inspectReference ctx location field declared type origin =
          inspectByClass ctx location field declared type := by
  unfold inspectReference
  cases hidiom : ctx.config.idiom? declared with
  | none =>
    refine .inr (.inr ⟨⟨?_, ?_⟩, rfl⟩)
    · rintro ⟨idiom, h, -⟩
      cases hidiom.symm.trans h
    · rintro ⟨idiom, h, -⟩
      cases hidiom.symm.trans h
  | some idiom =>
    cases hmatch : idiom.classify origin with
    | copiedAndWrapped =>
      exact .inl ⟨⟨idiom, hidiom, hmatch⟩, by simp only [hmatch]⟩
    | wrappedWithoutCopy =>
      exact .inr (.inl ⟨⟨idiom, hidiom, .inl hmatch⟩, idiom, by simp only [hmatch]⟩)
    | copiedWithoutWrap =>
      exact .inr (.inl ⟨⟨idiom, hidiom, .inr hmatch⟩, idiom, by simp only [hmatch]⟩)
    | notAttempted =>
      refine .inr (.inr ⟨⟨?_, ?_⟩, by simp only [hmatch]; rfl⟩)
      · rintro ⟨idiom', h, hcopied⟩
        cases hidiom.symm.trans h
        simp [hmatch] at hcopied
      · rintro ⟨idiom', h, hhalf⟩
        cases hidiom.symm.trans h
        simp [hmatch] at hhalf

theorem location_of_dependencyFinding? {d : Dependency}
    (h : dependencyFinding? ctx location field type d = some finding) :
    finding.location = location := by
  obtain ⟨reason, -, rfl⟩ := Option.map_eq_some_iff.1 h
  rfl

/-- A finding about a value that is judged by its class comes from the idiom of the class, from its
being abstract, or from what is known about it. -/
theorem gives_inspectClass
    (h : (inspectClass ctx location field declared type).GivesWith possible (some finding)) :
    (∃ idiom, finding = collectionFinding location field declared idiom) ∨
      finding = abstractFinding location field type ∨
      ∃ d, ((∃ given, ctx.config.hardcoded? type = some given ∧ d = .resolved given) ∨
          possible type d) ∧ dependencyFinding? ctx location field type d = some finding := by
  unfold inspectClass at h
  cases hgiven : ctx.config.hardcoded? type with
  | some given =>
    simp only [hgiven] at h
    exact .inr (.inr ⟨_, .inl ⟨given, rfl, rfl⟩, h⟩)
  | none =>
    cases hidiom : ctx.config.idiom? type with
    | some idiom =>
      simp only [hgiven, hidiom] at h
      cases h
      exact .inl ⟨idiom, rfl⟩
    | none =>
      simp only [hgiven, hidiom] at h
      obtain ⟨facts, -, h⟩ := Inquiry.gives_bind.1 h
      split_ifs at h
      · cases h
        exact .inr (.inl rfl)
      · obtain ⟨d, hd, h⟩ := Inquiry.gives_bind.1 h
        obtain ⟨reply, hreply, rfl⟩ := hd
        exact .inr (.inr ⟨reply, .inr hreply, h⟩)

/-- A finding about a reference comes from the idiom of the field type or from a class. -/
theorem gives_inspectReference {type : Option FieldType} {origin : Origin}
    (h : (inspectReference ctx location field declared type origin).GivesWith possible
      (some finding)) :
    (∃ idiom, finding = collectionFinding location field declared idiom) ∨
      ∃ cls, (inspectClass ctx location field declared cls).GivesWith possible (some finding) := by
  rcases inspectReference_cases ctx location field declared type origin with
    ⟨-, heq⟩ | ⟨-, idiom, heq⟩ | ⟨-, heq⟩
  · rw [heq] at h
    cases h
  · rw [heq] at h
    cases h
    exact .inl ⟨idiom, rfl⟩
  · rw [heq] at h
    unfold inspectByClass at h
    split at h
    · cases h
    · exact .inr ⟨_, h⟩

theorem location_of_inspectReference {type : Option FieldType} {origin : Origin}
    (h : (inspectReference ctx location field declared type origin).Gives (some finding)) :
    finding.location = location := by
  rcases gives_inspectReference h with ⟨idiom, rfl⟩ | ⟨cls, h⟩
  · rfl
  · rcases gives_inspectClass h with ⟨idiom, rfl⟩ | rfl | ⟨d, -, h⟩
    · rfl
    · rfl
    · exact location_of_dependencyFinding? h

/-- Only a reference that is stored into a field of an object type is judged. -/
theorem gives_inspectStore {value : Value} {found : Option Finding}
    (h : (inspectStore ctx location field value).GivesWith possible found) :
    found = none ∨ ∃ type origin declared, value = .reference type origin ∧
      FieldType.parse field.descriptor = .ok (.object declared) ∧
        (inspectReference ctx location field declared type origin).GivesWith possible found := by
  unfold inspectStore at h
  cases value with
  | reference type origin =>
    obtain ⟨t, ht, h⟩ := Examination.gives_bind.1 h
    cases t with
    | object declared =>
      exact .inr ⟨type, origin, declared, rfl, Examination.gives_ofExcept.1 ht,
        Examination.gives_lift.1 h⟩
    | primitive | array => exact .inl (Examination.gives_pure.1 h).symm
  | top | primitive | null | this | uninitialized => exact .inl (Examination.gives_pure.1 h).symm

theorem gives_inspectStore_reference {type : Option FieldType} {origin : Origin}
    {found : Option Finding} (hparse : FieldType.parse field.descriptor = .ok (.object declared)) :
    (inspectStore ctx location field (.reference type origin)).Gives found ↔
      (inspectReference ctx location field declared type origin).Gives found := by
  simp only [inspectStore, hparse, Examination.ofExcept, pure_bind]
  exact Examination.gives_lift

/-- There is a finding about an array exactly if it follows an idiom halfway. -/
theorem inspectStore_array {descriptor : String} {origin : Origin} {found : Option Finding}
    (h : (inspectStore ctx location field (.reference (some (.array descriptor)) origin)).Gives
      found) :
    found.isSome = true ↔ ∃ declared, FieldType.parse field.descriptor = .ok (.object declared) ∧
      ctx.config.HalfFollows declared origin := by
  constructor
  · intro hsome
    rcases gives_inspectStore h with rfl | ⟨type, origin', declared, hvalue, hparse, hgives⟩
    · cases hsome
    · cases hvalue
      refine ⟨declared, hparse, ?_⟩
      rcases inspectReference_cases ctx location field declared _ origin with
        ⟨-, heq⟩ | ⟨hhalf, -⟩ | ⟨-, heq⟩
      · rw [heq] at hgives
        cases hgives
        cases hsome
      · exact hhalf
      -- the class of an array does not matter
      · rw [heq] at hgives
        cases hgives
        cases hsome
  · rintro ⟨declared, hparse, hhalf⟩
    rw [gives_inspectStore_reference hparse] at h
    rcases inspectReference_cases ctx location field declared _ origin with
      ⟨hfollows, -⟩ | ⟨-, idiom, heq⟩ | ⟨hneither, -⟩
    · exact absurd hhalf hfollows.not_halfFollows
    · rw [heq] at h
      cases h
      rfl
    · exact absurd hhalf hneither.2

/-- A finding about a store is one about a reference that is stored there. -/
theorem gives_examineStore {frames : Array (Option Frame)} {i : Nat}
    (h : (examineStore ctx c m frames (i, field)).GivesWith possible (some finding)) :
    ∃ declared type origin, (inspectReference ctx (c.site m i) field declared type origin).GivesWith
      possible (some finding) := by
  unfold examineStore at h
  split at h
  · split at h
    · cases h
    · rcases gives_inspectStore h with h | ⟨type, origin, declared, -, -, h⟩
      · cases h
      · exact ⟨declared, type, origin, h⟩
  · cases h

/-- A finding about a store is made at the store. -/
theorem location_of_examineStore {frames : Array (Option Frame)} {i : Nat}
    (h : (examineStore ctx c m frames (i, field)).Gives (some finding)) :
    finding.location = c.site m i := by
  obtain ⟨declared, type, origin, h⟩ := gives_examineStore h
  exact location_of_inspectReference h

end Store

/-! ### All stores -/

section

variable {possible : ClassName → Dependency → Prop}

theorem gives_examineStores {fs : List Finding}
    (h : (examineStores ctx c m).GivesWith possible fs) :
    (ownStores c.name m = [] ∧ fs = []) ∨ ∃ frames found, m.frames c.name = .ok frames ∧
      List.Forall₂ (fun store o => (examineStore ctx c m frames store).GivesWith possible o)
        (ownStores c.name m) found ∧ found.filterMap id = fs := by
  simp only [examineStores] at h
  split_ifs at h with hempty
  · exact .inl ⟨List.isEmpty_iff.1 hempty, (Examination.gives_pure.1 h).symm⟩
  · obtain ⟨frames, hframes, h⟩ := Examination.gives_bind.1 h
    obtain ⟨found, hfound, h⟩ := Examination.gives_bind.1 h
    exact .inr ⟨frames, found, Examination.gives_ofExcept.1 hframes,
      Examination.gives_mapM.1 hfound, Examination.gives_pure.1 h⟩

theorem gives_storedValues {fs : List Finding}
    (h : (storedValues.examine ctx c).GivesWith possible fs) :
    ∃ found, List.Forall₂ (fun m fsm => (examineStores ctx c m).GivesWith possible fsm) c.methods
      found ∧ found.flatten = fs := by
  obtain ⟨found, hfound, h⟩ := Examination.gives_bind.1 h
  exact ⟨found, Examination.gives_mapM.1 hfound, Examination.gives_pure.1 h⟩

/-- A finding comes from one of the stores. -/
theorem exists_store_of_storedValues {fs : List Finding} {finding : Finding}
    (h : (storedValues.examine ctx c).GivesWith possible fs) (hmem : finding ∈ fs) :
    ∃ m ∈ c.methods, ∃ frames i field, m.frames c.name = .ok frames ∧
      m.code[i]? = some (.putField field) ∧ field.owner = c.name ∧
        (examineStore ctx c m frames (i, field)).GivesWith possible (some finding) := by
  obtain ⟨found, hfound, rfl⟩ := gives_storedValues h
  obtain ⟨fsm, hfsm, hmem⟩ := List.mem_flatten.1 hmem
  obtain ⟨m, hm, hgives⟩ := exists_mem_of_forall₂ hfound.flip hfsm
  rcases gives_examineStores hgives with ⟨-, rfl⟩ | ⟨frames, judged, hframes, hjudged, rfl⟩
  · cases hmem
  · obtain ⟨o, ho, rfl⟩ := List.mem_filterMap.1 hmem
    obtain ⟨⟨i, field⟩, hstore, hgives⟩ := exists_mem_of_forall₂ hjudged.flip ho
    obtain ⟨hcode, howner⟩ := mem_ownStores.1 hstore
    exact ⟨m, hm, frames, i, field, hframes, hcode, howner, hgives⟩

end

/-- What is found out about a store is among the findings. -/
theorem storedValues_of_store {fs : List Finding} {frames : Array (Option Frame)} {i : Nat}
    {field : FieldRef} (h : (storedValues.examine ctx c).Gives fs) (hm : m ∈ c.methods)
    (hframes : m.frames c.name = .ok frames) (hcode : m.code[i]? = some (.putField field))
    (howner : field.owner = c.name) :
    ∃ found, (examineStore ctx c m frames (i, field)).Gives found ∧
      ∀ finding, found = some finding → finding ∈ fs := by
  obtain ⟨found, hfound, rfl⟩ := gives_storedValues h
  obtain ⟨fsm, hfsm, hgives⟩ := exists_mem_of_forall₂ hfound hm
  have hstore : (i, field) ∈ ownStores c.name m := mem_ownStores.2 ⟨hcode, howner⟩
  rcases gives_examineStores hgives with ⟨hnil, -⟩ | ⟨frames', judged, hframes', hjudged, rfl⟩
  · rw [hnil] at hstore
    cases hstore
  · cases hframes.symm.trans hframes'
    obtain ⟨o, ho, hgives⟩ := exists_mem_of_forall₂ hjudged hstore
    refine ⟨o, hgives, ?_⟩
    rintro finding rfl
    exact List.mem_flatten.2 ⟨_, hfsm, List.mem_filterMap.2 ⟨_, ho, rfl⟩⟩

end Check

/-! ### Arrays -/

namespace Analyser

/-- The answer to an inquiry in a session. -/
def ask {α : Type} (an : Analyser) (path : AnalysisPath) (s : Session) (q : Inquiry α) :
    Except Abort α :=
  (Analysis.on (q.run an.factsOf (an.resolve path)) s).1

theorem gives_of_ask {α : Type} {an : Analyser} {path : AnalysisPath} {s : Session} {q : Inquiry α}
    {a : α} (h : an.ask path s q = .ok a) : q.Gives a :=
  Inquiry.gives_of_run (Prod.ext h rfl)

/-- The array that instruction `i` stores into a field is reported, as one in a field of an array
type or as a value that makes the class mutable. -/
def ArrayReported (an : Analyser) (path : AnalysisPath) (s : Session) (c : ClassFacts) (m : Method)
    (i : Nat) (field : Field) : Prop :=
  Reports (Check.arrayFindings c) .arrayTypeToField (.field c.name field.name) ∨
    ∃ fs, an.ask path s (an.examination path c Check.storedValues) = .ok (.ok fs) ∧
      ∃ finding ∈ fs, finding.location = c.site m i

/-- The field is of an array type; or an array of the given origin follows the idiom of the field
type halfway, and the check of stored values is completed. -/
def ArrayNoticed (an : Analyser) (path : AnalysisPath) (s : Session) (c : ClassFacts)
    (field : Field) (origin : Origin) : Prop :=
  field.isArray = true ∨
    (∃ declared, FieldType.parse field.descriptor = .ok (.object declared) ∧
      an.config.HalfFollows declared origin) ∧
    ∃ fs, an.ask path s (an.examination path c Check.storedValues) = .ok (.ok fs)

/-- Which stores of arrays are reported. An array that is stored into a field of the class goes
unnoticed unless the field is of an array type or the array has gone through half of an idiom. -/
theorem storedArray_reported_iff (an : Analyser) (path : AnalysisPath) (s : Session)
    (c : ClassFacts) (m : Method) (frames : Array (Option Frame)) (i : Nat) (field : Field)
    (frame : Frame) (descriptor : String) (origin : Origin) (hm : m ∈ c.methods)
    (hframes : m.frames c.name = .ok frames) (hfield : field ∈ c.instanceFields)
    (hcode : m.code[i]? = some (.putField ⟨c.name, field.name, field.descriptor⟩))
    (hframe : frames[i]? = some (some frame))
    (hvalue : frame.peek 0 = some (.reference (some (.array descriptor)) origin)) :
    (an.ArrayNoticed path s c field origin → an.ArrayReported path s c m i field) ∧
    (c.Unambiguous m → (∀ f ∈ c.instanceFields, f.name = field.name → f = field) →
      an.ArrayReported path s c m i field → an.ArrayNoticed path s c field origin) := by
  have hexamine : Check.examineStore ⟨an.config, path⟩ c m frames
      (i, ⟨c.name, field.name, field.descriptor⟩) =
      Check.inspectStore ⟨an.config, path⟩ (c.site m i) ⟨c.name, field.name, field.descriptor⟩
        (.reference (some (.array descriptor)) origin) := by
    simp only [Check.examineStore, hframe, hvalue]
    rfl
  constructor
  · rintro (harray | ⟨hhalf, fs, hfs⟩)
    · refine .inl ⟨Check.arrayFinding c.name field, List.mem_map_of_mem ?_, rfl, rfl⟩
      exact List.mem_filter.2 ⟨hfield, harray⟩
    · obtain ⟨found, hfound, hmem⟩ :=
        Check.storedValues_of_store (gives_of_ask hfs) hm hframes hcode rfl
      have hjudged := hfound
      rw [hexamine] at hjudged
      have hsome := (Check.inspectStore_array hjudged).2 hhalf
      obtain ⟨finding, rfl⟩ := Option.isSome_iff_exists.1 hsome
      have hlocation := Check.location_of_examineStore hfound
      exact .inr ⟨fs, hfs, finding, hmem finding rfl, hlocation⟩
  · intro hunambiguous hname h
    rcases h with ⟨finding, hmem, -, hlocation⟩ | ⟨fs, hfs, finding, hmem, hlocation⟩
    · obtain ⟨f, hf, rfl⟩ := List.mem_map.1 hmem
      obtain ⟨hf, harray⟩ := List.mem_filter.1 hf
      obtain rfl := hname f hf (by simpa [Check.arrayFinding] using hlocation)
      exact .inl harray
    · obtain ⟨m', hm', frames', j, field', hframes', hcode', -, hgives⟩ :=
        Check.exists_store_of_storedValues (gives_of_ask hfs) hmem
      have hsite := (Check.location_of_examineStore hgives).symm.trans hlocation
      obtain ⟨rfl, rfl⟩ := hunambiguous.eq_of_site hm' hsite
      cases hframes.symm.trans hframes'
      cases hcode.symm.trans hcode'
      rw [hexamine] at hgives
      exact .inr ⟨(Check.inspectStore_array hgives).1 rfl, fs, hfs⟩

/-- A constructor that allocates an array and keeps it in a field with the given descriptor. -/
def allocateData (descriptor : String) : Method :=
  Method.withDerivedLocals
    { name := constructorName, descriptor := "(I)V", access := .publicFlag, maxLocals := 0
      code := #[.load .reference 0, .invoke .special ⟨.object, constructorName, "()V"⟩,
        .load .reference 0, .load .int 1, .newArray "[I" 1,
        .putField ⟨.ofString "com.acme.Buffer", "data", descriptor⟩, .ret none]
      handlers := [] }

/-- The field of a buffer, with the given descriptor. -/
def dataField (descriptor : String) : Field :=
  ⟨"data", descriptor, .union .privateFlag .finalFlag⟩

/-- A final class that keeps an array in a field with the given descriptor. -/
def bufferClass (descriptor : String) : ClassFacts :=
  (((ClassFacts.named (.ofString "com.acme.Buffer")).withFlags .finalFlag).withField
    (dataField descriptor)).withMethod (allocateData descriptor)

/-- Such a class under the default configuration. -/
def buffer (descriptor : String) : Analyser := ⟨.ofList [bufferClass descriptor], .default⟩

/-- The last but one instruction of the constructor stores a new array. -/
theorem frames_allocateData (descriptor : String)
    (h : descriptor ∈ ["[I", "Ljava/lang/Object;"]) :
    ∃ frames frame, (allocateData descriptor).frames (bufferClass descriptor).name = .ok frames ∧
      frames[5]? = some (some frame) ∧
      frame.peek 0 = some (.reference (some (.array "[I")) .newArray) := by
  have hall : ∀ descriptor ∈ ["[I", "Ljava/lang/Object;"],
      ∃ frames ∈ ((allocateData descriptor).frames (bufferClass descriptor).name).toOption,
        ∃ o ∈ frames[5]?, ∃ frame ∈ o,
          frame.peek 0 = some (.reference (some (.array "[I")) .newArray) := by decide +kernel
  obtain ⟨frames, hframes, o, ho, frame, rfl, hvalue⟩ := hall descriptor h
  exact ⟨frames, frame, mem_toOption_iff.1 hframes, ho, hvalue⟩

theorem storedArray_reported_iff_arrayField :
    ∃ frames frame, (allocateData "[I").frames (bufferClass "[I").name = .ok frames ∧
      frames[5]? = some (some frame) ∧
      frame.peek 0 = some (.reference (some (.array "[I")) .newArray) ∧
      (buffer "[I").ArrayReported [] .empty (bufferClass "[I") (allocateData "[I") 5
        (dataField "[I") := by
  obtain ⟨frames, frame, hframes, hframe, hvalue⟩ := frames_allocateData "[I" (by decide)
  have hm : allocateData "[I" ∈ (bufferClass "[I").methods := List.mem_singleton_self _
  have hfield : dataField "[I" ∈ (bufferClass "[I").instanceFields := by decide +kernel
  refine ⟨frames, frame, hframes, hframe, hvalue, ?_⟩
  exact (storedArray_reported_iff _ [] .empty _ _ frames 5 _ frame _ _ hm hframes hfield rfl hframe
    hvalue).1 (.inl rfl)

/-- An array in a field of type `Object` is not reported. -/
theorem not_arrayReported_objectField :
    allocateData "Ljava/lang/Object;" ∈ (bufferClass "Ljava/lang/Object;").methods ∧
    dataField "Ljava/lang/Object;" ∈ (bufferClass "Ljava/lang/Object;").instanceFields ∧
    (allocateData "Ljava/lang/Object;").code[5]? =
      some (.putField ⟨(bufferClass "Ljava/lang/Object;").name, "data", "Ljava/lang/Object;"⟩) ∧
    (∃ frames frame, (allocateData "Ljava/lang/Object;").frames
        (bufferClass "Ljava/lang/Object;").name = .ok frames ∧
      frames[5]? = some (some frame) ∧
      frame.peek 0 = some (.reference (some (.array "[I")) .newArray)) ∧
    ¬(buffer "Ljava/lang/Object;").ArrayReported [] .empty (bufferClass "Ljava/lang/Object;")
      (allocateData "Ljava/lang/Object;") 5 (dataField "Ljava/lang/Object;") := by
  refine ⟨List.mem_singleton_self _, by decide +kernel, rfl,
    frames_allocateData "Ljava/lang/Object;" (by decide), ?_⟩
  rintro (h | ⟨fs, hfs, finding, hmem, -⟩)
  · exact absurd h (by decide +kernel)
  · have hnone : ((buffer "Ljava/lang/Object;").ask [] .empty
        ((buffer "Ljava/lang/Object;").examination [] (bufferClass "Ljava/lang/Object;")
          Check.storedValues)).toOption.bind Except.toOption = some [] := by decide +kernel
    rw [hfs] at hnone
    cases hnone
    cases hmem

/-! ### Merged values -/

/-- A value that is stored into a field at `location` is reported in a session. -/
def ValueReported (an : Analyser) (path : AnalysisPath) (s : Session) (location : Location)
    (field : FieldRef) (value : Value) : Prop :=
  ∃ finding, an.ask path s (Check.inspectStore ⟨an.config, path⟩ location field value).run =
    .ok (.ok (some finding))

theorem valueReported_iff_mem {an : Analyser} {path : AnalysisPath} {s : Session}
    {location : Location} {field : FieldRef} {value : Value} :
    an.ValueReported path s location field value ↔
      ∃ r ∈ (an.ask path s
        (Check.inspectStore ⟨an.config, path⟩ location field value).run).toOption,
        ∃ found ∈ r.toOption, found.isSome = true := by
  simp only [ValueReported, mem_toOption_iff, Option.isSome_iff_exists]
  constructor
  · rintro ⟨finding, h⟩
    exact ⟨_, h, _, rfl, finding, rfl⟩
  · rintro ⟨_, h, _, rfl, finding, rfl⟩
    exact ⟨finding, h⟩

instance (an : Analyser) (path : AnalysisPath) (s : Session) (location : Location)
    (field : FieldRef) (value : Value) : Decidable (an.ValueReported path s location field value) :=
  decidable_of_iff _ valueReported_iff_mem.symm

/-- In a session, a class is a reason to doubt a field that holds an instance of it: the verdict
given for it is one, or it has no given verdict and is a collection with an idiom, an interface, an
abstract class, or a class whose assessment is a reason. -/
def Doubts (an : Analyser) (path : AnalysisPath) (s : Session) (cls : ClassName) : Prop :=
  (∃ a, an.config.hardcoded? cls = some a ∧
    ((Dependency.resolved a).reasonFor .mutableTypeToField).isSome = true) ∨
  an.config.hardcoded? cls = none ∧
    ((an.config.idiom? cls).isSome = true ∨
      (∃ c, an.facts? cls = some c ∧ (c.access.isInterface || c.access.isAbstract) = true) ∨
      ∃ d, (Analysis.on (an.resolve path cls) (s.noteRead cls)).1 = .ok d ∧
        (d.reasonFor .mutableTypeToField).isSome = true)

section Merged

variable {an : Analyser} {path : AnalysisPath} {s : Session} {location : Location}
  {field : FieldRef} {declared cls : ClassName} {type : Option FieldType} {origin : Origin}

theorem exists_dependencyFinding? {ctx : CheckContext} {d : Dependency} :
    (∃ finding, Check.dependencyFinding? ctx location field cls d = some finding) ↔
      (d.reasonFor .mutableTypeToField).isSome = true := by
  rw [← Option.isSome_iff_exists, Check.dependencyFinding?, Option.isSome_map]

theorem ask_lift {α : Type} (q : Inquiry α) :
    an.ask path s (liftM q : Examination α).run = (an.ask path s q).map .ok := by
  have hrun : (liftM q : Examination α).run.run an.factsOf (an.resolve path) =
      q.run an.factsOf (an.resolve path) >>= fun a => pure (.ok a) :=
    Inquiry.run_bind an.factsOf (an.resolve path) q _
  rw [ask, hrun, Analysis.on_bind, ask]
  rcases Analysis.on (q.run an.factsOf (an.resolve path)) s with ⟨_ | a, s'⟩ <;> rfl

theorem ask_factsOf {α : Type} (next : Option ClassFacts → Inquiry α) :
    an.ask path s (Inquiry.factsOf cls >>= next) =
      an.ask path (s.noteRead cls) (next (an.facts? cls)) := rfl

theorem ask_mutabilityOf {α : Type} (next : Dependency → α) :
    an.ask path s (Inquiry.mutabilityOf cls >>= fun d => pure (next d)) =
      (Analysis.on (an.resolve path cls) s).1.map next := by
  show (Analysis.on (an.resolve path cls >>= fun d => pure (next d)) s).1 = _
  rw [Analysis.on_bind]
  rcases Analysis.on (an.resolve path cls) s with ⟨_ | d, s'⟩ <;> rfl

/-- There is a finding about a class exactly if it is a reason for doubt. -/
theorem ask_inspectClass :
    (∃ finding, an.ask path s (Check.inspectClass ⟨an.config, path⟩ location field declared cls) =
      .ok (some finding)) ↔ an.Doubts path s cls := by
  unfold Check.inspectClass Doubts
  cases hgiven : an.config.hardcoded? cls with
  | some given =>
    have hpure : ∀ found : Option Finding, an.ask path s (pure found) = .ok found := fun _ => rfl
    simp [hpure, exists_dependencyFinding?]
  | none =>
    cases hidiom : an.config.idiom? cls with
    | some idiom => exact ⟨fun _ => by simp, fun _ => ⟨_, rfl⟩⟩
    | none =>
      rw [ask_factsOf]
      cases habstract :
          (an.facts? cls).any fun c => c.access.isInterface || c.access.isAbstract with
      | true =>
        obtain ⟨c, hc, habstract⟩ := (Option.any_eq_true _ _).1 habstract
        exact ⟨fun _ => .inr ⟨rfl, .inr (.inl ⟨c, hc, habstract⟩)⟩, fun _ => ⟨_, rfl⟩⟩
      | false =>
        have hconcrete : ¬∃ c, an.facts? cls = some c ∧
            (c.access.isInterface || c.access.isAbstract) = true := by
          rintro ⟨c, hc, h⟩
          simp [hc, h] at habstract
        simp only [Bool.false_eq_true, if_false, ask_mutabilityOf, hconcrete, false_or]
        cases (Analysis.on (an.resolve path cls) (s.noteRead cls)).1 with
        | error e => simp [Except.map]
        | ok d => simp [Except.map, exists_dependencyFinding?]

theorem ask_inspectByClass :
    (∃ finding, an.ask path s
      (Check.inspectByClass ⟨an.config, path⟩ location field declared type) = .ok (some finding)) ↔
      ∃ cls, Check.storedClass? type declared = some cls ∧ an.Doubts path s cls := by
  unfold Check.inspectByClass
  cases Check.storedClass? type declared with
  | none =>
    constructor
    · rintro ⟨finding, ⟨⟩⟩
    · rintro ⟨cls, ⟨⟩, -⟩
  | some cls =>
    refine ask_inspectClass.trans ?_
    simp

/-- When a reference is reported. -/
theorem valueReported_iff (hparse : FieldType.parse field.descriptor = .ok (.object declared)) :
    an.ValueReported path s location field (.reference type origin) ↔
      an.config.HalfFollows declared origin ∨
        (¬an.config.Follows declared origin ∧ ¬an.config.HalfFollows declared origin) ∧
          ∃ cls, Check.storedClass? type declared = some cls ∧ an.Doubts path s cls := by
  have hask : an.ask path s
      (Check.inspectStore ⟨an.config, path⟩ location field (.reference type origin)).run =
      (an.ask path s (Check.inspectReference ⟨an.config, path⟩ location field declared type
        origin)).map .ok := by
    rw [← ask_lift]
    simp only [Check.inspectStore, hparse, Examination.ofExcept, pure_bind]
  have hmap : an.ValueReported path s location field (.reference type origin) ↔
      ∃ finding, an.ask path s
        (Check.inspectReference ⟨an.config, path⟩ location field declared type origin) =
          .ok (some finding) := by
    unfold ValueReported
    rw [hask]
    cases an.ask path s
      (Check.inspectReference ⟨an.config, path⟩ location field declared type origin) <;>
      simp [Except.map]
  rw [hmap]
  rcases Check.inspectReference_cases ⟨an.config, path⟩ location field declared type origin with
    ⟨hfollows, heq⟩ | ⟨hhalf, idiom, heq⟩ | ⟨hneither, heq⟩
  · rw [heq]
    constructor
    · rintro ⟨finding, ⟨⟩⟩
    · rintro (hhalf | ⟨hneither, -⟩)
      · exact absurd hhalf hfollows.not_halfFollows
      · exact absurd hfollows hneither.1
  · rw [heq]
    exact ⟨fun _ => .inl hhalf, fun _ => ⟨_, rfl⟩⟩
  · rw [heq, ask_inspectByClass]
    constructor
    · exact fun h => .inr ⟨hneither, h⟩
    · rintro (hhalf | ⟨-, h⟩)
      · exact absurd hhalf hneither.2
      · exact h

/-- What a reference and another reference, the receiver or null have in common. -/
theorem merge_reference {value : Value}
    (hvalue : value = .this ∨ ∃ type' origin', value = .reference type' origin')
    (hne : value ≠ .reference type origin) :
    (Value.reference type origin).merge value =
      .reference (if type = value.type? then type else none) .unknown := by
  rcases hvalue with rfl | ⟨type', origin', rfl⟩
  · by_cases htype : type = none <;> simp [Value.merge, Value.type?, htype]
  · simp only [Value.merge, if_neg hne.symm, Value.type?]
    rfl

theorem not_follows_unknown : ¬an.config.Follows declared .unknown ∧
    ¬an.config.HalfFollows declared .unknown := by
  constructor
  · rintro ⟨idiom, -, h⟩
    simp [Idiom.classify, Idiom.copies] at h
  · rintro ⟨idiom, -, h⟩
    simp [Idiom.classify, Idiom.copies] at h

end Merged

/-- When a finding about a reference is still made after the reference has been merged with another
one, the receiver or null. It is made if nothing gets lost, or if the class that then matters is a
reason for doubt: the static type that the two have in common, or else the type of the field. This
is so for two values of one static type unless the first one follows an idiom halfway. -/
theorem merged_reported_iff (an : Analyser) (path : AnalysisPath) (s : Session)
    (location : Location) (field : FieldRef) (declared : ClassName) (type : Option FieldType)
    (origin : Origin) (value : Value)
    (hparse : FieldType.parse field.descriptor = .ok (.object declared))
    (hvalue : value = .null ∨ value = .this ∨ ∃ type' origin', value = .reference type' origin')
    (hreported : an.ValueReported path s location field (.reference type origin)) :
    (an.ValueReported path s location field ((Value.reference type origin).merge value) ↔
      value = .null ∨ value = .reference type origin ∨
        ∃ cls, Check.storedClass? (if type = value.type? then type else none) declared = some cls ∧
          an.Doubts path s cls) ∧
    (type = value.type? → ¬an.config.HalfFollows declared origin →
      an.ValueReported path s location field ((Value.reference type origin).merge value)) := by
  have hiff : an.ValueReported path s location field ((Value.reference type origin).merge value) ↔
      value = .null ∨ value = .reference type origin ∨
        ∃ cls, Check.storedClass? (if type = value.type? then type else none) declared = some cls ∧
          an.Doubts path s cls := by
    by_cases hsame : value = .null ∨ value = .reference type origin
    · have hmerge : (Value.reference type origin).merge value = .reference type origin := by
        rcases hsame with rfl | rfl <;> simp [Value.merge]
      rw [hmerge, ← or_assoc]
      exact iff_of_true hreported (.inl hsame)
    · obtain ⟨hnull, hne⟩ := not_or.1 hsame
      rw [merge_reference (hvalue.resolve_left hnull) hne, valueReported_iff hparse]
      simp [hnull, hne, not_follows_unknown.1, not_follows_unknown.2]
  refine ⟨hiff, fun htype hhalf => hiff.2 (.inr (.inr ?_))⟩
  -- a value that does not try an idiom is reported for its class, which the merged value shares
  obtain ⟨-, hcls⟩ := ((valueReported_iff hparse).1 hreported).resolve_left hhalf
  rwa [if_pos htype]

/-- An analysis with two verdicts of a preset, `Object` being immutable and `Date` not, and without
idioms. -/
def twoVerdicts : Analyser where
  source := .ofList []
  config.hardcoded :=
    [.immutable .object, Configuration.presetMutable .jdk (.ofString "java.util.Date")]
  config.policy := .carryOn
  config.idioms := []

/-- A field of type `Object`. -/
def cellField : FieldRef := ⟨.ofString "com.acme.Cell", "value", "Ljava/lang/Object;"⟩

/-- A parameter of type `Date`. -/
def dateValue (slot : Nat) : Value := .instanceOf (.ofString "java.util.Date") (.parameter slot)

/-- A parameter of type `String`. -/
def textValue (slot : Nat) : Value := .instanceOf (.ofString "java.lang.String") (.parameter slot)

theorem parse_cellField : FieldType.parse cellField.descriptor = .ok (.object .object) :=
  mem_toOption_iff.1 (by decide +kernel)

theorem valueReported_date :
    twoVerdicts.ValueReported [] .empty (.cls cellField.owner) cellField (dateValue 1) := by
  decide +kernel

theorem merged_reported_iff_twoDates :
    twoVerdicts.ValueReported [] .empty (.cls cellField.owner) cellField (dateValue 1) ∧
      twoVerdicts.ValueReported [] .empty (.cls cellField.owner) cellField
        ((dateValue 1).merge (dateValue 2)) := by
  have hhalf : ¬twoVerdicts.config.HalfFollows .object (.parameter 1) := by
    rintro ⟨idiom, hidiom, -⟩
    cases hidiom
  refine ⟨valueReported_date, ?_⟩
  exact (merged_reported_iff twoVerdicts [] .empty _ cellField .object _ _ (dateValue 2)
    parse_cellField (.inr (.inr ⟨_, _, rfl⟩)) valueReported_date).2 rfl hhalf

/-- A date is reported, but not a value that is a date or a text: the field is of type `Object`, and
that class is taken to be immutable. -/
theorem not_merged_reported_dateOrText :
    FieldType.parse cellField.descriptor = .ok (.object .object) ∧
      twoVerdicts.ValueReported [] .empty (.cls cellField.owner) cellField (dateValue 1) ∧
      ¬twoVerdicts.ValueReported [] .empty (.cls cellField.owner) cellField
        ((dateValue 1).merge (textValue 2)) :=
  ⟨parse_cellField, valueReported_date, by decide +kernel⟩

end Analyser

end Immutability

import Immutability.Proofs.Requests
import Immutability.Proofs.Steps
import Immutability.Proofs.Verdicts

/-!
# Clean verdicts are grounded

A class with a clean verdict rests on classes with clean verdicts, whatever cycles there are: a class
on a cycle passes on the doubt that it is on one.

* `Analyser.KnownClean` says that there is a clean verdict on a class;
* `Analyser.GroundedStore` says what makes it safe to store a reference into a field, and
  `Analyser.GroundedMethod` that all stores of a method are of this kind;
* `Analyser.grounded_of_clean` is the closure property of every session.
-/

namespace Immutability

/-- The classes of a list are read by their names. -/
theorem ClassSource.mem_of_read_ofList {classes : List ClassFacts} {name : ClassName}
    {c : ClassFacts} (h : (ClassSource.ofList classes).read name = .ok c) :
    c ∈ classes ∧ c.name = name := by
  simp only [ClassSource.ofList] at h
  split at h
  · next hfound =>
    cases h
    exact ⟨List.mem_reverse.1 (List.mem_of_find?_eq_some hfound),
      by simpa using List.find?_some hfound⟩
  · cases h

theorem ClassSource.name_of_read_ofList {classes : List ClassFacts} {name : ClassName}
    {c : ClassFacts} (h : (ClassSource.ofList classes).read name = .ok c) : c.name = name :=
  (mem_of_read_ofList h).2

namespace Check

theorem mem_ownStores {cls : ClassName} {m : Method} {i : Nat} {field : FieldRef} :
    (i, field) ∈ ownStores cls m ↔ m.code[i]? = some (.putField field) ∧ field.owner = cls := by
  simp only [ownStores, List.mem_filterMap, Prod.exists, List.mk_mem_zipIdx_iff_getElem?,
    Array.getElem?_toList]
  constructor
  · rintro ⟨instruction, j, hj, h⟩
    split at h
    · next f =>
      split_ifs at h with ho
      cases h
      exact ⟨hj, ho⟩
    · cases h
  · rintro ⟨hi, ho⟩
    exact ⟨_, _, hi, by simp [ho]⟩

variable {config : Configuration} {path : AnalysisPath} {reads : ClassName → Option ClassFacts}
  {replies : ClassName → Dependency}

/-- Nothing was found but private fields. -/
def OnlyPrivate (f : Option Finding) : Prop := ∀ g, f = some g → g.reason = .nonFinalField

theorem reasonFor_of_onlyPrivate {ctx : CheckContext} {location : Location} {field : FieldRef}
    {type : ClassName} {d : Dependency}
    (h : OnlyPrivate (dependencyFinding? ctx location field type d)) :
    d.reasonFor .mutableTypeToField = none := by
  cases hd : d.reasonFor .mutableTypeToField with
  | none => rfl
  | some r =>
    have hr : r = .nonFinalField := h _ (by rw [dependencyFinding?, hd]; rfl)
    exact absurd (hr ▸ hd) (Dependency.reasonFor_ne_nonFinalField (by decide))

/-- If nothing is wrong with a stored value, there is a clean verdict on its class. -/
theorem reasonFor_of_inspectClass {location : Location} {field : FieldRef}
    {declared type : ClassName}
    (hgiven : ∀ a, config.hardcoded? type = some a → replies type = .resolved a)
    (h : OnlyPrivate ((inspectClass ⟨config, path⟩ location field declared type).eval reads
      replies)) : (replies type).reasonFor .mutableTypeToField = none := by
  unfold inspectClass at h
  cases hg : config.hardcoded? type with
  | some a =>
    simp only [hg] at h
    rw [hgiven a hg]
    exact reasonFor_of_onlyPrivate h
  | none =>
    cases hi : config.idiom? type with
    | some idiom =>
      simp only [hg, hi] at h
      exact nomatch h _ rfl
    | none =>
      simp only [hg, hi] at h
      change OnlyPrivate (Inquiry.eval reads replies (if (reads type).any _ then _ else _)) at h
      split_ifs at h with ha
      · exact nomatch h _ rfl
      · exact reasonFor_of_onlyPrivate h

end Check

namespace Analyser

variable (an : Analyser)

/-- There is a clean verdict on the class, given or found. -/
def KnownClean (s : Session) (name : ClassName) : Prop :=
  ∃ a, (an.config.hardcoded? name).or (s.cached? name) = some a ∧ a.Clean

/-- The superclass is one that brings no state of its own, or there is a clean verdict on it. -/
def GroundedSuperclass (s : Session) (c : ClassFacts) : Prop :=
  ∀ parent, c.superclass = some parent →
    parent.text ∈ ["java.lang.Object", "java.lang.Enum", "java.lang.Record"] ∨
      an.KnownClean s parent

/-- A reference of the given static type and origin may be stored into a field of the class
`declared`: it is a private copy in an unmodifiable view, or an array, or there is a clean verdict on
its class. -/
def GroundedStore (s : Session) (declared : ClassName) (type : Option FieldType)
    (origin : Origin) : Prop :=
  (∃ idiom, an.config.idiom? declared = some idiom ∧
      idiom.classify origin = .copiedAndWrapped) ∨
    match type with
    | some (.object cls) => an.KnownClean s cls
    | some _ => True
    | none => an.KnownClean s declared

/-- The frames of a method of the class `name` are known, and so is that it may store what it stores
into the fields of the class, unless it makes no such stores. -/
def GroundedMethod (s : Session) (name : ClassName) (m : Method) : Prop :=
  (∃ (i : Nat) (field : FieldRef), m.code[i]? = some (.putField field) ∧ field.owner = name) →
    ∃ frames, m.frames name = .ok frames ∧
      ∀ (i : Nat) (field : FieldRef) (frame : Frame) (declared : ClassName)
        (type : Option FieldType) (origin : Origin),
        m.code[i]? = some (.putField field) → field.owner = name →
        frames[i]? = some (some frame) →
        FieldType.parse field.descriptor = .ok (.object declared) →
        frame.peek 0 = some (.reference type origin) →
        an.GroundedStore s declared type origin

variable {an} {l : Ledger} {path : AnalysisPath} {s : Session} {name : ClassName} {c : ClassFacts}

theorem knownClean_of_reply {hard : Reason} (h : (an.reply l name).reasonFor hard = none)
    (hl : Ledger.Later [] l s.ledger) : an.KnownClean s name := by
  obtain ⟨a, ha, hclean⟩ := Dependency.reasonFor_eq_none_iff.1 h
  refine ⟨a, reply_eq_resolved_iff.1 ?_, hclean⟩
  rw [reply_eq_of_later hl (settled_of_reply ha), ha]

/-- A class whose checks find nothing but private fields has a superclass that is no reason for
doubt. -/
theorem groundedSuperclass_of_report {fs : List Finding}
    (h : an.report path c (an.reply l) Check.inheritance = .ok fs)
    (hfs : ∀ f ∈ fs, f.reason = .nonFinalField) (hl : Ledger.Later [] l s.ledger) :
    an.GroundedSuperclass s c := by
  intro parent hparent
  by_cases hneutral : parent.text ∈ Check.neutralSuperclasses
  · exact .inl hneutral
  · have hrel : Check.relevantSuperclass? c = some parent := by
      simp [Check.relevantSuperclass?, hparent, hneutral]
    have heval : Examination.eval an.facts? (an.reply l)
        (Check.inheritance.examine ⟨an.config, path⟩ c) = .ok fs := h
    simp only [Check.inheritance, hrel, Examination.eval_bind, Examination.eval_lift] at heval
    obtain ⟨d, hd, heval⟩ := bind_eq_ok.1 heval
    cases hd
    cases hr : (an.reply l parent).reasonFor .inheritedMutability with
    | none => exact .inr (knownClean_of_reply hr hl)
    | some reason =>
      simp only [Inquiry.mutabilityOf, Inquiry.eval, hr, Examination.eval_pure,
        Except.ok.injEq] at heval
      have hreason : reason = .nonFinalField := by
        subst heval
        exact hfs _ List.mem_cons_self
      exact absurd (hreason ▸ hr) (Dependency.reasonFor_ne_nonFinalField (by decide))

theorem groundedStore_of_storedClass {declared : ClassName} {type : Option FieldType}
    {origin : Origin}
    (h : ∀ cls, Check.storedClass? type declared = some cls → an.KnownClean s cls) :
    an.GroundedStore s declared type origin := by
  refine .inr ?_
  rcases type with _ | (_ | cls | _)
  · exact h declared rfl
  · trivial
  · exact h cls rfl
  · trivial

theorem groundedStore_of_inspect {location : Location} {field : FieldRef} {declared : ClassName}
    {type : Option FieldType} {origin : Origin}
    (h : Check.OnlyPrivate ((Check.inspectReference ⟨an.config, path⟩ location field declared type
      origin).eval an.facts? (an.reply l))) (hl : Ledger.Later [] l s.ledger) :
    an.GroundedStore s declared type origin := by
  unfold Check.inspectReference at h
  cases hs : Check.storedClass? type declared with
  | none => exact groundedStore_of_storedClass (by simp [hs])
  | some cls =>
    have byClass : Check.OnlyPrivate ((Check.inspectClass ⟨an.config, path⟩ location field declared
        cls).eval an.facts? (an.reply l)) → an.GroundedStore s declared type origin := by
      intro h
      refine groundedStore_of_storedClass fun cls' hs' => ?_
      cases hs.symm.trans hs'
      exact knownClean_of_reply (Check.reasonFor_of_inspectClass (fun _ => reply_of_given) h) hl
    cases hi : an.config.idiom? declared with
    | none =>
      simp only [hi, hs] at h
      exact byClass h
    | some idiom =>
      cases hm : idiom.classify origin with
      | copiedAndWrapped => exact .inl ⟨idiom, hi, hm⟩
      -- half an idiom is a finding of its own
      | wrappedWithoutCopy | copiedWithoutWrap =>
        simp only [hi, hm] at h
        exact nomatch h _ rfl
      | notAttempted =>
        simp only [hi, hm, hs] at h
        exact byClass h

/-- A reachable store of a reference into a field of an object type is judged by the reference. -/
theorem eval_examineStore {m : Method} {frames : Array (Option Frame)} {i : Nat}
    {field : FieldRef} {frame : Frame} {declared : ClassName} {type : Option FieldType}
    {origin : Origin} (hframe : frames[i]? = some (some frame))
    (htype : FieldType.parse field.descriptor = .ok (.object declared))
    (hvalue : frame.peek 0 = some (.reference type origin)) :
    Examination.eval an.facts? (an.reply l)
        (Check.examineStore ⟨an.config, path⟩ c m frames (i, field)) =
      .ok ((Check.inspectReference ⟨an.config, path⟩
        (.method c.name m.name m.descriptor (some i)) field declared type origin).eval an.facts?
          (an.reply l)) := by
  simp only [Check.examineStore, hframe, hvalue, Check.inspectStore, htype,
    Examination.ofExcept, Examination.eval_bind, Examination.eval_pure]
  exact Examination.eval_lift _ _ _

theorem groundedMethod_of_report {fs : List Finding}
    (h : an.report path c (an.reply l) Check.storedValues = .ok fs)
    (hfs : ∀ f ∈ fs, f.reason = .nonFinalField) (hl : Ledger.Later [] l s.ledger) {m : Method}
    (hm : m ∈ c.methods) : an.GroundedMethod s c.name m := by
  rintro ⟨i₀, field₀, hi₀, howner₀⟩
  have heval : Examination.eval an.facts? (an.reply l)
      (Check.storedValues.examine ⟨an.config, path⟩ c) = .ok fs := h
  simp only [Check.storedValues, Examination.eval_bind, Examination.eval_mapM,
    Examination.eval_pure] at heval
  obtain ⟨found, hfound, hflat⟩ := bind_eq_ok.1 heval
  cases hflat
  obtain ⟨fsm, hfsm, hstores⟩ := exists_mem_of_mapM hfound hm
  -- the method makes a store, so that its frames have been computed
  have hne : ¬ (Check.ownStores c.name m).isEmpty := by
    rw [List.isEmpty_iff]
    exact List.ne_nil_of_mem (Check.mem_ownStores.2 ⟨hi₀, howner₀⟩)
  simp only [Check.examineStores, hne, if_false, Bool.false_eq_true, Examination.frames,
    Examination.eval_bind, Examination.eval_ofExcept, Examination.eval_mapM,
    Examination.eval_pure] at hstores
  obtain ⟨frames, hframes, hstores⟩ := bind_eq_ok.1 hstores
  obtain ⟨judged, hjudged, hfilter⟩ := bind_eq_ok.1 hstores
  cases hfilter
  refine ⟨frames, mapError_eq_ok.1 hframes, ?_⟩
  intro i field frame declared type origin hi howner hframe htype hvalue
  obtain ⟨o, ho, hstore⟩ := exists_mem_of_mapM hjudged (Check.mem_ownStores.2 ⟨hi, howner⟩)
  rw [eval_examineStore hframe htype hvalue] at hstore
  cases hstore
  have hprivate : Check.OnlyPrivate ((Check.inspectReference ⟨an.config, path⟩
      (.method c.name m.name m.descriptor (some i)) field declared type origin).eval an.facts?
        (an.reply l)) := fun g hg =>
    hfs g (List.mem_flatten.2 ⟨_, hfsm, List.mem_filterMap.2 ⟨_, ho, hg⟩⟩)
  exact groundedStore_of_inspect hprivate hl

/-- Every class with a clean verdict is grounded: its superclass and the values that it stores into
its fields are safe, or there are clean verdicts on their classes. -/
theorem grounded_of_clean (an : Analyser)
    (named : ∀ name c, an.source.read name = .ok c → c.name = name) (requests : List ClassName)
    (name : ClassName) (a : Assessment) (cached : (an.after requests).cached? name = some a)
    (clean : a.Clean) :
    ∃ c, an.source.read name = .ok c ∧ an.GroundedSuperclass (an.after requests) c ∧
      ∀ m ∈ c.methods, an.GroundedMethod (an.after requests) name m := by
  obtain ⟨l, path, rest, hl, -, -, hentry, -⟩ :=
    (an.sound_after requests).entry_of_mem (mem_of_lookup cached)
  have hlater : Ledger.Later [] l (an.after requests).ledger := ⟨_, hl, by simp⟩
  cases hentry with
  | unreadable => simp [Assessment.Clean, Assessment.couldNotAnalyse] at clean
  | @judged c read settled =>
    have hclean := clean_judgement.1 clean
    refine ⟨c, read, ?_, fun m hm => ?_⟩
    · obtain ⟨fs, hfs, hprivate⟩ := hclean Check.inheritance (by simp [Check.all])
      exact groundedSuperclass_of_report hfs hprivate hlater
    · obtain ⟨fs, hfs, hprivate⟩ := hclean Check.storedValues (by simp [Check.all])
      have hgrounded := groundedMethod_of_report hfs hprivate hlater hm
      rwa [named name c read] at hgrounded

/-- A final class without members. -/
def keyClass : ClassFacts := (ClassFacts.named (.ofString "com.acme.Key")).withFlags .finalFlag

/-- A final class that holds another one. -/
def boxClass : ClassFacts :=
  ((ClassFacts.named (.ofString "com.acme.Box")).withFlags .finalFlag).holding keyClass.name

/-- The two classes under the default configuration. -/
def boxedKey : Analyser := ⟨.ofList [keyClass, boxClass], .default⟩

theorem blameless_boxClass : boxedKey.Blameless boxClass.name := by
  have hkey : boxedKey.lookups keyClass = [] := by decide +kernel
  have hbox : boxedKey.lookups boxClass = [keyClass.name] := by decide +kernel
  refine .judged ⟨rfl, rfl, by decide +kernel⟩ (by decide +kernel) fun other ho => ?_
  rw [hbox, List.mem_singleton] at ho
  subst ho
  refine .judged ⟨rfl, rfl, by decide +kernel⟩ (by decide +kernel) fun other ho => ?_
  simp [hkey] at ho

theorem grounded_of_clean_boxedKey :
    (∀ name c, boxedKey.source.read name = .ok c → c.name = name) ∧
    ∃ a, (boxedKey.after [boxClass.name]).cached? boxClass.name = some a ∧ a.Clean ∧
      ∃ c, boxedKey.source.read boxClass.name = .ok c ∧
        boxedKey.GroundedSuperclass (boxedKey.after [boxClass.name]) c ∧
        ∀ m ∈ c.methods,
          boxedKey.GroundedMethod (boxedKey.after [boxClass.name]) boxClass.name m := by
  have named : ∀ name c, boxedKey.source.read name = .ok c → c.name = name :=
    fun _ _ => ClassSource.name_of_read_ofList
  have carryOn : boxedKey.config.policy = .carryOn := rfl
  obtain ⟨a, -, ha, -⟩ := exists_answer carryOn [] boxClass.name
  have hcached : (boxedKey.after [boxClass.name]).cached? boxClass.name = some a :=
    reply_eq_resolved_iff.1 ha
  have hclean : a.Clean := (clean_iff_blameless (boxedKey.sound_after _) ha).2 blameless_boxClass
  exact ⟨named, a, hcached, hclean, grounded_of_clean boxedKey named _ _ a hcached hclean⟩

end Analyser

end Immutability

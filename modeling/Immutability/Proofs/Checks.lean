import Immutability.Check.All
import Immutability.Proofs.Inquiry
import Mathlib.Logic.Basic

/-!
# What checks ask and what they find

* `Shows` relates the findings that are made when every other class is immutable with those that are
  made under some replies: the only new doubts are those that the replies give;
* `Check.tracks_of_mem` says that every check asks its questions and fails whatever the replies, and
  that its findings show the replies;
* `Reports` says that there is a finding at a place, and `ClassFacts.site` is that of an
  instruction.
-/

namespace Immutability

/-- The findings `found` raise the doubts of `own` and those that the replies give. Whether a doubt
is about a superclass or about a field is left open. -/
def Shows (replies : List Dependency) (own found : List Finding) : Prop :=
  ∀ P : Reason → Prop, (P .inheritedMutability ↔ P .mutableTypeToField) →
    ((∃ f ∈ found, P f.reason) ↔
      (∃ f ∈ own, P f.reason) ∨
        ∃ d ∈ replies, ∃ r, d.reasonFor .mutableTypeToField = some r ∧ P r)

theorem Shows.refl (fs : List Finding) : Shows [] fs fs := by
  intro P _
  simp

theorem Shows.append {ds ds' : List Dependency} {own own' found found' : List Finding}
    (h : Shows ds own found) (h' : Shows ds' own' found') :
    Shows (ds ++ ds') (own ++ own') (found ++ found') := by
  intro P hP
  simp only [List.mem_append, or_and_right, exists_or, h P hP, h' P hP]
  exact or_or_or_comm

/-- A dependency that is known to be immutable gives no reason for doubt. -/
@[simp] theorem reasonFor_assumeImmutable (name : ClassName) (hard : Reason) :
    (assumeImmutable name).reasonFor hard = none := rfl

/-- Only the reason for a mutable dependency depends on what it is needed for. -/
theorem exists_reasonFor {P : Reason → Prop} {r r' : Reason} (h : P r ↔ P r') (d : Dependency) :
    (∃ x, d.reasonFor r = some x ∧ P x) ↔ ∃ x, d.reasonFor r' = some x ∧ P x := by
  cases d with
  | cyclic => simp [Dependency.reasonFor]
  | resolved a => cases hv : a.verdict <;> simp [Dependency.reasonFor, hv, h]

/-- A doubt that a reply gives is the one finding. -/
theorem shows_of_reply {d : Dependency} {hard : Reason} {found : List Finding}
    (hard_eq : hard = .inheritedMutability ∨ hard = .mutableTypeToField)
    (h : found.map Finding.reason = (d.reasonFor hard).toList) : Shows [d] [] found := by
  intro P hP
  -- one finding for a doubt, none without
  have hd : (∃ f ∈ found, P f.reason) ↔ ∃ x, d.reasonFor hard = some x ∧ P x := by
    have : (∃ f ∈ found, P f.reason) ↔ ∃ x ∈ found.map Finding.reason, P x := by simp
    rw [this, h]
    simp
  rw [hd]
  rcases hard_eq with rfl | rfl
  · simpa using exists_reasonFor hP d
  · simp

namespace Examination.Tracks

variable {ι α β : Type} {R : List Dependency → α → β → Prop}

/-- Two examinations of the items of a list, one after the other. -/
theorem mapM {f : ι → Examination α} {f' : ι → Examination β}
    {T : List Dependency → List α → List β → Prop} (items : List ι)
    (h : ∀ i ∈ items, Tracks (f i) (f' i) R) (nil : T [] [] [])
    (cons : ∀ ds ds' a b as bs, R ds a b → T ds' as bs → T (ds ++ ds') (a :: as) (b :: bs)) :
    Tracks (items.mapM f) (items.mapM f') T := by
  induction items with
  | nil => exact pure nil
  | cons i items ih =>
    rw [List.mapM_cons, List.mapM_cons]
    refine (h i List.mem_cons_self).bind fun ds a b hab => ?_
    refine (ih fun j hj => h j (List.mem_cons_of_mem _ hj)).bind fun ds' as bs has => ?_
    exact pure (by simpa using cons _ _ _ _ _ _ hab has)

end Examination.Tracks

namespace Check

/-- A check asks its questions and fails whatever the path and the replies, and its findings show
the replies. -/
def Tracks (check : Check) : Prop :=
  ∀ config path path' c,
    Examination.Tracks (check.examine ⟨config, path⟩ c) (check.examine ⟨config, path'⟩ c) Shows

theorem tracks_ofFacts (name : String) (findings : ClassFacts → List Finding) :
    (ofFacts name findings).Tracks := fun _ _ _ _ => .pure (.refl _)

theorem tracks_escape : escape.Tracks :=
  fun _ _ _ _ => .ofExcept _ _ fun _ _ => .refl _

theorem tracks_inheritance : inheritance.Tracks := by
  intro config path path' c
  simp only [inheritance]
  cases relevantSuperclass? c with
  | none => exact .pure (.refl [])
  | some parent =>
    have hq : Inquiry.Tracks (Inquiry.mutabilityOf parent) (Inquiry.mutabilityOf parent)
        fun ds d d' => d = assumeImmutable parent ∧ ds = [d'] :=
      .resolve fun reply => .answer ⟨rfl, rfl⟩
    refine (Examination.Tracks.lift hq).bind fun ds d d' h => ?_
    obtain ⟨rfl, rfl⟩ := h
    simp only [reasonFor_assumeImmutable]
    cases hd : d'.reasonFor .inheritedMutability with
    | none => exact .pure (shows_of_reply (.inl rfl) (by rw [hd]; rfl))
    | some reason => exact .pure (shows_of_reply (.inl rfl) (by rw [hd]; rfl))

/-! ### Stored values -/

/-- The relation between judgements of one store. -/
def ShowsOne (replies : List Dependency) (own found : Option Finding) : Prop :=
  Shows replies own.toList found.toList

theorem ShowsOne.refl (f : Option Finding) : ShowsOne [] f f := Shows.refl f.toList

theorem reasons_dependencyFinding? (ctx : CheckContext) (location : Location) (field : FieldRef)
    (type : ClassName) (d : Dependency) :
    (dependencyFinding? ctx location field type d).toList.map Finding.reason =
      (d.reasonFor .mutableTypeToField).toList := by
  cases h : d.reasonFor .mutableTypeToField <;> simp [dependencyFinding?, h]

variable (config : Configuration) (path path' : AnalysisPath)

/-- A given verdict raises the same doubt on every path. -/
theorem showsOne_given (location : Location) (field : FieldRef) (type : ClassName)
    (d : Dependency) :
    ShowsOne [] (dependencyFinding? ⟨config, path⟩ location field type d)
      (dependencyFinding? ⟨config, path'⟩ location field type d) := by
  intro P _
  cases h : d.reasonFor .mutableTypeToField <;> simp [dependencyFinding?, h]

theorem tracks_inspectClass (location : Location) (field : FieldRef) (declared type : ClassName) :
    Inquiry.Tracks (inspectClass ⟨config, path⟩ location field declared type)
      (inspectClass ⟨config, path'⟩ location field declared type) ShowsOne := by
  unfold inspectClass
  cases config.hardcoded? type with
  | some given => exact .answer (showsOne_given config path path' location field type _)
  | none =>
    cases config.idiom? type with
    | some idiom => exact .answer (.refl _)
    | none =>
      refine .readFacts fun facts => ?_
      -- an interface or an abstract class is in doubt as it is, and nothing is asked about it
      by_cases h : facts.any fun c => c.access.isInterface || c.access.isAbstract
      · simp only [Inquiry.bind, h]
        exact .answer (.refl _)
      · simp only [Inquiry.bind, h]
        refine .resolve fun reply => .answer ?_
        exact shows_of_reply (.inr rfl) (reasons_dependencyFinding? _ location field type reply)

theorem tracks_inspectReference (location : Location) (field : FieldRef) (declared : ClassName)
    (type : Option FieldType) (origin : Origin) :
    Inquiry.Tracks (inspectReference ⟨config, path⟩ location field declared type origin)
      (inspectReference ⟨config, path'⟩ location field declared type origin) ShowsOne := by
  unfold inspectReference
  cases storedClass? type declared with
  | none =>
    cases config.idiom? declared with
    | none => exact .answer (.refl none)
    | some idiom => cases h : idiom.classify origin <;> simp only [h] <;> exact .answer (.refl _)
  | some cls =>
    have byClass := tracks_inspectClass config path path' location field declared cls
    cases config.idiom? declared with
    | none => exact byClass
    | some idiom =>
      cases h : idiom.classify origin with
      | copiedAndWrapped | wrappedWithoutCopy | copiedWithoutWrap =>
        simp only [h]
        exact .answer (.refl _)
      | notAttempted =>
        simp only [h]
        exact byClass

theorem tracks_inspectStore (location : Location) (field : FieldRef) (value : Value) :
    Examination.Tracks (inspectStore ⟨config, path⟩ location field value)
      (inspectStore ⟨config, path'⟩ location field value) ShowsOne := by
  unfold inspectStore
  cases value with
  | reference type origin =>
    have hparse : Examination.Tracks
        (Examination.ofExcept .descriptor (FieldType.parse field.descriptor))
        (Examination.ofExcept .descriptor (FieldType.parse field.descriptor))
        fun ds t t' => ds = [] ∧ t = t' :=
      .ofExcept _ _ fun _ _ => ⟨rfl, rfl⟩
    refine hparse.bind fun ds t t' h => ?_
    obtain ⟨rfl, rfl⟩ := h
    cases t with
    | object declared =>
      exact .lift (tracks_inspectReference config path path' location field declared type origin)
    | primitive | array => exact .pure (.refl none)
  | top | primitive | null | this | uninitialized => exact .pure (.refl none)

theorem tracks_examineStore (c : ClassFacts) (m : Method) (frames : Array (Option Frame))
    (store : Nat × FieldRef) :
    Examination.Tracks (examineStore ⟨config, path⟩ c m frames store)
      (examineStore ⟨config, path'⟩ c m frames store) ShowsOne := by
  unfold examineStore
  split
  · split
    · exact .throw _
    · exact tracks_inspectStore config path path' _ _ _
  · exact .pure (.refl none)

theorem tracks_examineStores (c : ClassFacts) (m : Method) :
    Examination.Tracks (examineStores ⟨config, path⟩ c m) (examineStores ⟨config, path'⟩ c m)
      Shows := by
  simp only [examineStores]
  by_cases hempty : (ownStores c.name m).isEmpty
  · simp only [hempty, if_true]
    exact .pure (.refl [])
  · simp only [hempty, if_false, Bool.false_eq_true]
    have hframes : Examination.Tracks (Examination.frames c.name m)
        (Examination.frames c.name m) fun ds f f' => ds = [] ∧ f = f' :=
      .ofExcept _ _ fun _ _ => ⟨rfl, rfl⟩
    refine hframes.bind fun ds frames frames' h => ?_
    obtain ⟨rfl, rfl⟩ := h
    have hstores : Examination.Tracks
        ((ownStores c.name m).mapM (examineStore ⟨config, path⟩ c m frames))
        ((ownStores c.name m).mapM (examineStore ⟨config, path'⟩ c m frames))
        fun ds own found => Shows ds (own.filterMap id) (found.filterMap id) := by
      refine .mapM _ (fun store _ => tracks_examineStore config path path' c m frames store)
        (.refl []) fun ds ds' a b as bs h hs => ?_
      have key := h.append hs
      cases a <;> cases b <;> simpa using key
    exact hstores.bind fun ds own found h => .pure (by simpa using h)

theorem tracks_storedValues : storedValues.Tracks := by
  intro config path path' c
  have hmethods : Examination.Tracks
      (c.methods.mapM (examineStores ⟨config, path⟩ c))
      (c.methods.mapM (examineStores ⟨config, path'⟩ c))
      fun ds own found => Shows ds own.flatten found.flatten :=
    .mapM _ (fun m _ => tracks_examineStores config path path' c m) (.refl [])
      fun ds ds' a b as bs h hs => by simpa using h.append hs
  exact hmethods.bind fun ds own found h => .pure (by simpa using h)

/-- Every check asks its questions and fails whatever the replies, and its findings show them. -/
theorem tracks_of_mem {check : Check} (h : check ∈ all) : check.Tracks := by
  simp only [all, List.mem_cons, List.not_mem_nil, or_false] at h
  rcases h with rfl | rfl | rfl | rfl | rfl | rfl | rfl | rfl
  · exact tracks_ofFacts _ _
  · exact tracks_ofFacts _ _
  · exact tracks_inheritance
  · exact tracks_ofFacts _ _
  · exact tracks_ofFacts _ _
  · exact tracks_storedValues
  · exact tracks_ofFacts _ _
  · exact tracks_escape

end Check

/-! ### Where findings are -/

/-- There is a finding with the given reason at the given place. -/
def Reports (found : List Finding) (reason : Reason) (place : Location) : Prop :=
  ∃ finding ∈ found, finding.reason = reason ∧ finding.location = place

instance (found : List Finding) (reason : Reason) (place : Location) :
    Decidable (Reports found reason place) :=
  inferInstanceAs (Decidable (∃ finding ∈ found, _))

namespace ClassFacts

/-- The place of instruction `i` of a method. -/
def site (c : ClassFacts) (m : Method) (i : Nat) : Location :=
  .method c.name m.name m.descriptor (some i)

/-- No other method of the class has the name and the descriptor of `m`. -/
def Unambiguous (c : ClassFacts) (m : Method) : Prop :=
  ∀ m' ∈ c.methods, m'.name = m.name → m'.descriptor = m.descriptor → m' = m

/-- A place names the method and the instruction. -/
theorem Unambiguous.eq_of_site {c : ClassFacts} {m m' : Method} {i j : Nat} (h : c.Unambiguous m)
    (hm' : m' ∈ c.methods) (hsite : c.site m' j = c.site m i) : m' = m ∧ j = i := by
  obtain ⟨hname, hdescriptor, rfl⟩ : m'.name = m.name ∧ m'.descriptor = m.descriptor ∧ j = i := by
    simpa [site] using hsite
  exact ⟨h m' hm' hname hdescriptor, rfl⟩

end ClassFacts

end Immutability

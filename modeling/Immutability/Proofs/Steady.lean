import Immutability.Proofs.Checks
import Immutability.Proofs.Steps
import Mathlib.Tactic.SplitIfs

/-!
# Checks without doubts about cycles

The path of the waiting classes shows up in the findings of a check only where a cycle is described.
As long as no reply raises a doubt about a cycle, the findings are the same on every path, and they
raise none either.

* `Dependency.Uncyclic` are the replies without such a doubt;
* `Check.Steady` is the property of a check, and `Check.steady_of_mem` says that all checks have it.
-/

namespace Immutability

/-- The dependency raises no doubt about a cycle. -/
def Dependency.Uncyclic (d : Dependency) : Prop :=
  ∀ hard, hard ≠ .cyclicReference → d.reasonFor hard ≠ some .cyclicReference

theorem Dependency.uncyclic_resolved {a : Assessment} (h : a.hasReason .cyclicReference = false) :
    (resolved a).Uncyclic := by
  intro hard hne
  cases hv : a.verdict <;> simp [reasonFor, hv, h, hne]

/-- The configuration gives no verdict with a doubt about a cycle. -/
def Configuration.Uncyclic (config : Configuration) : Prop :=
  ∀ name a, config.hardcoded? name = some a → a.hasReason .cyclicReference = false

/-- None of the findings is a doubt about a cycle. -/
def Uncyclic (fs : List Finding) : Prop := ∀ f ∈ fs, f.reason ≠ .cyclicReference

theorem Uncyclic.nil : Uncyclic [] := by simp [Uncyclic]

theorem Uncyclic.singleton {f : Finding} (h : f.reason ≠ .cyclicReference) : Uncyclic [f] := by
  simpa [Uncyclic] using h

/-- Under the replies, the inquiry has the same answer on every path, without doubts about
cycles. -/
def Inquiry.Steady {α : Type} (reads : ClassName → Option ClassFacts)
    (replies : ClassName → Dependency) (findings : α → List Finding)
    (q : AnalysisPath → Inquiry α) : Prop :=
  ∀ path path', (q path).eval reads replies = (q path').eval reads replies ∧
    Uncyclic (findings ((q path).eval reads replies))

namespace Inquiry.Steady

variable {α : Type} {reads : ClassName → Option ClassFacts} {replies : ClassName → Dependency}
  {findings : α → List Finding} {name : ClassName}

theorem factsOf {k : AnalysisPath → Option ClassFacts → Inquiry α}
    (h : Inquiry.Steady reads replies findings fun path => k path (reads name)) :
    Inquiry.Steady reads replies findings fun path => Inquiry.factsOf name >>= k path := h

theorem mutabilityOf {k : AnalysisPath → Dependency → Inquiry α}
    (h : Inquiry.Steady reads replies findings fun path => k path (replies name)) :
    Inquiry.Steady reads replies findings fun path => Inquiry.mutabilityOf name >>= k path := h

end Inquiry.Steady

namespace Examination

variable {α β ι : Type} {reads : ClassName → Option ClassFacts} {replies : ClassName → Dependency}
  {findings : α → List Finding}

/-- Under the replies, the work has the same result on every path, without doubts about cycles. -/
def Steady (reads : ClassName → Option ClassFacts) (replies : ClassName → Dependency)
    (findings : α → List Finding) (x : AnalysisPath → Examination α) : Prop :=
  ∀ path path', (x path).eval reads replies = (x path').eval reads replies ∧
    ∀ a, (x path).eval reads replies = .ok a → Uncyclic (findings a)

namespace Steady

theorem pure {a : α} (h : Uncyclic (findings a)) :
    Steady reads replies findings fun _ => (Pure.pure a : Examination α) := by
  refine fun _ _ => ⟨rfl, fun b hb => ?_⟩
  cases hb
  exact h

theorem throw (e : CheckError) :
    Steady reads replies findings fun _ => (MonadExcept.throw e : Examination α) := by
  refine fun _ _ => ⟨rfl, fun b hb => ?_⟩
  cases hb

theorem ofExcept {ε : Type} (wrap : ε → CheckError) {r : Except ε α}
    (h : ∀ a, r = .ok a → Uncyclic (findings a)) :
    Steady reads replies findings fun _ => Examination.ofExcept wrap r := by
  refine fun _ _ => ⟨rfl, fun a ha => h a ?_⟩
  rwa [eval_ofExcept, mapError_eq_ok] at ha

theorem lift {q : AnalysisPath → Inquiry α} (h : Inquiry.Steady reads replies findings q) :
    Steady reads replies findings fun path => (liftM (q path) : Examination α) := by
  intro path path'
  simp only [eval_lift, (h path path').1, true_and]
  intro a ha
  cases ha
  exact (h path' path').2

/-- What comes before the work does not depend on the path. -/
theorem after {x : Examination β} {f : AnalysisPath → β → Examination α}
    (h : ∀ b, x.eval reads replies = .ok b → Steady reads replies findings fun path => f path b) :
    Steady reads replies findings fun path => x >>= f path := by
  intro path path'
  simp only [eval_bind]
  cases hx : x.eval reads replies with
  | error e =>
    refine ⟨rfl, fun a ha => ?_⟩
    cases ha
  | ok b => exact h b hx path path'

theorem map {g : α → β} {findings' : β → List Finding} {x : AnalysisPath → Examination α}
    (h : Steady reads replies findings x) (hg : ∀ a, findings' (g a) = findings a) :
    Steady reads replies findings' fun path => do return g (← x path) := by
  intro path path'
  simp only [eval_bind, eval_pure, (h path path').1, true_and]
  intro b hb
  obtain ⟨a, ha, hab⟩ := bind_eq_ok.1 hb
  cases hab
  rw [hg]
  exact (h path' path').2 a ha

/-- The items of a list are examined one after the other. -/
theorem mapM {f : AnalysisPath → ι → Examination α} (items : List ι)
    (h : ∀ i, Steady reads replies findings fun path => f path i) :
    Steady reads replies (List.flatMap findings) fun path => items.mapM (f path) := by
  intro path path'
  simp only [eval_mapM]
  refine ⟨?_, fun as has g hg => ?_⟩
  · simp only [(h _ path path').1]
  · obtain ⟨a, ha, hga⟩ := List.mem_flatMap.1 hg
    obtain ⟨i, -, hi⟩ := exists_of_mem_mapM has ha
    exact (h i path path').2 a hi g hga

end Steady

end Examination

namespace Check

variable {config : Configuration} {reads : ClassName → Option ClassFacts}
  {replies : ClassName → Dependency}

/-- Where no doubts about cycles are given or replied, a check finds the same on every path, and no
such doubt. -/
def Steady (check : Check) : Prop :=
  ∀ (config : Configuration) (reads : ClassName → Option ClassFacts)
    (replies : ClassName → Dependency) (c : ClassFacts), config.Uncyclic →
    (∀ name, (replies name).Uncyclic) →
    Examination.Steady reads replies id fun path => check.examine ⟨config, path⟩ c

theorem steady_ofFacts {name : String} {findings : ClassFacts → List Finding}
    (h : ∀ c, Uncyclic (findings c)) : (ofFacts name findings).Steady :=
  fun _ _ _ c _ _ => .pure (h c)

/-! ### Checks of the class itself -/

theorem uncyclic_extensible (c : ClassFacts) : Uncyclic (extensibleFindings c) := by
  unfold extensibleFindings
  split_ifs
  · exact .singleton (by simp)
  · exact .nil

theorem uncyclic_abstract (c : ClassFacts) : Uncyclic (abstractFindings c) := by
  unfold abstractFindings
  cases abstractKind? c with
  | some kind => exact .singleton (by simp)
  | none => exact .nil

theorem uncyclic_nonFinal (c : ClassFacts) : Uncyclic (nonFinalFindings c) := by
  intro f hf
  obtain ⟨field, -, rfl⟩ := List.mem_map.1 hf
  unfold nonFinalFinding
  split_ifs <;> simp

theorem uncyclic_array (c : ClassFacts) : Uncyclic (arrayFindings c) := by
  intro f hf
  obtain ⟨field, -, rfl⟩ := List.mem_map.1 hf
  simp [arrayFinding]

theorem uncyclic_reassignmentsIn (graph : CallGraph) (cls : ClassName) (m : Method) :
    Uncyclic (reassignmentsIn graph cls m) := by
  have hall : Uncyclic ((selfStores cls m).map (reassignmentFinding cls m)) := by
    intro f hf
    obtain ⟨store, -, rfl⟩ := List.mem_map.1 hf
    simp [reassignmentFinding]
  simp only [reassignmentsIn]
  split_ifs
  · exact .nil
  · cases graph.onlyFromConstructors? (m.ref cls) with
    | none => exact .singleton (by simp)
    | some constructing =>
      cases constructing with
      | true => exact .nil
      | false => exact hall
  · exact hall

theorem uncyclic_reassignment (c : ClassFacts) : Uncyclic (reassignmentFindings c) := by
  intro f hf
  obtain ⟨m, -, hm⟩ := List.mem_flatMap.1 hf
  exact uncyclic_reassignmentsIn _ _ m f hm

theorem uncyclic_escapeAt {cls : ClassName} {m : Method} {frames : Array (Option Frame)}
    {p : Instruction × Nat} {f : Finding} (h : escapeAt cls m frames p = .ok (some f)) :
    f.reason ≠ .cyclicReference := by
  unfold escapeAt at h
  split at h
  · split at h
    · cases h
    · next route _ =>
      cases route with
      | none => cases h
      | some route =>
        cases h
        simp [escapeFinding]
  · cases h

theorem uncyclic_escapesIn {cls : ClassName} {m : Method} {fs : List Finding}
    (h : escapesIn cls m = .ok fs) : Uncyclic fs := by
  unfold escapesIn at h
  split_ifs at h with hstatic
  · cases h
    exact .nil
  · obtain ⟨frames, -, h⟩ := bind_eq_ok.1 h
    obtain ⟨found, hfound, h⟩ := bind_eq_ok.1 h
    cases h
    intro f hf
    obtain ⟨o, ho, rfl⟩ := List.mem_filterMap.1 hf
    obtain ⟨p, -, hp⟩ := exists_of_mem_mapM hfound ho
    exact uncyclic_escapeAt hp

theorem uncyclic_escape {c : ClassFacts} {fs : List Finding} (h : escapeFindings c = .ok fs) :
    Uncyclic fs := by
  obtain ⟨found, hfound, h⟩ := bind_eq_ok.1 h
  cases h
  intro f hf
  obtain ⟨fs', hfs', hf⟩ := List.mem_flatten.1 hf
  obtain ⟨m, -, hm⟩ := exists_of_mem_mapM hfound hfs'
  exact uncyclic_escapesIn hm f hf

theorem steady_escape : escape.Steady :=
  fun _ _ _ _ _ _ => .ofExcept id fun _ => uncyclic_escape

/-! ### Checks that ask about other classes -/

theorem inheritedMessage_eq {r : Reason} (h : r ≠ .cyclicReference) (path path' : AnalysisPath)
    (parent : ClassName) : inheritedMessage path parent r = inheritedMessage path' parent r := by
  cases r <;> first | rfl | exact absurd rfl h

theorem storedMessage_eq {r : Reason} (h : r ≠ .cyclicReference) (path path' : AnalysisPath)
    (field : FieldRef) (type : ClassName) :
    storedMessage path field type r = storedMessage path' field type r := by
  cases r <;> first | rfl | exact absurd rfl h

theorem steady_inheritance : inheritance.Steady := by
  intro config reads replies c _ hreplies
  simp only [inheritance]
  cases relevantSuperclass? c with
  | none => exact .pure .nil
  | some parent =>
    refine .after fun dependency hd => ?_
    obtain rfl : replies parent = dependency := Except.ok.inj (Examination.eval_lift _ _ _ ▸ hd)
    cases hr : (replies parent).reasonFor .inheritedMutability with
    | none => exact .pure .nil
    | some reason =>
      have hne : reason ≠ .cyclicReference := by
        rintro rfl
        exact hreplies parent .inheritedMutability (by simp) hr
      intro path path'
      simp only [Examination.eval_pure, inheritedMessage_eq hne path path', true_and]
      intro fs hfs
      cases hfs
      exact .singleton hne

variable (hconfig : config.Uncyclic) (hreplies : ∀ name, (replies name).Uncyclic)

theorem steady_none : Inquiry.Steady reads replies Option.toList fun _ => pure none :=
  fun _ _ => ⟨rfl, .nil⟩

theorem steady_found {f : Finding} (h : f.reason ≠ .cyclicReference) :
    Inquiry.Steady reads replies Option.toList fun _ => pure (some f) :=
  fun _ _ => ⟨rfl, .singleton h⟩

theorem steady_dependencyFinding? {d : Dependency} (hd : d.Uncyclic) (location : Location)
    (field : FieldRef) (type : ClassName) :
    Inquiry.Steady reads replies Option.toList fun path =>
      pure (dependencyFinding? ⟨config, path⟩ location field type d) := by
  intro path path'
  unfold dependencyFinding?
  cases hr : d.reasonFor .mutableTypeToField with
  | none => exact ⟨rfl, .nil⟩
  | some r =>
    have hne : r ≠ .cyclicReference := by
      rintro rfl
      exact hd .mutableTypeToField (by simp) hr
    simp only [Option.map_some, storedMessage_eq hne path path', true_and]
    exact .singleton hne

include hconfig hreplies

theorem steady_inspectClass (location : Location) (field : FieldRef) (declared type : ClassName) :
    Inquiry.Steady reads replies Option.toList fun path =>
      inspectClass ⟨config, path⟩ location field declared type := by
  simp only [inspectClass]
  cases hg : config.hardcoded? type with
  | some given =>
    have hgiven := Dependency.uncyclic_resolved (hconfig type given hg)
    exact steady_dependencyFinding? hgiven location field type
  | none =>
    cases config.idiom? type with
    | some idiom => exact steady_found (by simp [collectionFinding])
    | none =>
      refine .factsOf ?_
      by_cases h : (reads type).any fun c => c.access.isInterface || c.access.isAbstract
      · simp only [h, if_true]
        exact steady_found (by simp [abstractFinding])
      · simp only [h, if_false, Bool.false_eq_true]
        exact .mutabilityOf (steady_dependencyFinding? (hreplies type) location field type)

theorem steady_inspectReference (location : Location) (field : FieldRef) (declared : ClassName)
    (type : Option FieldType) (origin : Origin) :
    Inquiry.Steady reads replies Option.toList fun path =>
      inspectReference ⟨config, path⟩ location field declared type origin := by
  simp only [inspectReference]
  cases storedClass? type declared with
  | none =>
    cases config.idiom? declared with
    | none => exact steady_none
    | some idiom =>
      cases h : idiom.classify origin with
      | copiedAndWrapped | notAttempted =>
        simp only [h]
        exact steady_none
      | wrappedWithoutCopy | copiedWithoutWrap =>
        simp only [h]
        exact steady_found (by simp [collectionFinding])
  | some cls =>
    have byClass : Inquiry.Steady reads replies _ _ :=
      steady_inspectClass hconfig hreplies location field declared cls
    cases config.idiom? declared with
    | none => exact byClass
    | some idiom =>
      cases h : idiom.classify origin with
      | copiedAndWrapped =>
        simp only [h]
        exact steady_none
      | wrappedWithoutCopy | copiedWithoutWrap =>
        simp only [h]
        exact steady_found (by simp [collectionFinding])
      | notAttempted =>
        simp only [h]
        exact byClass

theorem steady_inspectStore (location : Location) (field : FieldRef) (value : Value) :
    Examination.Steady reads replies Option.toList fun path =>
      inspectStore ⟨config, path⟩ location field value := by
  unfold inspectStore
  cases value with
  | reference type origin =>
    refine .after fun t _ => ?_
    cases t with
    | object declared =>
      exact .lift (steady_inspectReference hconfig hreplies location field declared type origin)
    | primitive | array => exact .pure .nil
  | top | primitive | null | this | uninitialized => exact .pure .nil

theorem steady_examineStore (c : ClassFacts) (m : Method) (frames : Array (Option Frame))
    (store : Nat × FieldRef) :
    Examination.Steady reads replies Option.toList fun path =>
      examineStore ⟨config, path⟩ c m frames store := by
  unfold examineStore
  split
  · split
    · exact .throw _
    · exact steady_inspectStore hconfig hreplies _ _ _
  · exact .pure .nil

theorem steady_examineStores (c : ClassFacts) (m : Method) :
    Examination.Steady reads replies id fun path => examineStores ⟨config, path⟩ c m := by
  simp only [examineStores]
  by_cases hempty : (ownStores c.name m).isEmpty
  · simp only [hempty, if_true]
    exact .pure .nil
  · simp only [hempty, if_false, Bool.false_eq_true]
    refine .after fun frames _ => ?_
    exact (Examination.Steady.mapM _ fun store =>
      steady_examineStore hconfig hreplies c m frames store).map fun found => by
        induction found with
        | nil => rfl
        | cons o found ih => cases o <;> simp_all

theorem steady_storedValues (c : ClassFacts) :
    Examination.Steady reads replies id fun path => storedValues.examine ⟨config, path⟩ c :=
  (Examination.Steady.mapM c.methods fun m => steady_examineStores hconfig hreplies c m).map
    fun found => by simp [List.flatMap]

omit hconfig hreplies

/-- All checks are steady. -/
theorem steady_of_mem {check : Check} (h : check ∈ all) : check.Steady := by
  simp only [all, List.mem_cons, List.not_mem_nil, or_false] at h
  rcases h with rfl | rfl | rfl | rfl | rfl | rfl | rfl | rfl
  · exact steady_ofFacts uncyclic_extensible
  · exact steady_ofFacts uncyclic_abstract
  · exact steady_inheritance
  · exact steady_ofFacts uncyclic_nonFinal
  · exact steady_ofFacts uncyclic_array
  · exact fun _ _ _ c hconfig hreplies => steady_storedValues hconfig hreplies c
  · exact steady_ofFacts uncyclic_reassignment
  · exact steady_escape

end Check

end Immutability

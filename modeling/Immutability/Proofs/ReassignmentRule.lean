import Immutability.Proofs.Reassignment
import Mathlib.Data.List.Nodup
import Mathlib.Data.Prod.Lex

/-!
# The rule behind reported reassignments

* `FieldStore.pairwise_scan` says that the stores of a method come in the order of its instructions;
* `CallGraph.onlyFromConstructors?_of_mem` says that the call graph knows every method of the class,
  and `CallGraph.mem_calledOutside` which calls it has seen;
* `ClassFacts.Reassigns` is the rule, and `Check.reassignments_exact` says that the check reports
  exactly the stores that fall under it, in their order and each of them once.
-/

namespace Immutability

namespace FieldStore

/-- Stores are listed in the order of instructions. -/
theorem pairwise_scan (index : Nat) (loaded : List Nat) (code : List Instruction) :
    (scan index loaded code).Pairwise fun s t => s.index < t.index := by
  fun_induction scan index loaded code with
  | case1 => exact .nil
  | case2 index loaded kind slot rest ih => exact ih
  | case3 index loaded field rest ih =>
    exact .cons (fun s hs => le_index_of_mem_scan hs) ih
  | case4 index loaded i rest _ _ ih => exact ih

end FieldStore

namespace ClassFacts

/-- Methods are told apart by their names and descriptors. -/
def DistinctMethods (c : ClassFacts) : Prop :=
  (c.methods.map fun m => (m.name, m.descriptor)).Nodup

/-- Some method that is not a constructor calls the method `m`. -/
def CalledOutside (c : ClassFacts) (m : Method) : Prop :=
  ∃ caller ∈ c.methods, caller.isConstructor = false ∧
    ∃ (j : Nat) (kind : CallKind), caller.code[j]? = some (.invoke kind (m.ref c.name))

/-- Instruction `i` of the method `m` stores into a field of the class, after slot 0 has been loaded
with no other store in between, and `m` can run after construction: it is no constructor, and if it
is private, it is called outside of constructors. -/
structure Reassigns (c : ClassFacts) (m : Method) (i : Nat) (field : FieldRef) : Prop where
  nonstatic : m.access.isStatic = false
  notConstructor : m.isConstructor = false
  store : m.code[i]? = some (.putField field)
  owner : field.owner = c.name
  loaded : m.LoadsThis i
  callable : ¬(m.access.isPrivate = true ∧ ¬c.CalledOutside m)

/-- The finding is about a store under the rule; its place is the position of the method in the class
and the instruction. -/
def ReassignedAt (c : ClassFacts) (place : Nat × Nat) (finding : Finding) : Prop :=
  ∃ m field, c.methods[place.1]? = some m ∧ c.Reassigns m place.2 field ∧
    finding = ⟨.fieldCanBeReassigned, c.site m place.2,
      s!"Field [{field.name}] can be reassigned within method [{m.name}]"⟩

end ClassFacts

/-! ### The call graph -/

namespace CallGraph

variable {c : ClassFacts} {m : Method} {r : MethodRef}

theorem mem_callees :
    r ∈ callees m ↔ ∃ (j : Nat) (kind : CallKind), m.code[j]? = some (.invoke kind r) := by
  have hmem : r ∈ callees m ↔ ∃ kind, Instruction.invoke kind r ∈ m.code.toList := by
    unfold callees
    rw [List.mem_filterMap]
    constructor
    · rintro ⟨i, hi, hr⟩
      cases i with
      | invoke kind callee =>
        obtain rfl : callee = r := by simpa using hr
        exact ⟨kind, hi⟩
      | _ => cases hr
    · rintro ⟨kind, hi⟩
      exact ⟨_, hi, rfl⟩
  rw [hmem, exists_comm]
  refine exists_congr fun kind => ?_
  rw [List.mem_iff_getElem?]
  simp

theorem mem_calledOutside :
    (ofClass c).calledOutside.contains (m.ref c.name) = true ↔ c.CalledOutside m := by
  simp only [ofClass, List.contains_iff_mem, List.mem_flatMap, List.mem_filter, mem_callees,
    ClassFacts.CalledOutside, Bool.not_eq_true', and_assoc]

/-- Of methods that can be told apart, each is declared as it is. -/
theorem isPrivate?_of_mem (hc : c.DistinctMethods) (hm : m ∈ c.methods) :
    (ofClass c).isPrivate? (m.ref c.name) = some m.access.isPrivate := by
  obtain ⟨before, after, hsplit⟩ := List.append_of_mem hm
  rw [ClassFacts.DistinctMethods, hsplit, List.map_append, List.map_cons] at hc
  refine List.lookup_eq_some_iff.2
    ⟨(after.map fun m => (m.ref c.name, m.access.isPrivate)).reverse,
      (before.map fun m => (m.ref c.name, m.access.isPrivate)).reverse, ?_, ?_⟩
  · simp [ofClass, hsplit]
  · intro p hp
    obtain ⟨m', hm', rfl⟩ := List.mem_map.1 (List.mem_reverse.1 hp)
    -- the methods declared behind it have other names or descriptors
    have hne : (m.name, m.descriptor) ≠ (m'.name, m'.descriptor) := by
      intro heq
      refine (List.nodup_cons.1 (List.nodup_append.1 hc).2.1).1 ?_
      exact heq ▸ List.mem_map_of_mem hm'
    rw [bne_iff_ne]
    intro href
    exact hne (by simpa [Method.ref] using href)

/-- The call graph knows every method of the class. -/
theorem onlyFromConstructors?_of_mem (hc : c.DistinctMethods) (hm : m ∈ c.methods) :
    (ofClass c).onlyFromConstructors? (m.ref c.name) =
      some (m.access.isPrivate && !(ofClass c).calledOutside.contains (m.ref c.name)) := by
  rw [onlyFromConstructors?, isPrivate?_of_mem hc hm, Option.map_some]

end CallGraph

/-! ### Reported stores -/

namespace Check

variable {c : ClassFacts} {m : Method}

/-- Whether the stores of a method are reported. -/
def reassigning (c : ClassFacts) (m : Method) : Bool :=
  !m.access.isStatic && !m.isConstructor &&
    (!m.access.isPrivate || (CallGraph.ofClass c).calledOutside.contains (m.ref c.name))

/-- The stores of a method that are reported. -/
def reportedStores (c : ClassFacts) (m : Method) : List FieldStore :=
  if reassigning c m then selfStores c.name m else []

theorem reassigning_iff : reassigning c m = true ↔ m.access.isStatic = false ∧
    m.isConstructor = false ∧ ¬(m.access.isPrivate = true ∧ ¬c.CalledOutside m) := by
  simp only [reassigning, Bool.and_eq_true, Bool.or_eq_true, Bool.not_eq_true',
    CallGraph.mem_calledOutside, not_and, not_not, and_assoc]
  cases m.access.isPrivate <;> simp

theorem pairwise_reportedStores (c : ClassFacts) (m : Method) :
    (reportedStores c m).Pairwise fun s t => s.index < t.index := by
  unfold reportedStores
  split_ifs
  · exact (FieldStore.pairwise_scan 0 [] m.code.toList).filter _
  · exact .nil

/-- The reported stores of a method are those under the rule. -/
theorem exists_reportedStore_iff {i : Nat} {field : FieldRef} :
    (∃ s ∈ reportedStores c m, s.index = i ∧ s.field = field) ↔ c.Reassigns m i field := by
  constructor
  · rintro ⟨s, hs, rfl, rfl⟩
    unfold reportedStores at hs
    split_ifs at hs with hreassigning
    · obtain ⟨hstatic, hconstructor, hcallable⟩ := reassigning_iff.1 hreassigning
      obtain ⟨hcode, howner, hloaded⟩ := store_of_mem_selfStores hs
      exact ⟨hstatic, hconstructor, hcode, howner, hloaded, hcallable⟩
    · cases hs
  · intro h
    have hreassigning := reassigning_iff.2 ⟨h.nonstatic, h.notConstructor, h.callable⟩
    obtain ⟨s, hs, rfl⟩ := (exists_selfStore_iff h.store h.owner).2 h.loaded
    refine ⟨s, by rwa [reportedStores, if_pos hreassigning], rfl, ?_⟩
    have hcode := (store_of_mem_selfStores hs).1.symm.trans h.store
    simpa using hcode

/-- What is found in a method are its reported stores. -/
theorem reassignmentsIn_eq_map (hc : c.DistinctMethods) (hm : m ∈ c.methods) :
    reassignmentsIn (.ofClass c) c.name m =
      (reportedStores c m).map (reassignmentFinding c.name m) := by
  have hgraph := CallGraph.onlyFromConstructors?_of_mem hc hm
  by_cases h : reassigning c m = true
  · rw [reportedStores, if_pos h]
    simp only [reassigning, Bool.and_eq_true, Bool.or_eq_true, Bool.not_eq_true'] at h
    obtain ⟨⟨hstatic, hconstructor⟩, hcallable⟩ := h
    refine reassignmentsIn_of_callable hstatic hconstructor (hcallable.imp_right fun hcalled => ?_)
    rw [hgraph, hcalled, Bool.not_true, Bool.and_false]
  · rw [reportedStores, if_neg h, List.map_nil]
    simp only [reassignmentsIn, hgraph]
    simp only [reassigning] at h
    grind

/-- The reported stores of a class, each with its method and the position of the method. -/
def reportedSites (c : ClassFacts) : List ((Method × Nat) × FieldStore) :=
  c.methods.zipIdx.flatMap fun p => (reportedStores c p.1).map (Prod.mk p)

/-- The position of the method and the instruction. -/
def place (site : (Method × Nat) × FieldStore) : Nat × Nat := (site.1.2, site.2.index)

theorem mem_reportedSites {k : Nat} {s : FieldStore} :
    ((m, k), s) ∈ reportedSites c ↔ c.methods[k]? = some m ∧ s ∈ reportedStores c m := by
  simp only [reportedSites, List.mem_flatMap, List.mem_map, Prod.mk.injEq]
  rw [← List.mk_mem_zipIdx_iff_getElem?]
  constructor
  · rintro ⟨p, hp, s, hs, rfl, rfl⟩
    exact ⟨hp, hs⟩
  · rintro ⟨hp, hs⟩
    exact ⟨(m, k), hp, s, hs, rfl, rfl⟩

/-- Reported stores come by method first and by instruction then. -/
theorem pairwise_reportedSites (c : ClassFacts) :
    (reportedSites c).Pairwise fun e e' => Prod.Lex (· < ·) (· < ·) (place e) (place e') := by
  rw [reportedSites, List.pairwise_flatMap]
  constructor
  · intro p _
    rw [List.pairwise_map]
    refine (pairwise_reportedStores c p.1).imp fun {s t} hst => ?_
    exact Prod.Lex.right p.2 hst
  · have hpositions : (c.methods.zipIdx.map Prod.snd).Pairwise (· < ·) := by
      rw [List.zipIdx_map_snd]
      exact List.pairwise_lt_range'
    refine (List.pairwise_map.1 hpositions).imp fun {p q} hpq e he e' he' => ?_
    obtain ⟨s, -, rfl⟩ := List.mem_map.1 he
    obtain ⟨s', -, rfl⟩ := List.mem_map.1 he'
    exact Prod.Lex.left _ _ hpq

theorem reassignmentFindings_eq_map (hc : c.DistinctMethods) :
    reassignmentFindings c =
      (reportedSites c).map fun e => reassignmentFinding c.name e.1.1 e.2 := by
  have hmethods : c.methods = c.methods.zipIdx.map Prod.fst := (List.zipIdx_map_fst 0 _).symm
  rw [reassignmentFindings, reportedSites, List.map_flatMap]
  conv_lhs => rw [hmethods, List.flatMap_map]
  refine List.flatMap_congr fun p hp => ?_
  rw [reassignmentsIn_eq_map hc (List.fst_mem_of_mem_zipIdx hp), List.map_map]
  rfl

theorem reassignedAt_of_mem {e : (Method × Nat) × FieldStore} (h : e ∈ reportedSites c) :
    c.ReassignedAt (place e) (reassignmentFinding c.name e.1.1 e.2) := by
  obtain ⟨hm, hs⟩ := mem_reportedSites.1 h
  exact ⟨_, _, hm, exists_reportedStore_iff.1 ⟨_, hs, rfl, rfl⟩, rfl⟩

theorem mem_map_place_iff {k i : Nat} :
    (k, i) ∈ (reportedSites c).map place ↔
      ∃ m field, c.methods[k]? = some m ∧ c.Reassigns m i field := by
  constructor
  · intro h
    obtain ⟨e, he, hplace⟩ := List.mem_map.1 h
    obtain ⟨m, field, hm, hrule, -⟩ := hplace ▸ reassignedAt_of_mem he
    exact ⟨m, field, hm, hrule⟩
  · rintro ⟨m, field, hm, hrule⟩
    obtain ⟨s, hs, rfl, -⟩ := exists_reportedStore_iff.2 hrule
    exact List.mem_map.2 ⟨((m, k), s), mem_reportedSites.2 ⟨hm, hs⟩, rfl⟩

/-- Different methods of a class can be told apart by the places of findings. -/
theorem nodup_locations (hc : c.DistinctMethods) :
    ((reassignmentFindings c).map Finding.location).Nodup := by
  rw [reassignmentFindings_eq_map hc, List.map_map, List.Nodup, List.pairwise_map]
  refine (pairwise_reportedSites c).imp_of_mem fun {e e'} he he' hlt heq => ?_
  obtain ⟨⟨m, k⟩, s⟩ := e
  obtain ⟨⟨m', k'⟩, s'⟩ := e'
  obtain ⟨hm, -⟩ := mem_reportedSites.1 he
  obtain ⟨hm', -⟩ := mem_reportedSites.1 he'
  obtain ⟨hname, hdescriptor, hindex⟩ :
      m.name = m'.name ∧ m.descriptor = m'.descriptor ∧ s.index = s'.index := by
    simpa [reassignmentFinding] using heq
  have hk : k = k' := by
    have hkey : (c.methods.map fun m => (m.name, m.descriptor))[k]? =
        (c.methods.map fun m => (m.name, m.descriptor))[k']? := by
      simp [hm, hm', hname, hdescriptor]
    have hlt : k < (c.methods.map fun m => (m.name, m.descriptor)).length := by
      rw [List.length_map]
      exact (List.getElem?_eq_some_iff.1 hm).1
    exact (List.getElem?_inj hlt hc).1 hkey
  subst hk
  rcases Prod.lex_iff.1 hlt with hlt | ⟨-, hlt⟩
  · exact Nat.lt_irrefl _ hlt
  · exact Nat.ne_of_lt hlt hindex

/-- The check of field stores never fails and never meets a method that it does not know. It reports
the stores under the rule and no others: by method first and by instruction then, each of them once,
and no two of them at the same place. -/
theorem reassignments_exact (c : ClassFacts) (hc : c.DistinctMethods) :
    (∀ ctx, reassignment.examine ctx c = pure (reassignmentFindings c)) ∧
    (∀ m ∈ c.methods, (CallGraph.ofClass c).onlyFromConstructors? (m.ref c.name) ≠ none) ∧
    ((reassignmentFindings c).map Finding.location).Nodup ∧
    ∃ places : List (Nat × Nat), List.Forall₂ c.ReassignedAt places (reassignmentFindings c) ∧
      places.Pairwise (Prod.Lex (· < ·) (· < ·)) ∧
      ∀ k i, (k, i) ∈ places ↔ ∃ m field, c.methods[k]? = some m ∧ c.Reassigns m i field := by
  refine ⟨fun ctx => rfl, fun m hm => ?_, nodup_locations hc, (reportedSites c).map place, ?_, ?_,
    fun k i => mem_map_place_iff⟩
  · rw [CallGraph.onlyFromConstructors?_of_mem hc hm]
    exact Option.some_ne_none _
  · rw [reassignmentFindings_eq_map hc, List.forall₂_map_left_iff, List.forall₂_map_right_iff,
      List.forall₂_same]
    exact fun e he => reassignedAt_of_mem he
  · exact List.pairwise_map.2 (pairwise_reportedSites c)

/-- A method without parameters that calls another one on the receiver. -/
def caller (name callee : String) : Method :=
  Method.withDerivedLocals
    { name := name, descriptor := "()V", access := .publicFlag, maxLocals := 0
      code := #[.load .reference 0,
        .invoke .special ⟨.ofString "com.acme.Counter", callee, "()V"⟩, .ret none]
      handlers := [] }

/-- A private method that clears a field. -/
def clearing (name : String) : Method :=
  Method.withDerivedLocals
    { name := name, descriptor := "()V", access := .privateFlag, maxLocals := 0
      code := #[.load .reference 0, .constant .int,
        .putField ⟨.ofString "com.acme.Counter", "count", "I"⟩, .ret none]
      handlers := [] }

/-- A class with two private methods that clear a field: the constructor calls one of them, a public
method the other one. -/
def counterClass : ClassFacts :=
  { ClassFacts.named (.ofString "com.acme.Counter") with
    fields := [⟨"count", "I", .privateFlag⟩]
    methods := [caller constructorName "start", clearing "start", caller "reset" "clear",
      clearing "clear"] }

theorem reassignments_exact_counterClass :
    counterClass.DistinctMethods ∧
      ∃ places : List (Nat × Nat),
        List.Forall₂ counterClass.ReassignedAt places (reassignmentFindings counterClass) ∧
        (3, 2) ∈ places ∧ (1, 2) ∉ places := by
  have hdistinct : counterClass.DistinctMethods := by
    unfold ClassFacts.DistinctMethods
    decide +kernel
  obtain ⟨-, -, -, places, hfindings, -, hplaces⟩ := reassignments_exact counterClass hdistinct
  refine ⟨hdistinct, places, hfindings, ?_, ?_⟩
  · rw [hplaces]
    have hcalled : counterClass.CalledOutside (clearing "clear") :=
      ⟨caller "reset" "clear", by simp [counterClass], by decide, 1, .special, rfl⟩
    have hloaded : (clearing "clear").LoadsThis 2 := by
      refine ⟨0, by omega, ⟨.reference, rfl⟩, fun j hj hlt field hstore => ?_⟩
      obtain rfl : j = 1 := by omega
      cases hstore
    exact ⟨clearing "clear", _, rfl, by decide, by decide, rfl, rfl, hloaded, fun h => h.2 hcalled⟩
  · rw [hplaces]
    rintro ⟨m, field, hm, hrule⟩
    obtain rfl : clearing "start" = m := by simpa [counterClass] using hm
    refine hrule.callable ⟨by decide, ?_⟩
    rw [← CallGraph.mem_calledOutside]
    decide +kernel

end Check

end Immutability

import Immutability.Proofs.ClassNames
import Immutability.Proofs.JsonText
import Immutability.Report
import Mathlib.Data.List.Nodup

/-!
# Reports as text

Reading the text of a report gives the report back, whichever reader of JSON is used.

* `Json.members?_obj` and `Json.list?_map` read records and lists;
* each of the types that make up a report has its own `ofJson?_toJson`, and its own
  `fitsIn_toJson`, which says how deep its values are nested;
* `Report.Fits` says that the numbers of a report are machine words, and `Report.roundTrip` that
  such a report is read from its text.
-/

namespace Immutability

/-! ### Values of known shapes -/

namespace Json

theorem countP_key_le_one {members : List (String × Json)} (h : (members.map Prod.fst).Nodup)
    (key : String) : members.countP (·.1 == key) ≤ 1 := by
  have hcount := List.nodup_iff_count_le_one.1 h key
  rwa [List.count_eq_countP, List.countP_map] at hcount

/-- An object without repeated keys has a value for every key, or none. -/
theorem lookups?_of_nodup {members : List (String × Json)} (h : (members.map Prod.fst).Nodup)
    (keys : List String) :
    lookups? keys members = some (keys.map fun key => members.lookup key) := by
  have hall : (keys.all fun key => members.countP (·.1 == key) ≤ 1) = true :=
    List.all_eq_true.2 fun key _ => decide_eq_true (countP_key_le_one h key)
  rw [lookups?, if_pos hall]

theorem members?_obj {members : List (String × Json)} (h : (members.map Prod.fst).Nodup)
    (keys : List String) :
    (obj members).members? keys = some (keys.map fun key => members.lookup key) :=
  lookups?_of_nodup h keys

/-- A list can be read if every item of it can. -/
theorem list?_map {α : Type} {item? : Json → Option α} {write : α → Json} {items : List α}
    (h : ∀ a ∈ items, item? (write a) = some a) :
    list? item? (.arr (items.map write)) = some items := by
  rw [list?]
  induction items with
  | nil => rfl
  | cons a items ih =>
    have hrest := ih fun b hb => h b (List.mem_cons_of_mem _ hb)
    rw [List.map_cons, List.mapM_cons, h a List.mem_cons_self, hrest]
    rfl

theorem count?_num {n : Nat} (h : n < UInt64.size) : count? (num n) = some n := if_pos h

@[simp] theorem string?_str (s : String) : string? (str s) = some s := rfl

section Members

variable {α : Type} (item? : Json → Option α) (default : α) (v : Json)

@[simp] theorem required?_some : required? item? (some v) = item? v := rfl

@[simp] theorem withDefault?_none : withDefault? default item? none = some default := rfl

@[simp] theorem withDefault?_some : withDefault? default item? (some v) = item? v := rfl

end Members

/-! ### Values within bounds -/

section FitsIn

variable (depth : Nat)

@[simp] theorem fitsIn_str (s : String) : (str s).FitsIn depth := by cases depth <;> trivial

theorem fitsIn_num {n : Nat} (h : n < UInt64.size) : (num n).FitsIn depth := by
  have hn : n < 0x10000000000000000 := h
  have hword : -0x8000000000000000 ≤ (n : Int) ∧ (n : Int) < 0x10000000000000000 := by omega
  cases depth <;> exact hword

@[simp] theorem fitsIn_obj (members : List (String × Json)) :
    (obj members).FitsIn (depth + 1) ↔ ∀ m ∈ members, m.2.FitsIn depth := Iff.rfl

@[simp] theorem fitsIn_arr_map {α : Type} (write : α → Json) (items : List α) :
    (arr (items.map write)).FitsIn (depth + 1) ↔ ∀ a ∈ items, (write a).FitsIn depth :=
  List.forall_mem_map

end FitsIn

end Json

@[simp] theorem ClassName.ofJson?_toJson (n : ClassName) : ofJson? n.toJson = some n := by
  simp [ofJson?, toJson, ofString_text]

@[simp] theorem Reason.ofJson?_toJson (r : Reason) : ofJson? r.toJson = some r := by
  cases r <;> rfl

@[simp] theorem Verdict.ofJson?_toJson (v : Verdict) : ofJson? v.toJson = some v := by
  cases v <;> rfl

/-! ### Findings, assessments and failures -/

/-- An instruction index is a machine word. -/
def Location.Fits (l : Location) : Prop :=
  ∀ cls name descriptor i, l = .method cls name descriptor (some i) → i < UInt64.size

theorem Location.ofJson?_toJson {l : Location} (h : l.Fits) : ofJson? l.toJson = some l := by
  cases l with
  | cls name =>
    rw [toJson, ofJson?, Json.lookups?_of_nodup (by simp)]
    simp [Json.members?_obj, List.lookup_cons]
  | field c name =>
    rw [toJson, ofJson?, Json.lookups?_of_nodup (by simp)]
    simp [Json.members?_obj, List.lookup_cons]
  | method c name descriptor instruction =>
    cases instruction with
    | none =>
      rw [toJson, ofJson?, Json.lookups?_of_nodup (by simp)]
      simp [Json.members?_obj, List.lookup_cons]
    | some i =>
      have hcount := Json.count?_num (h c name descriptor i rfl)
      rw [toJson, ofJson?, Json.lookups?_of_nodup (by simp)]
      simp [Json.members?_obj, List.lookup_cons, Json.optional?, hcount]

theorem Location.fitsIn_toJson {l : Location} (h : l.Fits) (depth : Nat) :
    l.toJson.FitsIn (depth + 1) := by
  cases l with
  | cls name => simp [toJson, ClassName.toJson]
  | field c name => simp [toJson, ClassName.toJson]
  | method c name descriptor instruction =>
    cases instruction with
    | none => simp [toJson, ClassName.toJson]
    | some i =>
      have hindex := Json.fitsIn_num depth (h c name descriptor i rfl)
      simp [toJson, ClassName.toJson, hindex]

theorem Finding.ofJson?_toJson {f : Finding} (h : f.location.Fits) : ofJson? f.toJson = some f := by
  have hlocation := Location.ofJson?_toJson h
  rw [toJson, ofJson?, Json.members?_obj (by simp)]
  simp [List.lookup_cons, hlocation]

theorem Finding.fitsIn_toJson {f : Finding} (h : f.location.Fits) (depth : Nat) :
    f.toJson.FitsIn (depth + 2) := by
  simp [toJson, Reason.toJson, Location.fitsIn_toJson h]

theorem Assessment.ofJson?_toJson {a : Assessment} (h : ∀ f ∈ a.findings, f.location.Fits) :
    ofJson? a.toJson = some a := by
  have hfindings : Json.list? Finding.ofJson? (.arr (a.findings.map Finding.toJson)) =
      some a.findings :=
    Json.list?_map fun f hf => Finding.ofJson?_toJson (h f hf)
  rw [toJson, ofJson?, Json.members?_obj (by simp)]
  simp [List.lookup_cons, hfindings]

theorem Assessment.fitsIn_toJson {a : Assessment} (h : ∀ f ∈ a.findings, f.location.Fits)
    (depth : Nat) : a.toJson.FitsIn (depth + 4) := by
  have hfindings : ∀ f ∈ a.findings, f.toJson.FitsIn (depth + 2) := fun f hf =>
    Finding.fitsIn_toJson (h f hf) depth
  simpa [toJson, ClassName.toJson, Verdict.toJson] using hfindings

theorem CheckFailure.ofJson?_toJson (f : CheckFailure) : ofJson? f.toJson = some f := by
  rw [toJson, ofJson?, Json.members?_obj (by simp)]
  simp [List.lookup_cons]

theorem CheckFailure.fitsIn_toJson (f : CheckFailure) (depth : Nat) :
    f.toJson.FitsIn (depth + 1) := by
  simp [toJson, ClassName.toJson]

/-! ### Reports -/

/-- The counts are machine words. -/
structure Summary.Fits (s : Summary) : Prop where
  analysed : s.analysed < UInt64.size
  immutable : s.immutable < UInt64.size
  effectivelyImmutable : s.effectivelyImmutable < UInt64.size
  notImmutable : s.notImmutable < UInt64.size
  couldNotAnalyse : s.couldNotAnalyse < UInt64.size
  errors : s.errors < UInt64.size

theorem Summary.ofJson?_toJson {s : Summary} (h : s.Fits) : ofJson? s.toJson = some s := by
  rw [toJson, ofJson?, Json.members?_obj (by simp)]
  simp [List.lookup_cons, Json.count?_num h.analysed, Json.count?_num h.immutable,
    Json.count?_num h.effectivelyImmutable, Json.count?_num h.notImmutable,
    Json.count?_num h.couldNotAnalyse, Json.count?_num h.errors]

theorem Summary.fitsIn_toJson {s : Summary} (h : s.Fits) (depth : Nat) :
    s.toJson.FitsIn (depth + 1) := by
  simp [toJson, Json.fitsIn_num depth h.analysed, Json.fitsIn_num depth h.immutable,
    Json.fitsIn_num depth h.effectivelyImmutable, Json.fitsIn_num depth h.notImmutable,
    Json.fitsIn_num depth h.couldNotAnalyse, Json.fitsIn_num depth h.errors]

namespace Report

/-- The numbers of the report are machine words. -/
structure Fits (r : Report) : Prop where
  results : ∀ a ∈ r.results, ∀ f ∈ a.findings, f.location.Fits
  summary : r.summary.Fits

/-- A report without errors is written without a list of them. -/
theorem ofJson?_toJson {r : Report} (fits : r.Fits) : ofJson? r.toJson = some r := by
  obtain ⟨version, classpath, results, errors, summary⟩ := r
  have hclasspath : Json.list? Json.string? (.arr (classpath.map Json.str)) = some classpath :=
    Json.list?_map fun _ _ => rfl
  have hresults : Json.list? Assessment.ofJson? (.arr (results.map Assessment.toJson)) =
      some results :=
    Json.list?_map fun a ha => Assessment.ofJson?_toJson (fits.results a ha)
  have herrors : Json.list? CheckFailure.ofJson? (.arr (errors.map CheckFailure.toJson)) =
      some errors :=
    Json.list?_map fun f _ => CheckFailure.ofJson?_toJson f
  have hsummary := Summary.ofJson?_toJson fits.summary
  by_cases hempty : errors = []
  · subst hempty
    rw [toJson, ofJson?, Json.members?_obj (by simp)]
    simp [List.lookup_cons, hclasspath, hresults, hsummary]
  · rw [toJson, ofJson?, Json.members?_obj (by simp [hempty])]
    simp [List.lookup_cons, hempty, hclasspath, hresults, herrors, hsummary]

/-- A report is nested six deep: the location of a finding lies at the bottom. -/
theorem fitsIn_toJson {r : Report} (fits : r.Fits) (depth : Nat) :
    r.toJson.FitsIn (depth + 6) := by
  have hresults : ∀ a ∈ r.results, a.toJson.FitsIn (depth + 4) := fun a ha =>
    Assessment.fitsIn_toJson (fits.results a ha) depth
  have herrors : ∀ f ∈ r.errors, f.toJson.FitsIn (depth + 4) := fun f _ =>
    CheckFailure.fitsIn_toJson f (depth + 3)
  have hsummary := Summary.fitsIn_toJson fits.summary (depth + 4)
  by_cases hempty : r.errors = []
  · simpa [toJson, hempty, hsummary] using hresults
  · simpa [toJson, hempty, hsummary] using ⟨hresults, herrors⟩

/-- Reports survive being written and read: any reader that follows the notation of JSON reads the
text of a report as this report, with its strings, verdicts, reasons, locations and errors as they
were and in the same order. -/
theorem roundTrip (read : String → Option Json) (reads : Json.Reads read) (r : Report)
    (fits : r.Fits) : (read r.text).bind ofJson? = some r := by
  have hparse : Json.parse? r.text = some r.toJson :=
    Json.parse?_pretty r.toJson 0 (List.all_eq_true.1 rfl)
  have hread : read r.text = some r.toJson := reads r.text r.toJson hparse (fitsIn_toJson fits 121)
  rw [hread, Option.bind_some, ofJson?_toJson fits]

/-- A finding about one instruction, with characters that need care. -/
def storeFinding : Finding :=
  ⟨.mutableTypeToField, .method (.ofString "com.acme.Box") "<init>" "()V" (some 4),
    "Field \"x\\y\"\n\tcan be 𝕁."⟩

/-- A report on one class and one failure. -/
def boxReport : Report :=
  .ofResults ["target/classes", ""] .all [⟨.ofString "com.acme.Box", .notImmutable, [storeFinding]⟩]
    [⟨.ofString "com.acme.Box", "escaped_this", "\x1b[0m"⟩]

theorem roundTrip_boxReport : Json.Reads Json.parse? ∧ boxReport.Fits ∧
    (Json.parse? boxReport.text).bind ofJson? = some boxReport := by
  have fits : boxReport.Fits := by
    refine ⟨fun a ha f hf cls name descriptor i hl => ?_, by constructor <;> decide +kernel⟩
    rw [List.mem_singleton.1 (show a ∈ [_] from ha)] at hf
    rw [List.mem_singleton.1 hf] at hl
    cases hl
    decide
  have reads : Json.Reads Json.parse? := fun _ _ hparse _ => hparse
  exact ⟨reads, fits, roundTrip Json.parse? reads boxReport fits⟩

end Report

end Immutability

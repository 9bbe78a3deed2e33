import Immutability.Session
import Mathlib.Data.List.Nodup
import Mathlib.Tactic.SplitIfs

/-!
# What many checks of one class report

The findings of all checks of a class are joined, and their failures are listed.

* `ListsOnce` says that a list has the items of another one, each of them once, in the order of
  their first occurrences; `Outcome.listsOnce_add` says that findings are added in this way;
* `Outcome.enterAll` adds the reports of checks to an outcome;
* `Outcome.Collects` is what is known once checks with the given reports have been made of a class,
  and `Outcome.collects_enterAll` says that this is what is added.
-/

namespace Immutability

/-- The list `kept` has the items of `all`, each of them once, in the order of their first
occurrences. -/
structure ListsOnce (all kept : List Finding) : Prop where
  nodup : kept.Nodup
  mem_iff : ∀ f, f ∈ kept ↔ f ∈ all
  order : kept.Pairwise fun f g => all.idxOf f < all.idxOf g

namespace ListsOnce

variable {all kept : List Finding}

theorem nil : ListsOnce [] [] := ⟨.nil, fun _ => Iff.rfl, .nil⟩

/-- Items that are listed keep their order when another one follows. -/
theorem order_append (h : ListsOnce all kept) (more : List Finding) :
    kept.Pairwise fun f g => (all ++ more).idxOf f < (all ++ more).idxOf g := by
  refine h.order.imp_of_mem fun {f g} hf hg hlt => ?_
  rwa [List.idxOf_append_of_mem ((h.mem_iff f).1 hf), List.idxOf_append_of_mem ((h.mem_iff g).1 hg)]

/-- One more item is put at the end of the list, unless it is there. -/
theorem concat (h : ListsOnce all kept) (f : Finding) :
    ListsOnce (all ++ [f]) (if f ∈ kept then kept else kept ++ [f]) := by
  split_ifs with hf
  · refine ⟨h.nodup, fun g => ?_, h.order_append [f]⟩
    rw [List.mem_append, List.mem_singleton, ← h.mem_iff]
    exact ⟨.inl, fun hg => hg.elim id fun heq => heq ▸ hf⟩
  · refine ⟨?_, fun g => ?_, ?_⟩
    · rw [← List.concat_eq_append]
      exact List.Nodup.concat hf h.nodup
    · rw [List.mem_append, List.mem_append, h.mem_iff]
    · refine List.pairwise_append.2 ⟨h.order_append [f], List.pairwise_singleton _ f, ?_⟩
      intro g hg f' hf'
      obtain rfl := List.mem_singleton.1 hf'
      -- what was listed before occurs before, and the new item does not
      have hgall := (h.mem_iff g).1 hg
      have hfall : f' ∉ all := fun hmem => hf ((h.mem_iff f').2 hmem)
      rw [List.idxOf_append_of_mem hgall, List.idxOf_append_of_notMem hfall]
      exact Nat.lt_of_lt_of_le (List.idxOf_lt_length_of_mem hgall) (Nat.le_add_right _ _)

end ListsOnce

namespace Outcome

variable {cls : ClassName} {report : Check → Except CheckError (List Finding)}
  {checks : List Check} {o : Outcome}

/-- Findings are added one by one, unless they are there. -/
theorem listsOnce_add {all : List Finding} (h : ListsOnce all o.findings) (fs : List Finding) :
    ListsOnce (all ++ fs) (o.add fs).findings := by
  suffices hfold : ∀ kept, ListsOnce all kept → ListsOnce (all ++ fs)
      (fs.foldl (fun all f => if f ∈ all then all else all ++ [f]) kept) from hfold _ h
  clear h
  induction fs generalizing all with
  | nil => simp
  | cons f fs ih =>
    intro kept h
    rw [List.foldl_cons, ← List.singleton_append, ← List.append_assoc]
    exact ih _ (h.concat f)

/-- The outcome with the report of one more check of the class `cls`. -/
def enter (o : Outcome) (cls : ClassName) (check : Check) :
    Except CheckError (List Finding) → Outcome
  | .ok findings => o.add findings
  | .error e => o.fail ⟨cls, check.name, e.message⟩

/-- The outcome with the reports of more checks. -/
def enterAll (o : Outcome) (cls : ClassName) (report : Check → Except CheckError (List Finding))
    (checks : List Check) : Outcome :=
  checks.foldl (fun o check => o.enter cls check (report check)) o

/-- The findings of the checks that do not fail, one check after the other. -/
def reported (report : Check → Except CheckError (List Finding)) (checks : List Check) :
    List Finding :=
  checks.flatMap fun check =>
    match report check with
    | .ok fs => fs
    | .error _ => []

/-- The failure of a check, if it fails. -/
def failure? (cls : ClassName) (report : Check → Except CheckError (List Finding))
    (check : Check) : Option CheckFailure :=
  match report check with
  | .ok _ => none
  | .error e => some ⟨cls, check.name, e.message⟩

/-- What is known once checks with the given reports have been made of the class `cls`: the findings
of those that do not fail, each finding once and in the order of first occurrences, and one failure
for each of the others. -/
structure Collects (cls : ClassName) (report : Check → Except CheckError (List Finding))
    (checks : List Check) (o : Outcome) : Prop where
  nodup : o.findings.Nodup
  mem_iff : ∀ f, f ∈ o.findings ↔ ∃ check ∈ checks, ∃ fs, report check = .ok fs ∧ f ∈ fs
  order : o.findings.Pairwise fun f g =>
    (reported report checks).idxOf f < (reported report checks).idxOf g
  failures : o.failures = checks.filterMap (failure? cls report)

theorem mem_reported {f : Finding} :
    f ∈ reported report checks ↔ ∃ check ∈ checks, ∃ fs, report check = .ok fs ∧ f ∈ fs := by
  unfold reported
  rw [List.mem_flatMap]
  refine exists_congr fun check => and_congr_right fun _ => ?_
  cases report check <;> simp

theorem enterAll_cons {check : Check} :
    o.enterAll cls report (check :: checks) =
      (o.enter cls check (report check)).enterAll cls report checks := rfl

theorem listsOnce_enterAll {all : List Finding} (h : ListsOnce all o.findings) :
    ListsOnce (all ++ reported report checks) (o.enterAll cls report checks).findings := by
  induction checks generalizing o all with
  | nil => simpa [reported, enterAll] using h
  | cons check checks ih =>
    rw [enterAll_cons, reported, List.flatMap_cons]
    cases hreport : report check with
    | ok fs =>
      rw [← List.append_assoc]
      exact ih (listsOnce_add h fs)
    | error e => exact ih h

theorem failure?_eq_none {check : Check} :
    failure? cls report check = none ↔ ∃ fs, report check = .ok fs := by
  unfold failure?
  cases report check <;> simp

theorem failures_enterAll :
    (o.enterAll cls report checks).failures =
      o.failures ++ checks.filterMap (failure? cls report) := by
  induction checks generalizing o with
  | nil => simp [enterAll]
  | cons check checks ih =>
    rw [enterAll_cons, ih]
    cases hreport : report check with
    | ok fs => simp [enter, add, failure?, hreport]
    | error e => simp [enter, fail, failure?, hreport]

theorem collects_enterAll (cls : ClassName) (report : Check → Except CheckError (List Finding))
    (checks : List Check) : Collects cls report checks (empty.enterAll cls report checks) := by
  have h : ListsOnce (reported report checks) (empty.enterAll cls report checks).findings := by
    have hnil : ListsOnce [] empty.findings := .nil
    exact listsOnce_enterAll hnil
  refine ⟨h.nodup, fun f => (h.mem_iff f).trans mem_reported, h.order, ?_⟩
  simp [failures_enterAll, empty]

end Outcome

end Immutability

import Immutability.Proofs.Paths
import Mathlib.Data.DFinsupp.WellFounded

/-!
# Serving the instructions of a method

The pending instructions of a flow may be served in any order, and no limit is needed: a frame can
change only as often as its entries can get closer to the top of their order.

* `FrameFlow.Run` is a row of turns, in each of which one pending instruction is served;
* `FrameFlow.Counted` is the invariant behind the bound: what has been served or is pending is paid
  for by the ranks that frames have lost;
* `FrameFlow.wellFounded_turn` says that every row of turns ends;
* `FrameFlow.ServeFault` lists the reasons why an instruction cannot be served;
* `FrameFlow.exists_run_of_settle` says that the flow of a method is a row of turns, and
  `FrameFlow.Stops` how it ends;
* `Method.visits_bounded` says how often an instruction is served.
-/

namespace Immutability

namespace FrameFlow

variable {n : Nat}

/-- The flow in which an instruction is not pending any more. -/
def without (s : FrameFlow n) (i : Fin n) : FrameFlow n := { s with pending := s.pending.erase i }

/-- Of the pending instructions, the one that has waited longest is served next. -/
def FirstCome (s : FrameFlow n) (i : Fin n) : Prop := s.pending.head? = some i

variable {cls : ClassName} {m : Method} {s s' : FrameFlow m.code.size} {i : Fin m.code.size}

/-- One pending instruction is served. -/
def Turn (cls : ClassName) (m : Method) (s s' : FrameFlow m.code.size) : Prop :=
  ∃ i ∈ s.pending, serve cls m (s.without i) i = .ok s'

/-- In turn, the pending instructions `taken`, the last one first, are served, which leads from the
flow `s₀` to another one. Which instructions may be served next is up to `picks`. -/
inductive Run (cls : ClassName) (m : Method)
    (picks : FrameFlow m.code.size → Fin m.code.size → Prop) (s₀ : FrameFlow m.code.size) :
    List (Fin m.code.size) → FrameFlow m.code.size → Prop
  | start : Run cls m picks s₀ [] s₀
  | turn {taken : List (Fin m.code.size)} {s s' : FrameFlow m.code.size} {i : Fin m.code.size}
    (run : Run cls m picks s₀ taken s) (pending : i ∈ s.pending) (picked : picks s i)
    (serves : serve cls m (s.without i) i = .ok s') : Run cls m picks s₀ (i :: taken) s'

variable {picks : FrameFlow m.code.size → Fin m.code.size → Prop} {s₀ : FrameFlow m.code.size}
  {taken : List (Fin m.code.size)}

/-! ### What runs preserve -/

theorem valid_turn {entry : Frame} (hs : Valid m entry s)
    (h : serve cls m (s.without i) i = .ok s') : Valid m entry s' := by
  refine hs.serve (fun j hj => ?_) h
  by_cases hji : j = i
  · exact .inl hji
  · exact .inr ((List.mem_erase_of_ne hji).2 hj)

theorem Run.valid {code : 0 < m.code.size} {entry : Frame}
    (h : Run cls m picks (.start code entry) taken s) : Valid m entry s := by
  induction h with
  | start => exact valid_start code entry
  | turn _ _ _ serves ih => exact valid_turn ih serves

/-- The frames of instructions only grow, so that their stacks keep their heights. -/
theorem Run.height_eq (h : Run cls m picks s₀ taken s) {f : Frame}
    (hf : s₀.frames[(i : Nat)]? = some (some f)) :
    ∃ g, s.frames[(i : Nat)]? = some (some g) ∧ g.stack.length = f.stack.length := by
  have hcovers : s.Covers i f := by
    induction h with
    | start => exact covers_iff.2 ⟨f, hf, .refl f⟩
    | turn _ _ _ serves ih => exact serve_covers serves ih
  obtain ⟨g, hg, habsorbs⟩ := covers_iff.1 hcovers
  exact ⟨g, hg, (Frame.absorbs_iff.1 habsorbs).1⟩

/-! ### Counting turns -/

theorem count_pending_record (s : FrameFlow n) (i j : Fin n) (f : Frame) :
    (s.record i f).pending.count j ≤ s.pending.count j + if i = j then 1 else 0 := by
  simp only [record]
  split
  · exact Nat.le_add_right _ _
  · simp [List.count_append, List.count_singleton, beq_iff_eq]

/-- Every turn that has been taken or is due has been paid for: the first one when the instruction
got its frame, and each of the others when the frame lost in rank. -/
structure Counted (locals : Nat) (taken : List (Fin n)) (s : FrameFlow n) : Prop where
  known : ∀ i : Fin n, i ∈ taken ∨ i ∈ s.pending → ∃ f, s.frames[(i : Nat)]? = some (some f)
  bound : ∀ (i : Fin n) (f : Frame), s.frames[(i : Nat)]? = some (some f) →
    taken.count i + s.pending.count i + f.rank ≤ 1 + 5 * (locals + f.stack.length)

namespace Counted

variable {s s' : FrameFlow n} {taken : List (Fin n)} {locals : Nat}

theorem record {i : Fin n} {f : Frame} (hs : Counted locals taken s)
    (hf : taken.count i + s.pending.count i + 1 + f.rank ≤ 1 + 5 * (locals + f.stack.length)) :
    Counted locals taken (s.record i f) where
  known j hj := by
    rw [getElem?_record]
    split_ifs with hij
    · exact ⟨f, rfl⟩
    · refine hs.known j (hj.imp_right fun hj => ?_)
      have hcount := count_pending_record s i j f
      rw [if_neg fun h => hij (congrArg Fin.val h), Nat.add_zero] at hcount
      exact List.count_pos_iff.1 (Nat.lt_of_lt_of_le (List.count_pos_iff.2 hj) hcount)
  bound j g hg := by
    have hcount := count_pending_record s i j f
    rw [getElem?_record] at hg
    split_ifs at hg with hij
    · cases hg
      obtain rfl : i = j := Fin.ext hij
      rw [if_pos rfl] at hcount
      omega
    · have := hs.bound j g hg
      rw [if_neg fun h => hij (congrArg Fin.val h)] at hcount
      omega

/-- The step: a frame that has reached an instruction is the first one there, or makes the known one
lose in rank, or changes nothing. -/
theorem reach {t : Nat} {a : Frame} (hs : Counted locals taken s) (ha : a.locals.size = locals)
    (h : s.reach t a = .ok s') : Counted locals taken s' := by
  obtain ⟨ht, ⟨hnone, rfl⟩ | ⟨known, merged, hknown, hmerged, rfl⟩⟩ := reach_cases h
  · have hnew : ¬(⟨t, ht⟩ ∈ taken ∨ ⟨t, ht⟩ ∈ s.pending) := by
      intro hmem
      obtain ⟨f, hf⟩ := hs.known ⟨t, ht⟩ hmem
      cases hnone.symm.trans hf
    rw [not_or] at hnew
    have hrank := a.rank_bounds.2
    rw [ha] at hrank
    refine hs.record ?_
    rw [List.count_eq_zero_of_not_mem hnew.1, List.count_eq_zero_of_not_mem hnew.2]
    omega
  · split_ifs with heq
    · exact hs
    · have hrank := Frame.rank_merge_lt hmerged heq
      have hbound := hs.bound ⟨t, ht⟩ known hknown
      have hheight : merged.stack.length = known.stack.length :=
        (Frame.absorbs_iff.1 (Frame.absorbs_of_merge hmerged).1).1
      refine hs.record ?_
      rw [hheight]
      omega

/-- An instruction that is taken is not due any more. -/
theorem take {i : Fin n} (hs : Counted locals taken s) (hi : i ∈ s.pending) :
    Counted locals (i :: taken) (s.without i) where
  known j hj := by
    refine hs.known j ?_
    rcases hj with hj | hj
    · rcases List.mem_cons.1 hj with rfl | hj
      · exact .inr hi
      · exact .inl hj
    · exact .inr (List.mem_of_mem_erase hj)
  bound j f hf := by
    have hbound := hs.bound j f hf
    have hpos := List.count_pos_iff.2 hi
    simp only [without, List.count_cons, List.count_erase, beq_iff_eq]
    by_cases hij : i = j
    · subst hij
      simp only [if_true]
      omega
    · simp only [hij, if_false]
      omega

end Counted

theorem counted_start (code : 0 < m.code.size) (entry : Frame) :
    Counted entry.locals.size [] (.start code entry) where
  known i hi := by
    obtain rfl : i = ⟨0, code⟩ := by simpa [FrameFlow.start] using hi
    exact ⟨entry, (getElem?_start code entry _ _).2 ⟨rfl, rfl⟩⟩
  bound i f hf := by
    obtain ⟨-, rfl⟩ := (getElem?_start code entry i f).1 hf
    have hrank := f.rank_bounds.2
    have hcount : (FrameFlow.start code f).pending.count i ≤ 1 := List.count_le_length
    simp only [List.count_nil]
    omega

/-- The run: all turns are paid for. -/
theorem Run.counted {code : 0 < m.code.size} {entry : Frame}
    (h : Run cls m picks (.start code entry) taken s) : Counted entry.locals.size taken s := by
  induction h with
  | start => exact counted_start code entry
  | @turn taken s s' i run pending _ serves ih =>
    obtain ⟨f, hf⟩ := ih.known i (.inr pending)
    have hsize : f.locals.size = entry.locals.size := run.valid.uniform i f hf
    refine serve_induction (s := s.without i) hf (fun t a s₁ s₂ hpass hs₁ hreach => ?_)
      (ih.take pending) serves
    exact hs₁.reach (hpass.locals_size.trans hsize) hreach

/-- An instruction is served at most once for its first frame and four times for each entry. -/
theorem Run.visits_le {code : 0 < m.code.size} {entry f : Frame}
    (h : Run cls m picks (.start code entry) taken s) (hf : s.frames[(i : Nat)]? = some (some f)) :
    taken.count i + s.pending.count i ≤ 1 + 4 * (entry.locals.size + f.stack.length) := by
  have hbound := h.counted.bound i f hf
  have hrank := f.rank_bounds.1
  have hsize : f.locals.size = entry.locals.size := h.valid.uniform i f hf
  omega

/-! ### Every row of turns ends -/

/-- The rank of the frame known before each instruction, and more than that where none is known. -/
def rankAt (s : FrameFlow n) (i : Fin n) : WithTop Nat :=
  (s.frames[(i : Nat)]?.join).elim ⊤ fun f => WithTop.some f.rank

theorem rankAt_record (s : FrameFlow n) (i : Fin n) (f : Frame) :
    (s.record i f).rankAt = Function.update s.rankAt i (WithTop.some f.rank) := by
  funext j
  rw [Function.update_apply, rankAt, getElem?_record]
  by_cases hji : j = i
  · rw [if_pos (congrArg Fin.val hji.symm), if_pos hji]
    rfl
  · rw [if_neg fun h => hji (Fin.ext h).symm, if_neg hji]
    rfl

/-- A frame that has reached an instruction changes nothing, or makes a rank smaller. -/
theorem rankAt_reach {s s' : FrameFlow n} {t : Nat} {a : Frame} (h : s.reach t a = .ok s') :
    s' = s ∨ s'.rankAt < s.rankAt := by
  obtain ⟨ht, ⟨hnone, rfl⟩ | ⟨known, merged, hknown, hmerged, rfl⟩⟩ := reach_cases h
  · refine .inr ?_
    rw [rankAt_record, update_lt_self_iff, rankAt, hnone]
    exact WithTop.coe_lt_top _
  · split_ifs with heq
    · exact .inl rfl
    · refine .inr ?_
      rw [rankAt_record, update_lt_self_iff, rankAt, hknown]
      exact WithTop.coe_lt_coe.2 (Frame.rank_merge_lt hmerged heq)

/-- An instruction that has been served is not pending any more, or some rank is smaller. -/
theorem rankAt_serve (h : serve cls m s i = .ok s') : s' = s ∨ s'.rankAt < s.rankAt := by
  cases hf : s.frames[i] with
  | none => exact .inl (serve_of_none (by simpa using hf) h)
  | some f =>
    refine serve_induction (Q := fun s₁ => s₁ = s ∨ s₁.rankAt < s.rankAt) (f := f)
      (by simpa using hf) (fun t a s₁ s₂ _ hs₁ hreach => ?_) (.inl rfl) h
    rcases rankAt_reach hreach with rfl | hlt
    · exact hs₁
    · rcases hs₁ with rfl | hlt'
      · exact .inr hlt
      · exact .inr (hlt.trans hlt')

theorem wellFounded_turn (cls : ClassName) (m : Method) :
    WellFounded fun s' s => Turn cls m s s' := by
  -- a turn in which no rank gets smaller leaves fewer instructions pending
  refine Subrelation.wf ?_ (InvImage.wf (fun s => (s.rankAt, s.pending.length))
    (WellFounded.prod_lex wellFounded_lt Nat.lt_wfRel.wf))
  rintro s' s ⟨i, hi, hserve⟩
  rcases rankAt_serve hserve with rfl | hlt
  · refine Prod.Lex.right _ ?_
    rw [without, List.length_erase_of_mem hi]
    exact Nat.sub_lt (List.length_pos_of_mem hi) Nat.one_pos
  · exact Prod.Lex.left _ _ hlt

/-! ### The limit -/

theorem exists_of_reach_error {s : FrameFlow n} {t : Nat} {a : Frame} {e : FlowError}
    (h : s.reach t a = .error e) :
    e = .target t ∨ ∃ known incoming, e = .height known incoming := by
  unfold reach at h
  split_ifs at h
  · split at h
    · cases h
    · split at h
      · cases h
        exact .inr ⟨_, _, rfl⟩
      · cases h
  · cases h
    exact .inl rfl

/-- Why an instruction cannot be served: what it passes on does not fit where it goes, it cannot be
executed, or it is the last one and does not end the method. -/
inductive ServeFault (cls : ClassName) (m : Method) (s : FrameFlow m.code.size)
    (i : Fin m.code.size) : FlowError → Prop
  | target (t : Nat) : ServeFault cls m s i (.target t)
  | height (known incoming : Nat) : ServeFault cls m s i (.height known incoming)
  | step {f : Frame} {instruction : Instruction} {cause : StepError}
    (known : s.frames[(i : Nat)]? = some (some f)) (code : m.code[(i : Nat)]? = some instruction)
    (fails : f.step i instruction = .error cause) : ServeFault cls m s i (.step (m.ref cls) i cause)
  | fallsOff : ServeFault cls m s i (.fallsOff (m.ref cls))

theorem serveFault_of_reach {s₁ : FrameFlow m.code.size} {t : Nat} {a : Frame} {e : FlowError}
    (h : s₁.reach t a = .error e) : ServeFault cls m s i e := by
  rcases exists_of_reach_error h with rfl | ⟨known, incoming, rfl⟩
  · exact .target t
  · exact .height known incoming

theorem serveFault_of_serve {e : FlowError} (h : serve cls m s i = .error e) :
    ServeFault cls m s i e := by
  unfold serve at h
  split at h
  · cases h
  · next f hf =>
    have hcode : m.code[(i : Nat)]? = some m.code[i] := Array.getElem?_eq_getElem i.isLt
    rcases bind_eq_error.1 h with h | ⟨s₁, -, h⟩
    · obtain ⟨s', handler, -, h⟩ := exists_of_foldlM_error h
      exact serveFault_of_reach h
    rcases bind_eq_error.1 h with h | ⟨a, -, h⟩
    · cases hstep : f.step i m.code[i] with
      | ok a =>
        rw [hstep] at h
        cases h
      | error cause =>
        rw [hstep] at h
        cases h
        exact .step (by simpa using hf) hcode hstep
    rcases bind_eq_error.1 h with h | ⟨s₂, -, h⟩
    · obtain ⟨s', t, -, h⟩ := exists_of_foldlM_error h
      exact serveFault_of_reach h
    split_ifs at h
    · exact serveFault_of_reach h
    · cases h
      exact .fallsOff
    · cases h

/-- An instruction that cannot be served is not the reason for the limit. -/
theorem serve_ne_diverged (method : MethodRef) (j : Nat) :
    serve cls m s i ≠ .error (.diverged method j) := by
  intro h
  cases serveFault_of_serve h

/-- How a flow stops that serves first come, first served, each instruction at most `limit` times:
nothing is pending, or the next instruction has been served that often, or it cannot be served. -/
inductive Stops (cls : ClassName) (m : Method) (limit : Nat) (taken : List (Fin m.code.size))
    (s : FrameFlow m.code.size) : Except FlowError (Vector (Option Frame) m.code.size) → Prop
  | settled (pending : s.pending = []) : Stops cls m limit taken s (.ok s.frames)
  | exhausted {i : Fin m.code.size} (next : FirstCome s i) (often : taken.count i = limit) :
    Stops cls m limit taken s (.error (.diverged (m.ref cls) i))
  | failed {i : Fin m.code.size} {e : FlowError} (next : FirstCome s i)
    (fails : serve cls m (s.without i) i = .error e) : Stops cls m limit taken s (.error e)

/-- What the flow of a method does: it takes turns until it stops. -/
theorem exists_run_of_settle {left : Vector Nat m.code.size} {limit : Nat}
    (hrun : Run cls m FirstCome s₀ taken s)
    (hleft : ∀ i : Fin m.code.size, ∃ k, left[(i : Nat)]? = some k ∧ k + taken.count i = limit) :
    ∃ taken s', Run cls m FirstCome s₀ taken s' ∧
      Stops cls m limit taken s' (settle cls m s left) := by
  fun_induction settle cls m s left generalizing taken with
  | case1 s left hnil => exact ⟨taken, s, hrun, .settled hnil⟩
  | case2 s left i pending hpending hzero =>
    obtain ⟨k, hk, hcount⟩ := hleft i
    have hval : left[i] = k := by simpa using hk
    exact ⟨taken, s, hrun, .exhausted (by simp [FirstCome, hpending]) (by omega)⟩
  | case3 s left i pending hpending k hk e hserve =>
    refine ⟨taken, s, hrun, .failed (i := i) (by simp [FirstCome, hpending]) ?_⟩
    simpa [without, hpending] using hserve
  | case4 s left i pending hpending k hk s' hserve ih =>
    have hturn : Run cls m FirstCome s₀ (i :: taken) s' := by
      refine hrun.turn (i := i) ?_ ?_ ?_
      · simp [hpending]
      · simp [FirstCome, hpending]
      · simpa [without, hpending] using hserve
    refine ih hturn fun t => ?_
    obtain ⟨kt, hkt, hcount⟩ := hleft t
    rw [Vector.getElem?_set]
    by_cases hit : i = t
    · subst hit
      have hval : left[i] = kt := by simpa using hkt
      exact ⟨k, if_pos rfl, by rw [List.count_cons_self]; omega⟩
    · refine ⟨kt, ?_, by rwa [List.count_cons_of_ne hit]⟩
      rwa [if_neg fun h => hit (Fin.ext h)]

/-- A flow in which no frame has more than fifteen entries does not run into the limit. -/
theorem Stops.ne_diverged {code : 0 < m.code.size} {entry : Frame}
    {outcome : Except FlowError (Vector (Option Frame) m.code.size)}
    (hrun : Run cls m picks (.start code entry) taken s)
    (hstops : Stops cls m visitLimit taken s outcome)
    (hsmall : ∀ (t : Nat) (f : Frame), s.frames[t]? = some (some f) →
      entry.locals.size + f.stack.length ≤ 15)
    (method : MethodRef) (j : Nat) : outcome ≠ .error (.diverged method j) := by
  rintro rfl
  cases hstops with
  | @exhausted i next often =>
    have hpending : i ∈ s.pending := List.mem_of_head? next
    obtain ⟨f, hf⟩ := hrun.counted.known i (.inr hpending)
    -- once more than the limit
    have hvisits := hrun.visits_le hf
    have hdue := List.count_pos_iff.2 hpending
    have hentries := hsmall i f hf
    rw [often, visitLimit] at hvisits
    omega
  | failed next fails => exact serve_ne_diverged method j fails

end FrameFlow

namespace Method

/-- The outcome for a method is that of its flow. -/
theorem frames_eq_map (m : Method) (cls : ClassName) {entry : Frame} (code : 0 < m.code.size)
    (hentry : Frame.entry m = .ok entry) :
    m.frames cls =
      (FrameFlow.settle cls m (.start code entry) (.replicate _ FrameFlow.visitLimit)).map
        fun frames => frames.toArray := by
  rw [Method.frames, dif_pos code, hentry]
  cases h : FrameFlow.settle cls m (.start code entry) (.replicate _ FrameFlow.visitLimit) with
  | error e =>
    simp only [Except.mapError, bind, Except.bind, h]
    rfl
  | ok frames =>
    simp only [Except.mapError, bind, Except.bind, h]
    rfl

open FrameFlow in
/-- The frames of a method come from a row of turns, each for the instruction that has waited
longest. -/
theorem exists_run {m : Method} {entry : Frame} (cls : ClassName) (code : 0 < m.code.size)
    (hentry : Frame.entry m = .ok entry) :
    ∃ taken s outcome, Run cls m FirstCome (.start code entry) taken s ∧
      Stops cls m visitLimit taken s outcome ∧
      m.frames cls = outcome.map (fun frames => frames.toArray) := by
  have hleft : ∀ i : Fin m.code.size, ∃ k,
      (Vector.replicate m.code.size visitLimit)[(i : Nat)]? = some k ∧
        k + List.count i [] = visitLimit :=
    fun i => ⟨visitLimit, by simp, rfl⟩
  have hstart : Run cls m FirstCome (.start code entry) [] (.start code entry) := .start
  obtain ⟨taken, s, hrun, hstops⟩ := exists_run_of_settle hstart hleft
  exact ⟨taken, s, _, hrun, hstops, frames_eq_map m cls code hentry⟩

open FrameFlow in
/-- The flow of frames comes to rest by itself. In whichever order the pending instructions are
served, an instruction with a frame of `l` local slots and `k` stack entries is served at most
`1 + 4 * (l + k)` times, where neither number changes on the way, and no row of turns goes on for
ever. The frames of a method come from such a row, which does not run into the limit as long as no
frame has more than fifteen entries. -/
theorem visits_bounded (m : Method) (cls : ClassName) (entry : Frame)
    (code : 0 < m.code.size) (hentry : Frame.entry m = .ok entry) :
    (∀ picks taken s, Run cls m picks (.start code entry) taken s →
      ∀ i : Fin m.code.size, i ∈ taken ∨ i ∈ s.pending →
        ∃ f, s.frames[(i : Nat)]? = some (some f) ∧ f.locals.size = entry.locals.size ∧
          taken.count i + s.pending.count i ≤ 1 + 4 * (entry.locals.size + f.stack.length)) ∧
    (∀ picks s₀ taken s, Run cls m picks s₀ taken s →
      ∀ (i : Fin m.code.size) (f : Frame), s₀.frames[(i : Nat)]? = some (some f) →
        ∃ g, s.frames[(i : Nat)]? = some (some g) ∧ g.stack.length = f.stack.length) ∧
    WellFounded (fun s' s => Turn cls m s s') ∧
    ∃ taken s outcome, Run cls m FirstCome (.start code entry) taken s ∧
      Stops cls m visitLimit taken s outcome ∧
      m.frames cls = outcome.map (fun frames => frames.toArray) ∧
      ((∀ (t : Nat) (f : Frame), s.frames[t]? = some (some f) →
          entry.locals.size + f.stack.length ≤ 15) →
        ∀ method j, m.frames cls ≠ .error (.diverged method j)) := by
  refine ⟨fun picks taken s hrun i hi => ?_, fun picks s₀ taken s hrun i f hf => hrun.height_eq hf,
    wellFounded_turn cls m, ?_⟩
  · obtain ⟨f, hf⟩ := hrun.counted.known i hi
    exact ⟨f, hf, hrun.valid.uniform i f hf, hrun.visits_le hf⟩
  · obtain ⟨taken, s, outcome, hrun, hstops, hframes⟩ := exists_run cls code hentry
    refine ⟨taken, s, outcome, hrun, hstops, hframes, fun hsmall method j hdiverged => ?_⟩
    rw [hframes] at hdiverged
    cases outcome with
    | ok frames => cases hdiverged
    | error e =>
      cases hdiverged
      exact hstops.ne_diverged hrun hsmall method j rfl

theorem visits_bounded_lookupLoop :
    ∃ (entry : Frame) (code : 0 < lookupLoop.code.size), Frame.entry lookupLoop = .ok entry ∧
      WellFounded (fun s' s => FrameFlow.Turn .object lookupLoop s s') ∧
      ∀ picks taken s,
        FrameFlow.Run .object lookupLoop picks (.start code entry) taken s →
        ∀ i : Fin lookupLoop.code.size, i ∈ taken ∨ i ∈ s.pending →
          ∃ f, s.frames[(i : Nat)]? = some (some f) ∧ f.locals.size = entry.locals.size ∧
            taken.count i + s.pending.count i ≤
              1 + 4 * (entry.locals.size + f.stack.length) := by
  have hok : (Frame.entry lookupLoop).toOption.isSome = true := by decide +kernel
  obtain ⟨entry, hmem⟩ := Option.isSome_iff_exists.1 hok
  have hentry := mem_toOption_iff.1 hmem
  have hcode : 0 < lookupLoop.code.size := by decide
  obtain ⟨hvisits, -, hends, -⟩ := visits_bounded lookupLoop .object entry hcode hentry
  exact ⟨entry, hcode, hentry, hends, hvisits⟩

end Method

end Immutability

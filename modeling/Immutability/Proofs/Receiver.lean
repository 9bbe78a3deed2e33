import Immutability.Proofs.Covering
import Immutability.Proofs.Paths

/-!
# Where the receiver is

The frame of a method before an instruction stands for the frames that arrive there along the paths
through the method. As long as no entry of an operand stack gets lost, it shows the receiver exactly
where some path brings the receiver and every other one brings it or the null reference.

* `Method.Combined` are the frames that stand for frames of paths, and `Method.combined_of_frames`
  says that all frames of a method are of this kind;
* `Method.covers_of_path` says that no path is left out;
* `Method.ThisAt` says that the paths agree on the receiver, and `Method.peek_eq_this_iff` that the
  frames of the method show the receiver exactly there.
-/

namespace Immutability

namespace Method

variable {m : Method} {cls : ClassName} {frames : Array (Option Frame)} {i t : Nat}

theorem Path.locals_size {f entry : Frame} (h : m.Path i f) (hentry : Frame.entry m = .ok entry) :
    f.locals.size = entry.locals.size := by
  induction h with
  | start hf =>
    cases hf.symm.trans hentry
    rfl
  | pass _ passes ih => exact passes.locals_size.trans ih

/-- Frames of which one stands for the other two are passed on in the same way. -/
theorem Passes.unites {f g u c : Frame} (h : m.Passes i u t c) (hunites : f.Unites g u)
    (hu : u.Definite) : ∃ a b, m.Passes i f t a ∧ m.Passes i g t b ∧ a.Unites b c := by
  cases h with
  | jump code step target =>
    obtain ⟨a, b, ha, hb, hab⟩ := Frame.unites_step hunites hu _ _ c step
    exact ⟨a, b, .jump code ha target, .jump code hb target, hab⟩
  | next code step falls =>
    obtain ⟨a, b, ha, hb, hab⟩ := Frame.unites_step hunites hu _ _ c step
    exact ⟨a, b, .next code ha falls, .next code hb falls, hab⟩
  | handler mem covers =>
    exact ⟨_, _, .handler mem covers, .handler mem covers,
      hunites.locals, .cons (.refl _) .nil⟩

/-- A frame for which the frame of the method may stand is passed on in the same way. -/
theorem Passes.covered {f g a : Frame} (h : m.Passes i f t a)
    (served : FrameFlow.Served m frames i g) (hcovers : g.Covers f) (hg : g.Definite) :
    ∃ c, m.Passes i g t c ∧ c.Covers a := by
  obtain ⟨instruction, c, hcode, hc, -⟩ := served.step
  obtain ⟨b, c', hb, -, hbc⟩ := Frame.unites_step hcovers.unites hg i instruction c hc
  cases h with
  | jump code step target =>
    cases hcode.symm.trans code
    cases hb.symm.trans step
    exact ⟨c, .jump hcode hc target, .of_unites hbc⟩
  | next code step falls =>
    cases hcode.symm.trans code
    cases hb.symm.trans step
    exact ⟨c, .next hcode hc falls, .of_unites hbc⟩
  | handler mem covers => exact ⟨_, .handler mem covers, hcovers.1, .cons (.refl _) .nil⟩

/-- The frames that stand for frames of paths to instruction `i`. -/
inductive Combined (m : Method) (i : Nat) : Frame → Prop
  | path {f : Frame} (path : m.Path i f) : Combined m i f
  | unite {f g u : Frame} (left : Combined m i f) (right : Combined m i g)
    (unites : f.Unites g u) : Combined m i u

namespace Combined

theorem locals_size {f entry : Frame} (h : m.Combined i f) (hentry : Frame.entry m = .ok entry) :
    f.locals.size = entry.locals.size := by
  induction h with
  | path h => exact h.locals_size hentry
  | unite _ _ unites ihf _ => exact unites.locals_size.symm.trans ihf

theorem exists_entry {f : Frame} (h : m.Combined i f) : ∃ entry, Frame.entry m = .ok entry := by
  induction h with
  | path h =>
    induction h with
    | start entry => exact ⟨_, entry⟩
    | pass _ _ ih => exact ih
  | unite _ _ _ ih _ => exact ih

theorem passes {f a : Frame} (h : m.Combined i f) (hf : f.Definite) (hpass : m.Passes i f t a) :
    m.Combined t a := by
  induction h generalizing a with
  | path h => exact .path (h.pass hpass)
  | unite _ _ hunites ihf ihg =>
    obtain ⟨b, c, hb, hc, hbc⟩ := hpass.unites hunites hf
    have hdefinite := hunites.definite hf
    exact .unite (ihf hdefinite.1 hb) (ihg hdefinite.2 hc) hbc

theorem mergeClosed : FrameFlow.MergeClosed m.Combined := by
  intro t f g h hf hg hmerge
  obtain ⟨entry, hentry⟩ := hf.exists_entry
  have hsize := (hf.locals_size hentry).trans (hg.locals_size hentry).symm
  exact .unite hf hg (Frame.unites_merge hmerge hsize)

/-- The receiver comes from a path. -/
theorem exists_path {f : Frame} {d : Nat} (h : m.Combined i f) (hf : f.peek d = some .this) :
    ∃ g, m.Path i g ∧ g.peek d = some .this := by
  induction h with
  | path h => exact ⟨_, h, hf⟩
  | unite _ _ hunites ihf ihg =>
    obtain ⟨v, w, hv, hw, hvw⟩ := hunites.stack.exists_getElem? hf
    rcases hvw.eq_this with rfl | rfl
    · exact ihf hv
    · exact ihg hw

/-- What is the receiver or null on every path is not lost. -/
theorem thisOrNull {f : Frame} {d : Nat} {v : Value} (h : m.Combined i f)
    (hpaths : ∀ g w, m.Path i g → g.peek d = some w → w.ThisOrNull) (hv : f.peek d = some v) :
    v.ThisOrNull := by
  induction h generalizing v with
  | path h => exact hpaths _ v h hv
  | unite _ _ hunites ihf ihg =>
    obtain ⟨v', w', hv', hw', hvw⟩ := hunites.stack.exists_getElem? hv
    exact hvw.thisOrNull (ihf hv') (ihg hw')

end Combined

/-- No frame has an unknown entry on its operand stack. -/
def Definite (frames : Array (Option Frame)) : Prop :=
  ∀ (i : Nat) (f : Frame), frames[i]? = some (some f) → f.Definite

theorem definite_iff :
    Definite frames ↔ ∀ o ∈ frames.toList, ∀ f ∈ o, Frame.Definite f := by
  constructor
  · rintro h o ho f rfl
    obtain ⟨i, hi⟩ := List.mem_iff_getElem?.1 ho
    exact h i f (by simpa using hi)
  · intro h i f hf
    exact h (some f) (by simpa using Array.mem_of_getElem? hf) f rfl

instance (f : Frame) : Decidable f.Definite := inferInstanceAs (Decidable (_ ∉ _))

instance : Decidable (Definite frames) := decidable_of_iff _ definite_iff.symm

/-- Every frame of the method stands for frames of paths. -/
theorem combined_of_frames (h : m.frames cls = .ok frames) (hdefinite : Definite frames)
    {f : Frame} (hf : frames[i]? = some (some f)) : m.Combined i f := by
  refine frames_induction h (fun f hf => .path (.start hf)) ?_ Combined.mergeClosed hf
  rintro i f t a hcombined ⟨g, hg, habsorbs⟩ hpass
  have hstack : g.stack.length = f.stack.length ∧ _ := Frame.absorbs_iff.1 habsorbs
  have hcovers := Value.CoversAll.of_absorbsAll hstack.1 hstack.2.2
  exact hcombined.passes (hcovers.top_notMem (hdefinite i g hg)) hpass

/-- Every path brings a frame for which the frame of the method may stand. -/
theorem covers_of_path (h : m.frames cls = .ok frames) (hdefinite : Definite frames)
    (code : 0 < m.code.size) {f : Frame} (hf : m.Path i f) :
    ∃ g, frames[i]? = some (some g) ∧ g.Covers f := by
  obtain ⟨entry, settled, hentry, rfl, hvalid⟩ := exists_valid h code
  -- all frames have as many local slots as the first one
  have hflows : ∀ {t : Nat} {a : Frame}, a.FlowsInto settled.toArray t →
      a.locals.size = entry.locals.size →
      ∃ g, settled.toArray[t]? = some (some g) ∧ g.Covers a := by
    rintro t a ⟨g, hg, habsorbs⟩ hsize
    have hgsize := (combined_of_frames h hdefinite hg).locals_size hentry
    exact ⟨g, hg, .of_absorbs (hgsize.trans hsize.symm) habsorbs⟩
  induction hf with
  | start hf =>
    cases hf.symm.trans hentry
    exact hflows hvalid.start rfl
  | @pass i t f a hpath hpass ih =>
    obtain ⟨g, hg, hcovers⟩ := ih
    obtain ⟨c, hc, hca⟩ := hpass.covered (served_of_frames h hg) hcovers (hdefinite i g hg)
    have hcsize : c.locals.size = entry.locals.size :=
      hc.locals_size.trans ((combined_of_frames h hdefinite hg).locals_size hentry)
    obtain ⟨g', hg', hcovers'⟩ := hflows (hc.flowsInto (served_of_frames h hg)) hcsize
    exact ⟨g', hg', hcovers'.trans hca⟩

/-- Before instruction `i`, some path brings the receiver to the given depth of the stack, and every
other one brings the receiver or null. -/
def ThisAt (m : Method) (i d : Nat) : Prop :=
  (∃ f, m.Path i f ∧ f.peek d = some .this) ∧
    ∀ f, m.Path i f → f.peek d = some .this ∨ f.peek d = some .null

/-- The frame of the method has the receiver on its stack exactly where the paths agree on it, up to
null. -/
theorem peek_eq_this_iff (h : m.frames cls = .ok frames) (hdefinite : Definite frames) {f : Frame}
    (hf : frames[i]? = some (some f)) (d : Nat) : f.peek d = some .this ↔ m.ThisAt i d := by
  have hcombined := combined_of_frames h hdefinite hf
  have hcovers : ∀ g, m.Path i g → f.Covers g := by
    intro g hg
    obtain ⟨f', hf', hcovers⟩ := covers_of_path h hdefinite (size_pos_of_frames h hf) hg
    cases hf.symm.trans hf'
    exact hcovers
  constructor
  · intro hthis
    refine ⟨hcombined.exists_path hthis, fun g hg => ?_⟩
    obtain ⟨v, hv, hcovered⟩ := (hcovers g hg).2.exists_covered hthis
    rcases hcovered with rfl | rfl
    · exact .inl hv
    · exact .inr hv
  · rintro ⟨⟨g, hg, hthis⟩, hall⟩
    have hpaths : ∀ g w, m.Path i g → g.peek d = some w → w.ThisOrNull := by
      intro g w hg hw
      rcases hall g hg with h | h
      · cases hw.symm.trans h
        exact .inl rfl
      · cases hw.symm.trans h
        exact .inr rfl
    obtain ⟨u, hu, hcovered⟩ := (hcovers g hg).2.exists_cover hthis
    rcases hcombined.thisOrNull hpaths hu with rfl | rfl
    · exact hu
    · cases hcovered

end Method

end Immutability

import Immutability.Configuration.Settings
import Immutability.Proofs.ClassNames
import Immutability.Proofs.Steps
import Mathlib.Data.List.Nodup

/-!
# Precedence of settings

Valid settings can be put on top of every configuration. A verdict of the settings goes before one
of the configuration, and this before one of a preset; an idiom of the settings goes before one of
the configuration.

* `Configuration.hardcoded?_hardcode`, `hardcoded?_merge` and `idiom?_addIdiom` say what is looked up
  after one operation;
* `Settings.valid_of_validate` says what the check of settings ensures, and `Settings.apply_eq_ok_iff`
  takes the application of settings apart;
* `Settings.Gives` and `Settings.Sets` are the rules of precedence for verdicts and for idioms;
* `Configuration.built` are the configurations that operations lead to, with one idiom for a field
  type (`Configuration.distinctIdioms_built`);
* `Settings.apply_precedence` is the result.
-/

namespace Immutability

section Replaced

variable {α κ : Type} [DecidableEq κ] (key : α → κ)

theorem find?_filter_key (l : List α) (k k' : κ) :
    (l.filter (key · != k')).find? (key · == k) =
      if k' = k then none else l.find? (key · == k) := by
  split
  · next hk =>
    rw [List.find?_eq_none]
    intro b hb
    simpa [hk] using (List.mem_filter.1 hb).2
  · next hk =>
    rw [List.find?_filter]
    congr 1
    funext b
    by_cases hb : key b = k
    · simp [hb, Ne.symm hk]
    · simp [hb]

/-- What is looked up in a list after an entry has replaced all others with the same key. -/
theorem find?_replaced (l : List α) (a : α) (k : κ) :
    (l.filter (key · != key a) ++ [a]).find? (key · == k) =
      if key a = k then some a else l.find? (key · == k) := by
  rw [List.find?_append, find?_filter_key]
  by_cases hk : key a = k
  · simp [hk]
  · simp [hk]

theorem nodup_replaced {l : List α} (h : (l.map key).Nodup) (a : α) :
    ((l.filter (key · != key a) ++ [a]).map key).Nodup := by
  rw [List.map_append, List.map_singleton, List.nodup_append_comm, List.singleton_append,
    List.nodup_cons]
  refine ⟨?_, h.sublist (List.filter_sublist.map key)⟩
  simp

end Replaced

/-! ### Presets -/

namespace Preset

theorem canonical_jdkMutable : ∀ s ∈ jdkMutable, IsCanonicalName s := by
  unfold jdkMutable
  repeat' first
    | exact List.forall_mem_nil _
    | refine List.forall_mem_cons.2 ⟨isCanonicalName_ofList rfl, ?_⟩

theorem canonical_immutable : ∀ s ∈ jdkImmutable ++ guavaImmutable, IsCanonicalName s := by
  unfold jdkImmutable guavaImmutable
  repeat' first
    | exact List.forall_mem_nil _
    | refine List.forall_mem_cons.2 ⟨isCanonicalName_ofList rfl, ?_⟩

set_option maxRecDepth 4000 in
theorem notMem_immutable : ∀ s ∈ jdkMutable, s ∉ jdkImmutable ++ guavaImmutable := by
  simp [jdkMutable, jdkImmutable, guavaImmutable]

/-- No preset declares a class immutable that another one declares mutable. -/
theorem notMem_immutableClasses {preset other : Preset} {name : ClassName}
    (h : name ∈ preset.mutableClasses) : name ∉ other.immutableClasses := by
  intro h'
  have hs : ∃ s ∈ jdkMutable, ClassName.ofString s = name := by
    cases preset with
    | jdk => exact List.mem_map.1 h
    | guava => cases h
  have hs' : ∃ s ∈ jdkImmutable ++ guavaImmutable, ClassName.ofString s = name := by
    cases other with
    | jdk =>
      obtain ⟨s, hmem, rfl⟩ := List.mem_map.1 h'
      exact ⟨s, List.mem_append_left _ hmem, rfl⟩
    | guava =>
      obtain ⟨s, hmem, rfl⟩ := List.mem_map.1 h'
      exact ⟨s, List.mem_append_right _ hmem, rfl⟩
  obtain ⟨s, hs, rfl⟩ := hs
  obtain ⟨s', hs', heq⟩ := hs'
  obtain rfl := ClassName.eq_of_ofString_eq (canonical_immutable s' hs') (canonical_jdkMutable s hs) heq
  exact notMem_immutable s' hs hs'

end Preset

namespace Configuration

/-- All presets that know a class give it the same verdict. -/
theorem eq_of_mem_presetAssessments {preset other : Preset} {a b : Assessment}
    (ha : a ∈ presetAssessments preset) (hb : b ∈ presetAssessments other)
    (h : a.className = b.className) : a = b := by
  rcases List.mem_append.1 ha with ha | ha
  · obtain ⟨name, hname, rfl⟩ := List.mem_map.1 ha
    rcases List.mem_append.1 hb with hb | hb
    · obtain ⟨name', -, rfl⟩ := List.mem_map.1 hb
      exact congrArg Assessment.immutable h
    · obtain ⟨name', hname', rfl⟩ := List.mem_map.1 hb
      obtain rfl : name = name' := h
      exact absurd hname (Preset.notMem_immutableClasses hname')
  · obtain ⟨name, hname, rfl⟩ := List.mem_map.1 ha
    rcases List.mem_append.1 hb with hb | hb
    · obtain ⟨name', hname', rfl⟩ := List.mem_map.1 hb
      obtain rfl : name = name' := h
      exact absurd hname' (Preset.notMem_immutableClasses hname)
    · obtain ⟨name', hname', rfl⟩ := List.mem_map.1 hb
      obtain rfl : name = name' := h
      -- only one of the presets declares classes mutable
      cases preset with
      | guava => cases hname
      | jdk =>
        cases other with
        | guava => cases hname'
        | jdk => rfl

/-! ### Looking up after one operation -/

theorem hardcoded?_hardcode (c : Configuration) (a : Assessment) (name : ClassName) :
    (c.hardcode a).hardcoded? name = if a.className = name then some a else c.hardcoded? name :=
  find?_replaced Assessment.className c.hardcoded a name

theorem idiom?_addIdiom (c : Configuration) (i : Idiom) (fieldType : ClassName) :
    (c.addIdiom i).idiom? fieldType =
      if i.fieldType = fieldType then some i else c.idiom? fieldType :=
  find?_replaced Idiom.fieldType c.idioms i fieldType

theorem hardcoded?_hardcodeNew (c : Configuration) (a : Assessment) (name : ClassName) :
    (c.hardcodeNew a).hardcoded? name =
      (c.hardcoded? name).or (if a.className = name then some a else none) := by
  unfold hardcodeNew
  split
  · next b hb =>
    by_cases h : a.className = name
    · rw [← h, hb]
      rfl
    · simp [h]
  · next hb =>
    unfold hardcoded?
    rw [List.find?_append]
    by_cases h : a.className = name
    · simp [h]
    · simp [h]

/-- A preset gives verdicts only for classes that have none. -/
theorem hardcoded?_merge (c : Configuration) (preset : Preset) (name : ClassName) :
    (c.merge preset).hardcoded? name =
      (c.hardcoded? name).or ((presetAssessments preset).find? (·.className == name)) := by
  unfold merge
  generalize presetAssessments preset = as
  induction as generalizing c with
  | nil => simp
  | cons a as ih =>
    rw [List.foldl_cons, ih, hardcoded?_hardcodeNew]
    by_cases h : a.className = name
    · cases hc : c.hardcoded? name <;> simp [h]
    · simp [h]

theorem frame_hardcodeNew (c : Configuration) (a : Assessment) :
    (c.hardcodeNew a).policy = c.policy ∧ (c.hardcodeNew a).idioms = c.idioms := by
  unfold hardcodeNew
  split
  · exact ⟨rfl, rfl⟩
  · exact ⟨rfl, rfl⟩

/-- A preset gives verdicts and nothing else. -/
theorem frame_merge (c : Configuration) (preset : Preset) :
    (c.merge preset).policy = c.policy ∧ (c.merge preset).idioms = c.idioms := by
  unfold merge
  generalize presetAssessments preset = as
  induction as generalizing c with
  | nil => exact ⟨rfl, rfl⟩
  | cons a as ih =>
    obtain ⟨hpolicy, hidioms⟩ := frame_hardcodeNew c a
    exact ⟨(ih _).1.trans hpolicy, (ih _).2.trans hidioms⟩

end Configuration

/-! ### Valid settings -/

theorem HardcodedEntry.className_of_assessment {e : HardcodedEntry}
    {a : Assessment} (h : e.assessment = .ok a) : a.className = ClassName.ofString e.cls := by
  unfold HardcodedEntry.assessment at h
  split at h
  · cases h
  · split at h
    · cases h
    · rw [← Except.ok.inj h]
      rfl
  · split at h
    · rw [← Except.ok.inj h]
    · split at h
      · cases h
      · rw [← Except.ok.inj h]

theorem IdiomEntry.fieldType_of_idiom {e : IdiomEntry} {i : Idiom} (h : e.idiom = .ok i) :
    i.fieldType = ClassName.ofString e.fieldType := by
  unfold IdiomEntry.idiom at h
  obtain ⟨copy, -, h⟩ := bind_eq_ok.1 h
  obtain ⟨wrap, -, h⟩ := bind_eq_ok.1 h
  obtain ⟨copyAndWrap, -, h⟩ := bind_eq_ok.1 h
  rw [← Except.ok.inj h]

namespace Settings

/-- What the check of settings ensures. -/
structure Valid (f : Settings) : Prop where
  presets : ∀ word ∈ f.presets, ∃ p, Preset.parse? word = some p
  hardcoded : ∀ e ∈ f.hardcoded, ∃ a, e.assessment = .ok a
  distinct : (f.hardcoded.map fun e => ClassName.ofString e.cls).Nodup
  idioms : ∀ e ∈ f.idioms, ∃ i, e.idiom = .ok i

/-- A loop of checks succeeds if each of them does. -/
theorem forall_of_forM {ε ι : Type} {check : ι → Except ε Unit} {items : List ι} {u : Unit}
    (h : items.forM check = .ok u) : ∀ i ∈ items, check i = .ok () := by
  induction items with
  | nil => exact List.forall_mem_nil _
  | cons i items ih =>
    obtain ⟨u₁, hi, h⟩ := bind_eq_ok.1 h
    exact List.forall_mem_cons.2 ⟨hi, ih h⟩

theorem exists_preset_of_validatePreset {word : String} (h : validatePreset word = .ok ()) :
    ∃ p, Preset.parse? word = some p := by
  rw [validatePreset] at h
  split_ifs at h with hnone
  exact Option.ne_none_iff_exists'.1 fun hparse => hnone (Option.isNone_iff_eq_none.2 hparse)

theorem exists_idiom_of_validateIdiom {e : IdiomEntry} (h : validateIdiom e = .ok ()) :
    ∃ i, e.idiom = .ok i := by
  simp only [validateIdiom] at h
  split at h
  · cases h
  · obtain ⟨i, hi, -⟩ := bind_eq_ok.1 h
    exact ⟨i, hi⟩

theorem hardcoded_of_validateHardcoded {seen : List ClassName} {entries : List HardcodedEntry}
    (h : validateHardcoded seen entries = .ok ()) :
    (∀ e ∈ entries, ∃ a, e.assessment = .ok a) ∧
    (∀ e ∈ entries, ClassName.ofString e.cls ∉ seen) ∧
    (entries.map fun e => ClassName.ofString e.cls).Nodup := by
  induction entries generalizing seen with
  | nil => simp
  | cons e entries ih =>
    simp only [validateHardcoded] at h
    split at h
    · cases h
    · obtain ⟨a, ha, h⟩ := bind_eq_ok.1 h
      split at h
      · cases h
      · next hseen =>
        obtain ⟨hentries, hnew, hnodup⟩ := ih h
        refine ⟨List.forall_mem_cons.2 ⟨⟨a, ha⟩, hentries⟩, List.forall_mem_cons.2 ⟨hseen, ?_⟩, ?_⟩
        · exact fun e he hin => hnew e he (List.mem_cons_of_mem _ hin)
        · refine List.nodup_cons.2 ⟨?_, hnodup⟩
          rintro hin
          obtain ⟨e', he', heq⟩ := List.mem_map.1 hin
          exact hnew e' he' (heq ▸ List.mem_cons_self)

theorem valid_of_validate {f : Settings} (h : f.validate = .ok ()) : f.Valid := by
  unfold validate at h
  obtain ⟨u, hpresets, h⟩ := bind_eq_ok.1 h
  obtain ⟨u', hhardcoded, hidioms⟩ := bind_eq_ok.1 h
  obtain ⟨hentries, -, hdistinct⟩ := hardcoded_of_validateHardcoded hhardcoded
  exact ⟨fun word hword => exists_preset_of_validatePreset (forall_of_forM hpresets word hword),
    hentries, hdistinct,
    fun e he => exists_idiom_of_validateIdiom (forall_of_forM hidioms e he)⟩

/-! ### The layers of a configuration -/

variable {f : Settings} {b c : Configuration}

/-- The configurations between the layers of settings: `c₁` with their verdicts, `c₂` with their
presets as well, and `c` with their idioms in the end. -/
structure Layers (f : Settings) (b c₁ c₂ c : Configuration) : Prop where
  verdicts : f.hardcoded.foldlM (updating Configuration.hardcode HardcodedEntry.assessment)
    { b with policy := f.policy.getD b.policy } = .ok c₁
  presets : f.presets.foldlM (updating Configuration.merge preset) c₁ = .ok c₂
  idioms : f.idioms.foldlM (updating Configuration.addIdiom IdiomEntry.idiom)
    (if f.replaceDefaultIdioms then { c₂ with idioms := [] } else c₂) = .ok c

theorem apply_eq_ok_iff : f.apply b = .ok c ↔ ∃ c₁ c₂, Layers f b c₁ c₂ c := by
  constructor
  · intro h
    unfold apply at h
    obtain ⟨c₁, h₁, h⟩ := bind_eq_ok.1 h
    obtain ⟨c₂, h₂, h⟩ := bind_eq_ok.1 h
    exact ⟨c₁, c₂, h₁, h₂, h⟩
  · rintro ⟨c₁, c₂, h₁, h₂, h⟩
    exact bind_eq_ok.2 ⟨c₁, h₁, bind_eq_ok.2 ⟨c₂, h₂, h⟩⟩

theorem preset_eq_ok_iff {word : String} {p : Preset} :
    preset word = .ok p ↔ Preset.parse? word = some p := by
  unfold preset
  cases Preset.parse? word with
  | none => simp
  | some p' => simp

/-- Valid settings can be put on top of every configuration. -/
theorem Valid.exists_apply (hf : f.Valid) (b : Configuration) : ∃ c, f.apply b = .ok c := by
  have hpresets : ∀ word ∈ f.presets, ∃ p, preset word = .ok p := fun word hword => by
    obtain ⟨p, hp⟩ := hf.presets word hword
    exact ⟨p, preset_eq_ok_iff.2 hp⟩
  obtain ⟨c₁, h₁⟩ := exists_foldlM_updating Configuration.hardcode hf.hardcoded
    { b with policy := f.policy.getD b.policy }
  obtain ⟨c₂, h₂⟩ := exists_foldlM_updating Configuration.merge hpresets c₁
  obtain ⟨c, h⟩ := exists_foldlM_updating Configuration.addIdiom hf.idioms
    (if f.replaceDefaultIdioms then { c₂ with idioms := [] } else c₂)
  exact ⟨c, apply_eq_ok_iff.2 ⟨c₁, c₂, h₁, h₂, h⟩⟩

namespace Layers

variable {c₁ c₂ : Configuration}

/-- What a layer has nothing to do with stays as it is. -/
theorem frame (h : Layers f b c₁ c₂ c) :
    c.policy = f.policy.getD b.policy ∧ c.hardcoded = c₂.hardcoded ∧ c₂.idioms = b.idioms := by
  have h₁ : c₁.policy = f.policy.getD b.policy ∧ c₁.idioms = b.idioms :=
    foldlM_updating_induction h.verdicts
      (fun c => c.policy = f.policy.getD b.policy ∧ c.idioms = b.idioms) ⟨rfl, rfl⟩
      fun _ _ _ _ _ ih => ih
  have h₂ : c₂.policy = f.policy.getD b.policy ∧ c₂.idioms = b.idioms := by
    refine foldlM_updating_induction h.presets
      (fun c => c.policy = f.policy.getD b.policy ∧ c.idioms = b.idioms) h₁ fun c _ _ p _ ih => ?_
    obtain ⟨hpolicy, hidioms⟩ := c.frame_merge p
    exact ⟨hpolicy.trans ih.1, hidioms.trans ih.2⟩
  have h₃ : c.policy = f.policy.getD b.policy ∧ c.hardcoded = c₂.hardcoded := by
    refine foldlM_updating_induction h.idioms
      (fun c => c.policy = f.policy.getD b.policy ∧ c.hardcoded = c₂.hardcoded) ?_
      fun _ _ _ _ _ ih => ih
    split
    · exact ⟨h₂.1, rfl⟩
    · exact ⟨h₂.1, rfl⟩
  exact ⟨h₃.1, h₃.2, h₂.2⟩

end Layers

/-! ### Verdicts -/

/-- The settings list a preset, under one of its names. -/
def Lists (f : Settings) (p : Preset) : Prop := ∃ word ∈ f.presets, Preset.parse? word = some p

/-- What the settings give for a class on top of a configuration. -/
inductive Gives (f : Settings) (b : Configuration) (name : ClassName) : Option Assessment → Prop
  | entry {e : HardcodedEntry} {a : Assessment} (he : e ∈ f.hardcoded)
    (hname : ClassName.ofString e.cls = name) (ha : e.assessment = .ok a) : Gives f b name (some a)
  | kept {a : Assessment} (hnone : ∀ e ∈ f.hardcoded, ClassName.ofString e.cls ≠ name)
    (hb : b.hardcoded? name = some a) : Gives f b name (some a)
  | preset {p : Preset} {a : Assessment}
    (hnone : ∀ e ∈ f.hardcoded, ClassName.ofString e.cls ≠ name) (hb : b.hardcoded? name = none)
    (hp : f.Lists p) (ha : a ∈ Configuration.presetAssessments p) (hname : a.className = name) :
    Gives f b name (some a)
  | missing (hnone : ∀ e ∈ f.hardcoded, ClassName.ofString e.cls ≠ name)
    (hb : b.hardcoded? name = none)
    (hp : ∀ p, f.Lists p → ∀ a ∈ Configuration.presetAssessments p, a.className ≠ name) :
    Gives f b name none

section Verdicts

variable {name : ClassName} {a : Assessment} {c' : Configuration} {entries : List HardcodedEntry}
  {words : List String}

theorem hardcoded?_of_entries
    (h : entries.foldlM (updating Configuration.hardcode HardcodedEntry.assessment) c = .ok c')
    (hnone : ∀ e ∈ entries, ClassName.ofString e.cls ≠ name) :
    c'.hardcoded? name = c.hardcoded? name := by
  refine foldlM_updating_induction h (fun c' => c'.hardcoded? name = c.hardcoded? name) rfl
    fun c' e he a ha ih => ?_
  have hname : a.className ≠ name := by
    rw [HardcodedEntry.className_of_assessment ha]
    exact hnone e he
  rw [Configuration.hardcoded?_hardcode, if_neg hname, ih]

/-- Presets keep the verdicts that are there. -/
theorem hardcoded?_of_presets (h : words.foldlM (updating Configuration.merge preset) c = .ok c')
    (hc : c.hardcoded? name = some a) : c'.hardcoded? name = some a := by
  refine foldlM_updating_induction h (fun c' => c'.hardcoded? name = some a) hc
    fun c' _ _ p _ ih => ?_
  rw [Configuration.hardcoded?_merge, ih]
  rfl

/-- What the presets add for a class is what each of them gives for it. -/
theorem hardcoded?_of_presets_of_none
    (h : words.foldlM (updating Configuration.merge preset) c = .ok c')
    (hc : c.hardcoded? name = none) {P : Assessment → Prop}
    (hgiven : ∀ word ∈ words, ∀ p, Preset.parse? word = some p →
      ∀ a ∈ Configuration.presetAssessments p, a.className = name → P a) :
    ∀ a, c'.hardcoded? name = some a → P a := by
  refine foldlM_updating_induction h (fun c' => ∀ a, c'.hardcoded? name = some a → P a) ?_
    fun c' word hword p hp ih a ha => ?_
  · intro a ha
    rw [hc] at ha
    cases ha
  · rw [Configuration.hardcoded?_merge] at ha
    rcases Option.or_eq_some_iff.1 ha with ha | ⟨-, ha⟩
    · exact ih a ha
    · exact hgiven word hword p (preset_eq_ok_iff.1 hp) a (List.mem_of_find?_eq_some ha)
        (by simpa using List.find?_some ha)

theorem exists_hardcoded?_of_lists
    (h : words.foldlM (updating Configuration.merge preset) c = .ok c') {word : String} {p : Preset}
    (hword : word ∈ words) (hp : Preset.parse? word = some p)
    (ha : a ∈ Configuration.presetAssessments p) :
    ∃ a', c'.hardcoded? a.className = some a' := by
  obtain ⟨before, after, rfl⟩ := List.append_of_mem hword
  obtain ⟨c₁, p', -, hp', hafter⟩ := foldlM_updating_split h
  obtain rfl : p = p' := Option.some.inj (hp.symm.trans (preset_eq_ok_iff.1 hp'))
  have hfound : ∃ a', (c₁.merge p).hardcoded? a.className = some a' := by
    rw [← Option.isSome_iff_exists, Configuration.hardcoded?_merge, Option.isSome_or,
      Bool.or_eq_true]
    exact .inr (List.find?_isSome.2 ⟨a, ha, by simp⟩)
  obtain ⟨a', ha'⟩ := hfound
  exact ⟨a', hardcoded?_of_presets hafter ha'⟩

theorem Gives.hardcoded?_eq {c₁ c₂ : Configuration} {given : Option Assessment}
    (hg : f.Gives b name given) (hdistinct : (f.hardcoded.map fun e => ClassName.ofString e.cls).Nodup)
    (h : Layers f b c₁ c₂ c) : c.hardcoded? name = given := by
  have hc : c.hardcoded? name = c₂.hardcoded? name := by
    unfold Configuration.hardcoded?
    rw [h.frame.2.1]
  rw [hc]
  cases hg with
  | @entry e a he hname ha =>
    obtain ⟨before, after, hsplit⟩ := List.append_of_mem he
    have hrun := h.verdicts
    rw [hsplit] at hrun hdistinct
    obtain ⟨c₀, a', -, ha', hafter⟩ := foldlM_updating_split hrun
    obtain rfl : a = a' := Except.ok.inj (ha.symm.trans ha')
    have hlater : ∀ e' ∈ after, ClassName.ofString e'.cls ≠ name := by
      rw [List.map_append, List.map_cons] at hdistinct
      intro e' he' heq
      refine (List.nodup_cons.1 hdistinct.of_append_right).1 ?_
      exact List.mem_map.2 ⟨e', he', heq.trans hname.symm⟩
    have hclass : a.className = name := (HardcodedEntry.className_of_assessment ha).trans hname
    refine hardcoded?_of_presets h.presets ?_
    rw [hardcoded?_of_entries hafter hlater, Configuration.hardcoded?_hardcode, if_pos hclass]
  | kept hnone hb =>
    exact hardcoded?_of_presets h.presets ((hardcoded?_of_entries h.verdicts hnone).trans hb)
  | @preset p a hnone hb hp ha hname =>
    obtain ⟨word, hword, hp⟩ := hp
    obtain ⟨a', ha'⟩ := exists_hardcoded?_of_lists h.presets hword hp ha
    rw [hname] at ha'
    have hsame : a' = a := hardcoded?_of_presets_of_none h.presets
      ((hardcoded?_of_entries h.verdicts hnone).trans hb) (P := fun x => x = a)
      (fun _ _ p' _ x hx hxname =>
        Configuration.eq_of_mem_presetAssessments hx ha (hxname.trans hname.symm)) a' ha'
    rw [ha', hsame]
  | missing hnone hb hp =>
    rw [Option.eq_none_iff_forall_ne_some]
    exact hardcoded?_of_presets_of_none h.presets
      ((hardcoded?_of_entries h.verdicts hnone).trans hb)
      fun word hword p hparse x hx hxname => hp p ⟨word, hword, hparse⟩ x hx hxname

/-- Of the presets, it only matters which ones are listed. -/
theorem Gives.congr {f' : Settings} {given : Option Assessment} (hg : f.Gives b name given)
    (hentries : f'.hardcoded = f.hardcoded) (hlists : ∀ p, f'.Lists p ↔ f.Lists p) :
    f'.Gives b name given := by
  cases hg with
  | entry he hname ha => exact .entry (hentries ▸ he) hname ha
  | kept hnone hb => exact .kept (hentries ▸ hnone) hb
  | preset hnone hb hp ha hname =>
    exact .preset (hentries ▸ hnone) hb ((hlists _).2 hp) ha hname
  | missing hnone hb hp => exact .missing (hentries ▸ hnone) hb fun p h => hp p ((hlists p).1 h)

theorem Valid.exists_gives (hf : f.Valid) (b : Configuration) (name : ClassName) :
    ∃ given, f.Gives b name given := by
  by_cases hentry : ∃ e ∈ f.hardcoded, ClassName.ofString e.cls = name
  · obtain ⟨e, he, hname⟩ := hentry
    obtain ⟨a, ha⟩ := hf.hardcoded e he
    exact ⟨some a, .entry he hname ha⟩
  · have hnone : ∀ e ∈ f.hardcoded, ClassName.ofString e.cls ≠ name := by simpa using hentry
    cases hb : b.hardcoded? name with
    | some a => exact ⟨some a, .kept hnone hb⟩
    | none =>
      by_cases hpreset : ∃ p, f.Lists p ∧
          ∃ a ∈ Configuration.presetAssessments p, a.className = name
      · obtain ⟨p, hp, a, ha, hname⟩ := hpreset
        exact ⟨some a, .preset hnone hb hp ha hname⟩
      · refine ⟨none, .missing hnone hb fun p hp a ha hname => ?_⟩
        exact hpreset ⟨p, hp, a, ha, hname⟩

/-- The rules say what is looked up in the end. -/
theorem Valid.hardcoded?_eq_iff (hf : f.Valid) (h : f.apply b = .ok c) {given : Option Assessment} :
    c.hardcoded? name = given ↔ f.Gives b name given := by
  obtain ⟨c₁, c₂, hlayers⟩ := apply_eq_ok_iff.1 h
  constructor
  · rintro rfl
    obtain ⟨given, hg⟩ := hf.exists_gives b name
    rwa [hg.hardcoded?_eq hf.distinct hlayers]
  · exact fun hg => hg.hardcoded?_eq hf.distinct hlayers

end Verdicts

/-! ### Idioms -/

/-- The idiom for a field type that the settings set on top of a configuration. -/
inductive Sets (f : Settings) (b : Configuration) (fieldType : ClassName) : Option Idiom → Prop
  | entry {before after : List IdiomEntry} {e : IdiomEntry} {i : Idiom}
    (hentries : f.idioms = before ++ e :: after)
    (htype : ClassName.ofString e.fieldType = fieldType)
    (hlast : ∀ e' ∈ after, ClassName.ofString e'.fieldType ≠ fieldType) (hi : e.idiom = .ok i) :
    Sets f b fieldType (some i)
  | replaced (hnone : ∀ e ∈ f.idioms, ClassName.ofString e.fieldType ≠ fieldType)
    (hreplace : f.replaceDefaultIdioms = true) : Sets f b fieldType none
  | kept (hnone : ∀ e ∈ f.idioms, ClassName.ofString e.fieldType ≠ fieldType)
    (hreplace : f.replaceDefaultIdioms = false) : Sets f b fieldType (b.idiom? fieldType)

section Idioms

variable {fieldType : ClassName} {i : Idiom} {c' : Configuration} {entries : List IdiomEntry}

theorem idiom?_of_entries
    (h : entries.foldlM (updating Configuration.addIdiom IdiomEntry.idiom) c = .ok c')
    (hnone : ∀ e ∈ entries, ClassName.ofString e.fieldType ≠ fieldType) :
    c'.idiom? fieldType = c.idiom? fieldType := by
  refine foldlM_updating_induction h (fun c' => c'.idiom? fieldType = c.idiom? fieldType) rfl
    fun c' e he i hi ih => ?_
  have htype : i.fieldType ≠ fieldType := by
    rw [IdiomEntry.fieldType_of_idiom hi]
    exact hnone e he
  rw [Configuration.idiom?_addIdiom, if_neg htype, ih]

theorem Sets.idiom?_eq {c₁ c₂ : Configuration} {idiom : Option Idiom}
    (hs : f.Sets b fieldType idiom) (h : Layers f b c₁ c₂ c) : c.idiom? fieldType = idiom := by
  have hrun := h.idioms
  cases hs with
  | @entry before after e i hentries htype hlast hi =>
    rw [hentries] at hrun
    obtain ⟨c₀, i', -, hi', hafter⟩ := foldlM_updating_split hrun
    obtain rfl : i = i' := Except.ok.inj (hi.symm.trans hi')
    have hfield : i.fieldType = fieldType := (IdiomEntry.fieldType_of_idiom hi).trans htype
    rw [idiom?_of_entries hafter hlast, Configuration.idiom?_addIdiom, if_pos hfield]
  | replaced hnone hreplace =>
    rw [idiom?_of_entries hrun hnone, if_pos hreplace]
    rfl
  | kept hnone hreplace =>
    rw [idiom?_of_entries hrun hnone, hreplace, if_neg Bool.false_ne_true]
    unfold Configuration.idiom?
    rw [h.frame.2.2]

/-- Of the items with a property there is a last one. -/
theorem exists_last_split {α : Type} {P : α → Prop} {l : List α} (h : ∃ a ∈ l, P a) :
    ∃ before a after, l = before ++ a :: after ∧ P a ∧ ∀ a' ∈ after, ¬ P a' := by
  induction l with
  | nil => simp at h
  | cons a l ih =>
    by_cases htail : ∃ a' ∈ l, P a'
    · obtain ⟨before, a', after, rfl, ha', hafter⟩ := ih htail
      exact ⟨a :: before, a', after, rfl, ha', hafter⟩
    · have hnone : ∀ a' ∈ l, ¬ P a' := fun a' ha' hP => htail ⟨a', ha', hP⟩
      have ha : P a := by
        obtain ⟨a', ha', hP⟩ := h
        rcases List.mem_cons.1 ha' with rfl | ha'
        · exact hP
        · exact absurd hP (hnone a' ha')
      exact ⟨[], a, l, rfl, ha, hnone⟩

theorem Valid.exists_sets (hf : f.Valid) (b : Configuration) (fieldType : ClassName) :
    ∃ idiom, f.Sets b fieldType idiom := by
  by_cases hentry : ∃ e ∈ f.idioms, ClassName.ofString e.fieldType = fieldType
  · obtain ⟨before, e, after, hentries, htype, hlast⟩ := exists_last_split hentry
    obtain ⟨i, hi⟩ := hf.idioms e (hentries ▸ List.mem_append_right _ List.mem_cons_self)
    exact ⟨some i, .entry hentries htype hlast hi⟩
  · have hnone : ∀ e ∈ f.idioms, ClassName.ofString e.fieldType ≠ fieldType := by
      simpa using hentry
    cases hreplace : f.replaceDefaultIdioms with
    | true => exact ⟨none, .replaced hnone hreplace⟩
    | false => exact ⟨_, .kept hnone hreplace⟩

theorem Valid.idiom?_eq_iff (hf : f.Valid) (h : f.apply b = .ok c) {idiom : Option Idiom} :
    c.idiom? fieldType = idiom ↔ f.Sets b fieldType idiom := by
  obtain ⟨c₁, c₂, hlayers⟩ := apply_eq_ok_iff.1 h
  constructor
  · rintro rfl
    obtain ⟨idiom, hs⟩ := hf.exists_sets b fieldType
    rwa [hs.idiom?_eq hlayers]
  · exact fun hs => hs.idiom?_eq hlayers

end Idioms

end Settings

/-! ### Configurations that can be built -/

namespace Configuration

/-- The operations by which a configuration is built. -/
inductive Edit where
  | merge (preset : Preset)
  | hardcode (a : Assessment)
  | addIdiom (i : Idiom)
  | clearIdioms
  | setPolicy (policy : Policy)

/-- The configuration after an operation. -/
def edit (c : Configuration) : Edit → Configuration
  | .merge preset => c.merge preset
  | .hardcode a => c.hardcode a
  | .addIdiom i => c.addIdiom i
  | .clearIdioms => { c with idioms := [] }
  | .setPolicy policy => { c with policy := policy }

/-- The configuration that operations lead to. -/
def built (edits : List Edit) : Configuration := edits.foldl edit default

/-- There is at most one idiom for a field type. -/
def DistinctIdioms (c : Configuration) : Prop := (c.idioms.map Idiom.fieldType).Nodup

theorem DistinctIdioms.addIdiom {c : Configuration} (h : c.DistinctIdioms) (i : Idiom) :
    (c.addIdiom i).DistinctIdioms :=
  nodup_replaced Idiom.fieldType h i

theorem DistinctIdioms.edit {c : Configuration} (h : c.DistinctIdioms) (e : Edit) :
    (c.edit e).DistinctIdioms := by
  cases e with
  | merge preset =>
    unfold DistinctIdioms Configuration.edit
    rw [(c.frame_merge preset).2]
    exact h
  | hardcode a => exact h
  | addIdiom i => exact h.addIdiom i
  | clearIdioms => exact List.nodup_nil
  | setPolicy policy => exact h

theorem distinctIdioms_built (edits : List Edit) : (built edits).DistinctIdioms := by
  have hdefault : default.DistinctIdioms := by
    unfold DistinctIdioms
    decide +kernel
  exact List.foldlRecOn edits edit hdefault fun c hc e _ => hc.edit e

theorem DistinctIdioms.apply {f : Settings} {b c : Configuration} (hb : b.DistinctIdioms)
    (h : f.apply b = .ok c) : c.DistinctIdioms := by
  obtain ⟨c₁, c₂, hlayers⟩ := Settings.apply_eq_ok_iff.1 h
  refine foldlM_updating_induction hlayers.idioms DistinctIdioms ?_ fun c _ _ i _ hc => hc.addIdiom i
  split
  · exact List.nodup_nil
  · unfold DistinctIdioms
    rw [hlayers.frame.2.2]
    exact hb

end Configuration

namespace Settings

/-- Valid settings can be put on top of every configuration that can be built, and what is looked up
then follows the rules of precedence; the order of the presets and their repetition do not matter. -/
theorem apply_precedence {f : Settings} (hf : f.validate = .ok ())
    (edits : List Configuration.Edit) :
    ∃ c, f.apply (.built edits) = .ok c ∧
      c.policy = f.policy.getD (Configuration.built edits).policy ∧
      (∀ name given, c.hardcoded? name = given ↔ f.Gives (.built edits) name given) ∧
      (∀ words c', (∀ p, { f with presets := words }.Lists p ↔ f.Lists p) →
        { f with presets := words }.apply (.built edits) = .ok c' →
        ∀ name, c'.hardcoded? name = c.hardcoded? name) ∧
      (∀ fieldType idiom, c.idiom? fieldType = idiom ↔ f.Sets (.built edits) fieldType idiom) ∧
      (Configuration.built edits).DistinctIdioms ∧ c.DistinctIdioms := by
  have hvalid := valid_of_validate hf
  obtain ⟨c, hc⟩ := hvalid.exists_apply (.built edits)
  obtain ⟨c₁, c₂, hlayers⟩ := apply_eq_ok_iff.1 hc
  have hdistinct := Configuration.distinctIdioms_built edits
  refine ⟨c, hc, hlayers.frame.1, fun name given => hvalid.hardcoded?_eq_iff hc, ?_,
    fun fieldType idiom => hvalid.idiom?_eq_iff hc, hdistinct, hdistinct.apply hc⟩
  intro words c' hlists hc' name
  obtain ⟨c₁', c₂', hlayers'⟩ := apply_eq_ok_iff.1 hc'
  obtain ⟨given, hg⟩ := hvalid.exists_gives (.built edits) name
  have hg' : { f with presets := words }.Gives (.built edits) name given := hg.congr rfl hlists
  rw [hg'.hardcoded?_eq hvalid.distinct hlayers', hg.hardcoded?_eq hvalid.distinct hlayers]

/-- An idiom for lists that are wrapped by a method. -/
def wrappedLists (method : String) : IdiomEntry := ⟨"java/util/List", [], [method], []⟩

/-- Settings that overrule a preset, and that set an idiom twice. -/
def houseRules : Settings where
  policy := some .failFast
  presets := ["guava", " JDK", "java"]
  hardcoded := [⟨"java/lang/String", "not-immutable", none, some "interned"⟩]
  idioms := [wrappedLists "com.acme.Lists.wrap", wrappedLists "com.acme.Lists.freeze"]
  replaceDefaultIdioms := true

theorem apply_precedence_houseRules :
    houseRules.validate = .ok () ∧
    ∃ c, houseRules.apply (.built [.merge .jdk, .setPolicy .carryOn]) = .ok c ∧
      c.policy = .failFast ∧
      c.hardcoded? (.ofString "java/lang/String") =
        some (.hardcoded (.ofString "java/lang/String") .notImmutable (some "interned")) ∧
      c.idiom? (.ofString "java/util/List") =
        some (.ofNames "java/util/List" [] [("com.acme.Lists", "freeze")] []) ∧
      c.idiom? (.ofString "java.util.Set") = none ∧ c.DistinctIdioms := by
  have hvalid : houseRules.validate = .ok () := rfl
  have hidioms : houseRules.idioms =
      [wrappedLists "com.acme.Lists.wrap"] ++ wrappedLists "com.acme.Lists.freeze" :: [] := rfl
  have hfreeze : (wrappedLists "com.acme.Lists.freeze").idiom =
      .ok (.ofNames "java/util/List" [] [("com.acme.Lists", "freeze")] []) :=
    mem_toOption_iff.1 (by decide +kernel)
  obtain ⟨c, hc, hpolicy, hgives, -, hsets, -, hdistinct⟩ :=
    apply_precedence hvalid [.merge .jdk, .setPolicy .carryOn]
  refine ⟨hvalid, c, hc, hpolicy, (hgives _ _).2 ?_, (hsets _ _).2 ?_, (hsets _ _).2 ?_, hdistinct⟩
  · exact .entry (List.mem_singleton_self _) rfl rfl
  · exact .entry hidioms rfl (by simp) hfreeze
  · exact .replaced (by decide +kernel) rfl

end Settings

end Immutability

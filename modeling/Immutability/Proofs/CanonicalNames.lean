import Immutability.Proofs.ClassNames
import Immutability.Proofs.Descriptors

/-!
# Canonical forms of class names

Which texts give the same name, and which forms of a name are read back as the name.

* `Text.Padded` says that a text is another one with blanks around it, and
  `Text.trimChars_of_padded` that trimming makes no difference between the two;
* `ClassName.Respells` says that two texts differ only in the separators of packages and in the
  blanks around them, and `ClassName.ofString_eq_iff` that exactly such texts give one name;
* `ClassName.ofString_internal`, `ClassName.ofDescriptor?_descriptor` and
  `ClassName.parse_descriptor_iff` read back the forms that class files use;
* `ClassName.ofString_canonicalises` puts these together.
-/

namespace Immutability

namespace Text

variable {cs core : List Char}

/-- A text is another one with blanks around it. -/
def Padded (cs core : List Char) : Prop :=
  ∃ before after : List Char, cs = before ++ core ++ after ∧
    (∀ c ∈ before, isBlank c = true) ∧ ∀ c ∈ after, isBlank c = true

theorem Padded.refl (cs : List Char) : Padded cs cs := ⟨[], [], by simp, by simp, by simp⟩

theorem trimRight_append (h : ∀ c ∈ cs, isBlank c = true) :
    trimRight (core ++ cs) = trimRight core := by
  have hblank : ∀ c ∈ cs.reverse, isBlank c = true := fun c hc => h c (List.mem_reverse.1 hc)
  rw [trimRight, trimLeft, List.reverse_append, List.dropWhile_append_of_pos hblank]
  rfl

theorem trimChars_of_padded (h : Padded cs core) : trimChars cs = trimChars core := by
  obtain ⟨before, after, rfl, hbefore, hafter⟩ := h
  have hleft : trimLeft (before ++ core ++ after) = trimLeft (core ++ after) := by
    rw [trimLeft, List.append_assoc, List.dropWhile_append_of_pos hbefore]
    rfl
  rw [trimChars, hleft, trimLeft, List.dropWhile_append]
  split
  · next hcore =>
    -- a text of blanks only: what is left of either side is empty
    have hcore : core.dropWhile isBlank = [] := List.isEmpty_iff.1 hcore
    rw [List.dropWhile_eq_nil_iff.2 hafter, trimChars, trimLeft, hcore]
  · exact trimRight_append hafter

theorem padded_trimChars (cs : List Char) : Padded cs (trimChars cs) := by
  refine ⟨cs.takeWhile isBlank, ((trimLeft cs).reverse.takeWhile isBlank).reverse, ?_,
    fun _ hc => List.mem_takeWhile_imp hc,
    fun _ hc => List.mem_takeWhile_imp (List.mem_reverse.1 hc)⟩
  have hright :
      trimChars cs ++ ((trimLeft cs).reverse.takeWhile isBlank).reverse = trimLeft cs := by
    rw [trimChars, trimRight, trimLeft, ← List.reverse_append, List.takeWhile_append_dropWhile,
      List.reverse_reverse]
  rw [List.append_assoc, hright]
  exact List.takeWhile_append_dropWhile.symm

theorem head?_trimLeft (cs : List Char) : (trimLeft cs).head?.any isBlank = false := by
  cases h : (trimLeft cs).head? with
  | none => rfl
  | some c => exact trimLeft_head h

theorem head?_trimChars (cs : List Char) : (trimChars cs).head?.any isBlank = false := by
  have h := head?_trimLeft (trimRight (trimLeft cs))
  rwa [trimLeft_trimRight _ (trimLeft_idem cs)] at h

theorem getLast?_trimChars (cs : List Char) : (trimChars cs).getLast?.any isBlank = false := by
  rw [trimChars, trimRight, List.getLast?_reverse]
  exact head?_trimLeft _

end Text

namespace ClassName

variable {c d : Char} {cs cs' : List Char} {s s' : String}

/-! ### Texts that name the same class -/

/-- The characters are the same, or both separate packages. -/
def Interchangeable (c d : Char) : Prop := c = d ∨ c ∈ ['/', '.'] ∧ d ∈ ['/', '.']

/-- The texts differ only in the separators of packages and in the blanks around them. -/
def Respells (s s' : String) : Prop :=
  ∃ core core' : List Char, Text.Padded s.toList core ∧ Text.Padded s'.toList core' ∧
    List.Forall₂ Interchangeable core core'

theorem dotted_eq_iff : dotted c = dotted d ↔ Interchangeable c d := by
  unfold dotted Interchangeable
  split <;> split <;> simp_all [eq_comm]

theorem map_dotted_eq_iff :
    cs.map dotted = cs'.map dotted ↔ List.Forall₂ Interchangeable cs cs' := by
  rw [← List.forall₂_eq_eq_eq, List.forall₂_map_left_iff, List.forall₂_map_right_iff]
  simp only [dotted_eq_iff]

/-- Texts give one name exactly if each is a spelling of the other. -/
theorem ofString_eq_iff : ofString s = ofString s' ↔ Respells s s' := by
  constructor
  · intro h
    have htext := congrArg (String.toList ∘ text) h
    simp only [Function.comp_apply, ofString, String.toList_ofList] at htext
    exact ⟨_, _, Text.padded_trimChars _, Text.padded_trimChars _, map_dotted_eq_iff.1 htext⟩
  · rintro ⟨core, core', hs, hs', hcore⟩
    refine ClassName.ext (congrArg String.ofList ?_)
    rw [Text.trimChars_of_padded hs, Text.trimChars_of_padded hs',
      ← Text.trimChars_map _ isBlank_dotted, map_dotted_eq_iff.2 hcore,
      Text.trimChars_map _ isBlank_dotted]

/-! ### Forms of a name in class files -/

theorem interchangeable_slashed (c : Char) : Interchangeable (slashed c) c := by
  unfold slashed Interchangeable
  split <;> simp_all

theorem respells_internal (n : ClassName) : Respells n.internal n.text := by
  refine ⟨_, _, .refl _, .refl _, ?_⟩
  rw [internal, String.toList_ofList, List.forall₂_map_left_iff]
  exact List.forall₂_same.2 fun c _ => interchangeable_slashed c

theorem ofString_internal (n : ClassName) : ofString n.internal = n :=
  (ofString_eq_iff.2 n.respells_internal).trans n.ofString_text

theorem toList_descriptor (n : ClassName) :
    n.descriptor.toList = 'L' :: (n.internal.toList ++ [';']) := by
  simp [descriptor]

theorem ofDescriptor?_descriptor (n : ClassName) : ofDescriptor? n.descriptor = some n := by
  simp only [ofDescriptor?, toList_descriptor, List.getLast?_concat, List.dropLast_concat, if_true,
    String.ofList_toList, ofString_internal]

theorem mem_internal_iff (n : ClassName) : ';' ∈ n.internal.toList ↔ ';' ∈ n.text.toList := by
  have hslashed : ∀ c, slashed c = ';' ↔ c = ';' := by
    intro c
    unfold slashed
    split <;> simp_all
  simp [internal, hslashed]

/-- A name is read back from its descriptor as a type exactly if it does not hold the character that
ends the descriptor. -/
theorem parse_descriptor_iff (n : ClassName) :
    FieldType.parse n.descriptor = .ok (.object n) ↔ ';' ∉ n.text.toList := by
  rw [FieldType.parse_eq_ok_iff, toList_descriptor, ← mem_internal_iff]
  constructor
  · exact FieldType.Denotes.notMem_name
  · intro h
    have hdenotes := FieldType.DenotesElement.object h
    rw [String.ofList_toList, ofString_internal] at hdenotes
    exact .element hdenotes

/-- Every text gives a name in canonical form, which is read back from each of its forms. Two texts
give the same name exactly if they are spellings of one another. -/
theorem ofString_canonicalises :
    (∀ s : String, '/' ∉ (ofString s).text.toList ∧
      (ofString s).text.toList.head?.any Text.isBlank = false ∧
      (ofString s).text.toList.getLast?.any Text.isBlank = false ∧
      ofString (ofString s).text = ofString s ∧
      ofString (ofString s).internal = ofString s ∧
      ofDescriptor? (ofString s).descriptor = some (ofString s) ∧
      (FieldType.parse (ofString s).descriptor = .ok (.object (ofString s)) ↔
        ';' ∉ (ofString s).text.toList)) ∧
    ∀ s s' : String, ofString s = ofString s' ↔ Respells s s' := by
  refine ⟨fun s => ?_, fun s s' => ofString_eq_iff⟩
  generalize ofString s = n
  obtain ⟨hslash, htrim⟩ := n.canonical
  refine ⟨hslash, ?_, ?_, n.ofString_text, n.ofString_internal, n.ofDescriptor?_descriptor,
    n.parse_descriptor_iff⟩
  · rw [← htrim]
    exact Text.head?_trimChars _
  · rw [← htrim]
    exact Text.getLast?_trimChars _

end ClassName

end Immutability

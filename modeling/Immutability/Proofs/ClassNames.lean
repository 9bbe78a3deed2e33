import Immutability.ClassName

/-!
# Spellings of class names

* `ClassName.ofString_text` says that a name is read from its own text, so that a text in canonical
  form names only one class (`ClassName.eq_of_ofString_eq`);
* `ClassName.internal_ofString_iff` says for which spellings the slashed form of the name is the
  spelling itself.
-/

namespace Immutability

/-- A text without slashes and blanks is in canonical form. -/
theorem isCanonicalName_ofList {cs : List Char}
    (h : cs.all (fun c => c ≠ '/' && !Text.isBlank c) = true) :
    IsCanonicalName (String.ofList cs) := by
  have hchars : ∀ c ∈ cs, c ≠ '/' ∧ Text.isBlank c = false := by simpa using h
  have htrim : ∀ l : List Char, (∀ c ∈ l, Text.isBlank c = false) → Text.trimLeft l = l :=
    fun l hl => Text.trimLeft_eq_self_iff.2 fun c hc => hl c (List.mem_of_mem_head? hc)
  refine ⟨?_, ?_⟩
  · rw [String.toList_ofList]
    exact fun hmem => (hchars _ hmem).1 rfl
  · rw [String.toList_ofList, Text.trimChars, Text.trimRight, htrim cs fun c hc => (hchars c hc).2,
      htrim cs.reverse fun c hc => (hchars c (List.mem_reverse.1 hc)).2, List.reverse_reverse]

namespace ClassName

/-- A class name is in canonical form already. -/
theorem ofString_text (n : ClassName) : ofString n.text = n := by
  obtain ⟨hslash, htrim⟩ := n.canonical
  have hdotted : n.text.toList.map dotted = n.text.toList := by
    refine (List.map_congr_left fun c hc => ?_).trans (List.map_id _)
    rw [dotted, if_neg fun h : c = '/' => hslash (h ▸ hc)]
    rfl
  refine ClassName.ext ?_
  simp [ofString, htrim, hdotted]

/-- Texts in canonical form that name the same class are equal. -/
theorem eq_of_ofString_eq {s s' : String} (hs : IsCanonicalName s) (hs' : IsCanonicalName s')
    (h : ofString s = ofString s') : s = s' := by
  have htext := congrArg text h
  rwa [ofString_text ⟨s, hs⟩, ofString_text ⟨s', hs'⟩] at htext

/-! ### The slashed form -/

theorem isBlank_slashed (c : Char) : Text.isBlank (slashed c) = Text.isBlank c := by
  unfold slashed
  split
  · subst c; decide
  · rfl

theorem slashed_ne (c : Char) : slashed c ≠ '.' := by
  unfold slashed
  split
  · decide
  · assumption

theorem slashed_dotted {c : Char} (h : c ≠ '.') : slashed (dotted c) = c := by
  unfold dotted
  split
  · next hc => rw [hc]; rfl
  · exact if_neg h

/-- Of a text, only its dots become other characters in the slashed form. -/
theorem slashed_dotted_or (c : Char) : slashed (dotted c) = '/' ∨ slashed (dotted c) = c := by
  by_cases h : c = '.'
  · subst c
    exact Or.inl rfl
  · exact Or.inr (slashed_dotted h)

theorem toList_internal_ofString (s : String) :
    (ofString s).internal.toList = (Text.trimChars s.toList).map fun c => slashed (dotted c) := by
  simp [internal, ofString]

/-- The slashed form of a name is the text that it was read from exactly if the text has no dots and
no blanks at its ends. -/
theorem internal_ofString_iff {s : String} :
    (ofString s).internal = s ↔ '.' ∉ s.toList ∧ Text.trimChars s.toList = s.toList := by
  constructor
  · intro h
    have htext := toList_internal_ofString s
    rw [h] at htext
    refine ⟨?_, ?_⟩
    · rw [htext]
      simp [slashed_ne]
    · have hblank : ∀ c, Text.isBlank (slashed (dotted c)) = Text.isBlank c := fun c => by
        rw [isBlank_slashed, isBlank_dotted]
      calc Text.trimChars s.toList
          = Text.trimChars ((Text.trimChars s.toList).map fun c => slashed (dotted c)) := by
            rw [← htext]
        _ = (Text.trimChars s.toList).map fun c => slashed (dotted c) := by
            rw [Text.trimChars_map _ hblank, Text.trimChars_idem]
        _ = s.toList := htext.symm
  · rintro ⟨hdot, htrim⟩
    rw [← String.toList_inj, toList_internal_ofString, htrim]
    refine (List.map_congr_left fun c hc => ?_).trans (List.map_id _)
    exact slashed_dotted fun h => hdot (h ▸ hc)

end ClassName

end Immutability

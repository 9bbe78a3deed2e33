import Immutability.Proofs.Descriptors

/-!
# Array types and their elements

An array type keeps the text of its descriptor, so the type of its elements is read anew from a part
of this text. For a descriptor that is accepted, this reading succeeds until no bracket is left.

* `FieldType.withDimensions` is the type of a descriptor with brackets in front, and
  `FieldType.denotes_brackets_iff` says that such a descriptor denotes no other type;
* `FieldType.elementAt?` goes from an array type to its elements several times;
* `FieldType.display_array` says that the notation of any array type is that of its elements and a
  pair of brackets;
* `FieldType.parse_peels` is the result for the descriptors that are accepted.
-/

namespace Immutability

namespace FieldType

variable {cs body : List Char} {t base : FieldType} {n : Nat}

/-! ### Descriptors with brackets -/

/-- The type whose descriptor is that of a type that is not an array, behind `n` brackets. -/
def withDimensions (cs : List Char) (base : FieldType) : Nat → FieldType
  | 0 => base
  | n + 1 => .array (String.ofList (List.replicate (n + 1) '[' ++ cs))

theorem DenotesElement.head?_ne (h : DenotesElement cs base) : ∀ c ∈ cs.head?, c ≠ '[' := by
  obtain ⟨c, rest, rfl, hc⟩ := h.exists_cons
  simpa using hc

theorem DenotesElement.denotes_withDimensions (h : DenotesElement cs base) (n : Nat) :
    Denotes (List.replicate n '[' ++ cs) (withDimensions cs base n) := by
  cases n with
  | zero => exact .element h
  | succ n => exact .array h n

/-- Behind all the brackets of a descriptor there is the descriptor of a type that is not an
array. -/
theorem denotes_brackets_iff (hbody : ∀ c ∈ body.head?, c ≠ '[') :
    Denotes (List.replicate n '[' ++ body) t ↔
      ∃ base, DenotesElement body base ∧ t = withDimensions body base n := by
  constructor
  · intro h
    have hscan := scan_append h []
    rw [List.append_nil] at hscan
    obtain ⟨⟨base, after⟩, helement, -⟩ :=
      map_eq_ok.1 ((scan_replicate_append n hbody).symm.trans hscan)
    obtain ⟨front, rfl, hbase⟩ := denotesElement_of_scanElement helement
    -- what was read of the text behind the brackets is all of it, since a scan has one outcome
    have hfront := scan_append (hbase.denotes_withDimensions n) after
    rw [List.append_assoc, hscan] at hfront
    obtain ⟨rfl, rfl⟩ := Prod.mk.inj (Except.ok.inj hfront)
    exact ⟨base, by simpa using hbase, by rw [List.append_nil]⟩
  · rintro ⟨base, hbase, rfl⟩
    exact hbase.denotes_withDimensions n

theorem DenotesElement.parse_withDimensions (h : DenotesElement cs base) (n : Nat) :
    parse (String.ofList (List.replicate n '[' ++ cs)) = .ok (withDimensions cs base n) := by
  rw [parse_eq_ok_iff, String.toList_ofList]
  exact h.denotes_withDimensions n

/-! ### Elements -/

/-- The type that is reached from an array type by going to the elements `k` times. -/
def elementAt? (t : FieldType) : Nat → Option FieldType
  | 0 => some t
  | k + 1 => (t.elementAt? k).bind element?

theorem DenotesElement.element?_eq_none (h : DenotesElement cs base) : base.element? = none := by
  cases h <;> rfl

theorem DenotesElement.ne_array (h : DenotesElement cs base) (d : String) : base ≠ .array d := by
  rintro rfl
  cases h

/-- The elements of an array type have one dimension less. -/
theorem DenotesElement.element?_withDimensions (h : DenotesElement cs base) (n : Nat) :
    (withDimensions cs base (n + 1)).element? = some (withDimensions cs base n) := by
  have hdrop : (String.ofList (List.replicate (n + 1) '[' ++ cs)).toList.drop 1 =
      List.replicate n '[' ++ cs := by
    simp [List.replicate_succ]
  simp only [withDimensions, element?, hdrop]
  exact mem_toOption_iff.2 (h.parse_withDimensions n)

theorem DenotesElement.elementAt?_withDimensions (h : DenotesElement cs base) {k : Nat}
    (hk : k ≤ n) :
    (withDimensions cs base n).elementAt? k = some (withDimensions cs base (n - k)) := by
  induction k with
  | zero => rfl
  | succ k ih =>
    have hleft : n - k = n - (k + 1) + 1 := by omega
    rw [elementAt?, ih (Nat.le_of_succ_le hk), hleft, Option.bind_some, h.element?_withDimensions]

/-! ### The notation of source code -/

/-- So many pairs of brackets. -/
def brackets (n : Nat) : String := String.join (List.replicate n "[]")

theorem brackets_succ (n : Nat) : brackets (n + 1) = brackets n ++ "[]" := by
  simp [brackets, List.replicate_succ', String.join_append]

theorem DenotesElement.display_eq (h : DenotesElement cs base) {d : String} {c : Char}
    (hd : d.toList = c :: (List.replicate n '[' ++ cs)) :
    (array d).display = base.display ++ brackets (n + 1) := by
  have helement : (d.toList.drop 1).dropWhile (· = '[') = cs := by
    rw [hd]
    exact dropWhile_brackets n h.head?_ne
  have hlength : d.length - cs.length = n + 1 := by
    rw [← String.length_toList, hd]
    simp only [List.length_cons, List.length_append, List.length_replicate]
    omega
  have hscan : scanElement cs = .ok (base, []) := by simpa using scanElement_append h []
  simp only [display, helement, hlength, hscan]
  cases h <;> rfl

/-- The notation falls back where no elements can be read. -/
theorem display_eq_array {d : String} (h : (array d).element? = none) :
    (array d).display = "array" := by
  obtain ⟨n, body, hrest, hbody⟩ := exists_brackets (d.toList.drop 1)
  have helement : (d.toList.drop 1).dropWhile (· = '[') = body := by
    rw [hrest, dropWhile_brackets n hbody]
  have hscan : ∀ base, scanElement body ≠ .ok (base, []) := by
    intro base hbase
    obtain ⟨front, rfl, hfront⟩ := denotesElement_of_scanElement hbase
    have hparse := hfront.parse_withDimensions n
    rw [List.append_nil] at hrest
    rw [← hrest] at hparse
    simp only [element?, hparse] at h
    cases h
  simp only [display, helement]
  split
  · next p hp => exact absurd hp (hscan _)
  · next name hname => exact absurd hname (hscan _)
  · rfl

/-- The notation of an array type is that of its elements and a pair of brackets, and a mere word
where no elements can be read. -/
theorem display_array (d : String) :
    (array d).display = (array d).element?.elim "array" fun e => e.display ++ "[]" := by
  cases he : (array d).element? with
  | none => exact display_eq_array he
  | some e =>
    have hrest : Denotes (d.toList.drop 1) e := by
      simpa using parse_eq_ok_iff.1 (mem_toOption_iff.1 he)
    obtain ⟨c, hd⟩ : ∃ c, d.toList = c :: d.toList.drop 1 := by
      cases htext : d.toList with
      | nil => exact absurd (by simp [htext]) hrest.ne_nil
      | cons c rest => exact ⟨c, rfl⟩
    generalize d.toList.drop 1 = rest at hrest hd
    cases hrest with
    | element h => exact h.display_eq (n := 0) hd
    | @array cs base h n =>
      have hnext := h.display_eq (String.toList_ofList (l := List.replicate (n + 1) '[' ++ cs))
      rw [h.display_eq hd, brackets_succ, ← String.append_assoc, ← hnext]
      rfl

theorem DenotesElement.display_withDimensions (h : DenotesElement cs base) (n : Nat) :
    (withDimensions cs base n).display = base.display ++ brackets n := by
  induction n with
  | zero => simp [withDimensions, brackets]
  | succ n ih =>
    rw [withDimensions, display_array, ← withDimensions, h.element?_withDimensions,
      Option.elim_some, ih, brackets_succ, String.append_assoc]

/-- A type that is read from a descriptor is written `array` or `void` only if it is a class of this
name. -/
theorem DenotesElement.exists_object (h : DenotesElement cs base)
    (hword : (withDimensions cs base n).display ∈ ["array", "void"]) :
    ∃ name, withDimensions cs base n = .object name := by
  cases n with
  | zero =>
    cases h with
    | primitive p => cases p <;> simp [withDimensions, display, Primitive.keyword] at hword
    | object h => exact ⟨_, rfl⟩
  | succ n =>
    have hlast : ∀ word ∈ ["array", "void"], word.toList.getLast? ≠ some ']' := by decide +kernel
    refine absurd ?_ (hlast _ hword)
    rw [h.display_withDimensions, brackets_succ, ← String.append_assoc, String.toList_append]
    exact List.getLast?_append_of_ne_nil _ (List.cons_ne_nil '[' [']'])

/-- The brackets of a descriptor that is accepted can be taken off one by one, with the type of the
elements at each step, down to a type that is not an array. The notation of the type shows this type
and all the brackets, and never falls back to a mere word. -/
theorem parse_peels {s : String} (hs : s.toList = List.replicate n '[' ++ body)
    (hbody : body.head? ≠ some '[') (h : parse s = .ok t) :
    ∃ base, parse (String.ofList body) = .ok base ∧ (∀ d, base ≠ .array d) ∧
      base.element? = none ∧ t.elementAt? n = some base ∧
      t.display = base.display ++ String.join (List.replicate n "[]") ∧
      ∀ k ≤ n, ∃ u, t.elementAt? k = some u ∧ parse (String.ofList (s.toList.drop k)) = .ok u ∧
        (u.display ∈ ["array", "void"] → ∃ name, u = .object name) := by
  have hhead : ∀ c ∈ body.head?, c ≠ '[' := fun c hc e => hbody (e ▸ hc)
  rw [parse_eq_ok_iff, hs, denotes_brackets_iff hhead] at h
  obtain ⟨base, hbase, rfl⟩ := h
  refine ⟨base, hbase.parse_withDimensions 0, hbase.ne_array, hbase.element?_eq_none, ?_,
    hbase.display_withDimensions n, fun k hk => ⟨withDimensions body base (n - k), ?_, ?_, ?_⟩⟩
  · simpa [withDimensions] using hbase.elementAt?_withDimensions (Nat.le_refl n)
  · exact hbase.elementAt?_withDimensions hk
  · have hdrop : s.toList.drop k = List.replicate (n - k) '[' ++ body := by
      rw [hs, List.drop_append_of_le_length (by simpa using hk), List.drop_replicate]
    rw [hdrop]
    exact hbase.parse_withDimensions (n - k)
  · exact hbase.exists_object

theorem parse_peels_strings :
    parse "[[Ljava/lang/String;" = .ok (.array "[[Ljava/lang/String;") ∧
    ∃ base, parse "Ljava/lang/String;" = .ok base ∧
      (array "[[Ljava/lang/String;").elementAt? 2 = some base ∧
      (array "[[Ljava/lang/String;").display = base.display ++ "[][]" := by
  have hparse : parse "[[Ljava/lang/String;" = .ok (.array "[[Ljava/lang/String;") :=
    mem_toOption_iff.1 (by decide +kernel)
  have hs : "[[Ljava/lang/String;".toList =
      List.replicate 2 '[' ++ "Ljava/lang/String;".toList := rfl
  obtain ⟨base, hbase, -, -, hpeeled, hdisplay, -⟩ := parse_peels hs (by decide) hparse
  exact ⟨hparse, base, hbase, hpeeled, hdisplay⟩

end FieldType

end Immutability

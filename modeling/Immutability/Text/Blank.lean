/-!
# Blank characters

* `isBlank` decides the Unicode property `White_Space`;
* `trimChars` and `trim` remove the blanks at the two ends of a text.

`trimChars` is idempotent, and it commutes with every character map that keeps blanks apart from
the other characters.
-/

namespace Immutability.Text

/-- The characters with the Unicode property `White_Space`. -/
def isBlank (c : Char) : Bool :=
  let n := c.toNat
  (0x09 ≤ n && n ≤ 0x0D) || n == 0x20 || n == 0x85 || n == 0xA0 || n == 0x1680 ||
    (0x2000 ≤ n && n ≤ 0x200A) || n == 0x2028 || n == 0x2029 || n == 0x202F || n == 0x205F ||
    n == 0x3000

/-- The characters left after the leading blanks. -/
def trimLeft (cs : List Char) : List Char := cs.dropWhile isBlank

/-- The characters up to the last one that is not blank. -/
def trimRight (cs : List Char) : List Char := (trimLeft cs.reverse).reverse

/-- The characters without the blanks at either end. -/
def trimChars (cs : List Char) : List Char := trimRight (trimLeft cs)

/-- A text without the blanks at either end. -/
def trim (s : String) : String := String.ofList (trimChars s.toList)

/-! ### Laws of trimming -/

theorem trimLeft_eq_self_iff {cs : List Char} :
    trimLeft cs = cs ↔ ∀ c, cs.head? = some c → isBlank c = false := by
  cases cs with
  | nil => simp [trimLeft]
  | cons c cs =>
    by_cases h : isBlank c
    · have hlen : (cs.dropWhile isBlank).length ≤ cs.length :=
        (List.dropWhile_suffix isBlank).length_le
      simp only [trimLeft, List.dropWhile_cons_of_pos h, List.head?_cons, Option.some.injEq]
      constructor
      · intro he
        rw [he] at hlen
        simp only [List.length_cons] at hlen
        omega
      · intro hc
        simp [hc c rfl] at h
    · simp [trimLeft, h]

theorem trimLeft_head {cs : List Char} {c : Char} (h : (trimLeft cs).head? = some c) :
    isBlank c = false := by
  induction cs with
  | nil => simp [trimLeft] at h
  | cons d cs ih =>
    by_cases hd : isBlank d
    · exact ih (by simpa [trimLeft, hd] using h)
    · simp [trimLeft, hd] at h
      simpa [h] using hd

theorem trimLeft_idem (cs : List Char) : trimLeft (trimLeft cs) = trimLeft cs :=
  trimLeft_eq_self_iff.2 fun _ h => trimLeft_head h

theorem trimRight_idem (cs : List Char) : trimRight (trimRight cs) = trimRight cs := by
  simp [trimRight, trimLeft_idem]

theorem trimRight_prefix (cs : List Char) : trimRight cs <+: cs := by
  have h : trimLeft cs.reverse <:+ cs.reverse := List.dropWhile_suffix isBlank
  simpa [trimRight] using List.reverse_prefix.2 h

/-- Trimming on the right keeps a text that does not start with a blank that way. -/
theorem trimLeft_trimRight (cs : List Char) (h : trimLeft cs = cs) :
    trimLeft (trimRight cs) = trimRight cs := by
  rw [trimLeft_eq_self_iff] at h ⊢
  intro c hc
  obtain ⟨rest, hrest⟩ := trimRight_prefix cs
  apply h
  rw [← hrest, List.head?_append, hc]
  rfl

theorem trimChars_idem (cs : List Char) : trimChars (trimChars cs) = trimChars cs := by
  unfold trimChars
  rw [trimLeft_trimRight _ (trimLeft_idem cs), trimRight_idem]

theorem trimLeft_map (f : Char → Char) (hf : ∀ c, isBlank (f c) = isBlank c) (cs : List Char) :
    trimLeft (cs.map f) = (trimLeft cs).map f := by
  induction cs with
  | nil => rfl
  | cons c cs ih =>
    by_cases h : isBlank c
    · simpa [trimLeft, h, hf] using ih
    · simp [trimLeft, h, hf]

/-- A character map that keeps blanks apart from the other characters commutes with trimming. -/
theorem trimChars_map (f : Char → Char) (hf : ∀ c, isBlank (f c) = isBlank c) (cs : List Char) :
    trimChars (cs.map f) = (trimChars cs).map f := by
  simp only [trimChars, trimRight, trimLeft_map f hf, ← List.map_reverse]

end Immutability.Text

import Immutability.Frame
import Immutability.Proofs.Steps
import Mathlib.Data.List.Basic
import Mathlib.Tactic.SplitIfs

/-!
# Stack moves and words

The operand stack of a frame has one entry for each value. The machine counts in words instead: a
`long` or `double` fills two words, any other value fills one, and a stack move copies or drops
words without looking at what they belong to.

* `StackWord` is a word, and `StackWord.ofStack` the words of a stack of values;
* `StackMove.onWords` is a move in words, with `StackMove.moved` and `StackMove.reach` for the words
  that it moves and those that it goes down to;
* `StackWord.Cuts` says that a cut of the words goes through the middle of a value;
* `StackMove.apply_of_blocks` says what a move does to values, block by block, and
  `Frame.step_stack_refines` that this is the move in words, unless it cuts a value in two.
-/

namespace Immutability

/-- A word of the operand stack: a value that fills one word, or half of one that fills two. -/
inductive StackWord where
  | whole (v : Value)
  | upper (v : Value)
  | lower (v : Value)

namespace StackWord

/-- The words of a value, the upper one first. -/
def ofValue (v : Value) : List StackWord := if v.isWide then [upper v, lower v] else [whole v]

/-- The words of a stack, top first. -/
def ofStack (s : List Value) : List StackWord := s.flatMap ofValue

/-- A cut below the topmost `n` words goes through the middle of a value: what follows is the lower
half of it. -/
def Cuts (s : List Value) (n : Nat) : Prop := ∃ v, (ofStack s)[n]? = some (lower v)

variable {s t : List Value} {v : Value} {n : Nat}

@[simp] theorem ofStack_nil : ofStack [] = [] := rfl

@[simp] theorem ofStack_cons : ofStack (v :: s) = ofValue v ++ ofStack s := List.flatMap_cons

@[simp] theorem ofStack_append : ofStack (s ++ t) = ofStack s ++ ofStack t := List.flatMap_append

theorem length_ofValue (v : Value) : (ofValue v).length = if v.isWide then 2 else 1 := by
  unfold ofValue
  split_ifs <;> rfl

theorem length_le_length_ofStack (s : List Value) : s.length ≤ (ofStack s).length := by
  induction s with
  | nil => exact Nat.le_refl 0
  | cons v s ih =>
    rw [ofStack_cons, List.length_append, List.length_cons, length_ofValue]
    split_ifs <;> omega

theorem eq_nil_of_length (h : (ofStack s).length = 0) : s = [] := by
  have hle := length_le_length_ofStack s
  exact List.eq_nil_of_length_eq_zero (by omega)

/-- A value fills one word only if it is narrow. -/
theorem exists_of_length_one (h : (ofStack s).length = 1) : ∃ v, s = [v] ∧ v.isWide = false := by
  cases s with
  | nil => simp at h
  | cons v s =>
    rw [ofStack_cons, List.length_append, length_ofValue] at h
    split_ifs at h with hv
    · omega
    · exact ⟨v, by rw [eq_nil_of_length (s := s) (by omega)], by simpa using hv⟩

/-- Two words are those of a wide value or of two narrow ones. -/
theorem exists_of_length_two (h : (ofStack s).length = 2) :
    (∃ v, s = [v] ∧ v.isWide = true) ∨
      ∃ v w, s = [v, w] ∧ v.isWide = false ∧ w.isWide = false := by
  cases s with
  | nil => simp at h
  | cons v s =>
    rw [ofStack_cons, List.length_append, length_ofValue] at h
    split_ifs at h with hv
    · exact .inl ⟨v, by rw [eq_nil_of_length (s := s) (by omega)], hv⟩
    · obtain ⟨w, rfl, hw⟩ := exists_of_length_one (s := s) (by omega)
      exact .inr ⟨v, w, rfl, by simpa using hv, hw⟩

theorem Cuts.append (h : Cuts s n) (below : List Value) : Cuts (s ++ below) n := by
  obtain ⟨v, hv⟩ := h
  obtain ⟨hn, -⟩ := List.getElem?_eq_some_iff.1 hv
  exact ⟨v, by rw [ofStack_append, List.getElem?_append_left hn, hv]⟩

theorem Cuts.cons (v : Value) (h : Cuts s n) : Cuts (v :: s) ((ofValue v).length + n) := by
  obtain ⟨w, hw⟩ := h
  refine ⟨w, ?_⟩
  rw [ofStack_cons, List.getElem?_append_right (Nat.le_add_right _ _), Nat.add_sub_cancel_left, hw]

theorem cuts_of_isWide (hv : v.isWide = true) : Cuts (v :: s) 1 :=
  ⟨v, by simp [ofValue, hv]⟩

/-- A cut that goes through no value has whole values above it. -/
theorem exists_above_of_not_cuts (hn : n ≤ (ofStack s).length) (h : ¬Cuts s n) :
    ∃ above below, s = above ++ below ∧ (ofStack above).length = n := by
  induction s generalizing n with
  | nil => exact ⟨[], [], rfl, (Nat.le_zero.1 hn).symm⟩
  | cons v s ih =>
    rcases Nat.lt_or_ge n (ofValue v).length with hlt | hge
    · cases n with
      | zero => exact ⟨[], v :: s, rfl, rfl⟩
      | succ n =>
        -- the cut lies inside of the first value, which is wide
        rw [length_ofValue] at hlt
        split_ifs at hlt with hv
        · obtain rfl : n = 0 := by omega
          exact absurd (cuts_of_isWide hv) h
        · omega
    · obtain ⟨k, rfl⟩ := Nat.exists_eq_add_of_le hge
      rw [ofStack_cons, List.length_append] at hn
      obtain ⟨above, below, rfl, rfl⟩ := ih (by omega) fun hcut => h (hcut.cons v)
      exact ⟨v :: above, below, rfl, by rw [ofStack_cons, List.length_append]⟩

end StackWord

namespace StackMove

open StackWord

/-- The effect of a stack move on words, top first, or none if there are too few of them. -/
def onWords {α : Type} : StackMove → List α → Option (List α)
  | .pop, _ :: s => some s
  | .pop2, _ :: _ :: s => some s
  | .dup, a :: s => some (a :: a :: s)
  | .dupX1, a :: b :: s => some (a :: b :: a :: s)
  | .dupX2, a :: b :: c :: s => some (a :: b :: c :: a :: s)
  | .dup2, a :: b :: s => some (a :: b :: a :: b :: s)
  | .dup2X1, a :: b :: c :: s => some (a :: b :: c :: a :: b :: s)
  | .dup2X2, a :: b :: c :: d :: s => some (a :: b :: c :: d :: a :: b :: s)
  | .swap, a :: b :: s => some (b :: a :: s)
  | _, _ => none

/-- How many words, from the top, a stack move drops, copies or exchanges. -/
def moved : StackMove → Nat
  | .pop | .dup | .dupX1 | .dupX2 | .swap => 1
  | .pop2 | .dup2 | .dup2X1 | .dup2X2 => 2

/-- How many words, from the top, lie above the place where a stack move puts the words it moves. -/
def reach : StackMove → Nat
  | .pop | .dup => 1
  | .pop2 | .dup2 | .dupX1 | .swap => 2
  | .dupX2 | .dup2X1 => 3
  | .dup2X2 => 4

/-- What takes the place of a block to be moved and the block below it. -/
def rearrange {α : Type} (move : StackMove) (block below : List α) : List α :=
  match move with
  | .pop | .pop2 => []
  | .dup | .dupX1 | .dupX2 | .dup2 | .dup2X1 | .dup2X2 => block ++ below ++ block
  | .swap => below ++ block

variable {move : StackMove}

theorem moved_le_reach (move : StackMove) : move.moved ≤ move.reach := by
  cases move <;> decide

theorem reach_le_of_onWords {α : Type} {s t : List α} (h : move.onWords s = some t) :
    move.reach ≤ s.length := by
  unfold onWords at h
  split at h
  all_goals simp_all [reach]

/-- In words, a move rearranges the words that it moves and those that it passes. -/
theorem onWords_of_blocks {α : Type} {block below : List α}
    (hblock : block.length = move.moved) (hbelow : below.length = move.reach - move.moved)
    (rest : List α) :
    move.onWords (block ++ below ++ rest) = some (move.rearrange block below ++ rest) := by
  cases move with
  | pop | dup =>
    obtain ⟨a, rfl⟩ := List.length_eq_one_iff.1 hblock
    obtain rfl := List.length_eq_zero_iff.1 hbelow
    rfl
  | pop2 | dup2 =>
    obtain ⟨a, b, rfl⟩ := List.length_eq_two.1 hblock
    obtain rfl := List.length_eq_zero_iff.1 hbelow
    rfl
  | dupX1 | swap =>
    obtain ⟨a, rfl⟩ := List.length_eq_one_iff.1 hblock
    obtain ⟨b, rfl⟩ := List.length_eq_one_iff.1 hbelow
    rfl
  | dupX2 =>
    obtain ⟨a, rfl⟩ := List.length_eq_one_iff.1 hblock
    obtain ⟨b, c, rfl⟩ := List.length_eq_two.1 hbelow
    rfl
  | dup2X1 =>
    obtain ⟨a, b, rfl⟩ := List.length_eq_two.1 hblock
    obtain ⟨c, rfl⟩ := List.length_eq_one_iff.1 hbelow
    rfl
  | dup2X2 =>
    obtain ⟨a, b, rfl⟩ := List.length_eq_two.1 hblock
    obtain ⟨c, d, rfl⟩ := List.length_eq_two.1 hbelow
    rfl

/-- A move of values rearranges blocks of values in the same way, if the blocks have as many words
as the move in words speaks of. -/
theorem apply_of_blocks {block below : List Value}
    (hblock : (ofStack block).length = move.moved)
    (hbelow : (ofStack below).length = move.reach - move.moved) (rest : List Value) :
    move.apply (block ++ below ++ rest) = some (move.rearrange block below ++ rest) := by
  cases move with
  | pop | dup =>
    obtain ⟨v, rfl, hv⟩ := exists_of_length_one hblock
    obtain rfl := eq_nil_of_length hbelow
    rfl
  | pop2 | dup2 =>
    obtain rfl := eq_nil_of_length hbelow
    obtain ⟨v, rfl, hv⟩ | ⟨v, w, rfl, hv, hw⟩ := exists_of_length_two hblock
    all_goals simp [apply, rearrange, hv]
  | dupX1 | swap =>
    obtain ⟨v, rfl, hv⟩ := exists_of_length_one hblock
    obtain ⟨w, rfl, hw⟩ := exists_of_length_one hbelow
    rfl
  | dupX2 =>
    obtain ⟨u, rfl, hu⟩ := exists_of_length_one hblock
    obtain ⟨v, rfl, hv⟩ | ⟨v, w, rfl, hv, hw⟩ := exists_of_length_two hbelow
    all_goals simp [apply, rearrange, hv]
  | dup2X1 =>
    obtain ⟨u, rfl, hu⟩ := exists_of_length_one hbelow
    obtain ⟨v, rfl, hv⟩ | ⟨v, w, rfl, hv, hw⟩ := exists_of_length_two hblock
    all_goals simp [apply, rearrange, hv]
  | dup2X2 =>
    obtain ⟨v, rfl, hv⟩ | ⟨v, w, rfl, hv, hw⟩ := exists_of_length_two hblock
    all_goals
      obtain ⟨v', rfl, hv'⟩ | ⟨v', w', rfl, hv', hw'⟩ := exists_of_length_two hbelow
      all_goals simp [apply, rearrange, hv, hv']

theorem ofStack_rearrange (block below : List Value) :
    ofStack (move.rearrange block below) = move.rearrange (ofStack block) (ofStack below) := by
  cases move <;> simp [rearrange]

/-- A move that cuts no value in two moves blocks of whole values. -/
theorem exists_blocks {s : List Value} (hreach : move.reach ≤ (ofStack s).length)
    (hmoved : ¬Cuts s move.moved) (hplace : ¬Cuts s move.reach) :
    ∃ block below rest, s = block ++ below ++ rest ∧ (ofStack block).length = move.moved ∧
      (ofStack below).length = move.reach - move.moved := by
  obtain ⟨above, rest, rfl, habove⟩ := exists_above_of_not_cuts hreach hplace
  have hle : move.moved ≤ (ofStack above).length := habove ▸ move.moved_le_reach
  obtain ⟨block, below, rfl, hblock⟩ :=
    exists_above_of_not_cuts hle fun hcut => hmoved (hcut.append rest)
  refine ⟨block, below, rest, rfl, hblock, ?_⟩
  rw [ofStack_append, List.length_append] at habove
  omega

/-- A move of values is the move of their words, if it cuts none of them in two. -/
theorem exists_apply_of_onWords {s : List Value} {words : List StackWord}
    (hmoved : ¬Cuts s move.moved) (hplace : ¬Cuts s move.reach)
    (h : move.onWords (ofStack s) = some words) :
    ∃ t, move.apply s = some t ∧ ofStack t = words := by
  obtain ⟨block, below, rest, rfl, hblock, hbelow⟩ :=
    exists_blocks (reach_le_of_onWords h) hmoved hplace
  refine ⟨_, apply_of_blocks hblock hbelow rest, ?_⟩
  rw [ofStack_append, ofStack_append, onWords_of_blocks hblock hbelow, Option.some_inj] at h
  rw [ofStack_append, ofStack_rearrange, h]

/-- A move finds too few values only if there are fewer of them than words that it goes down to. -/
theorem length_lt_reach_of_apply {s : List Value} (h : move.apply s = none) :
    s.length < move.reach := by
  -- no move looks at more than four entries
  rcases s with _ | ⟨a, _ | ⟨b, _ | ⟨c, _ | ⟨d, s⟩⟩⟩⟩
  all_goals cases move <;> grind [apply, reach]

end StackMove

namespace Frame

open StackWord

/-- Stack moves refine those of the machine, which count in words. If a move is defined on the words
of the stack, and cuts no value in two, neither with the words it moves nor at the place where it
puts them, then it succeeds on the values, and the words of the result are the result in words. Only
a stack with too few entries makes a move fail. Local slots stay as they are, and what they hold
makes no difference. -/
theorem step_stack_refines (f : Frame) (index : Nat) (move : StackMove) :
    (∀ words, move.onWords (ofStack f.stack) = some words → ¬Cuts f.stack move.moved →
      ¬Cuts f.stack move.reach →
      ∃ g, f.step index (.stack move) = .ok g ∧ ofStack g.stack = words) ∧
    (∀ e, f.step index (.stack move) = .error e →
      e = .underflow ∧ f.stack.length < move.reach) ∧
    ∀ locals, step ⟨locals, f.stack⟩ index (.stack move) =
      (f.step index (.stack move)).map fun g => ⟨locals, g.stack⟩ := by
  refine ⟨fun words hwords hmoved hplace => ?_, fun e he => ?_, fun locals => ?_⟩
  · obtain ⟨t, ht, hwords⟩ := StackMove.exists_apply_of_onWords hmoved hplace hwords
    exact ⟨{ f with stack := t }, by simp only [step, ht], hwords⟩
  · cases happly : move.apply f.stack with
    | some t => simp [step, happly] at he
    | none =>
      have hunderflow : StepError.underflow = e := by simpa [step, happly] using he
      exact ⟨hunderflow.symm, StackMove.length_lt_reach_of_apply happly⟩
  · cases happly : move.apply f.stack with
    | some t => simp only [step, happly, Except.map]
    | none => simp only [step, happly, Except.map]

/-- A `long` copied below two narrow values. -/
theorem step_stack_refines_longBelowTwo :
    ∃ g, step ⟨#[.this], [.primitive .long, .primitive .int, .null, .this]⟩ 0
        (.stack .dup2X2) = .ok g ∧
      ofStack g.stack =
        [.upper (.primitive .long), .lower (.primitive .long), .whole (.primitive .int),
          .whole .null, .upper (.primitive .long), .lower (.primitive .long), .whole .this] := by
  refine (step_stack_refines _ 0 .dup2X2).1 _ rfl ?_ ?_
  · rintro ⟨v, hv⟩
    cases hv
  · rintro ⟨v, hv⟩
    cases hv

end Frame

end Immutability

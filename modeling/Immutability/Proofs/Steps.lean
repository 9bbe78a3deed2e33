import Mathlib.Data.List.Forall2

/-!
# Steps that may fail

Laws of sequences of steps of which each may fail: the whole succeeds exactly if every step does.
`updating` is a step that reads an item, which may fail, and updates a state with it.
-/

namespace Immutability

variable {ε ε' ι α β : Type}

theorem bind_eq_ok {x : Except ε α} {f : α → Except ε β} {b : β} :
    (x >>= f) = .ok b ↔ ∃ a, x = .ok a ∧ f a = .ok b := by
  constructor
  · intro h
    cases x with
    | error e => cases h
    | ok a => exact ⟨a, rfl, h⟩
  · rintro ⟨a, rfl, h⟩
    exact h

theorem bind_eq_error {x : Except ε α} {f : α → Except ε β} {e : ε} :
    (x >>= f) = .error e ↔ x = .error e ∨ ∃ a, x = .ok a ∧ f a = .error e := by
  cases x with
  | error e' => simp [bind, Except.bind]
  | ok a => simp [bind, Except.bind]

theorem map_eq_ok {f : α → β} {x : Except ε α} {b : β} :
    x.map f = .ok b ↔ ∃ a, x = .ok a ∧ f a = b := by
  cases x with
  | error e => simp [Except.map]
  | ok a => simp [Except.map]

theorem mapError_eq_ok {wrap : ε → ε'} {x : Except ε α} {a : α} :
    x.mapError wrap = .ok a ↔ x = .ok a := by
  constructor
  · intro h
    cases x with
    | error e => cases h
    | ok b =>
      cases h
      rfl
  · rintro rfl
    rfl

theorem mem_toOption_iff {x : Except ε α} {a : α} : a ∈ x.toOption ↔ x = .ok a := by
  cases x with
  | error e => simp [Except.toOption]
  | ok b => simp [Except.toOption]

/-- A list of steps returns what each of the steps returns. -/
theorem mapM_eq_ok {f : ι → Except ε α} {items : List ι} {found : List α} :
    items.mapM f = .ok found ↔ List.Forall₂ (fun i a => f i = .ok a) items found := by
  induction items generalizing found with
  | nil =>
    rw [List.forall₂_nil_left_iff]
    constructor
    · intro h
      cases h
      rfl
    · rintro rfl
      rfl
  | cons i items ih =>
    rw [List.mapM_cons, List.forall₂_cons_left_iff]
    constructor
    · intro h
      obtain ⟨a, ha, h⟩ := bind_eq_ok.1 h
      obtain ⟨rest, hrest, h⟩ := bind_eq_ok.1 h
      cases h
      exact ⟨a, rest, ha, ih.1 hrest, rfl⟩
    · rintro ⟨a, rest, ha, hrest, rfl⟩
      exact bind_eq_ok.2 ⟨a, ha, bind_eq_ok.2 ⟨rest, ih.2 hrest, rfl⟩⟩

/-- A list of steps fails where one of the steps does. -/
theorem exists_of_mapM_error {f : ι → Except ε α} {items : List ι} {e : ε}
    (h : items.mapM f = .error e) : ∃ i ∈ items, f i = .error e := by
  induction items with
  | nil => cases h
  | cons i items ih =>
    rw [List.mapM_cons] at h
    rcases bind_eq_error.1 h with h | ⟨a, -, h⟩
    · exact ⟨i, List.mem_cons_self, h⟩
    · rcases bind_eq_error.1 h with h | ⟨rest, -, h⟩
      · obtain ⟨j, hj, hje⟩ := ih h
        exact ⟨j, List.mem_cons_of_mem _ hj, hje⟩
      · cases h

/-- A list of steps succeeds if each of the steps does. -/
theorem exists_mapM_eq_ok {f : ι → Except ε α} {items : List ι}
    (h : ∀ i ∈ items, ∃ a, f i = .ok a) : ∃ found, items.mapM f = .ok found := by
  cases hm : items.mapM f with
  | ok found => exact ⟨found, rfl⟩
  | error e =>
    obtain ⟨i, hi, he⟩ := exists_of_mapM_error hm
    obtain ⟨a, ha⟩ := h i hi
    cases he.symm.trans ha

/-- Every member of a list is related to a member of the other one. -/
theorem exists_mem_of_forall₂ {R : α → β → Prop} {as : List α} {bs : List β}
    (h : List.Forall₂ R as bs) {a : α} (ha : a ∈ as) : ∃ b ∈ bs, R a b := by
  induction h with
  | nil => simp at ha
  | @cons a' b as bs hab _ ih =>
    rcases List.mem_cons.1 ha with rfl | ha
    · exact ⟨b, List.mem_cons_self, hab⟩
    · obtain ⟨c, hc, hac⟩ := ih ha
      exact ⟨c, List.mem_cons_of_mem _ hc, hac⟩

/-- The entries at the same place of two lists are related. -/
theorem exists_getElem?_of_forall₂ {R : α → β → Prop} {as : List α} {bs : List β}
    (h : List.Forall₂ R as bs) {n : Nat} {a : α} (ha : as[n]? = some a) :
    ∃ b, bs[n]? = some b ∧ R a b := by
  induction h generalizing n with
  | nil => simp at ha
  | @cons a' b as bs hab _ ih =>
    cases n with
    | zero =>
      obtain rfl : a' = a := by simpa using ha
      exact ⟨b, rfl, hab⟩
    | succ n => simpa using ih (by simpa using ha)

theorem forall₂_set {R : α → β → Prop} {as : List α} {bs : List β} (h : List.Forall₂ R as bs)
    {a : α} {b : β} (hab : R a b) (n : Nat) : List.Forall₂ R (as.set n a) (bs.set n b) := by
  induction h generalizing n with
  | nil => exact .nil
  | cons head tail ih =>
    cases n with
    | zero => exact .cons hab tail
    | succ n => exact .cons head (ih n)

/-- What a list of steps has returned includes what each of the steps returned. -/
theorem exists_mem_of_mapM {f : ι → Except ε α} {items : List ι} {found : List α}
    (h : items.mapM f = .ok found) {i : ι} (hi : i ∈ items) : ∃ a ∈ found, f i = .ok a :=
  exists_mem_of_forall₂ (mapM_eq_ok.1 h) hi

/-- What a list of steps has returned comes from its steps. -/
theorem exists_of_mem_mapM {f : ι → Except ε α} {items : List ι} {found : List α}
    (h : items.mapM f = .ok found) {a : α} (ha : a ∈ found) : ∃ i ∈ items, f i = .ok a :=
  exists_mem_of_forall₂ (mapM_eq_ok.1 h).flip ha

/-- What each of the steps preserves holds in the end. -/
theorem foldlM_ok_induction {f : β → ι → Except ε β} {P : β → Prop} {items : List ι} {b b' : β}
    (step : ∀ b, ∀ i ∈ items, ∀ b', P b → f b i = .ok b' → P b') (hb : P b)
    (h : items.foldlM f b = .ok b') : P b' := by
  induction items generalizing b with
  | nil =>
    cases h
    exact hb
  | cons i items ih =>
    rw [List.foldlM_cons] at h
    obtain ⟨b₁, h₁, h⟩ := bind_eq_ok.1 h
    refine ih (fun c j hj => step c j (List.mem_cons_of_mem _ hj)) ?_ h
    exact step b i List.mem_cons_self b₁ hb h₁

/-- Steps in a row can be taken apart at each of them. -/
theorem foldlM_append_cons_eq_ok {f : β → ι → Except ε β} {before after : List ι} {i : ι} {b b' : β} :
    (before ++ i :: after).foldlM f b = .ok b' ↔
      ∃ b₁ b₂, before.foldlM f b = .ok b₁ ∧ f b₁ i = .ok b₂ ∧ after.foldlM f b₂ = .ok b' := by
  rw [List.foldlM_append]
  constructor
  · intro h
    obtain ⟨b₁, h₁, h⟩ := bind_eq_ok.1 h
    obtain ⟨b₂, h₂, h⟩ := bind_eq_ok.1 h
    exact ⟨b₁, b₂, h₁, h₂, h⟩
  · rintro ⟨b₁, b₂, h₁, h₂, h⟩
    exact bind_eq_ok.2 ⟨b₁, h₁, bind_eq_ok.2 ⟨b₂, h₂, h⟩⟩

/-- Steps in a row fail where one of them does. -/
theorem exists_of_foldlM_error {f : β → ι → Except ε β} {items : List ι} {b : β} {e : ε}
    (h : items.foldlM f b = .error e) : ∃ b', ∃ i ∈ items, f b' i = .error e := by
  induction items generalizing b with
  | nil => cases h
  | cons i items ih =>
    rw [List.foldlM_cons] at h
    rcases bind_eq_error.1 h with h | ⟨b₁, -, h⟩
    · exact ⟨b, i, List.mem_cons_self, h⟩
    · obtain ⟨b', j, hj, he⟩ := ih h
      exact ⟨b', j, List.mem_cons_of_mem _ hj, he⟩

/-- Steps that succeed one by one succeed in a row. -/
theorem exists_foldlM_eq_ok {f : β → ι → Except ε β} {P : β → Prop} {items : List ι} {b : β}
    (step : ∀ b, ∀ i ∈ items, P b → ∃ b', f b i = .ok b' ∧ P b') (hb : P b) :
    ∃ b', items.foldlM f b = .ok b' ∧ P b' := by
  induction items generalizing b with
  | nil => exact ⟨b, rfl, hb⟩
  | cons i items ih =>
    obtain ⟨b₁, h₁, hb₁⟩ := step b i List.mem_cons_self hb
    obtain ⟨b', h, hb'⟩ := ih (fun c j hj => step c j (List.mem_cons_of_mem _ hj)) hb₁
    exact ⟨b', bind_eq_ok.2 ⟨b₁, h₁, h⟩, hb'⟩

/-! ### Updates in a row -/

section Updates

variable {update : β → α → β} {read : ι → Except ε α} {items before after : List ι} {b b' : β}

/-- Read an item and update a state with it. -/
def updating (update : β → α → β) (read : ι → Except ε α) (b : β) (i : ι) : Except ε β :=
  return update b (← read i)

theorem updating_eq_ok {i : ι} : updating update read b i = .ok b' ↔
    ∃ a, read i = .ok a ∧ update b a = b' := by
  unfold updating
  rw [bind_eq_ok]
  simp [pure, Except.pure]

theorem exists_foldlM_updating (update : β → α → β) (h : ∀ i ∈ items, ∃ a, read i = .ok a) (b : β) :
    ∃ b', items.foldlM (updating update read) b = .ok b' := by
  have hstep : ∀ b, ∀ i ∈ items, True → ∃ b', updating update read b i = .ok b' ∧ True := by
    intro b i hi _
    obtain ⟨a, ha⟩ := h i hi
    exact ⟨update b a, updating_eq_ok.2 ⟨a, ha, rfl⟩, trivial⟩
  obtain ⟨b', hb', -⟩ := exists_foldlM_eq_ok hstep (b := b) trivial
  exact ⟨b', hb'⟩

/-- What each of the updates preserves holds in the end. -/
theorem foldlM_updating_induction (h : items.foldlM (updating update read) b = .ok b')
    (P : β → Prop) (hb : P b)
    (step : ∀ b, ∀ i ∈ items, ∀ a, read i = .ok a → P b → P (update b a)) : P b' := by
  refine foldlM_ok_induction (fun b i hi b' ih hb' => ?_) hb h
  obtain ⟨a, ha, rfl⟩ := updating_eq_ok.1 hb'
  exact step b i hi a ha ih

theorem foldlM_updating_split {i : ι}
    (h : (before ++ i :: after).foldlM (updating update read) b = .ok b') :
    ∃ b₁ a, before.foldlM (updating update read) b = .ok b₁ ∧ read i = .ok a ∧
      after.foldlM (updating update read) (update b₁ a) = .ok b' := by
  obtain ⟨b₁, b₂, hbefore, hi, hafter⟩ := foldlM_append_cons_eq_ok.1 h
  obtain ⟨a, ha, rfl⟩ := updating_eq_ok.1 hi
  exact ⟨b₁, a, hbefore, ha, hafter⟩

end Updates

end Immutability

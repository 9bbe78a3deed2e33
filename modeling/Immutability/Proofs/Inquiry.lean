import Immutability.Check
import Immutability.Proofs.Steps

/-!
# Laws of inquiries

What an inquiry asks may depend on the replies it gets. The inquiries of the checks do not make use
of that: they ask the same questions in any case, and a reply shows up in the findings only.

* `Inquiry.eval` is the answer when every question about a class has a fixed reply, and
  `Inquiry.asked` lists the classes whose mutability is asked about;
* `Inquiry.MayAsk` says that some replies lead to a question about a class, and `Inquiry.GivesWith`
  that possible replies lead to an answer;
* `Inquiry.Tracks` compares an inquiry that is told that every class is immutable with one that gets
  other replies: both ask the same questions, and their answers are related through the replies;
* `Examination.eval`, `Examination.Gives` and `Examination.Tracks` are the same for the work of a
  check, which may fail; `Examination.Throws` says that some replies lead to an error.
-/

namespace Immutability

/-- The reply that every class is immutable. -/
def assumeImmutable (name : ClassName) : Dependency := .resolved (.immutable name)

namespace Inquiry

variable {α β γ δ : Type}

/-- The answer of an inquiry under fixed replies. -/
def eval (reads : ClassName → Option ClassFacts) (replies : ClassName → Dependency) :
    Inquiry α → α
  | answer a => a
  | readFacts name next => eval reads replies (next (reads name))
  | resolve name next => eval reads replies (next (replies name))

/-- The classes whose mutability is asked about under fixed replies, in order. -/
def asked (reads : ClassName → Option ClassFacts) (replies : ClassName → Dependency) :
    Inquiry α → List ClassName
  | answer _ => []
  | readFacts name next => asked reads replies (next (reads name))
  | resolve name next => name :: asked reads replies (next (replies name))

theorem eval_bind (reads : ClassName → Option ClassFacts) (replies : ClassName → Dependency)
    (q : Inquiry α) (f : α → Inquiry β) :
    (q.bind f).eval reads replies = (f (q.eval reads replies)).eval reads replies := by
  induction q with
  | answer a => rfl
  | readFacts name next ih => exact ih (reads name)
  | resolve name next ih => exact ih (replies name)

theorem run_bind {m : Type → Type} [Monad m] [LawfulMonad m]
    (reads : ClassName → m (Option ClassFacts)) (resolves : ClassName → m Dependency)
    (q : Inquiry α) (f : α → Inquiry β) :
    (q.bind f).run reads resolves = q.run reads resolves >>= fun a => (f a).run reads resolves := by
  induction q with
  | answer a => simp only [bind, run, LawfulMonad.pure_bind]
  | readFacts name next ih => simp only [bind, run, ih, LawfulMonad.bind_assoc]
  | resolve name next ih => simp only [bind, run, ih, LawfulMonad.bind_assoc]

/-- Some replies lead to a question about the mutability of `other`. -/
def MayAsk (reads : ClassName → Option ClassFacts) (other : ClassName) : Inquiry α → Prop
  | answer _ => False
  | readFacts name next => MayAsk reads other (next (reads name))
  | resolve name next => name = other ∨ ∃ reply, MayAsk reads other (next reply)

/-- Replies that are possible lead to the answer `a`. -/
def GivesWith (possible : ClassName → Dependency → Prop) (a : α) : Inquiry α → Prop
  | answer b => b = a
  | readFacts _ next => ∃ facts, GivesWith possible a (next facts)
  | resolve name next => ∃ reply, possible name reply ∧ GivesWith possible a (next reply)

/-- Some replies lead to the answer `a`. -/
abbrev Gives (a : α) (q : Inquiry α) : Prop := q.GivesWith (fun _ _ => True) a

theorem gives_bind {possible : ClassName → Dependency → Prop} {q : Inquiry α}
    {f : α → Inquiry β} {b : β} :
    (q.bind f).GivesWith possible b ↔
      ∃ a, q.GivesWith possible a ∧ (f a).GivesWith possible b := by
  induction q with
  | answer a => simp [bind, GivesWith]
  | readFacts name next ih =>
    show (∃ facts, ((next facts).bind f).GivesWith possible b) ↔ _
    simp only [ih, GivesWith, ← exists_and_right]
    exact exists_comm
  | resolve name next ih =>
    show (∃ reply, possible name reply ∧ ((next reply).bind f).GivesWith possible b) ↔ _
    simp only [ih, GivesWith, ← exists_and_right, ← exists_and_left, and_assoc]
    exact exists_comm

/-- Two inquiries ask the same questions, whatever the second one is told, while the first one is
told that every class is immutable; and their answers are related through the replies that the
second one got. -/
inductive Tracks {α β : Type} :
    Inquiry α → Inquiry β → (List Dependency → α → β → Prop) → Prop
  | answer {a : α} {b : β} {R : List Dependency → α → β → Prop} (h : R [] a b) :
    Tracks (.answer a) (.answer b) R
  | readFacts {name : ClassName} {next : Option ClassFacts → Inquiry α}
    {next' : Option ClassFacts → Inquiry β} {R : List Dependency → α → β → Prop}
    (h : ∀ facts, Tracks (next facts) (next' facts) R) :
    Tracks (.readFacts name next) (.readFacts name next') R
  | resolve {name : ClassName} {next : Dependency → Inquiry α} {next' : Dependency → Inquiry β}
    {R : List Dependency → α → β → Prop}
    (h : ∀ reply,
      Tracks (next (assumeImmutable name)) (next' reply) fun replies => R (reply :: replies)) :
    Tracks (.resolve name next) (.resolve name next') R

namespace Tracks

variable {q : Inquiry α} {q' : Inquiry β} {R : List Dependency → α → β → Prop}

/-- What comes after two inquiries may use that their answers are related. -/
theorem bind {f : α → Inquiry γ} {f' : β → Inquiry δ} {T : List Dependency → γ → δ → Prop}
    (h : Tracks q q' R)
    (hf : ∀ replies a b, R replies a b → Tracks (f a) (f' b) fun more => T (replies ++ more)) :
    Tracks (q.bind f) (q'.bind f') T := by
  -- the replies so far are part of the relation, so `T` shifts with every question
  induction h generalizing T with
  | answer h => exact hf [] _ _ h
  | readFacts _ ih => exact .readFacts fun facts => ih facts hf
  | resolve _ ih => exact .resolve fun reply => ih reply fun replies => hf (reply :: replies)

variable {reads : ClassName → Option ClassFacts}

theorem asked_eq (h : Tracks q q' R) (replies : ClassName → Dependency) :
    q'.asked reads replies = q.asked reads assumeImmutable := by
  induction h with
  | answer _ => rfl
  | readFacts _ ih => exact ih (reads _)
  | resolve _ ih => exact congrArg (List.cons _) (ih (replies _))

/-- The answers are related through the replies to the questions that were asked. -/
theorem eval_rel (h : Tracks q q' R) (replies : ClassName → Dependency) :
    R ((q'.asked reads replies).map replies) (q.eval reads assumeImmutable)
      (q'.eval reads replies) := by
  induction h with
  | answer h => exact h
  | readFacts _ ih => exact ih (reads _)
  | resolve _ ih => exact ih (replies _)

/-- Questions that some replies lead to are asked in any case. -/
theorem mem_asked_of_mayAsk (h : Tracks q q' R) {other : ClassName}
    (ho : q'.MayAsk reads other) : other ∈ q.asked reads assumeImmutable := by
  induction h with
  | answer _ => exact ho.elim
  | readFacts _ ih => exact ih (reads _) ho
  | resolve _ ih =>
    rcases ho with rfl | ⟨reply, ho⟩
    · exact List.mem_cons_self
    · exact List.mem_cons_of_mem _ (ih reply ho)

end Tracks

end Inquiry

namespace Examination

variable {α β γ δ : Type}

/-- The result of an examination under fixed replies. -/
def eval (reads : ClassName → Option ClassFacts) (replies : ClassName → Dependency)
    (x : Examination α) : Except CheckError α :=
  x.run.eval reads replies

section Eval

variable (reads : ClassName → Option ClassFacts) (replies : ClassName → Dependency)

@[simp] theorem eval_pure (a : α) : eval reads replies (pure a) = .ok a := rfl

@[simp] theorem eval_bind (x : Examination α) (f : α → Examination β) :
    eval reads replies (x >>= f) = eval reads replies x >>= fun a => eval reads replies (f a) := by
  refine (Inquiry.eval_bind reads replies x.run _).trans ?_
  change _ = Except.bind (x.run.eval reads replies) _
  cases x.run.eval reads replies <;> rfl

@[simp] theorem eval_lift (q : Inquiry α) :
    eval reads replies (liftM q : Examination α) = .ok (q.eval reads replies) :=
  Inquiry.eval_bind reads replies q _

@[simp] theorem eval_ofExcept {ε : Type} (wrap : ε → CheckError) (r : Except ε α) :
    eval reads replies (ofExcept wrap r) = r.mapError wrap := by
  cases r <;> rfl

@[simp] theorem eval_mapM {ι : Type} (items : List ι) (f : ι → Examination α) :
    eval reads replies (items.mapM f) = items.mapM fun i => eval reads replies (f i) := by
  induction items with
  | nil => rfl
  | cons i items ih => simp only [List.mapM_cons, eval_bind, ih, eval_pure]; rfl

end Eval

/-- Replies that are possible lead to the result `a`. -/
def GivesWith (possible : ClassName → Dependency → Prop) (x : Examination α) (a : α) : Prop :=
  x.run.GivesWith possible (.ok a)

/-- Some replies lead to the result `a`. -/
abbrev Gives (x : Examination α) (a : α) : Prop := GivesWith (fun _ _ => True) x a

section Gives

variable {possible : ClassName → Dependency → Prop}

@[simp] theorem gives_pure {a b : α} : GivesWith possible (pure a) b ↔ a = b :=
  Iff.of_eq (Except.ok.injEq a b)

@[simp] theorem gives_bind {x : Examination α} {f : α → Examination β} {b : β} :
    GivesWith possible (x >>= f) b ↔
      ∃ a, GivesWith possible x a ∧ GivesWith possible (f a) b := by
  refine Inquiry.gives_bind.trans ⟨?_, ?_⟩
  · rintro ⟨r, hr, hb⟩
    cases r with
    | ok a => exact ⟨a, hr, hb⟩
    | error e => cases hb
  · rintro ⟨a, ha, hb⟩
    exact ⟨.ok a, ha, hb⟩

@[simp] theorem gives_lift {q : Inquiry α} {a : α} :
    GivesWith possible (liftM q : Examination α) a ↔ q.GivesWith possible a := by
  refine Inquiry.gives_bind.trans ⟨?_, ?_⟩
  · rintro ⟨b, hb, h⟩
    cases h
    exact hb
  · intro h
    exact ⟨a, h, rfl⟩

@[simp] theorem gives_ofExcept {ε : Type} {wrap : ε → CheckError} {r : Except ε α} {a : α} :
    GivesWith possible (ofExcept wrap r) a ↔ r = .ok a := by
  cases r with
  | ok b => exact gives_pure.trans (Iff.of_eq (Except.ok.injEq b a).symm)
  | error e =>
    constructor
    · rintro ⟨⟩
    · rintro ⟨⟩

/-- A list of examinations returns what each of them returns. -/
theorem gives_mapM {ι : Type} {items : List ι} {f : ι → Examination α} {found : List α} :
    GivesWith possible (items.mapM f) found ↔
      List.Forall₂ (fun i a => GivesWith possible (f i) a) items found := by
  induction items generalizing found with
  | nil =>
    rw [List.mapM_nil, gives_pure, List.forall₂_nil_left_iff]
    exact eq_comm
  | cons i items ih =>
    simp only [List.mapM_cons, gives_bind, gives_pure, ih, List.forall₂_cons_left_iff]
    constructor
    · rintro ⟨a, ha, rest, hrest, rfl⟩
      exact ⟨a, rest, ha, hrest, rfl⟩
    · rintro ⟨a, rest, ha, hrest, rfl⟩
      exact ⟨a, ha, rest, hrest, rfl⟩

end Gives

/-- Some replies lead to the error `e`. -/
def Throws (x : Examination α) (e : CheckError) : Prop := x.run.Gives (.error e)

section Throws

variable {e : CheckError}

theorem not_throws_pure {a : α} : ¬Throws (pure a) e := by
  rintro ⟨⟩

@[simp] theorem throws_throw {e' : CheckError} : Throws (throw e' : Examination α) e ↔ e' = e :=
  Iff.of_eq (Except.error.injEq e' e)

/-- A sequence of two examinations fails in one of them. -/
@[simp] theorem throws_bind {x : Examination α} {f : α → Examination β} :
    Throws (x >>= f) e ↔ Throws x e ∨ ∃ a, Gives x a ∧ Throws (f a) e := by
  refine Inquiry.gives_bind.trans ⟨?_, ?_⟩
  · rintro ⟨r, hr, he⟩
    cases r with
    | ok a => exact .inr ⟨a, hr, he⟩
    | error e' =>
      cases he
      exact .inl hr
  · rintro (hx | ⟨a, ha, he⟩)
    · exact ⟨.error e, hx, rfl⟩
    · exact ⟨.ok a, ha, he⟩

/-- Questions are no reason to fail. -/
theorem not_throws_lift {q : Inquiry α} : ¬Throws (liftM q : Examination α) e := by
  intro h
  obtain ⟨a, -, h⟩ := Inquiry.gives_bind.1 h
  cases h

@[simp] theorem throws_ofExcept {ε : Type} {wrap : ε → CheckError} {r : Except ε α} :
    Throws (ofExcept wrap r) e ↔ ∃ cause, r = .error cause ∧ wrap cause = e := by
  cases r with
  | ok a => simpa [ofExcept] using not_throws_pure
  | error cause => simp [ofExcept]

/-- A list of examinations fails in one of them. -/
theorem exists_of_throws_mapM {ι : Type} {items : List ι} {f : ι → Examination α}
    (h : Throws (items.mapM f) e) : ∃ i ∈ items, Throws (f i) e := by
  induction items with
  | nil => exact absurd h not_throws_pure
  | cons i items ih =>
    rw [List.mapM_cons, throws_bind] at h
    rcases h with h | ⟨a, -, h⟩
    · exact ⟨i, List.mem_cons_self, h⟩
    · rcases throws_bind.1 h with h | ⟨as, -, h⟩
      · obtain ⟨j, hj, hthrows⟩ := ih h
        exact ⟨j, List.mem_cons_of_mem _ hj, hthrows⟩
      · exact absurd h not_throws_pure

end Throws

/-- Two courses of an examination end in the same error, or in results that are related through the
replies. -/
def SameCourse (R : List Dependency → α → β → Prop) (replies : List Dependency) :
    Except CheckError α → Except CheckError β → Prop
  | .ok a, .ok b => R replies a b
  | .error e, .error e' => e = e'
  | _, _ => False

/-- Two examinations ask the same questions, and end in the same error or in results that are
related through the replies. -/
def Tracks (x : Examination α) (y : Examination β) (R : List Dependency → α → β → Prop) : Prop :=
  Inquiry.Tracks x.run y.run (SameCourse R)

namespace Tracks

variable {R : List Dependency → α → β → Prop} {T : List Dependency → γ → δ → Prop}
  {x : Examination α} {y : Examination β}

theorem pure {a : α} {b : β} (h : R [] a b) :
    Tracks (Pure.pure a : Examination α) (Pure.pure b : Examination β) R :=
  .answer h

theorem throw (e : CheckError) :
    Tracks (MonadExcept.throw e : Examination α) (MonadExcept.throw e : Examination β) R :=
  .answer rfl

theorem lift {q : Inquiry α} {q' : Inquiry β} (h : Inquiry.Tracks q q' R) :
    Tracks (liftM q : Examination α) (liftM q' : Examination β) R :=
  h.bind fun replies a b hab => .answer (by simpa [SameCourse] using hab)

theorem bind {f : α → Examination γ} {f' : β → Examination δ} (h : Tracks x y R)
    (hf : ∀ replies a b, R replies a b → Tracks (f a) (f' b) fun more => T (replies ++ more)) :
    Tracks (x >>= f) (y >>= f') T := by
  -- the two courses succeed together or fail together
  refine Inquiry.Tracks.bind h fun replies a b hab => ?_
  cases a with
  | ok a =>
    cases b with
    | ok b => exact hf replies a b hab
    | error e' => exact hab.elim
  | error e =>
    cases b with
    | ok b => exact hab.elim
    | error e' => exact .answer hab

/-- A part of the work that asks no questions. -/
theorem ofExcept {ε : Type} (wrap : ε → CheckError) (r : Except ε α)
    {R : List Dependency → α → α → Prop} (h : ∀ a, r = .ok a → R [] a a) :
    Tracks (Examination.ofExcept wrap r) (Examination.ofExcept wrap r) R := by
  cases r with
  | ok a => exact pure (h a rfl)
  | error e => exact throw (wrap e)

end Tracks

end Examination

end Immutability

import Immutability.ClassFacts
import Immutability.Verdict

/-!
# Inquiries

A check of one class may need to know about others. `Inquiry` is a computation that asks such
questions, one after the other, before it gives its answer; who replies is left open.

* `Inquiry.readFacts` asks for the facts of a class, and `Inquiry.resolve` for its assessment;
* `Inquiry.run` lets a pair of functions reply.
-/

namespace Immutability

/-- A computation that asks about other classes before it answers. -/
inductive Inquiry (α : Type) where
  | answer (a : α)
  /-- Ask for the facts of a class, if they can be read. -/
  | readFacts (name : ClassName) (next : Option ClassFacts → Inquiry α)
  /-- Ask what is known about the mutability of a class. -/
  | resolve (name : ClassName) (next : Dependency → Inquiry α)

namespace Inquiry

variable {α β : Type}

/-- The inquiry that continues with the answer of another one. -/
def bind (q : Inquiry α) (f : α → Inquiry β) : Inquiry β :=
  match q with
  | answer a => f a
  | readFacts name next => readFacts name fun reply => (next reply).bind f
  | resolve name next => resolve name fun reply => (next reply).bind f

instance : Monad Inquiry where
  pure := answer
  bind := bind

theorem bind_answer (q : Inquiry α) : q.bind answer = q := by
  induction q with
  | answer a => rfl
  | readFacts name next ih => simp only [bind, ih]
  | resolve name next ih => simp only [bind, ih]

theorem bind_assoc {γ : Type} (q : Inquiry α) (f : α → Inquiry β) (g : β → Inquiry γ) :
    (q.bind f).bind g = q.bind fun a => (f a).bind g := by
  induction q with
  | answer a => rfl
  | readFacts name next ih => simp only [bind, ih]
  | resolve name next ih => simp only [bind, ih]

instance : LawfulMonad Inquiry :=
  LawfulMonad.mk' Inquiry bind_answer (fun _ _ => rfl) bind_assoc

/-- Ask for the facts of a class. -/
def factsOf (name : ClassName) : Inquiry (Option ClassFacts) := readFacts name answer

/-- Ask what is known about the mutability of a class. -/
def mutabilityOf (name : ClassName) : Inquiry Dependency := resolve name answer

/-- The answer of an inquiry whose questions are replied to in a monad. -/
def run {m : Type → Type} [Monad m] (reads : ClassName → m (Option ClassFacts))
    (resolves : ClassName → m Dependency) : Inquiry α → m α
  | answer a => pure a
  | readFacts name next => do run reads resolves (next (← reads name))
  | resolve name next => do run reads resolves (next (← resolves name))

end Inquiry

end Immutability

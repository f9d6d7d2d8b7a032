/-!
# Dialogues

What code from outside does is a `Dialogue`: it ends with a value, breaks off, or asks for something and
goes on with the answer. A dialogue is data, so that it can be run and reasoned about without knowing the
code that it came from.

* `Dialogue Answer ε α` : dialogues that end with an `α` or break off with an `ε`, where the answer to a
  request is of the type that `Answer` gives; a monad;
* `Dialogue.run` : runs a dialogue, given how requests are answered.
-/

namespace Gridcall

/-- What code from outside does to arrive at a value. -/
inductive Dialogue {Request : Type} (Answer : Request → Type) (ε α : Type) where
  | done (value : α)
  | stop (reason : ε)
  /-- Asks for something and goes on with the answer. -/
  | ask (request : Request) (next : Answer request → Dialogue Answer ε α)

namespace Dialogue

variable {Request : Type} {Answer : Request → Type} {ε α β γ : Type}

def bind : Dialogue Answer ε α → (α → Dialogue Answer ε β) → Dialogue Answer ε β
  | done value, next => next value
  | stop reason, _ => stop reason
  | ask request cont, next => ask request fun answer => bind (cont answer) next

instance : Monad (Dialogue Answer ε) where
  pure := done
  bind := bind

theorem bind_done (d : Dialogue Answer ε α) : d.bind done = d := by
  induction d with
  | done => rfl
  | stop => rfl
  | ask request next ih => exact congrArg (ask request) (funext ih)

theorem bind_assoc (d : Dialogue Answer ε α) (f : α → Dialogue Answer ε β)
    (g : β → Dialogue Answer ε γ) : (d.bind f).bind g = d.bind fun x => (f x).bind g := by
  induction d with
  | done => rfl
  | stop => rfl
  | ask request next ih => exact congrArg (ask request) (funext ih)

instance : LawfulMonad (Dialogue Answer ε) :=
  .mk' _ bind_done (fun _ _ => rfl) bind_assoc

def run {m : Type → Type} [Monad m] (answer : (request : Request) → m (Answer request)) :
    Dialogue Answer ε α → m (Except ε α)
  | done value => return .ok value
  | stop reason => return .error reason
  | ask request next => do
    let a ← answer request
    (next a).run answer

end Dialogue

end Gridcall

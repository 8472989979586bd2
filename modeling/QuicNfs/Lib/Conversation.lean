import QuicNfs.Lib.Program

/-!
# Conversations

What a program and its environment say to each other: the operations of a run, each with its
answer. A program that meets a postcondition of its result and its conversation does so
in every environment whose answers are valid.

* `Prog.exchanges` — the conversation of a run;
* `Prog.Meets valid P` — whatever is answered, the result and the conversation meet `P`;
* `Prog.meets_call`, `Prog.meets_bind`, `Prog.Meets.mono` — the rules;
* `Prog.Meets.run` — what it says of a run.
-/

universe u

namespace Lib

/-- An operation and its answer. -/
structure Exchange (Op : Type → Type u) where
  {β : Type}
  op : Op β
  answer : β

namespace Prog

variable {Op : Type → Type u} {α β : Type}

/-- Whatever the operations answer, as long as the answers are valid, the program returns a
value that meets `P`, together with the operations and their answers. -/
def Meets (valid : {β : Type} → Op β → β → Prop) :
    Prog Op α → (α → List (Exchange Op) → Prop) → Prop
  | .ret a, P => P a []
  | .op o k, P => ∀ b, valid o b → (k b).Meets valid fun a log => P a (⟨o, b⟩ :: log)

variable {valid : {β : Type} → Op β → β → Prop}
variable {P : α → List (Exchange Op) → Prop} {p : Prog Op α}

theorem meets_pure {a : α} (h : P a []) : (pure a : Prog Op α).Meets valid P := h

theorem meets_call {o : Op β} {k : β → Prog Op α}
    (h : ∀ b, valid o b → (k b).Meets valid fun a log => P a (⟨o, b⟩ :: log)) :
    (call o >>= k).Meets valid P := h

theorem meets_bind {Q : β → List (Exchange Op) → Prop} {f : α → Prog Op β} (hp : p.Meets valid P)
    (hf : ∀ a log, P a log → (f a).Meets valid fun b log' => Q b (log ++ log')) :
    (p >>= f).Meets valid Q := by
  -- what the first program has said is kept in front of what follows
  induction p generalizing P Q with
  | ret a => exact hf a [] hp
  | op o k ih =>
    intro b hb
    exact ih b (hp b hb) fun a log h => hf a (⟨o, b⟩ :: log) h

theorem Meets.mono {Q : α → List (Exchange Op) → Prop} (h : p.Meets valid P)
    (hPQ : ∀ a log, P a log → Q a log) : p.Meets valid Q := by
  induction p generalizing P Q with
  | ret a => exact hPQ a [] h
  | op o k ih =>
    intro b hb
    exact ih b (h b hb) fun a log => hPQ a (⟨o, b⟩ :: log)

section Environment

variable {σ : Type} [Handler Op σ]

/-- The conversation of the run. -/
def exchanges : Prog Op α → σ → List (Exchange Op)
  | .ret _, _ => []
  | .op o k, s => ⟨o, (Handler.exec o s).1⟩ :: (k (Handler.exec o s).1).exchanges (Handler.exec o s).2

/-- In particular in an environment that gives valid answers. -/
theorem Meets.run (h : p.Meets valid P) (s : σ)
    (hValid : ∀ {β : Type} (o : Op β) (s : σ), valid o (Handler.exec o s).1) :
    P (p.run s).1 (p.exchanges s) := by
  -- the answers of the run are some of those that `Meets` is about
  induction p generalizing P s with
  | ret a => exact h
  | op o k ih => exact ih _ (h _ (hValid o s)) _

end Environment

end Prog

end Lib

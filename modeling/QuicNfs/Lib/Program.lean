import Mathlib.Logic.Basic
import Mathlib.Tactic.TypeStar

/-!
# Effectful programs

Programs that talk to a stateful environment one operation at a time. A
program is a finite tree: it either returns, or issues one operation of `Op`
and continues with the operation's answer. The environment is a `Handler`: it
executes one operation on a state.

* `Prog.run` — one program alone, operation after operation;
* `Prog.trace` — the operations of that run, each with the state it is issued
  in;
* `Prog.Sat c Q` — the program logic: along a run whose operations meet what
  the contract `c` assumes, every operation meets what `c` demands, and the
  answer and the final state meet `Q` (`Prog.Sat.trace`);
* `Prog.sat_bind` / `Prog.Sat.mono` — the rules the proofs about concrete
  programs are assembled from;
* `Prog.Returns P` — the program returns a `P` whatever the environment is;
* `Prog.Issues P` — so it does with the operations it issues;
* `Prog.hoist` — the program inside one of more operations (`Prog.run_hoist`).
-/

universe u v

namespace Lib

/-- A program over the operations `Op`; an operation `o : Op β` answers with
a value of `β`. -/
inductive Prog (Op : Type → Type u) (α : Type) : Type (max 1 u) where
  | ret (a : α) : Prog Op α
  | op {β : Type} (o : Op β) (k : β → Prog Op α) : Prog Op α

/-- The environment of a program: what one operation answers and does. -/
class Handler (Op : Type → Type u) (σ : Type) where
  exec {β : Type} : Op β → σ → β × σ

/-- An operation, and the state it is issued in. -/
structure Event (Op : Type → Type u) (σ : Type) where
  {β : Type}
  op : Op β
  state : σ

/-- What is assumed and what is demanded of the operations of a run. -/
structure Contract (Op : Type → Type u) (σ : Type) where
  assumes {β : Type} : Op β → σ → Prop
  demands {β : Type} : Op β → σ → Prop

namespace Prog

variable {Op : Type → Type u} {α β γ σ : Type}

def bind : Prog Op α → (α → Prog Op β) → Prog Op β
  | .ret a, f => f a
  | .op o k, f => .op o fun b => (k b).bind f

instance : Monad (Prog Op) where
  pure := .ret
  bind := Prog.bind

theorem bind_assoc (p : Prog Op α) (f : α → Prog Op β) (g : β → Prog Op γ) :
    p >>= f >>= g = p >>= fun a => f a >>= g := by
  induction p with
  | ret a => rfl
  | op o k ih => exact congrArg (Prog.op o) (funext ih)

/-- The program that issues `o` and returns its answer. -/
def call (o : Op β) : Prog Op β := .op o .ret

/-- The program with operations that are part of a larger set of operations. -/
def hoist {Op' : Type → Type v} (f : {β : Type} → Op β → Op' β) : Prog Op α → Prog Op' α
  | .ret a => .ret a
  | .op o k => .op (f o) fun b => (k b).hoist f

/-- Whatever the operations answer, the program returns a value that meets `P`. -/
def Returns (P : α → Prop) : Prog Op α → Prop
  | .ret a => P a
  | .op _ k => ∀ b, (k b).Returns P

variable {P : α → Prop}

theorem returns_pure {a : α} (h : P a) : (pure a : Prog Op α).Returns P := h

theorem returns_call {o : Op β} {k : β → Prog Op α} (h : ∀ b, (k b).Returns P) :
    (call o >>= k).Returns P := h

variable {p : Prog Op α} {f : α → Prog Op β}

theorem returns_bind {P : β → Prop} {Q : α → Prop} (hp : p.Returns Q)
    (hf : ∀ a, Q a → (f a).Returns P) : (p >>= f).Returns P := by
  induction p with
  | ret a => exact hf a hp
  | op o k ih => exact fun b => ih b (hp b)

/-- Nothing need be known of what the first part returns. -/
theorem returns_bind_any {P : β → Prop} (hf : ∀ a, (f a).Returns P) : (p >>= f).Returns P := by
  induction p with
  | ret a => exact hf a
  | op o k ih => exact fun b => ih b

/-- Whatever the operations answer, the program issues only operations that meet `P`. -/
def Issues (P : {β : Type} → Op β → Prop) : Prog Op α → Prop
  | .ret _ => True
  | .op o k => P o ∧ ∀ b, (k b).Issues P

theorem issues_call {P : {β : Type} → Op β → Prop} {o : Op β} {k : β → Prog Op α} (ho : P o)
    (h : ∀ b, (k b).Issues P) : (call o >>= k).Issues P :=
  ⟨ho, h⟩

theorem issues_bind {P : {β : Type} → Op β → Prop} (hp : p.Issues P) (hf : ∀ a, (f a).Issues P) :
    (p >>= f).Issues P := by
  induction p with
  | ret a => exact hf a
  | op o k ih => exact ⟨hp.1, fun b => ih b (hp.2 b)⟩

section Semantics

variable [Handler Op σ]

/-- The program alone: its answer and the state it leaves. -/
def run : Prog Op α → σ → α × σ
  | .ret a, s => (a, s)
  | .op o k, s => (k (Handler.exec o s).1).run (Handler.exec o s).2

/-- The operations of the run. -/
def trace : Prog Op α → σ → List (Event Op σ)
  | .ret _, _ => []
  | .op o k, s => ⟨o, s⟩ :: (k (Handler.exec o s).1).trace (Handler.exec o s).2

/-- Every operation of the run meets the demands of `c` where it is issued, and
the run ends in an answer and a state that meet `Q`, as long as the operations
meet the assumptions. -/
def Sat (c : Contract Op σ) (Q : α → σ → Prop) : Prog Op α → σ → Prop
  | .ret a, s => Q a s
  | .op o k, s =>
    c.demands o s ∧ (c.assumes o s → (k (Handler.exec o s).1).Sat c Q (Handler.exec o s).2)

variable {c : Contract Op σ} {Q R : α → σ → Prop}

theorem run_bind (p : Prog Op α) (f : α → Prog Op β) (s : σ) :
    (p >>= f).run s = (f (p.run s).1).run (p.run s).2 := by
  induction p generalizing s with
  | ret a => rfl
  | op o k ih => exact ih _ _

theorem trace_bind (p : Prog Op α) (f : α → Prog Op β) (s : σ) :
    (p >>= f).trace s = p.trace s ++ (f (p.run s).1).trace (p.run s).2 := by
  induction p generalizing s with
  | ret a => rfl
  | op o k ih => exact congrArg (_ :: ·) (ih _ _)

theorem Issues.trace {P : {β : Type} → Op β → Prop} (h : p.Issues P) (s : σ) :
    ∀ e ∈ p.trace s, P e.op := by
  induction p generalizing s with
  | ret a => exact fun e he => absurd he (by simp [Prog.trace])
  | op o k ih =>
    intro e he
    rcases List.mem_cons.mp he with rfl | he
    · exact h.1
    · exact ih _ (h.2 _) _ e he

/-- In particular in the environment at hand. -/
theorem Returns.run (h : p.Returns P) (s : σ) : P (p.run s).1 := by
  induction p generalizing s with
  | ret a => exact h
  | op o k ih => exact ih _ (h _) _

/-- In a larger environment the program runs as it does alone, if its operations act on one
part of the state only. -/
theorem run_hoist {Op' : Type → Type v} {τ : Type} [Handler Op' τ]
    {f : {β : Type} → Op β → Op' β} (part : σ → τ) (hExec : ∀ {β : Type} (o : Op β) s,
      Handler.exec (f o) (part s) = ((Handler.exec o s).1, part (Handler.exec o s).2))
    (p : Prog Op α) (s : σ) : (p.hoist f).run (part s) = ((p.run s).1, part (p.run s).2) := by
  induction p generalizing s with
  | ret a => rfl
  | op o k ih =>
    show ((k (Handler.exec (f o) (part s)).1).hoist f).run (Handler.exec (f o) (part s)).2 = _
    rw [hExec]
    exact ih _ _

variable {s : σ}

/-- What every operation keeps, a run keeps. -/
theorem run_invariant {I : σ → Prop}
    (hExec : ∀ {β : Type} (o : Op β) s, I s → I (Handler.exec o s).2) (p : Prog Op α) (hs : I s) :
    I (p.run s).2 := by
  induction p generalizing s with
  | ret a => exact hs
  | op o k ih => exact ih _ (hExec o s hs)

/-- The sequencing rule. -/
theorem sat_bind {Q : β → σ → Prop} (p : Prog Op α) (f : α → Prog Op β) (s : σ) :
    (p >>= f).Sat c Q s ↔ p.Sat c (fun a s' => (f a).Sat c Q s') s := by
  induction p generalizing s with
  | ret a => rfl
  | op o k ih => exact and_congr_right fun _ => imp_congr_right fun _ => ih _ _

/-- The rule of consequence. -/
theorem Sat.mono (h : p.Sat c Q s) (hQ : ∀ a s, Q a s → R a s) : p.Sat c R s := by
  induction p generalizing s with
  | ret a => exact hQ a s h
  | op o k ih => exact ⟨h.1, fun hA => ih _ (h.2 hA)⟩

/-- What `Sat` says of the run itself. -/
theorem Sat.trace (h : p.Sat c Q s) (hAssumes : ∀ e ∈ p.trace s, c.assumes e.op e.state) :
    (∀ e ∈ p.trace s, c.demands e.op e.state) ∧ Q (p.run s).1 (p.run s).2 := by
  induction p generalizing s with
  | ret a => exact ⟨fun e he => absurd he (by simp [Prog.trace]), h⟩
  | op o k ih =>
    -- the first operation meets the assumptions, so the rest of the run does what it should
    have hRest := ih _ (h.2 (hAssumes ⟨o, s⟩ (by simp [Prog.trace])))
      fun e he => hAssumes e (by simp [Prog.trace, he])
    refine ⟨fun e he => ?_, hRest.2⟩
    rcases List.mem_cons.mp he with rfl | he
    · exact h.1
    · exact hRest.1 e he

/-- Where nothing is demanded, the run itself is all there is to show. -/
theorem sat_of_run (hDemands : ∀ {β : Type} (o : Op β) s, c.demands o s)
    (h : Q (p.run s).1 (p.run s).2) : p.Sat c Q s := by
  induction p generalizing s with
  | ret a => exact h
  | op o k ih => exact ⟨hDemands o s, fun _ => ih _ h⟩

end Semantics

end Prog

end Lib

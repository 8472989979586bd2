import Mathlib.Data.List.Basic
import QuicNfs.Lib.Program

/-!
# Threads that share a state

Programs of `Lib.Prog` side by side: a schedule says which of them issues its
next operation, and the operations act on one state. What is proved of all
schedules is proved one program at a time, by a division of labour: each thread
may rely on what the others leave alone, and guarantees the others as much.

* `Pool.run` — the threads along a schedule;
* `Pact` — who relies on what, and who guarantees what;
* `Prog.Keeps` — a thread keeps its part of a pact and ends in an answer that
  meets `Q`, wherever the others step in;
* `Pool.Kept.run` / `Pool.Kept.guarantee` / `Pool.Kept.answer` — if each thread
  keeps its part, so do all of them along every schedule.
-/

universe u

namespace Lib

variable {Op : Type → Type u} {α β σ : Type}

/-- What an operation of a thread answers and does. -/
structure Shared (Op : Type → Type u) (σ : Type) where
  exec (thread : Nat) {β : Type} : Op β → σ → β × σ

/-- The threads with what is left of their programs, and the state they share. -/
structure Pool (Op : Type → Type u) (α σ : Type) where
  threads : List (Prog Op α)
  state : σ

namespace Pool

/-- Thread `i` issues its next operation; one that has answered does nothing. -/
def step (E : Shared Op σ) (pool : Pool Op α σ) (i : Nat) : Pool Op α σ :=
  match pool.threads[i]? with
  | some (.op o k) =>
    ⟨pool.threads.set i (k (E.exec i o pool.state).1), (E.exec i o pool.state).2⟩
  | _ => pool

def run (E : Shared Op σ) (pool : Pool Op α σ) (schedule : List Nat) : Pool Op α σ :=
  schedule.foldl (step E) pool

/-- The answer of thread `i`, once it has one. -/
def answer (pool : Pool Op α σ) (i : Nat) : Option α :=
  match pool.threads[i]? with
  | some (.ret a) => some a
  | _ => none

/-- Every thread has answered. -/
def Completed (pool : Pool Op α σ) : Prop :=
  ∀ i < pool.threads.length, (pool.answer i).isSome

instance (pool : Pool Op α σ) : Decidable pool.Completed := by
  unfold Completed
  infer_instance

theorem run_append (E : Shared Op σ) (pool : Pool Op α σ) (before after : List Nat) :
    pool.run E (before ++ after) = (pool.run E before).run E after :=
  List.foldl_append

theorem run_concat (E : Shared Op σ) (pool : Pool Op α σ) (schedule : List Nat) (i : Nat) :
    pool.run E (schedule ++ [i]) = (pool.run E schedule).step E i :=
  run_append E pool schedule [i]

/-- A step is that of a thread which is still at work, or nothing. -/
theorem step_cases (E : Shared Op σ) (pool : Pool Op α σ) (i : Nat) :
    pool.step E i = pool ∨
      ∃ (γ : Type) (o : Op γ) (k : γ → Prog Op α), pool.threads[i]? = some (.op o k) ∧
        pool.step E i =
          ⟨pool.threads.set i (k (E.exec i o pool.state).1), (E.exec i o pool.state).2⟩ := by
  unfold step
  split
  · next γ o k h => exact .inr ⟨γ, o, k, h, rfl⟩
  · exact .inl rfl

theorem length_step (E : Shared Op σ) (pool : Pool Op α σ) (i : Nat) :
    (pool.step E i).threads.length = pool.threads.length := by
  rcases step_cases E pool i with h | ⟨γ, o, k, -, h⟩
  · rw [h]
  · rw [h]
    exact List.length_set

theorem length_run (E : Shared Op σ) (pool : Pool Op α σ) (schedule : List Nat) :
    (pool.run E schedule).threads.length = pool.threads.length := by
  induction schedule generalizing pool with
  | nil => rfl
  | cons i schedule ih => exact (ih (pool.step E i)).trans (length_step E pool i)

end Pool

/-! ## Relying on each other -/

/-- What each thread relies on when others step in, and what it guarantees for
its own steps. -/
structure Pact (σ : Type) where
  rely (i : Nat) : σ → σ → Prop
  guarantee (i : Nat) : σ → σ → Prop
  refl (i : Nat) (s : σ) : rely i s s
  trans {i : Nat} {s s' s'' : σ} : rely i s s' → rely i s' s'' → rely i s s''
  compatible {i j : Nat} {s s' : σ} : i ≠ j → guarantee j s s' → rely i s s'

/-- What stays true when others step in. -/
def Pact.Stable (P : Pact σ) (i : Nat) (A : σ → Prop) : Prop :=
  ∀ s s', A s → P.rely i s s' → A s'

namespace Prog

/-- Thread `i` with this program keeps its part, and its answer meets `Q`. Before
each of its operations, and after the last, the others may have stepped in. -/
def Keeps (E : Shared Op σ) (P : Pact σ) (i : Nat) (Q : α → σ → Prop) : Prog Op α → σ → Prop
  | .ret a, s => ∀ s', P.rely i s s' → Q a s'
  | .op o k, s => ∀ s', P.rely i s s' → P.guarantee i s' (E.exec i o s').2 ∧
      (k (E.exec i o s').1).Keeps E P i Q (E.exec i o s').2

variable {E : Shared Op σ} {P : Pact σ} {i : Nat} {Q : α → σ → Prop} {A : σ → Prop}
variable {s : σ}

theorem Keeps.of_rely {p : Prog Op α} {s' : σ} (h : p.Keeps E P i Q s) (hRely : P.rely i s s') :
    p.Keeps E P i Q s' := by
  cases p with
  | ret a =>
    intro s'' hRely'
    exact h s'' (P.trans hRely hRely')
  | op o k =>
    intro s'' hRely'
    exact h s'' (P.trans hRely hRely')

theorem keeps_pure {a : α} (hStable : P.Stable i A) (hQ : ∀ s, A s → Q a s) (hs : A s) :
    (pure a : Prog Op α).Keeps E P i Q s :=
  fun s' hRely => hQ s' (hStable s s' hs hRely)

/-- One operation, from wherever the others leave what is assumed. -/
theorem keeps_call {o : Op β} {k : β → Prog Op α} (hStable : P.Stable i A)
    (hStep : ∀ s, A s → P.guarantee i s (E.exec i o s).2 ∧
      (k (E.exec i o s).1).Keeps E P i Q (E.exec i o s).2) (hs : A s) :
    (call o >>= k).Keeps E P i Q s :=
  fun s' hRely => hStep s' (hStable s s' hs hRely)

theorem keeps_bind {R : β → σ → Prop} {p : Prog Op β} {f : β → Prog Op α} (hp : p.Keeps E P i R s)
    (hf : ∀ b s', R b s' → (f b).Keeps E P i Q s') : (p >>= f).Keeps E P i Q s := by
  induction p generalizing s with
  -- between the two programs nobody need have stepped in
  | ret b => exact hf b s (hp s (P.refl i s))
  | op o k ih =>
    intro s' hRely
    obtain ⟨hGuarantee, hNext⟩ := hp s' hRely
    exact ⟨hGuarantee, ih _ hNext⟩

end Prog

namespace Pool

/-- Every thread keeps its part from here on. -/
def Kept (E : Shared Op σ) (P : Pact σ) (Q : Nat → α → σ → Prop) (pool : Pool Op α σ) : Prop :=
  ∀ (i : Nat) (p : Prog Op α), pool.threads[i]? = some p → p.Keeps E P i (Q i) pool.state

variable {E : Shared Op σ} {P : Pact σ} {Q : Nat → α → σ → Prop} {pool : Pool Op α σ}

/-- A step is made under the guarantee of its thread. -/
theorem Kept.guarantee (h : pool.Kept E P Q) (i : Nat) :
    pool.step E i = pool ∨
      i < pool.threads.length ∧ P.guarantee i pool.state (pool.step E i).state := by
  rcases step_cases E pool i with hIdle | ⟨γ, o, k, hThread, hStep⟩
  · exact .inl hIdle
  · rw [hStep]
    exact .inr ⟨(List.getElem?_eq_some_iff.mp hThread).1,
      (h i _ hThread pool.state (P.refl i pool.state)).1⟩

theorem Kept.step (h : pool.Kept E P Q) (i : Nat) : (pool.step E i).Kept E P Q := by
  rcases step_cases E pool i with hIdle | ⟨γ, o, k, hThread, hStep⟩
  · rw [hIdle]
    exact h
  · obtain ⟨hGuarantee, hNext⟩ := h i _ hThread pool.state (P.refl i pool.state)
    rw [hStep]
    intro j p hp
    by_cases hj : i = j
    · subst hj
      obtain ⟨-, rfl⟩ : i < pool.threads.length ∧ k (E.exec i o pool.state).1 = p := by
        simpa [List.getElem?_set, List.getElem?_eq_some_iff.mp hThread |>.1] using hp
      exact hNext
    · -- another thread has only seen what it relies on
      rw [List.getElem?_set_ne hj] at hp
      exact (h j p hp).of_rely (P.compatible (Ne.symm hj) hGuarantee)

theorem Kept.run (h : pool.Kept E P Q) (schedule : List Nat) :
    (pool.run E schedule).Kept E P Q := by
  induction schedule generalizing pool with
  | nil => exact h
  | cons i schedule ih => exact ih (h.step i)

theorem Kept.answer (h : pool.Kept E P Q) {i : Nat} {a : α} (hAnswer : pool.answer i = some a) :
    Q i a pool.state := by
  unfold Pool.answer at hAnswer
  split at hAnswer
  · next b hThread =>
    obtain rfl := Option.some.inj hAnswer
    exact h i _ hThread pool.state (P.refl i pool.state)
  · cases hAnswer

/-- What every guarantee preserves is true along the whole schedule. -/
theorem Kept.invariant (h : pool.Kept E P Q) {I : σ → Prop} (hStart : I pool.state)
    (hStep : ∀ i s s', i < pool.threads.length → I s → P.guarantee i s s' → I s')
    (schedule : List Nat) : I (pool.run E schedule).state := by
  induction schedule generalizing pool with
  | nil => exact hStart
  | cons i schedule ih =>
    refine ih (h.step i) ?_ ?_
    · rcases h.guarantee i with hIdle | ⟨hLt, hGuarantee⟩
      · rw [hIdle]
        exact hStart
      · exact hStep i _ _ hLt hStart hGuarantee
    · rw [length_step]
      exact hStep

end Pool

end Lib

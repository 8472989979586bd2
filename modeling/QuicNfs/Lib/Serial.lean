import Mathlib.Data.List.Induction
import QuicNfs.Lib.Interleaving

/-!
# Threads one after another

Schedules in which no thread begins before the one at work has ended. What each thread does
when it runs alone is then all that need be known of it.

* `Prog.runAs` — a program alone, as one of the threads;
* `Pool.Serial` — the threads take turns, each to its end;
* `Pool.Serial.invariant` — what is kept by every thread that runs alone from its beginning to
  its end holds after a serial schedule in which all threads have ended.
-/

universe u

namespace Lib

open List

variable {Op : Type → Type u} {α β σ : Type}

/-- The environment as thread `i` sees it. -/
abbrev Shared.handler (E : Shared Op σ) (i : Nat) : Handler Op σ := ⟨E.exec i⟩

namespace Prog

/-- The program alone, as thread `i`. -/
def runAs (E : Shared Op σ) (i : Nat) (p : Prog Op α) (s : σ) : α × σ :=
  @Prog.run Op α σ (E.handler i) p s

end Prog

namespace Pool

variable {E : Shared Op σ} {pool now : Pool Op α σ} {schedule : List Nat}

theorem answer_eq_none {i : Nat} {o : Op β} {k : β → Prog Op α}
    (h : pool.threads[i]? = some (.op o k)) : pool.answer i = none := by
  unfold answer
  rw [h]

variable {a : α}

theorem answer_eq_some {i : Nat} (h : pool.threads[i]? = some (.ret a)) :
    pool.answer i = some a := by
  unfold answer
  rw [h]

/-- A thread that has answered makes no step. -/
theorem step_of_answered {i : Nat} (h : (pool.answer i).isSome) : pool.step E i = pool := by
  rcases step_cases E pool i with hIdle | ⟨γ, o, k, hThread, -⟩
  · exact hIdle
  · rw [answer_eq_none hThread] at h
    cases h

/-- Another thread's step leaves a thread alone. -/
theorem threads_step_of_ne {i j : Nat} (h : j ≠ i) :
    (pool.step E i).threads[j]? = pool.threads[j]? := by
  rcases step_cases E pool i with hIdle | ⟨γ, o, k, -, hStep⟩
  · rw [hIdle]
  · rw [hStep]
    exact getElem?_set_ne (Ne.symm h)

theorem answer_congr {pool' : Pool Op α σ} {i : Nat} (h : pool'.threads[i]? = pool.threads[i]?) :
    pool'.answer i = pool.answer i := by
  unfold answer
  rw [h]

/-- An answer stays. -/
theorem answer_run {i : Nat} (h : pool.answer i = some a) (schedule : List Nat) :
    (pool.run E schedule).answer i = some a := by
  -- no step takes an answer back
  induction schedule generalizing pool with
  | nil => exact h
  | cons j schedule ih =>
    have hStep : (pool.step E j).answer i = some a := by
      by_cases hj : i = j
      · subst hj
        rw [step_of_answered (by rw [h]; rfl)]
        exact h
      · rw [answer_congr (threads_step_of_ne hj)]
        exact h
    exact ih hStep

/-- A thread makes a step only if the others that have made one have answered. -/
def Serial (E : Shared Op σ) (pool : Pool Op α σ) (schedule : List Nat) : Prop :=
  ∀ k < schedule.length, ∀ i ∈ schedule[k]?,
    (pool.run E (schedule.take k)).answer i = none → ∀ j ∈ schedule.take k, j ≠ i →
      j < pool.threads.length → ((pool.run E (schedule.take k)).answer j).isSome

instance (E : Shared Op σ) (pool : Pool Op α σ) (schedule : List Nat) :
    Decidable (pool.Serial E schedule) := by
  unfold Serial
  infer_instance

theorem Serial.answered (h : pool.Serial E schedule) {before : List Nat} {i j : Nat}
    (hBefore : before ++ [i] <+: schedule) (hAtWork : (pool.run E before).answer i = none)
    (hj : j ∈ before) (hNe : j ≠ i) (hLt : j < pool.threads.length) :
    ((pool.run E before).answer j).isSome := by
  obtain ⟨after, rfl⟩ := hBefore
  have hTake : (before ++ [i] ++ after).take before.length = before := by
    rw [append_assoc, take_left]
  have hAt := h before.length (by simp) i (by simp)
  rw [hTake] at hAt
  exact hAt hAtWork j hj hNe hLt

/-! ## Turns -/

section Turns

variable (E : Shared Op σ) (pool : Pool Op α σ) (I : List Nat → σ → Prop)

/-- Between two turns: those that are done have answered, the others have not begun. -/
structure Between (done : List Nat) (now : Pool Op α σ) : Prop where
  kept : I done now.state
  ended : ∀ j ∈ done, (now.answer j).isSome
  rest : ∀ j, j ∉ done → now.threads[j]? = pool.threads[j]?

/-- In the turn of thread `i`: what is left of it leads to where the whole of it leads from where
it began. -/
structure Within (done : List Nat) (i : Nat) (now : Pool Op α σ) : Prop where
  fresh : i ∉ done
  leads : ∃ p₀ s₀ p, pool.threads[i]? = some p₀ ∧ I done s₀ ∧ now.threads[i]? = some p ∧
    p.runAs E i now.state = p₀.runAs E i s₀
  ended : ∀ j ∈ done, (now.answer j).isSome
  rest : ∀ j, j ≠ i → j ∉ done → now.threads[j]? = pool.threads[j]?

end Turns

variable {I : List Nat → σ → Prop} {done : List Nat} {i : Nat}

/-- A turn begins. -/
theorem Between.within (h : Between pool I done now) {p : Prog Op α}
    (hThread : now.threads[i]? = some p) (hFresh : i ∉ done) : Within E pool I done i now where
  fresh := hFresh
  leads := ⟨p, now.state, p, (h.rest i hFresh).symm.trans hThread, h.kept, hThread, rfl⟩
  ended := h.ended
  rest j _ hj := h.rest j hj

/-- A turn goes on. -/
theorem Within.step (h : Within E pool I done i now) :
    Within E pool I done i (now.step E i) where
  fresh := h.fresh
  leads := by
    obtain ⟨p₀, s₀, p, hBegin, hKept, hThread, hLeads⟩ := h.leads
    rcases step_cases E now i with hIdle | ⟨γ, o, k, hOp, hStep⟩
    · rw [hIdle]
      exact ⟨p₀, s₀, p, hBegin, hKept, hThread, hLeads⟩
    · -- one operation less is left, and the state is the one behind it
      obtain rfl := Option.some.inj (hThread.symm.trans hOp)
      rw [hStep]
      refine ⟨p₀, s₀, k (E.exec i o now.state).1, hBegin, hKept, ?_, hLeads⟩
      exact List.getElem?_set_self (List.getElem?_eq_some_iff.mp hOp).1
  ended j hj := by
    have hNe : j ≠ i := by
      rintro rfl
      exact h.fresh hj
    rw [answer_congr (threads_step_of_ne hNe)]
    exact h.ended j hj
  rest j hNe hj := (threads_step_of_ne hNe).trans (h.rest j hNe hj)

/-- A turn ends. -/
theorem Within.between (h : Within E pool I done i now) (hAnswer : now.answer i = some a)
    (hTurn : ∀ p s s', pool.threads[i]? = some p → I done s → p.runAs E i s = (a, s') →
      I (done ++ [i]) s') : Between pool I (done ++ [i]) now where
  kept := by
    obtain ⟨p₀, s₀, p, hBegin, hKept, hThread, hLeads⟩ := h.leads
    refine hTurn p₀ s₀ now.state hBegin hKept (hLeads.symm.trans ?_)
    -- nothing is left of the program but its answer
    cases p with
    | ret b =>
      obtain rfl := Option.some.inj ((answer_eq_some hThread).symm.trans hAnswer)
      rfl
    | op o k =>
      rw [answer_eq_none hThread] at hAnswer
      cases hAnswer
  ended j hj := by
    rcases mem_append.mp hj with hOld | hNew
    · exact h.ended j hOld
    · rw [mem_singleton.mp hNew, hAnswer]
      rfl
  rest j hj := by
    have hNot := mt mem_append.mpr hj
    exact h.rest j (fun hIs => hNot (.inr (mem_singleton.mpr hIs))) fun hOld => hNot (.inl hOld)

/-- Along a serial schedule, the pool is always between two turns or in one. -/
theorem Serial.turns (hSerial : pool.Serial E schedule) (hBegin : I [] pool.state)
    (hTurn : ∀ done i p s a s', i ∉ done → pool.threads[i]? = some p → I done s →
      p.runAs E i s = (a, s') → (pool.run E schedule).answer i = some a → I (done ++ [i]) s')
    (before : List Nat) (hBefore : before <+: schedule) :
    (∃ done, Between pool I done (pool.run E before)) ∨
      ∃ done i, i ∈ before ∧ (pool.run E before).answer i = none ∧
        Within E pool I done i (pool.run E before) := by
  -- step by step from the front, with the case that a step ends the turn it belongs to
  induction before using reverseRecOn with
  | nil => exact .inl ⟨[], hBegin, forall_mem_nil _, fun _ _ => rfl⟩
  | append_singleton before i ih =>
    have ih := ih ((prefix_append before [i]).trans hBefore)
    rw [run_concat]
    set now := pool.run E before with hNow
    rcases step_cases E now i with hIdle | ⟨γ, o, k, hThread, -⟩
    -- thread `i` is there no more, or it has answered already
    · rw [hIdle]
      refine ih.imp_right ?_
      rintro ⟨done, j, hj, hAtWork, hWithin⟩
      exact ⟨done, j, mem_append_left _ hj, hAtWork, hWithin⟩
    · have hAtWork : now.answer i = none := answer_eq_none hThread
      -- the turn is that of thread `i`: it begins now, or it has begun before
      obtain ⟨done, hWithin⟩ : ∃ done, Within E pool I done i now := by
        rcases ih with ⟨done, hBetween⟩ | ⟨done, j, hj, hOther, hWithin⟩
        · refine ⟨done, hBetween.within hThread fun hDone => ?_⟩
          have hEnded := hBetween.ended i hDone
          rw [hAtWork] at hEnded
          cases hEnded
        -- the schedule is serial, so that no one else can be in the middle of a turn
        · obtain rfl : j = i := by
            by_contra hNe
            obtain ⟨p₀, -, -, hExists, -⟩ := hWithin.leads
            have hEnded := hSerial.answered hBefore hAtWork hj hNe
              (List.getElem?_eq_some_iff.mp hExists).1
            rw [← hNow, hOther] at hEnded
            cases hEnded
          exact ⟨done, hWithin⟩
      have hNext := hWithin.step
      cases hAnswer : (now.step E i).answer i with
      | none => exact .inr ⟨done, i, by simp, hAnswer, hNext⟩
      | some a =>
        refine .inl ⟨done ++ [i], hNext.between hAnswer fun p s s' hp hs hRun => ?_⟩
        refine hTurn done i p s a s' hWithin.fresh hp hs hRun ?_
        -- an answer is an answer to the end
        obtain ⟨after, rfl⟩ := hBefore
        rw [run_append, run_concat]
        exact answer_run hAnswer after

/-- **The rule for serial schedules.** What every thread keeps that runs alone, from its beginning
to its end, holds when all of them have ended. -/
theorem Serial.invariant (hSerial : pool.Serial E schedule) (hBegin : I [] pool.state)
    (hTurn : ∀ done i p s a s', i ∉ done → pool.threads[i]? = some p → I done s →
      p.runAs E i s = (a, s') → (pool.run E schedule).answer i = some a → I (done ++ [i]) s')
    (hCompleted : (pool.run E schedule).Completed) :
    ∃ order, I order (pool.run E schedule).state ∧
      ∀ i < pool.threads.length, pool.answer i = none → i ∈ order := by
  rcases hSerial.turns hBegin hTurn schedule (prefix_refl _) with
    ⟨order, hBetween⟩ | ⟨done, i, -, hAtWork, hWithin⟩
  · refine ⟨order, hBetween.kept, fun i hi hNone => ?_⟩
    by_contra hNot
    -- a thread that was never begun has not answered
    have hSame := answer_congr (hBetween.rest i hNot)
    have hEnded := hCompleted i (by rw [length_run]; exact hi)
    rw [hSame, hNone] at hEnded
    cases hEnded
  -- all have ended, so the schedule does not stop in the middle of a turn
  · obtain ⟨-, -, p, -, -, hThread, -⟩ := hWithin.leads
    have hEnded := hCompleted i (List.getElem?_eq_some_iff.mp hThread).1
    rw [hAtWork] at hEnded
    cases hEnded

end Pool

end Lib

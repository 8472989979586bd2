import Mathlib.Data.List.Basic

/-!
# Runs of a step function

A run is a list of events; the state after it is the fold of the step function.

* `Obeys` — every event of a run meets a condition in the state where it happens;
* `Always` — a property holds at the start of a run and after each of its events;
* `obeys_iff` — two conditions that come to the same;
* `always_of_obeys` — an invariant that the events of the condition keep;
* `obeys_of_always` — the converse: where the first event that breaks the condition leads to
  states that cannot stay good until the end of the run.
-/

namespace Lib

variable {σ ε : Type} (step : σ → ε → σ)

/-- Every event of the run happens in a state that meets the condition. -/
def Obeys (Cond : σ → ε → Prop) : σ → List ε → Prop
  | _, [] => True
  | s, e :: rest => Cond s e ∧ Obeys Cond (step s e) rest

instance (Cond : σ → ε → Prop) [∀ s e, Decidable (Cond s e)] :
    ∀ s run, Decidable (Obeys step Cond s run)
  | _, [] => inferInstanceAs (Decidable True)
  | s, e :: rest =>
    have := instDecidableObeys Cond (step s e) rest
    inferInstanceAs (Decidable (Cond s e ∧ Obeys step Cond (step s e) rest))

/-- `P` holds at the start of the run and after each of its events. -/
def Always (P : σ → Prop) : σ → List ε → Prop
  | s, [] => P s
  | s, e :: rest => P s ∧ Always P (step s e) rest

variable {step} {Cond : σ → ε → Prop} {P I D : σ → Prop}
variable {s : σ} {run : List ε}

theorem Always.start (h : Always step P s run) : P s := by
  cases run with
  | nil => exact h
  | cons e rest => exact h.1

theorem Always.finish (h : Always step P s run) : P (run.foldl step s) := by
  induction run generalizing s with
  | nil => exact h
  | cons e rest ih => exact ih h.2

/-- What every event that meets the condition keeps, and what implies `P`, gives `P`
throughout. -/
theorem always_of_obeys (hStep : ∀ s e, I s → Cond s e → I (step s e)) (hGood : ∀ s, I s → P s)
    (hInv : I s) (hRun : Obeys step Cond s run) : Always step P s run := by
  induction run generalizing s with
  | nil => exact hGood s hInv
  | cons e rest ih => exact ⟨hGood s hInv, ih (hStep s e hInv hRun.1) hRun.2⟩

/-- Two conditions that agree where the invariant holds, which the first of them keeps. -/
theorem obeys_iff {Cond' : σ → ε → Prop} (hStep : ∀ s e, I s → Cond s e → I (step s e))
    (hIff : ∀ s e, I s → (Cond s e ↔ Cond' s e)) (hInv : I s) (run : List ε) :
    Obeys step Cond s run ↔ Obeys step Cond' s run := by
  induction run generalizing s with
  | nil => exact Iff.rfl
  | cons e rest ih =>
    constructor
    · exact fun h => ⟨(hIff s e hInv).mp h.1, (ih (hStep s e hInv h.1)).mp h.2⟩
    · intro h
      have hCond := (hIff s e hInv).mpr h.1
      exact ⟨hCond, (ih (hStep s e hInv hCond)).mpr h.2⟩

/-- A doom that no event lifts while `P` holds is there at the end. -/
theorem doomed_at_end (hDoom : ∀ s e, P (step s e) → D s → D (step s e)) (hs : D s)
    (hRun : Always step P s run) : D (run.foldl step s) := by
  induction run generalizing s with
  | nil => exact hs
  | cons e rest ih => exact ih (hDoom s e hRun.2.start hs) hRun.2

/-- If an event that breaks the condition brings a doom, and the end of the run is free of
it, then a run that is good throughout obeys the condition. -/
theorem obeys_of_always (hStep : ∀ s e, I s → Cond s e → I (step s e))
    (hBreak : ∀ s e, I s → ¬Cond s e → P (step s e) → D (step s e))
    (hDoom : ∀ s e, P (step s e) → D s → D (step s e)) (hInv : I s) (hRun : Always step P s run)
    (hEnd : ¬D (run.foldl step s)) : Obeys step Cond s run := by
  induction run generalizing s with
  | nil => trivial
  | cons e rest ih =>
    by_cases hCond : Cond s e
    · exact ⟨hCond, ih (hStep s e hInv hCond) hRun.2 hEnd⟩
    · have hs := hBreak s e hInv hCond hRun.2.start
      exact absurd (doomed_at_end hDoom hs hRun.2) hEnd

end Lib

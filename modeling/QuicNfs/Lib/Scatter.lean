import QuicNfs.Lib.Splice
import Mathlib.Order.MinMax

/-!
# Elements that are stored one after the other, each at a place of its own

A store that is meant for `offset`, but whose `b`-th element goes to `place b`. Later
elements replace earlier ones that have gone to the same place.

* `Scattered` — the array after the first `n` elements;
* `Scattered.splice` — a run of elements that go to neighbouring places;
* `Scattered.eq_splice_iff` — when the array is what it was meant to become.
-/

namespace Lib

open List

variable {α : Type} {fill : α} {place : Nat → Nat} {offset : Nat} {buffer old data : List α}

/-- `data` is `old` after the first `n` elements of `buffer` have gone to their places. -/
structure Scattered (fill : α) (place : Nat → Nat) (buffer old : List α) (n : Nat)
    (data : List α) : Prop where
  reached (b : Nat) (x : α) : b < n → buffer[b]? = some x →
    (∀ c, b < c → c < n → place c ≠ place b) → data[place b]? = some x
  unreached (q : Nat) : (∀ b < n, place b ≠ q) → q < data.length →
    data[q]? = if q < old.length then old[q]? else some fill
  length (q : Nat) : q < data.length ↔ q < old.length ∨ ∃ b < n, q ≤ place b

theorem scattered_zero : Scattered fill place buffer old 0 old where
  reached _ _ hb := absurd hb (Nat.not_lt_zero _)
  unreached q _ hq := by rw [if_pos hq]
  length q := by simp

/-- The next elements go to neighbouring places. -/
theorem Scattered.splice {n m : Nat} (h : Scattered fill place buffer old n data)
    (hm : 0 < m) (hFits : n + m ≤ buffer.length) (hPlace : ∀ j < m, place (n + j) = place n + j) :
    Scattered fill place buffer old (n + m)
      (splice fill (place n) ((buffer.drop n).take m) data) := by
  have hLength : ((buffer.drop n).take m).length = m := by
    rw [length_take, length_drop]
    omega
  have hNew : (buffer.drop n).take m ≠ [] := by
    intro hNil
    rw [hNil] at hLength
    exact absurd hLength (Nat.ne_of_lt hm)
  refine ⟨fun b x hb hx hLast => ?_, fun q hq hIn => ?_, fun q => ?_⟩
  · rw [getElem?_splice hNew, hLength]
    by_cases hOld : b < n
    · -- nothing new has gone to the place of an earlier element
      have hElsewhere : ¬ (place n ≤ place b ∧ place b < place n + m) := by
        rintro ⟨hLow, hHigh⟩
        refine hLast (n + (place b - place n)) (by omega) (by omega) ?_
        rw [hPlace _ (by omega)]
        omega
      have hData := h.reached b x hOld hx fun c hc hcn => hLast c hc (by omega)
      have hInside : place b < data.length := (List.getElem?_eq_some_iff.mp hData).1
      by_cases hLeft : place b < place n
      · rw [if_pos hLeft, if_pos hInside]
        exact hData
      · rw [if_neg hLeft, if_neg (by omega)]
        exact hData
    -- one of the new elements: it is where the run has put it
    · have hHere := hPlace (b - n) (by omega)
      rw [show n + (b - n) = b by omega] at hHere
      rw [if_neg (by omega), if_pos (by omega), getElem?_take_of_lt (by omega),
        getElem?_drop, show n + (place b - place n) = b by omega]
      exact hx
  -- a place that neither the elements before nor the new ones have gone to
  · have hOutside : ¬ (place n ≤ q ∧ q < place n + m) := by
      rintro ⟨hLow, hHigh⟩
      refine hq (n + (q - place n)) (by omega) ?_
      rw [hPlace _ (by omega)]
      omega
    have hBefore : ∀ b < n, place b ≠ q := fun b hb => hq b (by omega)
    rw [length_splice hNew, hLength] at hIn
    rw [getElem?_splice hNew, hLength]
    have hGrown := h.length q
    by_cases hLeft : q < place n
    · rw [if_pos hLeft]
      by_cases hInside : q < data.length
      · rw [if_pos hInside]
        exact h.unreached q hBefore hInside
      · rw [if_neg hInside, if_neg fun hOld => hInside (hGrown.mpr (.inl hOld))]
    · rw [if_neg hLeft, if_neg (by omega)]
      exact h.unreached q hBefore (by omega)
  -- the run reaches as far as its last element
  · have hEnd := hPlace (m - 1) (by omega)
    rw [length_splice hNew, hLength, lt_max_iff, h.length q]
    constructor
    · rintro (hNear | hOld | ⟨b, hb, hq⟩)
      · exact .inr ⟨n + (m - 1), by omega, by omega⟩
      · exact .inl hOld
      · exact .inr ⟨b, by omega, hq⟩
    · rintro (hOld | ⟨b, hb, hq⟩)
      · exact .inr (.inl hOld)
      · by_cases hFirst : b < n
        · exact .inr (.inr ⟨b, hFirst, hq⟩)
        · have hHere := hPlace (b - n) (by omega)
          rw [show n + (b - n) = b by omega] at hHere
          exact .inl (by omega)

/-- The elements end up where they were meant to go: the last one that has gone to a
place belongs there, and where none has gone the right one was before. -/
structure Settled (fill : α) (place : Nat → Nat) (offset : Nat) (buffer old : List α) : Prop where
  reached (b : Nat) (x : α) : buffer[b]? = some x →
    (∀ c, b < c → c < buffer.length → place c ≠ place b) →
      (splice fill offset buffer old)[place b]? = some x
  unreached (b : Nat) (x : α) : buffer[b]? = some x →
    (∀ c < buffer.length, place c ≠ offset + b) → old[offset + b]? = some x

/-- The last element that has gone to a place. -/
theorem exists_last {n q : Nat} (h : ∃ b < n, place b = q) :
    ∃ b < n, place b = q ∧ ∀ c, b < c → c < n → place c ≠ q := by
  -- from the back: the last element, or one before it
  induction n with
  | zero =>
    obtain ⟨b, hb, -⟩ := h
    exact absurd hb (Nat.not_lt_zero _)
  | succ n ih =>
    by_cases hn : place n = q
    · exact ⟨n, by omega, hn, fun c hc hcn => by omega⟩
    · have hBefore : ∃ b < n, place b = q := by
        obtain ⟨b, hb, hq⟩ := h
        have hne : b ≠ n := by
          rintro rfl
          exact hn hq
        exact ⟨b, by omega, hq⟩
      obtain ⟨b, hb, hq, hLast⟩ := ih hBefore
      refine ⟨b, by omega, hq, fun c hc hcn => ?_⟩
      by_cases hEnd : c = n
      · rw [hEnd]
        exact hn
      · exact hLast c hc (by omega)

section Meant

variable (h : Scattered fill place buffer old buffer.length data)
  (hLow : ∀ b, place b ≤ offset + b)
  (hLast : ∀ b < buffer.length,
    place (buffer.length - 1) = offset + (buffer.length - 1) → place b = offset + b)
include hLow hLast

/-- If an element is meant for a place that none goes to, then none goes to the end. -/
theorem end_unreached {b : Nat} (hb : b < buffer.length)
    (hNone : ∀ c < buffer.length, place c ≠ offset + b) :
    ∀ c < buffer.length, place c ≠ offset + (buffer.length - 1) := by
  intro c hc hEnd
  have hLowC := hLow c
  have hIs : c = buffer.length - 1 := by omega
  rw [hIs] at hEnd
  exact hNone b hb (hLast b hb hEnd)

omit hLast in
/-- If the end is not reached, the array was long enough before. -/
theorem Settled.long (hSettled : Settled fill place offset buffer old) (hPos : 0 < buffer.length)
    (hEnd : place (buffer.length - 1) ≠ offset + (buffer.length - 1)) :
    offset + (buffer.length - 1) < old.length := by
  have hx := getElem?_eq_getElem (show buffer.length - 1 < buffer.length by omega)
  have hOld := hSettled.unreached (buffer.length - 1) _ hx fun c hc hq => by
    have hLowC := hLow c
    have hIs : c = buffer.length - 1 := by omega
    exact hEnd (hIs ▸ hq)
  exact (List.getElem?_eq_some_iff.mp hOld).1

include h

theorem Scattered.settled (hEq : data = Lib.splice fill offset buffer old) :
    Settled fill place offset buffer old := by
  refine ⟨fun b x hx hc => ?_, fun b x hx hNone => ?_⟩
  · rw [← hEq]
    exact h.reached b x (List.getElem?_eq_some_iff.mp hx).1 hx hc
  · -- where no element has gone, the array can only have been long enough before
    have hb := (List.getElem?_eq_some_iff.mp hx).1
    have hNil : buffer ≠ [] := ne_nil_of_length_pos (by omega)
    have hEnd := end_unreached hLow hLast hb hNone
    have hLong : offset + b < old.length := by
      have hData : offset + (buffer.length - 1) < data.length := by
        rw [hEq, length_splice hNil]
        omega
      rcases (h.length _).mp hData with hOld | ⟨c, hc, hq⟩
      · omega
      · have hLowC := hLow c
        exact absurd (by omega) (hEnd c hc)
    have hAt := h.unreached (offset + b) hNone ((h.length _).mpr (.inl hLong))
    rw [if_pos hLong, hEq, getElem?_splice hNil, if_neg (by omega), if_pos (by omega),
      Nat.add_sub_cancel_left, hx] at hAt
    exact hAt.symm

omit hLast in
/-- A place that no element has gone to. -/
theorem Scattered.getElem?_unreached (hSettled : Settled fill place offset buffer old)
    (hNil : buffer ≠ []) {q : Nat} (hNone : ∀ b < buffer.length, place b ≠ q) :
    data[q]? = (Lib.splice fill offset buffer old)[q]? := by
  have hPos : 0 < buffer.length := length_pos_iff.mpr hNil
  have hLength := h.length q
  rw [getElem?_splice hNil]
  by_cases hTarget : offset ≤ q ∧ q < offset + buffer.length
  · -- the right element was there before
    have hx := getElem?_eq_getElem (show q - offset < buffer.length by omega)
    have hOld := hSettled.unreached (q - offset) _ hx fun c hc => by
      rw [show offset + (q - offset) = q by omega]
      exact hNone c hc
    rw [show offset + (q - offset) = q by omega] at hOld
    have hIn : q < old.length := (List.getElem?_eq_some_iff.mp hOld).1
    rw [h.unreached q hNone (hLength.mpr (.inl hIn)), if_pos hIn, if_neg (by omega),
      if_pos (by omega), hOld, hx]
  by_cases hIn : q < old.length
  · rw [h.unreached q hNone (hLength.mpr (.inl hIn)), if_pos hIn]
    split
    · rfl
    · rw [if_neg (by omega)]
  by_cases hGap : q < offset
  · -- the gap is filled if the array grows over it
    have hGrown : q < data.length := by
      by_cases hEnd : place (buffer.length - 1) = offset + (buffer.length - 1)
      · exact hLength.mpr (.inr ⟨buffer.length - 1, by omega, by omega⟩)
      · have hLong := hSettled.long hLow hPos hEnd
        omega
    rw [h.unreached q hNone hGrown, if_neg hIn, if_pos hGap]
  -- behind everything: no element goes further than it was meant to
  · have hOut : ¬ q < data.length := by
      rw [hLength]
      rintro (hOld | ⟨b, hb, hq⟩)
      · exact hIn hOld
      · have hLowB := hLow b
        omega
    rw [getElem?_eq_none (by omega), if_neg hGap, if_neg (by omega), getElem?_eq_none (by omega)]

/-- The array is what it was meant to become iff the elements end up in their places. -/
theorem Scattered.eq_splice_iff :
    data = Lib.splice fill offset buffer old ↔ Settled fill place offset buffer old := by
  refine ⟨h.settled hLow hLast, fun hSettled => ext_getElem? fun q => ?_⟩
  by_cases hNil : buffer = []
  · have hLength := h.length q
    subst hNil
    rw [splice_nil]
    by_cases hq : q < data.length
    · rw [h.unreached q (by simp) hq, if_pos (by simpa using hLength.mp hq)]
    · have hOld : ¬ q < old.length := fun hOld => hq (hLength.mpr (.inl hOld))
      rw [getElem?_eq_none (by omega), getElem?_eq_none (by omega)]
  by_cases hReached : ∃ b < buffer.length, place b = q
  · obtain ⟨b, hb, rfl, hc⟩ := exists_last hReached
    have hx := getElem?_eq_getElem hb
    rw [h.reached b _ hb hx hc, hSettled.reached b _ hx hc]
  · exact h.getElem?_unreached hLow hSettled hNil fun b hb hq => hReached ⟨b, hb, hq⟩

end Meant

end Lib

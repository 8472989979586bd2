import Mathlib.Data.List.Basic
import Mathlib.Data.List.Infix

/-!
# Arrays that grow when written behind their end

`splice fill offset new old` stores the elements `new` at `offset` of `old`. What
lies between the end of `old` and `offset` becomes `fill`; without elements to store
nothing happens.

* `getElem?_splice` — the result, element by element;
* `splice_append` — a store in two parts;
* `splice_take_eq_iff` — when a part of a store does what the whole does.
-/

namespace Lib

open List

variable {α : Type}

/-- `old`, cut or filled to a length. -/
def fit (fill : α) (size : Nat) (old : List α) : List α :=
  old.take size ++ List.replicate (size - old.length) fill

def splice (fill : α) (offset : Nat) (new old : List α) : List α :=
  if new = [] then old else fit fill offset old ++ new ++ old.drop (offset + new.length)

variable {fill : α} {offset : Nat} {new old : List α}

@[simp] theorem length_fit (size : Nat) (old : List α) : (fit fill size old).length = size := by
  simp [fit]
  omega

theorem getElem?_fit {size k : Nat} (hk : k < size) :
    (fit fill size old)[k]? = if k < old.length then old[k]? else some fill := by
  unfold fit
  rw [getElem?_append, length_take]
  by_cases hOld : k < old.length
  · rw [if_pos (by omega), if_pos hOld, getElem?_take_of_lt hk]
  · rw [if_neg (by omega), if_neg hOld, getElem?_replicate, if_pos (by omega)]

@[simp] theorem splice_nil (offset : Nat) (old : List α) : splice fill offset [] old = old :=
  if_pos rfl

theorem length_splice (hNew : new ≠ []) :
    (splice fill offset new old).length = max (offset + new.length) old.length := by
  rw [splice, if_neg hNew]
  simp
  omega

/-- The elements of a store: the old ones, the fill, the new ones, the old ones. -/
theorem getElem?_splice (hNew : new ≠ []) (k : Nat) :
    (splice fill offset new old)[k]? =
      if k < offset then (if k < old.length then old[k]? else some fill)
      else if k < offset + new.length then new[k - offset]?
      else old[k]? := by
  rw [splice, if_neg hNew]
  by_cases hLeft : k < offset
  · rw [if_pos hLeft, append_assoc, getElem?_append_left (by simpa using hLeft), getElem?_fit hLeft]
  · rw [if_neg hLeft]
    by_cases hMid : k < offset + new.length
    · rw [if_pos hMid, getElem?_append_left (by simp; omega),
        getElem?_append_right (by simp; omega), length_fit]
    · rw [if_neg hMid, getElem?_append_right (by simp; omega), getElem?_drop]
      congr 1
      simp
      omega

/-- A store in two parts. -/
theorem splice_append (first second : List α) :
    splice fill offset (first ++ second) old =
      splice fill (offset + first.length) second (splice fill offset first old) := by
  by_cases hFirst : first = []
  · simp [hFirst]
  by_cases hSecond : second = []
  · simp [hSecond]
  have hPos : 0 < first.length := length_pos_iff.mpr hFirst
  refine ext_getElem? fun k => ?_
  rw [getElem?_splice (by simp [hFirst]), getElem?_splice hSecond, length_splice hFirst,
    getElem?_splice hFirst, length_append]
  -- one case for each of the regions: before, first part, second part, behind
  by_cases hBefore : k < offset
  · have hFits : k < offset + first.length := by omega
    have hInside : k < max (offset + first.length) old.length := by omega
    simp only [if_pos hBefore, if_pos hFits, if_pos hInside]
  · rw [if_neg hBefore, if_neg hBefore]
    by_cases hk : k < offset + first.length
    · rw [if_pos (by omega), if_pos hk, if_pos (by omega), if_pos hk,
        getElem?_append_left (by omega)]
    · rw [if_neg hk, if_neg hk]
      by_cases hBehind : k < offset + first.length + second.length
      · rw [if_pos (by omega), if_pos hBehind, getElem?_append_right (by omega)]
        congr 1
        omega
      · rw [if_neg (by omega), if_neg hBehind]

/-- Behind the store nothing has changed. -/
theorem drop_splice : (splice fill offset new old).drop (offset + new.length) =
    old.drop (offset + new.length) := by
  by_cases hNew : new = []
  · simp [hNew]
  · rw [splice, if_neg hNew, drop_append_of_le_length (by simp)]
    simp

/-- A store that changes nothing: the elements stand there already. -/
theorem splice_eq_self_iff : splice fill offset new old = old ↔ new <+: old.drop offset := by
  by_cases hNew : new = []
  · simp [hNew]
  · rw [splice, if_neg hNew]
    constructor
    · intro hSame
      refine ⟨old.drop (offset + new.length), ?_⟩
      have hDrop := congrArg (drop offset) hSame
      rw [append_assoc, drop_left' (length_fit _ _)] at hDrop
      exact hDrop
    · rintro ⟨rest, hRest⟩
      have hPos : 0 < new.length := length_pos_iff.mpr hNew
      have hLength := congrArg length hRest
      rw [length_append, length_drop] at hLength
      have hFit : fit fill offset old = old.take offset := by
        rw [fit, Nat.sub_eq_zero_of_le (by omega), replicate_zero, append_nil]
      have hBehind : old.drop (offset + new.length) = rest := by
        rw [← drop_drop, ← hRest, drop_left]
      rw [hFit, hBehind, append_assoc, hRest, take_append_drop]

/-- The first `n` elements do what all of them do, if the others stand there already. -/
theorem splice_take_eq_iff (n : Nat) :
    splice fill offset (new.take n) old = splice fill offset new old ↔
      new.drop n <+: old.drop (offset + n) := by
  by_cases hn : n < new.length
  · have hLength : (new.take n).length = n := by rw [length_take]; omega
    have hParts : splice fill offset new old =
        splice fill (offset + n) (new.drop n) (splice fill offset (new.take n) old) := by
      conv_lhs => rw [← take_append_drop n new]
      rw [splice_append, hLength]
    have hDrop := @drop_splice α fill offset (new.take n) old
    rw [hLength] at hDrop
    rw [hParts, eq_comm, splice_eq_self_iff, hDrop]
  · rw [take_of_length_le (by omega), drop_eq_nil_of_le (by omega)]
    simp

end Lib

import Mathlib.Data.List.Basic
import Mathlib.Data.List.TakeWhile

/-!
# Reading a text through a buffer

A reader that takes a text line by line into a buffer of fixed size gets a line
that does not fit in pieces.

* `takeLine sep size` — one read: at most `size` elements, up to and with the
  first `sep`;
* `readLines` — read after read, to the end of the text;
* `piece size line k` — the `k`-th piece of a line;
* `exists_readLines_iff` — what the reads find is what the pieces of the lines
  are.
-/

namespace Lib

open List

variable {α : Type} [DecidableEq α]

/-- What one read gets, and what is left for the next one. -/
def takeLine (sep : α) : Nat → List α → List α × List α
  | _, [] => ([], [])
  | 0, a :: text => ([], a :: text)
  | size + 1, a :: text =>
    if a = sep then ([a], text)
    else (a :: (takeLine sep size text).1, (takeLine sep size text).2)

/-- The reads of a whole text; `fuel` bounds their number. -/
def readLines (sep : α) (size : Nat) : Nat → List α → List (List α)
  | 0, _ => []
  | _ + 1, [] => []
  | fuel + 1, text =>
    (takeLine sep size text).1 :: readLines sep size fuel (takeLine sep size text).2

variable {sep : α} {size : Nat}

/-! ## Pieces -/

variable {line : List α}

section Pieces

omit [DecidableEq α]

/-- The `k`-th piece of a line that is cut every `size` elements. -/
def piece (size : Nat) (line : List α) (k : Nat) : List α := (line.drop (size * k)).take size

theorem piece_zero (size : Nat) (line : List α) : piece size line 0 = line.take size := rfl

theorem piece_succ (size : Nat) (line : List α) (k : Nat) :
    piece size line (k + 1) = piece size (line.drop size) k := by
  unfold piece
  rw [drop_drop, Nat.mul_add, Nat.mul_one, Nat.add_comm]

/-- A line that fits into the buffer has one piece. -/
theorem piece_of_length_le (h : line.length ≤ size) (k : Nat) :
    piece size line k = if k = 0 then line else [] := by
  cases k with
  | zero => rw [piece_zero, take_of_length_le h, if_pos rfl]
  | succ k =>
    rw [piece_succ, drop_eq_nil_of_le h, if_neg (Nat.succ_ne_zero k)]
    simp [piece]

end Pieces

/-! ## One read -/

/-- A read that meets the end of the line. -/
theorem takeLine_end (hLine : sep ∉ line) (hLength : line.length < size) (text : List α) :
    takeLine sep size (line ++ sep :: text) = (line ++ [sep], text) := by
  induction line generalizing size with
  | nil =>
    obtain ⟨size, rfl⟩ := Nat.exists_eq_succ_of_ne_zero (Nat.ne_of_gt hLength)
    exact if_pos rfl
  | cons a line ih =>
    obtain ⟨size, rfl⟩ := Nat.exists_eq_succ_of_ne_zero (Nat.ne_of_gt (Nat.zero_lt_of_lt hLength))
    have ha : a ≠ sep := fun h => hLine (by simp [h])
    have hRest := ih (fun h => hLine (mem_cons_of_mem a h)) (Nat.lt_of_succ_lt_succ hLength)
    rw [cons_append, takeLine, if_neg ha, hRest]
    rfl

/-- A read that is over before the line is. -/
theorem takeLine_within (hLine : sep ∉ line) (hLength : size ≤ line.length) (text : List α) :
    takeLine sep size (line ++ text) = (line.take size, line.drop size ++ text) := by
  induction line generalizing size with
  | nil =>
    obtain rfl : size = 0 := Nat.le_zero.mp hLength
    cases text <;> rfl
  | cons a line ih =>
    cases size with
    | zero => rfl
    | succ size =>
      have ha : a ≠ sep := fun h => hLine (by simp [h])
      have hRest := ih (fun h => hLine (mem_cons_of_mem a h)) (Nat.le_of_succ_le_succ hLength)
      rw [cons_append, takeLine, if_neg ha, hRest]
      rfl

/-- A read that meets the end of the text. -/
theorem takeLine_last (hLine : sep ∉ line) (hLength : line.length ≤ size) :
    takeLine sep size line = (line, []) := by
  induction line generalizing size with
  | nil => cases size <;> rfl
  | cons a line ih =>
    obtain ⟨size, rfl⟩ := Nat.exists_eq_succ_of_ne_zero (Nat.ne_of_gt (Nat.zero_lt_of_lt hLength))
    have ha : a ≠ sep := fun h => hLine (by simp [h])
    have hRest := ih (fun h => hLine (mem_cons_of_mem a h)) (Nat.le_of_succ_le_succ hLength)
    rw [takeLine, if_neg ha, hRest]

/-! ## All reads -/

theorem splitOn_line (hLine : sep ∉ line) (rest : List α) :
    (line ++ sep :: rest).splitOn sep = line :: rest.splitOn sep := by
  rw [splitOn_append_cons_self, splitOn_eq_singleton hLine]
  rfl

/-- A text is a last line, or a line and what comes after it. -/
theorem exists_first_line (sep : α) (text : List α) :
    ∃ line, sep ∉ line ∧ (text = line ∨ ∃ rest, text = line ++ sep :: rest) := by
  have hLine : sep ∉ text.takeWhile (· ≠ sep) := fun h => by simpa using mem_takeWhile_imp h
  have hText : text.takeWhile (· ≠ sep) ++ text.dropWhile (· ≠ sep) = text :=
    takeWhile_append_dropWhile
  refine ⟨text.takeWhile (· ≠ sep), hLine, ?_⟩
  cases hRest : text.dropWhile (· ≠ sep) with
  | nil =>
    rw [hRest, append_nil] at hText
    exact Or.inl hText.symm
  | cons a rest =>
    have ha : a = sep := by
      have hHead := head?_dropWhile_not (· ≠ sep) text
      rw [hRest] at hHead
      simpa using hHead
    rw [hRest, ha] at hText
    exact Or.inr ⟨rest, hText.symm⟩

theorem takeWhile_line (hLine : sep ∉ line) (rest : List α) :
    (line ++ sep :: rest).takeWhile (· ≠ sep) = line := by
  rw [takeWhile_append_of_pos fun a ha => by simpa using fun h : a = sep => hLine (h ▸ ha)]
  simp

theorem takeWhile_last (hLine : sep ∉ line) : line.takeWhile (· ≠ sep) = line :=
  takeWhile_eq_self_iff.mpr fun a ha => by simpa using fun h : a = sep => hLine (h ▸ ha)

section Reads

variable {P : List α → Prop}

omit [DecidableEq α] in
/-- The pieces of a line that fits into the buffer. -/
theorem exists_piece_iff_of_length_le (hNil : ¬P []) (h : line.length ≤ size) :
    (∃ k, P (piece size line k)) ↔ P line := by
  constructor
  · rintro ⟨k, hk⟩
    rw [piece_of_length_le h] at hk
    split at hk
    · exact hk
    · exact absurd hk hNil
  · intro hLine
    exact ⟨0, by rwa [piece_of_length_le h, if_pos rfl]⟩

omit [DecidableEq α] in
/-- The pieces of a line, the first one apart. -/
theorem exists_piece_iff (line : List α) :
    (∃ k, P (piece size line k)) ↔ P (line.take size) ∨ ∃ k, P (piece size (line.drop size) k) := by
  constructor
  · rintro ⟨k, hk⟩
    cases k with
    | zero => exact Or.inl hk
    | succ k => exact Or.inr ⟨k, piece_succ size line k ▸ hk⟩
  · rintro (h | ⟨k, hk⟩)
    · exact ⟨0, h⟩
    · exact ⟨k + 1, by rwa [piece_succ]⟩

/-- **What the reads find is what the pieces of the lines are**, but for empty
ones. -/
theorem exists_readLines_iff (hNil : ¬P []) (hSize : 0 < size) {fuel : Nat} {text : List α}
    (hFuel : text.length ≤ fuel) :
    (∃ chunk ∈ readLines sep size fuel text, P (chunk.takeWhile (· ≠ sep))) ↔
      ∃ line ∈ text.splitOn sep, ∃ k, P (piece size line k) := by
  induction fuel generalizing text with
  | zero =>
    obtain rfl := length_eq_zero_iff.mp (Nat.le_zero.mp hFuel)
    simp [readLines, piece, hNil]
  | succ fuel ih =>
    by_cases hText : text = []
    · subst hText
      simp [readLines, piece, hNil]
    have hReads : readLines sep size (fuel + 1) text =
        (takeLine sep size text).1 :: readLines sep size fuel (takeLine sep size text).2 := by
      cases text with
      | nil => exact absurd rfl hText
      | cons a text => rfl
    rw [hReads, exists_mem_cons_iff]
    -- the first read, by whether the first line fits into the buffer and what ends it
    obtain ⟨line, hLine, rfl | ⟨rest, rfl⟩⟩ := exists_first_line sep text
    · simp only [splitOn_eq_singleton hLine, mem_singleton, exists_eq_left]
      by_cases hFits : text.length ≤ size
      · rw [takeLine_last hLine hFits, takeWhile_last hLine, exists_piece_iff_of_length_le hNil hFits]
        cases fuel <;> simp [readLines]
      · have hLong : size ≤ text.length := Nat.le_of_not_le hFits
        have hRead := takeLine_within hLine hLong []
        rw [append_nil, append_nil] at hRead
        have hRest : sep ∉ text.drop size := fun h => hLine (mem_of_mem_drop h)
        rw [hRead, takeWhile_last fun h => hLine (mem_of_mem_take h),
          ih (by rw [length_drop]; omega), exists_piece_iff text]
        simp only [splitOn_eq_singleton hRest, mem_singleton, exists_eq_left]
    · rw [splitOn_line hLine, exists_mem_cons_iff]
      have hLengths : (line ++ sep :: rest).length = line.length + rest.length + 1 := by
        simp [Nat.add_assoc]
      by_cases hFits : line.length < size
      · have hLess : rest.length ≤ fuel := by omega
        rw [takeLine_end hLine hFits, takeWhile_line hLine, ih hLess,
          exists_piece_iff_of_length_le hNil (Nat.le_of_lt hFits)]
      · have hLong : size ≤ line.length := Nat.le_of_not_lt hFits
        have hRest : sep ∉ line.drop size := fun h => hLine (mem_of_mem_drop h)
        have hLess : (line.drop size ++ sep :: rest).length ≤ fuel := by
          rw [length_append, length_drop, length_cons]
          omega
        rw [takeLine_within hLine hLong, takeWhile_last fun h => hLine (mem_of_mem_take h),
          ih hLess, splitOn_line hRest, exists_mem_cons_iff, exists_piece_iff line, or_assoc]

end Reads

end Lib

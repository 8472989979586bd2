import Mathlib.Algebra.BigOperators.Group.List.Basic
import Mathlib.Data.Nat.Bitwise
import QuicNfs.Kernel.Path
import QuicNfs.Lib.BigEndian

/-!
# QuicNfs — the Record Marking format

A record travels as a sequence of fragments. Each has a header of four bytes:
the size of the fragment in the lower 31 bits, and the highest bit set on the
last fragment.

* `fragmentHeader` and `isLastFragment`, `fragmentSize` — writing and reading a
  header; `isLastFragment_header`, `fragmentSize_header` say that they agree;
* `fragments` — how the sender cuts a record;
* `encodeRecord` — the bytes of a record on the wire.
-/

namespace QuicNfs.Transport

open Kernel Lib List

/-- RPC Record Marking fragment header size in bytes. -/
def RM_FRAGMENT_HEADER_SIZE : Nat := 4

/-- The maximal size in bytes of the data in a Record Marking fragment. -/
def RM_MAX_FRAGMENT_DATA_SIZE : Nat := 0x7FFFFFFF

/-! ## Headers -/

/-- The header of a fragment, in network byte order; the MSB is set if this is
the last fragment. -/
def fragmentHeader (isLast : Bool) (fragmentSize : Nat) : Bytes :=
  be32 ((if isLast then 0x80000000 else 0) ||| fragmentSize)

/-- If the most significant bit is set, this is the last fragment. -/
def isLastFragment (header : Bytes) : Bool := ofBe32 header &&& 0x80000000 != 0

/-- The lower 31 bits specify the fragment size in bytes. -/
def fragmentSize (header : Bytes) : Nat := ofBe32 header &&& 0x7FFFFFFF

@[simp] theorem length_fragmentHeader (isLast : Bool) (n : Nat) :
    (fragmentHeader isLast n).length = RM_FRAGMENT_HEADER_SIZE := rfl

variable {isLast : Bool} {n : Nat} {data : Bytes}

/-- The two parts of a header do not overlap. -/
theorem header_eq (h : n ≤ RM_MAX_FRAGMENT_DATA_SIZE) :
    ofBe32 (fragmentHeader isLast n) = (if isLast then 2 ^ 31 else 0) + n := by
  have hn : n < 2 ^ 31 := Nat.lt_of_le_of_lt h (by decide)
  unfold fragmentHeader
  cases isLast with
  | false =>
    simp only [Bool.false_eq_true, if_false, Nat.zero_or, Nat.zero_add]
    exact ofBe32_be32 (by omega)
  | true =>
    have hOr : 0x80000000 ||| n = 2 ^ 31 + n := by
      have := Nat.two_pow_add_eq_or_of_lt hn 1
      rw [Nat.mul_one] at this
      exact this.symm
    simp only [if_true, hOr]
    exact ofBe32_be32 (by omega)

theorem isLastFragment_header (h : n ≤ RM_MAX_FRAGMENT_DATA_SIZE) :
    isLastFragment (fragmentHeader isLast n) = isLast := by
  have hn : n < 2 ^ 31 := Nat.lt_of_le_of_lt h (by decide)
  unfold isLastFragment
  rw [header_eq h, show (0x80000000 : Nat) = 2 ^ 31 from rfl, Nat.and_two_pow]
  cases isLast with
  | false =>
    have hBit : n.testBit 31 = false := Nat.testBit_lt_two_pow hn
    simp [hBit]
  | true =>
    have hBit : (2 ^ 31 + n).testBit 31 = true := by
      rw [Nat.testBit_two_pow_add_eq, Nat.testBit_lt_two_pow hn]
      rfl
    simp only [if_true, hBit]
    decide

theorem fragmentSize_header (h : n ≤ RM_MAX_FRAGMENT_DATA_SIZE) :
    fragmentSize (fragmentHeader isLast n) = n := by
  have hn : n < 2 ^ 31 := Nat.lt_of_le_of_lt h (by decide)
  unfold fragmentSize
  rw [header_eq h, show (0x7FFFFFFF : Nat) = 2 ^ 31 - 1 from rfl, Nat.and_two_pow_sub_one_eq_mod]
  cases isLast with
  | false => simpa using Nat.mod_eq_of_lt hn
  | true => simpa using Nat.mod_eq_of_lt hn

theorem fragmentSize_le (header : Bytes) : fragmentSize header ≤ RM_MAX_FRAGMENT_DATA_SIZE := by
  unfold fragmentSize
  exact Nat.and_le_right

/-! ## Records -/

/-- The size of the next fragment of a record. -/
def nextFragmentSize (bytesLeft : Nat) : Nat :=
  if bytesLeft < RM_MAX_FRAGMENT_DATA_SIZE then bytesLeft else RM_MAX_FRAGMENT_DATA_SIZE

/-- How a record is cut: fragments of the maximal size, and what is left. The
fuel bounds their number. -/
def fragmentsOf : Nat → Bytes → List Bytes
  | 0, _ => []
  | fuel + 1, data =>
    if data.length ≤ RM_MAX_FRAGMENT_DATA_SIZE then [data]
    else data.take RM_MAX_FRAGMENT_DATA_SIZE ::
      fragmentsOf fuel (data.drop RM_MAX_FRAGMENT_DATA_SIZE)

def fragments (data : Bytes) : List Bytes := fragmentsOf data.length data

/-- The bytes of a list of fragments on the wire. -/
def encodeFragments : List Bytes → Bytes
  | [] => []
  | [f] => fragmentHeader true f.length ++ f
  | f :: g :: rest => fragmentHeader false f.length ++ f ++ encodeFragments (g :: rest)

/-- The bytes of a record on the wire. -/
def encodeRecord (data : Bytes) : Bytes := encodeFragments (fragments data)

/-- The header of the first fragment, and everything after it. -/
theorem encodeFragments_cons (f : Bytes) (fs : List Bytes) :
    encodeFragments (f :: fs) =
      fragmentHeader (decide (fs = [])) f.length ++ (f ++ encodeFragments fs) := by
  cases fs with
  | nil => simp [encodeFragments]
  | cons g fs => simp [encodeFragments]

/-- Bytes that have come of `b ++ c` and are as many as those of `b` begin with `b`. -/
theorem exists_append_of_le {a rest b c : Bytes} (h : a ++ rest = b ++ c)
    (hLe : b.length ≤ a.length) : ∃ a', a = b ++ a' ∧ a' ++ rest = c := by
  rcases append_eq_append_iff.mp h with ⟨d, hb, hc⟩ | ⟨d, ha, hc⟩
  · have hLength := congrArg length hb
    rw [length_append] at hLength
    obtain rfl : d = [] := length_eq_zero_iff.mp (by omega)
    exact ⟨[], by simpa using hb.symm, by simpa using hc⟩
  · exact ⟨d, ha, hc.symm⟩

/-- A record is cut into fragments that are neither empty nor too large. -/
structure Cut (data : Bytes) (fs : List Bytes) : Prop where
  ne_nil : fs ≠ []
  flatten : fs.flatten = data
  size {f : Bytes} : f ∈ fs → f ≠ [] ∧ f.length ≤ RM_MAX_FRAGMENT_DATA_SIZE

theorem cut_fragmentsOf {fuel : Nat} (hne : data ≠ []) (hFuel : data.length ≤ fuel) :
    Cut data (fragmentsOf fuel data) := by
  induction fuel generalizing data with
  | zero => exact absurd (length_eq_zero_iff.mp (by omega)) hne
  | succ fuel ih =>
    rw [fragmentsOf]
    split
    · next h => exact ⟨by simp, by simp, fun hf => by cases mem_singleton.mp hf; exact ⟨hne, h⟩⟩
    · next h =>
      have hMax : 0 < RM_MAX_FRAGMENT_DATA_SIZE := by decide
      -- what is left is neither nothing nor all
      have hRest : Cut (data.drop RM_MAX_FRAGMENT_DATA_SIZE)
          (fragmentsOf fuel (data.drop RM_MAX_FRAGMENT_DATA_SIZE)) := by
        refine ih ?_ ?_
        · intro hNil
          have := length_eq_zero_iff.mpr hNil
          rw [length_drop] at this
          omega
        · rw [length_drop]
          omega
      refine ⟨by simp, ?_, fun hf => ?_⟩
      · rw [flatten_cons, hRest.flatten, take_append_drop]
      · rcases mem_cons.mp hf with rfl | hf
        · refine ⟨fun hNil => ?_, ?_⟩
          · have := length_eq_zero_iff.mpr hNil
            rw [length_take] at this
            omega
          · rw [length_take]
            omega
        · exact hRest.size hf

theorem cut_fragments (hne : data ≠ []) : Cut data (fragments data) :=
  cut_fragmentsOf hne (Nat.le_refl _)

theorem Cut.length_le {fs : List Bytes} (h : Cut data fs) : fs.length ≤ data.length := by
  rw [← h.flatten, length_flatten]
  have hPos : ∀ n ∈ fs.map length, 1 ≤ n := by
    intro n hn
    obtain ⟨f, hf, rfl⟩ := mem_map.mp hn
    exact length_pos_iff.mpr (h.size hf).1
  simpa using length_le_sum_of_one_le _ hPos

/-! The recursion of `fragments` without the fuel. -/

theorem fragmentsOf_fuel {fuel fuel' : Nat} (hne : data ≠ []) (hFuel : data.length ≤ fuel)
    (hFuel' : data.length ≤ fuel') : fragmentsOf fuel data = fragmentsOf fuel' data := by
  have hPos : 0 < data.length := length_pos_iff.mpr hne
  induction fuel generalizing fuel' data with
  | zero => omega
  | succ fuel ih =>
    obtain ⟨fuel', rfl⟩ : ∃ m, fuel' = m + 1 := ⟨fuel' - 1, by omega⟩
    have hMax : 0 < RM_MAX_FRAGMENT_DATA_SIZE := by decide
    rw [fragmentsOf, fragmentsOf]
    split
    · rfl
    · next h =>
      have hDrop : 0 < (data.drop RM_MAX_FRAGMENT_DATA_SIZE).length := by
        rw [length_drop]
        omega
      have hLess : (data.drop RM_MAX_FRAGMENT_DATA_SIZE).length < data.length := by
        rw [length_drop]
        omega
      have hRest : fragmentsOf fuel (data.drop RM_MAX_FRAGMENT_DATA_SIZE) =
          fragmentsOf fuel' (data.drop RM_MAX_FRAGMENT_DATA_SIZE) :=
        ih (length_pos_iff.mp hDrop) (by omega) (by omega) hDrop
      rw [hRest]

theorem encodeRecord_of_le (hne : data ≠ []) (h : data.length ≤ RM_MAX_FRAGMENT_DATA_SIZE) :
    encodeRecord data = fragmentHeader true data.length ++ data := by
  obtain ⟨n, hn⟩ : ∃ n, data.length = n + 1 := Nat.exists_eq_add_one.mpr (length_pos_iff.mpr hne)
  rw [encodeRecord, fragments, hn, fragmentsOf, if_pos h, encodeFragments, hn]

theorem encodeRecord_of_gt {data : Bytes} (h : RM_MAX_FRAGMENT_DATA_SIZE < data.length) :
    encodeRecord data = fragmentHeader false RM_MAX_FRAGMENT_DATA_SIZE ++
      data.take RM_MAX_FRAGMENT_DATA_SIZE ++ encodeRecord (data.drop RM_MAX_FRAGMENT_DATA_SIZE) := by
  have hMax : 0 < RM_MAX_FRAGMENT_DATA_SIZE := by decide
  have hRest : data.drop RM_MAX_FRAGMENT_DATA_SIZE ≠ [] :=
    length_pos_iff.mp (by rw [length_drop]; omega)
  obtain ⟨n, hn⟩ : ∃ n, data.length = n + 1 := Nat.exists_eq_add_one.mpr (by omega)
  -- the rest is cut with less fuel than it has bytes to spare
  have hFuel : fragmentsOf n (data.drop RM_MAX_FRAGMENT_DATA_SIZE) =
      fragments (data.drop RM_MAX_FRAGMENT_DATA_SIZE) :=
    fragmentsOf_fuel hRest (by rw [length_drop]; omega) (Nat.le_refl _)
  rw [encodeRecord, fragments, hn, fragmentsOf, if_neg (by omega), hFuel]
  obtain ⟨g, rest, hgs⟩ := exists_cons_of_ne_nil (cut_fragments hRest).ne_nil
  rw [hgs, encodeFragments, length_take_of_le (Nat.le_of_lt h), encodeRecord, hgs]

theorem nextFragmentSize_le (n : Nat) : nextFragmentSize n ≤ n := by
  unfold nextFragmentSize
  split <;> omega

theorem nextFragmentSize_pos (h : 0 < n) : 0 < nextFragmentSize n := by
  have hMax : 0 < RM_MAX_FRAGMENT_DATA_SIZE := by decide
  unfold nextFragmentSize
  split <;> omega

/-- The encoding as the sender produces it, one fragment at a time. -/
theorem encodeRecord_step (hne : data ≠ []) :
    encodeRecord data =
      fragmentHeader (data.length = nextFragmentSize data.length) (nextFragmentSize data.length) ++
        data.take (nextFragmentSize data.length) ++
        encodeRecord (data.drop (nextFragmentSize data.length)) := by
  by_cases h : data.length ≤ RM_MAX_FRAGMENT_DATA_SIZE
  · have hn : nextFragmentSize data.length = data.length := by
      unfold nextFragmentSize
      split <;> omega
    rw [hn, encodeRecord_of_le hne h, decide_eq_true rfl, take_length, drop_length]
    exact (append_nil _).symm
  · have hn : nextFragmentSize data.length = RM_MAX_FRAGMENT_DATA_SIZE := by
      unfold nextFragmentSize
      split <;> omega
    have hNotLast : decide (data.length = RM_MAX_FRAGMENT_DATA_SIZE) = false :=
      decide_eq_false (by omega)
    rw [hn, hNotLast]
    exact encodeRecord_of_gt (Nat.lt_of_not_le h)

end QuicNfs.Transport

import Mathlib.Algebra.Order.BigOperators.Group.List
import Mathlib.Algebra.Order.Ring.Nat
import Mathlib.Data.List.Infix

/-!
# Pages of a list

A page takes the elements of a list, in order, as long as their sizes fit into a limit.
It also says whether it has seen the end of the list.

* `page_initial` — a page is the beginning of what is left of the list;
* `page_complete` — the page that has seen the end is all that was left;
* `page_of_lt` — a limit above the size of the whole list gives all of it;
* `page_cases` — the two kinds of pages, if each element fits into one;
* `Longest` — the longest beginning of a list that a cost allows; a page is the longest
  one for the sum of the sizes (`page_longest`), and for a higher cost if that allows it
  (`Longest.iff_of_le`);
* `page_stops` — what does not fit into any page is never passed.
-/

namespace Lib

open List

variable {α : Type} (size : α → Nat) (limit : Nat)

/-- The page of a list, where `total` of the limit is used up already. -/
def page : Nat → List α → List α × Bool
  | _, [] => ([], true)
  | total, a :: rest =>
    if total + size a > limit then ([], false)
    else if total + size a < limit then
      (a :: (page (total + size a) rest).1, (page (total + size a) rest).2)
    else ([a], false)

variable {size limit}

theorem page_initial (size : α → Nat) (limit total : Nat) (l : List α) :
    (page size limit total l).1 <+: l := by
  induction l generalizing total with
  | nil => exact prefix_rfl
  | cons a rest ih =>
    unfold page
    split
    · exact nil_prefix
    split
    · exact cons_prefix_cons.mpr ⟨rfl, ih _⟩
    · exact cons_prefix_cons.mpr ⟨rfl, nil_prefix⟩

variable {total : Nat} {l : List α}

theorem page_complete (h : (page size limit total l).2 = true) :
    (page size limit total l).1 = l := by
  induction l generalizing total with
  | nil => rfl
  | cons a rest ih =>
    unfold page at h ⊢
    by_cases hOver : total + size a > limit
    · rw [if_pos hOver] at h
      cases h
    · rw [if_neg hOver] at h ⊢
      by_cases hUnder : total + size a < limit
      · rw [if_pos hUnder] at h ⊢
        exact congrArg (a :: ·) (ih h)
      · rw [if_neg hUnder] at h
        cases h

theorem page_of_lt (h : total + (l.map size).sum < limit) :
    page size limit total l = (l, true) := by
  induction l generalizing total with
  | nil => rfl
  | cons a rest ih =>
    rw [map_cons, sum_cons, ← Nat.add_assoc] at h
    unfold page
    rw [if_neg (by omega), if_pos (by omega), ih h]

/-- A page has seen the end and is all that was left, or it has some of the elements: as
long as each one fits, it makes progress. -/
theorem page_cases (hFit : ∀ a ∈ l, size a ≤ limit) :
    page size limit 0 l = (l, true) ∨
      ∃ m, 0 < m ∧ m ≤ l.length ∧ page size limit 0 l = (l.take m, false) := by
  cases hEnd : (page size limit 0 l).2 with
  | true => exact .inl (Prod.ext (page_complete hEnd) hEnd)
  | false =>
    have hInitial := page_initial size limit 0 l
    refine .inr ⟨(page size limit 0 l).1.length, ?_, hInitial.length_le,
      Prod.ext (prefix_iff_eq_take.mp hInitial) hEnd⟩
    cases l with
    | nil => cases hEnd
    | cons a rest =>
      have hFirst := hFit a (.head _)
      unfold page
      rw [Nat.zero_add, if_neg (Nat.not_lt.mpr hFirst)]
      split <;> exact Nat.succ_pos _

/-! ## The longest beginning -/

/-- The longest beginning of `l` that costs at most `limit`. -/
structure Longest (cost : List α → Nat) (limit : Nat) (l first : List α) : Prop where
  initial : first <+: l
  allowed : cost first ≤ limit
  longest (other : List α) : other <+: l → cost other ≤ limit → other <+: first

/-- Where a beginning is the longest for a cost, it is so for a higher one if and only if
that allows it. -/
theorem Longest.iff_of_le {cost cost' : List α → Nat} {first : List α}
    (h : Longest cost limit l first) (hLe : ∀ other, other <+: l → cost other ≤ cost' other) :
    Longest cost' limit l first ↔ cost' first ≤ limit := by
  constructor
  · exact fun h' => h'.allowed
  · intro hAllowed
    refine ⟨h.initial, hAllowed, fun other hOther hCost => ?_⟩
    exact h.longest other hOther ((hLe other hOther).trans hCost)

/-- All of the list, if and only if that is allowed. -/
theorem Longest.eq_iff {cost : List α → Nat} {first : List α} (h : Longest cost limit l first) :
    first = l ↔ cost l ≤ limit := by
  constructor
  · rintro rfl
    exact h.allowed
  · intro hAllowed
    exact h.initial.eq_of_length_le (h.longest l prefix_rfl hAllowed).length_le

theorem page_longest_from (hPos : ∀ a ∈ l, 0 < size a) (hTotal : total ≤ limit) :
    Longest (fun first => total + (first.map size).sum) limit l (page size limit total l).1 := by
  induction l generalizing total with
  | nil => exact ⟨prefix_rfl, hTotal, fun _ h _ => h⟩
  | cons a rest ih =>
    -- a beginning is empty, or it starts with `a`
    have hCases : ∀ other, other <+: a :: rest → ∀ first : List α,
        (∀ tail, tail <+: rest → total + ((a :: tail).map size).sum ≤ limit → a :: tail <+: first) →
        total + (other.map size).sum ≤ limit → other <+: first := by
      intro other hOther first hTail hCost
      cases other with
      | nil => exact nil_prefix
      | cons b tail =>
        obtain ⟨rfl, hPrefix⟩ := cons_prefix_cons.mp hOther
        exact hTail tail hPrefix hCost
    unfold page
    by_cases hOver : total + size a > limit
    · rw [if_pos hOver]
      refine ⟨ nil_prefix, hTotal, fun other hOther => hCases other hOther _ ?_⟩
      intro tail _ hCost
      rw [map_cons, sum_cons] at hCost
      omega
    rw [if_neg hOver]
    by_cases hUnder : total + size a < limit
    · rw [if_pos hUnder]
      have hRest := ih (fun b hb => hPos b (.tail _ hb)) (Nat.le_of_lt hUnder)
      refine ⟨cons_prefix_cons.mpr ⟨rfl, hRest.initial⟩, ?_, fun other hOther =>
        hCases other hOther _ ?_⟩
      · have hAllowed := hRest.allowed
        dsimp only at hAllowed ⊢
        rw [map_cons, sum_cons]
        omega
      · intro tail hTail hCost
        rw [map_cons, sum_cons, ← Nat.add_assoc] at hCost
        exact cons_prefix_cons.mpr ⟨rfl, hRest.longest tail hTail hCost⟩
    · rw [if_neg hUnder]
      refine ⟨cons_prefix_cons.mpr ⟨rfl, nil_prefix⟩, ?_, fun other hOther =>
        hCases other hOther _ ?_⟩
      · simp only [map_cons, map_nil, sum_cons, sum_nil]
        omega
      · -- the limit is reached, so that nothing can come after `a`
        intro tail hTail hCost
        cases tail with
        | nil => exact prefix_rfl
        | cons b tail =>
          have hb := hPos b (.tail _ (hTail.subset (.head _)))
          simp only [map_cons, sum_cons] at hCost
          omega

/-- A page is the longest beginning whose sizes add up to at most the limit. -/
theorem page_longest (hPos : ∀ a ∈ l, 0 < size a) :
    Longest (fun first => (first.map size).sum) limit l (page size limit 0 l).1 := by
  have h : Longest (fun first => 0 + (first.map size).sum) limit l (page size limit 0 l).1 :=
    page_longest_from hPos (Nat.zero_le limit)
  simpa only [Nat.zero_add] using h

/-- The end is seen if there is room left behind it, or if nothing comes before it. -/
theorem page_end_iff :
    (page size limit total l).2 = true ↔ l = [] ∨ total + (l.map size).sum < limit := by
  induction l generalizing total with
  | nil => exact iff_of_true rfl (.inl rfl)
  | cons a rest ih =>
    unfold page
    rw [or_iff_right (cons_ne_nil a rest), map_cons, sum_cons, ← Nat.add_assoc]
    by_cases hOver : total + size a > limit
    · rw [if_pos hOver]
      exact iff_of_false Bool.false_ne_true (by omega)
    rw [if_neg hOver]
    by_cases hUnder : total + size a < limit
    · rw [if_pos hUnder]
      dsimp only
      rw [ih]
      constructor
      · rintro (rfl | h)
        · exact hUnder
        · exact h
      · exact Or.inr
    · rw [if_neg hUnder]
      exact iff_of_false Bool.false_ne_true (by omega)

/-- No page goes past an element that is larger than the limit. -/
theorem page_stops (hPos : ∀ a ∈ l, 0 < size a) {j : Nat} {a : α} (hj : l[j]? = some a)
    (hLarge : limit < size a) : ∃ m ≤ j, page size limit 0 l = (l.take m, false) := by
  have hPage : Longest (fun first => (first.map size).sum) limit l (page size limit 0 l).1 :=
    page_longest hPos
  have hInitial := prefix_iff_eq_take.mp hPage.initial
  refine ⟨(page size limit 0 l).1.length, ?_, Prod.ext hInitial ?_⟩
  · by_contra hPast
    -- the page would hold the element
    have hMem : a ∈ (page size limit 0 l).1 := by
      rw [hInitial]
      exact mem_of_getElem? ((getElem?_take_of_lt (by omega)).trans hj)
    have hLe := le_sum_of_mem (mem_map_of_mem (f := size) hMem)
    have hAllowed : ((page size limit 0 l).1.map size).sum ≤ limit := hPage.allowed
    omega
  · have hMem := mem_of_getElem? hj
    have hLe := le_sum_of_mem (mem_map_of_mem (f := size) hMem)
    have hNotEnd : ¬ (page size limit 0 l).2 = true := by
      rw [page_end_iff]
      rintro (rfl | hRoom)
      · cases hMem
      · omega
    exact Bool.not_eq_true _ ▸ hNotEnd

end Lib

import Mathlib.Data.List.Basic

/-!
# First matches in lists

`modifyFirst p f l` applies `f` to the first element of `l` that satisfies `p`,
the way a linked list is searched and updated in place. It goes with
`List.find?` and `List.eraseP`, which read and drop that same element.

Where only one element satisfies `p`, the first match is all matches:
`not_of_mem_eraseP`, `mem_modifyFirst_of_count`.
-/

namespace Lib

open List

variable {α : Type}

def modifyFirst (p : α → Bool) (f : α → α) : List α → List α
  | [] => []
  | a :: l => if p a then f a :: l else a :: modifyFirst p f l

variable {p : α → Bool} {f : α → α} {l : List α} {b a : α}

/-- There is no match, or a first one. -/
theorem first_match (p : α → Bool) (l : List α) : (∀ a ∈ l, p a = false) ∨
    ∃ before a after, l = before ++ a :: after ∧ (∀ b ∈ before, p b = false) ∧ p a = true := by
  cases h : l.find? p with
  | none => exact .inl (by simpa using h)
  | some a =>
    obtain ⟨ha, before, after, hl, hBefore⟩ := find?_eq_some_iff_append.mp h
    exact .inr ⟨before, a, after, hl, by simpa using hBefore, ha⟩

theorem modifyFirst_of_not (h : ∀ a ∈ l, p a = false) (f : α → α) : modifyFirst p f l = l := by
  induction l with
  | nil => rfl
  | cons a l ih =>
    rw [forall_mem_cons] at h
    rw [modifyFirst, if_neg (by simp [h.1]), ih h.2]

/-- The list around the first match. -/
theorem modifyFirst_append {before : List α} (h : ∀ a ∈ before, p a = false) (ha : p a = true)
    (f : α → α) (after : List α) :
    modifyFirst p f (before ++ a :: after) = before ++ f a :: after := by
  induction before with
  | nil => exact if_pos ha
  | cons b before ih =>
    rw [forall_mem_cons] at h
    rw [cons_append, modifyFirst, if_neg (by simp [h.1]), ih h.2, cons_append]

/-- Every element of the updated list was there before, or is the image of the
first match. -/
theorem mem_modifyFirst (h : b ∈ modifyFirst p f l) : b ∈ l ∨ ∃ a ∈ l, p a ∧ b = f a := by
  rcases first_match p l with hNone | ⟨before, a, after, rfl, hBefore, ha⟩
  · rw [modifyFirst_of_not hNone] at h
    exact .inl h
  · rw [modifyFirst_append hBefore ha, mem_append, mem_cons] at h
    rcases h with h | rfl | h
    · exact .inl (by simp [h])
    · exact .inr ⟨a, by simp, ha, rfl⟩
    · exact .inl (by simp [h])

theorem mem_modifyFirst_of_not (h : b ∈ l) (hb : p b = false) : b ∈ modifyFirst p f l := by
  rcases first_match p l with hNone | ⟨before, a, after, rfl, hBefore, ha⟩
  · rwa [modifyFirst_of_not hNone]
  · simp only [modifyFirst_append hBefore ha, mem_append, mem_cons] at h ⊢
    rcases h with h | rfl | h
    · exact .inl h
    · cases ha.symm.trans hb
    · exact .inr (.inr h)

theorem mem_modifyFirst_self (h : l.find? p = some a) : f a ∈ modifyFirst p f l := by
  obtain ⟨ha, before, after, rfl, hBefore⟩ := find?_eq_some_iff_append.mp h
  rw [modifyFirst_append (by simpa using hBefore) ha]
  simp

/-- A change that `g` does not see. -/
theorem map_modifyFirst {β : Type} {g : α → β} (hg : ∀ a, g (f a) = g a) (l : List α) :
    (modifyFirst p f l).map g = l.map g := by
  rcases first_match p l with hNone | ⟨before, a, after, rfl, hBefore, ha⟩
  · rw [modifyFirst_of_not hNone]
  · simp [modifyFirst_append hBefore ha, hg]

theorem length_modifyFirst (p : α → Bool) (f : α → α) (l : List α) :
    (modifyFirst p f l).length = l.length := by
  rcases first_match p l with hNone | ⟨before, a, after, rfl, hBefore, ha⟩
  · rw [modifyFirst_of_not hNone]
  · simp [modifyFirst_append hBefore ha]

/-- A change that `q` does not see leaves the number of its matches. -/
theorem countP_modifyFirst {q : α → Bool} (hq : ∀ a, p a → q (f a) = q a) (l : List α) :
    (modifyFirst p f l).countP q = l.countP q := by
  rcases first_match p l with hNone | ⟨before, a, after, rfl, hBefore, ha⟩
  · rw [modifyFirst_of_not hNone]
  · simp [modifyFirst_append hBefore ha, countP_cons, hq a ha]

/-- A change that unmakes the match leaves one less. -/
theorem countP_modifyFirst_of_unmade (hf : ∀ a, p (f a) = false) (h : l.find? p = some a) :
    (modifyFirst p f l).countP p + 1 = l.countP p := by
  obtain ⟨ha, before, after, rfl, hBefore⟩ := find?_eq_some_iff_append.mp h
  rw [modifyFirst_append (by simpa using hBefore) ha]
  simp [ha, hf, Nat.add_assoc]

/-! Reading after writing. -/

theorem find?_modifyFirst_self (h : l.find? p = some a) (hf : p (f a)) :
    (modifyFirst p f l).find? p = some (f a) := by
  obtain ⟨ha, before, after, rfl, hBefore⟩ := find?_eq_some_iff_append.mp h
  rw [modifyFirst_append (by simpa using hBefore) ha]
  exact find?_eq_some_iff_append.mpr ⟨hf, before, after, rfl, hBefore⟩

/-- What `q` selects is not touched if `q` holds of no match, before or after. -/
theorem filter_modifyFirst {q : α → Bool} (hp : ∀ a, p a → q a = false)
    (hf : ∀ a, p a → q (f a) = false) (l : List α) : (modifyFirst p f l).filter q = l.filter q := by
  rcases first_match p l with hNone | ⟨before, a, after, rfl, hBefore, ha⟩
  · rw [modifyFirst_of_not hNone]
  · simp [modifyFirst_append hBefore ha, hp a ha, hf a ha]

/-! The only match. -/

/-- Behind the only match there is none. -/
theorem not_of_countP {before after : List α} (hCount : (before ++ a :: after).countP p ≤ 1)
    (ha : p a = true) (hb : b ∈ after) : p b = false := by
  have hZero : after.countP p = 0 := by
    rw [countP_append, countP_cons_of_pos ha] at hCount
    omega
  simpa using countP_eq_zero.mp hZero b hb

/-- Dropping the only match is dropping all matches. -/
theorem eraseP_eq_filter (hCount : l.countP p ≤ 1) : l.eraseP p = l.filter fun a => !p a := by
  rcases first_match p l with hNone | ⟨before, a, after, rfl, hBefore, ha⟩
  · rw [eraseP_of_forall_not (by simpa using hNone), filter_eq_self.mpr (by simpa using hNone)]
  · have hAfter : ∀ b ∈ after, p b = false := fun b hb => not_of_countP hCount ha hb
    rw [eraseP_append_right _ (by simpa using hBefore), eraseP_cons_of_pos ha,
      filter_append, filter_cons_of_neg (by simp [ha]),
      filter_eq_self.mpr (by simpa using hBefore), filter_eq_self.mpr (by simpa using hAfter)]

/-- After the only match was dropped, none is left. -/
theorem not_of_mem_eraseP (hCount : l.countP p ≤ 1) (h : b ∈ l.eraseP p) : b ∈ l ∧ p b = false := by
  rw [eraseP_eq_filter hCount, mem_filter] at h
  simpa using h

/-- After the only match was changed, every element is the changed one or does
not match. -/
theorem mem_modifyFirst_of_count (hCount : l.countP p ≤ 1) (h : b ∈ modifyFirst p f l) :
    (b ∈ l ∧ p b = false) ∨ ∃ a ∈ l, p a ∧ b = f a := by
  rcases first_match p l with hNone | ⟨before, a, after, rfl, hBefore, ha⟩
  · rw [modifyFirst_of_not hNone] at h
    exact .inl ⟨h, hNone b h⟩
  · rw [modifyFirst_append hBefore ha, mem_append, mem_cons] at h
    rcases h with h | rfl | h
    · exact .inl ⟨by simp [h], hBefore b h⟩
    · exact .inr ⟨a, by simp, ha, rfl⟩
    · exact .inl ⟨by simp [h], not_of_countP hCount ha h⟩

end Lib

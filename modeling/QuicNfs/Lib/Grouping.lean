import Mathlib.Data.List.Basic

/-!
# Cutting a sequence in two ways

A sequence is cut into *parts* (the reads of a stream) and into *wholes* (the
messages on it). The parts respect the wholes if no part reaches from one whole
into the next.

* `Groups` — the parts, grouped, are the wholes;
* `groups_of_within`, `groups_of_append`, `not_groups_of_across` — what follows
  for the first whole from where the first parts end;
* `cut_cases` — the three places where they can end.
-/

namespace Lib

open List

variable {α : Type}

/-- The parts can be grouped so that each group makes up one of the wholes. -/
def Groups (parts wholes : List (List α)) : Prop :=
  ∃ groups : List (List (List α)), groups.flatten = parts ∧ groups.map List.flatten = wholes

theorem groups_nil : Groups ([] : List (List α)) [] := ⟨[], rfl, rfl⟩

variable {parts : List (List α)}

/-- The first whole is made up by the first parts. -/
theorem groups_cons_iff {wholes : List (List α)} {whole : List α} :
    Groups parts (whole :: wholes) ↔
      ∃ group rest, group.flatten = whole ∧ parts = group ++ rest ∧ Groups rest wholes := by
  constructor
  · rintro ⟨groups, rfl, hWholes⟩
    cases groups with
    | nil => cases hWholes
    | cons group groups =>
      rw [map_cons, cons.injEq] at hWholes
      exact ⟨group, groups.flatten, hWholes.1, rfl, groups, rfl, hWholes.2⟩
  · rintro ⟨group, rest, rfl, rfl, groups, rfl, rfl⟩
    exact ⟨group :: groups, rfl, rfl⟩

theorem flatten_eq_nil (hParts : ∀ p ∈ parts, p ≠ []) (h : parts.flatten = []) : parts = [] := by
  cases parts with
  | nil => rfl
  | cons p parts => exact absurd (append_eq_nil_iff.mp h).1 (hParts p (by simp))

/-- Of two beginnings of the same parts, the one with fewer elements is the
beginning of the other. -/
theorem beginning_of_length_le {first second rest rest' : List (List α)}
    (hParts : ∀ p ∈ first, p ≠ []) (h : first ++ rest = second ++ rest')
    (hLength : first.flatten.length ≤ second.flatten.length) :
    ∃ more, second = first ++ more ∧ rest = more ++ rest' := by
  rcases append_eq_append_iff.mp h with ⟨more, hSecond, hRest⟩ | ⟨more, hFirst, hRest⟩
  · exact ⟨more, hSecond, hRest⟩
  · -- the first is the longer one, so what it has more is empty
    have hMore : more.flatten = [] := by
      rw [hFirst, flatten_append, length_append] at hLength
      exact length_eq_zero_iff.mp (by omega)
    have hNil : more = [] :=
      flatten_eq_nil (fun p hp => hParts p (by rw [hFirst]; exact mem_append_right _ hp)) hMore
    subst hNil
    refine ⟨[], ?_, ?_⟩
    · rw [hFirst, append_nil, append_nil]
    · exact hRest.symm

section First

variable {first rest wholes : List (List α)} {whole : List α}

/-- The first parts end within the first whole. -/
theorem groups_of_within (hParts : ∀ p ∈ first ++ rest, p ≠ []) :
    Groups (first ++ rest) ((first.flatten ++ whole) :: wholes) ↔
      Groups rest (whole :: wholes) := by
  rw [groups_cons_iff, groups_cons_iff]
  constructor
  · rintro ⟨group, others, hGroup, hSplit, hOthers⟩
    obtain ⟨more, rfl, hRest⟩ := beginning_of_length_le
      (fun p hp => hParts p (mem_append_left _ hp)) hSplit
      (by rw [hGroup, length_append]; omega)
    rw [flatten_append] at hGroup
    exact ⟨more, others, append_cancel_left hGroup, hRest, hOthers⟩
  · rintro ⟨group, others, rfl, rfl, hOthers⟩
    exact ⟨first ++ group, others, flatten_append, (append_assoc _ _ _).symm, hOthers⟩

/-- The first parts make up the first whole. -/
theorem groups_of_append (hParts : ∀ p ∈ first ++ rest, p ≠ []) (hFirst : first.flatten = whole) :
    Groups (first ++ rest) (whole :: wholes) ↔ Groups rest wholes := by
  rw [← hFirst, ← append_nil first.flatten, groups_of_within hParts, groups_cons_iff]
  constructor
  · rintro ⟨group, others, hGroup, rfl, hOthers⟩
    -- a group without elements has no parts
    have hNil : group = [] := flatten_eq_nil (fun p hp => hParts p
      (mem_append_right _ (mem_append_left _ hp))) hGroup
    subst hNil
    exact hOthers
  · intro hRest
    exact ⟨[], rest, rfl, rfl, hRest⟩

/-- The part after the first ones begins in the first whole and ends after it. -/
theorem not_groups_of_across {part beyond : List α} (hParts : ∀ p ∈ first ++ part :: rest, p ≠ [])
    (hPart : part = whole ++ beyond) (hWhole : whole ≠ []) (hBeyond : beyond ≠ []) :
    ¬Groups (first ++ part :: rest) ((first.flatten ++ whole) :: wholes) := by
  rw [groups_of_within hParts, groups_cons_iff]
  rintro ⟨group, others, hGroup, hSplit, -⟩
  cases group with
  | nil => exact hWhole hGroup.symm
  | cons p group =>
    rw [cons_append, cons.injEq] at hSplit
    -- the part is longer than the whole it would be in
    rw [← hSplit.1, hPart, flatten_cons, append_assoc] at hGroup
    have hLength := congrArg length hGroup
    have hPos := length_pos_iff.mpr hBeyond
    rw [length_append, length_append] at hLength
    omega

end First

/-- Wholes without elements do not matter. -/
theorem groups_filter_iff (hParts : ∀ p ∈ parts, p ≠ []) (wholes : List (List α)) :
    Groups parts (wholes.filter fun w => !w.isEmpty) ↔ Groups parts wholes := by
  induction wholes generalizing parts with
  | nil => rfl
  | cons whole wholes ih =>
    by_cases hWhole : whole = []
    · subst hWhole
      rw [filter_cons_of_neg (by simp), ih hParts]
      exact (@groups_of_append _ [] parts wholes [] hParts rfl).symm
    · rw [filter_cons_of_pos (by simpa using hWhole), groups_cons_iff, groups_cons_iff]
      constructor
      all_goals
        rintro ⟨group, rest, hGroup, rfl, hRest⟩
        have hOthers : ∀ p ∈ rest, p ≠ [] := fun p hp => hParts p (mem_append_right _ hp)
        refine ⟨group, rest, hGroup, rfl, ?_⟩
      · exact (ih hOthers).mp hRest
      · exact (ih hOthers).mpr hRest

/-- Parts of a sequence that begins with a whole end within it, or some of them
end where it ends, or one of them reaches across. -/
theorem cut_cases {whole rest after : List α} (h : parts.flatten ++ rest = whole ++ after) :
    (∃ left, left ≠ [] ∧ whole = parts.flatten ++ left ∧ rest = left ++ after) ∨
    (∃ first others, parts = first ++ others ∧ first.flatten = whole) ∨
    (∃ first part others within beyond, parts = first ++ part :: others ∧
      part = within ++ beyond ∧ whole = first.flatten ++ within ∧ within ≠ [] ∧ beyond ≠ []) := by
  induction parts generalizing whole with
  | nil =>
    by_cases hWhole : whole = []
    · exact .inr (.inl ⟨[], [], rfl, hWhole.symm⟩)
    · exact .inl ⟨whole, hWhole, rfl, h⟩
  | cons part parts ih =>
    by_cases hWhole : whole = []
    · exact .inr (.inl ⟨[], part :: parts, rfl, hWhole.symm⟩)
    rw [flatten_cons, append_assoc] at h
    rcases append_eq_append_iff.mp h with ⟨left, rfl, hLeft⟩ | ⟨beyond, rfl, hBeyond⟩
    · -- the part is in the whole
      rcases ih hLeft with ⟨left', hne, rfl, hRest⟩ | ⟨first, others, rfl, rfl⟩ |
        ⟨first, part', others, within, beyond, rfl, hPart, rfl, hWithin, hBeyond⟩
      · exact .inl ⟨left', hne, by rw [flatten_cons, append_assoc], hRest⟩
      · exact .inr (.inl ⟨part :: first, others, rfl, rfl⟩)
      · exact .inr (.inr ⟨part :: first, part', others, within, beyond, rfl, hPart,
          by rw [flatten_cons, append_assoc], hWithin, hBeyond⟩)
    -- the part reaches to the end of the whole, or beyond it
    · by_cases hNil : beyond = []
      · subst hNil
        exact .inr (.inl ⟨[whole], parts, by rw [append_nil]; rfl, by simp⟩)
      · exact .inr (.inr ⟨[], whole ++ beyond, parts, whole, beyond, rfl, rfl, rfl, hWhole, hNil⟩)

end Lib

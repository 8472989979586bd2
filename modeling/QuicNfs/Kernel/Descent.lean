import Mathlib.Data.List.Induction
import QuicNfs.Kernel.Places

/-!
# QuicNfs — paths that spell out the way

A path in the form `/a/b/c` whose components are directory entries one below
the other, without `.`, `..` or a symbolic link on the way, is the one spelling
of the way to an object through that name.

* `FileSystem.Spells` — `p` spells the way from the root to `i`;
* `Spells.lookup` — then `lstat` of `p` finds `i`;
* `Spells.unique` — a directory has one spelling;
* `Spells.extends`, `Spells.removed`, `Spells.renamed` — which spellings a
  change of names leaves right.
-/

namespace QuicNfs.Kernel

open List Option Tree

/-! ## Spelling -/

/-- A slash before every name. -/
def joinNames (cs : List Name) : Path := cs.flatMap fun c => slash :: c

theorem joinNames_concat (cs : List Name) (c : Name) :
    joinNames (cs ++ [c]) = joinNames cs ++ slash :: c := by
  simp [joinNames]

theorem joinNames_append (cs cs' : List Name) :
    joinNames (cs ++ cs') = joinNames cs ++ joinNames cs' := by
  simp [joinNames]

theorem components_cons_slash (p : Path) : components (slash :: p) = components p := by
  have h := components_join [] p
  simpa [components] using h

variable {cs : List Name} {d i : Ino}

/-- The names of a path built from names. -/
theorem components_joinNames (h : ∀ c ∈ cs, Plain c) : components (joinNames cs) = cs := by
  induction cs with
  | nil => rfl
  | cons c cs ih =>
    have hc := h c (by simp)
    have ih' := ih fun c hc => h c (mem_cons_of_mem _ hc)
    have hCons : joinNames (c :: cs) = slash :: (c ++ joinNames cs) := rfl
    rw [hCons, components_cons_slash]
    cases cs with
    | nil =>
      rw [show joinNames [] = [] from rfl, append_nil]
      exact hc.components_eq
    | cons d ds =>
      -- the rest starts with a slash of its own
      have hRest : joinNames (d :: ds) = slash :: (d ++ joinNames ds) := rfl
      rw [hRest, components_cons_slash] at ih'
      rw [hRest, components_join, ih', hc.components_eq]
      rfl

namespace Tree

/-- A descent in two parts. -/
theorem descend_append (t : Tree) (d : Ino) (cs cs' : List Name) :
    t.descend d (cs ++ cs') = (t.descend d cs).bind fun e => t.descend e cs' := by
  induction cs generalizing d with
  | nil => rfl
  | cons c cs ih =>
    rw [cons_append, descend, descend, bind_assoc]
    congr 1
    funext i
    exact ih i

variable {t : Tree}

theorem descend_concat {c : Name} :
    t.descend d (cs ++ [c]) = some i ↔ ∃ e, t.descend d cs = some e ∧ t.entry e c = some i := by
  rw [descend_append, bind_eq_some_iff]
  simp [descend]

/-- Names that are not lost lead where they led. -/
theorem descend_mono {t' : Tree} (h : ∀ e m j, t.entry e m = some j → t'.entry e m = some j)
    (hd : t.descend d cs = some i) : t'.descend d cs = some i := by
  induction cs generalizing d with
  | nil => exact hd
  | cons c cs ih =>
    obtain ⟨j, hj, hd⟩ := bind_eq_some_iff.mp hd
    exact bind_eq_some_iff.mpr ⟨j, h d c j hj, ih hd⟩

/-- Names lead where they led, or through a place that is not as it was. -/
theorem descend_cases {t' : Tree} {S : Ino → Name → Prop}
    (h : ∀ e m, ¬S e m → t'.entry e m = t.entry e m) (hd : t.descend d cs = some i) :
    t'.descend d cs = some i ∨ ∃ as n bs e j, cs = as ++ n :: bs ∧ t.descend d as = some e ∧
      t.entry e n = some j ∧ t.descend j bs = some i ∧ S e n := by
  induction cs generalizing d with
  | nil => exact Or.inl hd
  | cons c cs ih =>
    obtain ⟨j, hj, hd⟩ := bind_eq_some_iff.mp hd
    by_cases hS : S d c
    · exact Or.inr ⟨[], c, cs, d, j, rfl, rfl, hj, hd, hS⟩
    · rcases ih hd with hd' | ⟨as, n, bs, e, k, rfl, has, hk, hbs, hS⟩
      · exact Or.inl (bind_eq_some_iff.mpr ⟨j, (h d c hS).trans hj, hd'⟩)
      · exact Or.inr ⟨c :: as, n, bs, e, k, rfl, bind_eq_some_iff.mpr ⟨j, hj, has⟩, hk, hbs, hS⟩

/-- An object without entries is the end of the way. -/
theorem eq_nil_of_descend (hEmpty : ∀ m, t.entry d m = none) (h : t.descend d cs = some i) :
    cs = [] ∧ d = i := by
  cases cs with
  | nil => exact ⟨rfl, some.inj h⟩
  | cons c cs =>
    obtain ⟨j, hj, _⟩ := bind_eq_some_iff.mp h
    rw [hEmpty] at hj
    cases hj

end Tree

namespace FileSystem

variable {fs fs' : FileSystem}

/-- Only plain names are in directories. -/
theorem plain_of_descend (h : fs.descend d cs = some i) : ∀ c ∈ cs, Plain c := by
  induction cs generalizing d with
  | nil => simp
  | cons c cs ih =>
    obtain ⟨j, hj, h⟩ := bind_eq_some_iff.mp h
    intro c' hc'
    rcases mem_cons.mp hc' with rfl | hc'
    · exact (fs.wf.entry_valid hj).toPlain
    · exact ih h c' hc'

/-- Where names lead through entries, the walk ends with them, at the object. -/
theorem walk_of_descend (h : fs.descend d cs = some i) (hne : cs ≠ []) (last : Last) :
    (fs.isDir i ∧ ∃ e n, fs.walk false d last cs = .ok (.done (.dir i (.name e n)))) ∨
      (fs.isDir i = false ∧ ∃ e n, fs.walk false d last cs = .ok (.done (.leaf e n i))) := by
  induction cs generalizing d last with
  | nil => exact absurd rfl hne
  | cons c cs ih =>
    obtain ⟨j, hj, h⟩ := bind_eq_some_iff.mp h
    cases cs with
    | nil =>
      cases h
      by_cases hi : fs.isDir i
      · refine Or.inl ⟨hi, d, c, ?_⟩
        rw [walk_cons_down hj hi]
        rfl
      · have hi' : fs.isDir i = false := by simpa using hi
        exact Or.inr ⟨hi', d, c, walk_leaf hj hi' false last (by simp)⟩
    | cons c' cs =>
      -- what has entries is a directory
      obtain ⟨k, hk, _⟩ := bind_eq_some_iff.mp h
      rw [walk_cons_down hj (isDir_of_entry hk)]
      exact ih h (by simp) _

/-! ## Spelling the way to an object -/

/-- `p` spells the way from the root to `i`. -/
structure Spells (fs : FileSystem) (p : Path) (i : Ino) : Prop where
  spelled : p = joinNames (components p)
  ne_nil : components p ≠ []
  descend : fs.descend fs.root (components p) = some i
  length_lt : p.length < pathMax

instance (fs : FileSystem) (p : Path) (i : Ino) : Decidable (fs.Spells p i) :=
  decidable_of_iff (p = joinNames (components p) ∧ components p ≠ [] ∧
      fs.descend fs.root (components p) = some i ∧ p.length < pathMax)
    ⟨fun ⟨h₁, h₂, h₃, h₄⟩ => ⟨h₁, h₂, h₃, h₄⟩,
      fun h => ⟨h.spelled, h.ne_nil, h.descend, h.length_lt⟩⟩

/-- Every object below the root has such a path, if it is short enough. -/
theorem spells_joinNames (hne : cs ≠ []) (h : fs.descend fs.root cs = some i)
    (hLength : (joinNames cs).length < pathMax) : fs.Spells (joinNames cs) i := by
  have hcs := components_joinNames (plain_of_descend h)
  exact ⟨by rw [hcs], by rwa [hcs], by rwa [hcs], hLength⟩

variable {p q : Path} {n : Name} {k : Ino}

/-- A spelling ends in a name, which is not a slash. -/
theorem Spells.endsInSlash (h : fs.Spells p i) : endsInSlash p = false := by
  rcases eq_nil_or_concat' (components p) with hNil | ⟨cs, c, hcs⟩
  · exact absurd hNil h.ne_nil
  · have hPlain : Plain c := plain_of_descend h.descend c (by simp [hcs])
    rw [h.spelled, hcs, joinNames_concat]
    exact endsInSlash_join_plain _ hPlain

/-- Resolution finds what a path spells. -/
theorem Spells.lookup (h : fs.Spells p i) : fs.lookup false p = .ok i := by
  have hAbs : isAbsolute p = true := by
    obtain ⟨c, cs, hcs⟩ := exists_cons_of_ne_nil h.ne_nil
    rw [h.spelled, hcs]
    rfl
  have hNil : p ≠ [] := by
    rintro rfl
    cases hAbs
  -- the walk meets no symbolic link, so resolution ends with it
  have hNamei : ∀ f, fs.walk false fs.root .root (components p) = .ok (.done f) →
      fs.namei false p = .ok f := by
    intro f hf
    unfold namei
    rw [if_neg hNil, if_neg (by have := h.length_lt; omega)]
    have hStart : fs.start fs.cwd p = fs.root := by simp [start, hAbs]
    rw [hStart, maxLinks, resolve, hf]
    cases f <;> rfl
  unfold Tree.lookup
  rw [h.endsInSlash, Bool.or_false]
  rcases walk_of_descend h.descend h.ne_nil .root with ⟨_, e, n, hw⟩ | ⟨_, e, n, hw⟩
  · rw [hNamei _ hw]
  · rw [hNamei _ hw]
    rfl

/-- What a path spells the way to is one object. -/
theorem Spells.eq {j : Ino} (h : fs.Spells p i) (h' : fs.Spells p j) : i = j :=
  some.inj (h.descend.symm.trans h'.descend)

/-- A directory is reached through its one name. -/
theorem descend_unique {cs' : List Name} (hDir : fs.isDir i) (h : fs.descend fs.root cs = some i)
    (h' : fs.descend fs.root cs' = some i) : cs = cs' := by
  induction cs using reverseRecOn generalizing cs' i with
  | nil =>
    cases h
    rcases eq_nil_or_concat' cs' with rfl | ⟨bs, b, rfl⟩
    · rfl
    · obtain ⟨e, _, he⟩ := descend_concat.mp h'
      exact absurd he fs.wf.root_unnamed
  | append_singleton as a ih =>
    obtain ⟨e, has, he⟩ := descend_concat.mp h
    rcases eq_nil_or_concat' cs' with rfl | ⟨bs, b, rfl⟩
    · cases h'
      exact absurd he fs.wf.root_unnamed
    · obtain ⟨e', hbs, he'⟩ := descend_concat.mp h'
      obtain ⟨rfl, rfl⟩ := fs.wf.dir_unique he he' hDir
      rw [ih (isDir_of_entry he) has hbs]

/-- A directory has one such path. -/
theorem Spells.unique {p' : Path} (hDir : fs.isDir i) (h : fs.Spells p i) (h' : fs.Spells p' i) :
    p = p' := by
  rw [h.spelled, h'.spelled, descend_unique hDir h.descend h'.descend]

/-- An object that a path spells the way to exists. -/
theorem Spells.isSome (h : fs.Spells p i) : (fs.inode i).isSome := by
  obtain ⟨x, hx⟩ := isSome_of_lookup h.lookup
  simp [hx]

/-! ## One more name -/

/-- The spelling of a name in a directory. -/
theorem Spells.join (h : fs.Spells p d) (he : fs.entry d n = some i)
    (hLength : (p ++ slash :: n).length < pathMax) : fs.Spells (p ++ slash :: n) i := by
  have hEq : p ++ slash :: n = joinNames (components p ++ [n]) := by
    rw [joinNames_concat, ← h.spelled]
  rw [hEq] at hLength ⊢
  exact spells_joinNames (by simp) (descend_concat.mpr ⟨d, h.descend, he⟩) hLength

/-- A spelling with one more name goes through that name. -/
theorem Spells.entry_of_join (h : fs.Spells p d) (hn : Plain n)
    (hi : fs.Spells (p ++ slash :: n) i) : fs.entry d n = some i := by
  have hDescend := hi.descend
  rw [components_join_plain p hn] at hDescend
  obtain ⟨e, he, hei⟩ := descend_concat.mp hDescend
  cases he.symm.trans h.descend
  exact hei

/-- With a plain name behind it, the spelling of a directory spells whatever it
names. -/
theorem Spells.join_of_lookup (h : fs.Spells p d) (hDir : fs.isDir d) (hn : Plain n)
    (hi : fs.lookup false (p ++ slash :: n) = .ok i) : fs.Spells (p ++ slash :: n) i := by
  -- whatever is found there is found under the name `n` of `d`
  have hSlot : ∀ {f}, fs.namei false (p ++ slash :: n) = .ok f → f.slot = some (d, n) :=
    fun hf => slot_of_namei_join h.lookup hDir hn hf
  rcases lookup_ok hi with ⟨⟨last, hNamei⟩, _⟩ | ⟨_, _, d', n', hNamei, he⟩
  · rw [endsInSlash_join_plain p hn, Bool.or_false] at hNamei
    have hFound := found_of_namei hNamei
    cases last with
    | root | dot | dotdot => exact absurd (hSlot hNamei) (by simp [Found.slot])
    | name d' n' =>
      cases hSlot hNamei
      exact h.join hFound.2 (length_of_namei hNamei)
  · cases hSlot hNamei
    exact h.join he (length_of_namei hNamei)

/-! ## Changes of names -/

theorem Spells.sameNames (h : fs.Spells p i) (hNames : fs.SameNames fs') : fs'.Spells p i := by
  refine ⟨h.spelled, h.ne_nil, ?_, h.length_lt⟩
  rw [hNames.root]
  exact descend_mono (fun e m j he => (hNames.entry e m).trans he) h.descend

/-- A new name elsewhere does not matter. -/
theorem Spells.extends (h : fs.Spells p i) (hExtends : fs.Extends fs' d n k) : fs'.Spells p i := by
  refine ⟨h.spelled, h.ne_nil, ?_, h.length_lt⟩
  rw [hExtends.root]
  exact descend_mono (fun _ _ _ he => hExtends.entry_of_some he) h.descend

/-- The names before one that is in `d` are the spelling of `d`. -/
theorem Spells.eq_of_through (h : fs.Spells p i) (hq : fs.Spells q d) {as bs : List Name}
    {j : Ino} (hcs : components p = as ++ n :: bs) (has : fs.descend fs.root as = some d)
    (hj : fs.entry d n = some j) : p = q ++ slash :: n ++ joinNames bs := by
  have hEq : as = components q := descend_unique (isDir_of_entry hj) has hq.descend
  rw [h.spelled, hcs, hEq, ← singleton_append, ← append_assoc, joinNames_append,
    joinNames_concat, ← hq.spelled]

/-- **Removal** leaves every spelling right but the one of the removed name. -/
theorem Spells.removed (h : fs.Spells p i) (hRemoved : fs.Removed fs' d n k) (hq : fs.Spells q d)
    (hne : p ≠ q ++ slash :: n) : fs'.Spells p i := by
  refine ⟨h.spelled, h.ne_nil, ?_, h.length_lt⟩
  rw [hRemoved.root]
  have hSame : ∀ e m, ¬(e = d ∧ m = n) → fs'.entry e m = fs.entry e m := by
    intro e m hem
    rw [hRemoved.entry, if_neg hem]
  rcases descend_cases hSame h.descend with hd | ⟨as, m, bs, e, j, hcs, has, hj, hbs, rfl, rfl⟩
  · exact hd
  · -- the removed object had no entries, so the way ended with its name
    cases hRemoved.named.symm.trans hj
    obtain ⟨rfl, _⟩ := eq_nil_of_descend hRemoved.empty hbs
    have hEq := h.eq_of_through hq hcs has hj
    exact absurd (hEq.trans (append_nil _)) hne

/-- **Renaming** leaves every spelling right but those through the old name and
the one of the new name. -/
theorem Spells.renamed {q' : Path} {d' : Ino} {n' : Name} {target : Option Ino}
    (h : fs.Spells p i) (hRenamed : fs.Renamed fs' d n k d' n' target)
    (hTarget : fs.entry d' n' = target) (hq : fs.Spells q d) (hq' : fs.Spells q' d')
    (hOld : p ≠ q ++ slash :: n) (hBelow : ¬(q ++ slash :: n ++ [slash]) <+: p)
    (hNew : p ≠ q' ++ slash :: n') : fs'.Spells p i := by
  refine ⟨h.spelled, h.ne_nil, ?_, h.length_lt⟩
  rw [hRenamed.root]
  have hSame : ∀ e m, ¬(e = d ∧ m = n ∨ e = d' ∧ m = n') → fs'.entry e m = fs.entry e m := by
    intro e m hem
    rw [not_or] at hem
    rw [hRenamed.entry, if_neg hem.2, if_neg hem.1]
  rcases descend_cases hSame h.descend with
    hd | ⟨as, m, bs, e, j, hcs, has, hj, hbs, ⟨rfl, rfl⟩ | ⟨rfl, rfl⟩⟩
  · exact hd
  · have hEq := h.eq_of_through hq hcs has hj
    cases bs with
    | nil => exact absurd (hEq.trans (append_nil _)) hOld
    | cons b bs =>
      refine absurd ⟨b ++ joinNames bs, ?_⟩ hBelow
      rw [hEq, append_assoc]
      rfl
  · obtain ⟨rfl, _⟩ := eq_nil_of_descend (hRenamed.targetEmpty (hTarget.symm.trans hj)) hbs
    have hEq := h.eq_of_through hq' hcs has hj
    exact absurd (hEq.trans (append_nil _)) hNew

end FileSystem

end QuicNfs.Kernel

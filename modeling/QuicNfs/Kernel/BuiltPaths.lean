import QuicNfs.Kernel.Resolution

/-!
# QuicNfs — longer paths and larger trees

Resolution of a path that extends another one, of one path with and without
following a final symbolic link, and of one path in a tree and in the same
tree with one more name.

* `walk_append` / `resolve_append` — first the directory, then the rest;
* `namei_true_of_false` — only a final symbolic link makes a difference
  between following and not following;
* `Extends.namei_missing` — after a name was made, its path leads to it.
-/

namespace QuicNfs.Kernel

open List Tree

namespace FileSystem

variable {fs : FileSystem}

/-! ## One component -/

variable {c : Name} {target p : Path} {follow m : Bool} {cs : List Name} {last : Last} {e : Ino}
  {k : Nat}

/-- A step into a directory. -/
theorem walk_cons_down {d : Ino} {i : Ino} (he : fs.entry d c = some i) (hi : fs.isDir i)
    (follow : Bool) (last : Last) (rest : List Name) :
    fs.walk follow d last (c :: rest) = fs.walk follow i (.name d c) rest := by
  have hValid := fs.wf.entry_valid he
  rw [walk_cons_name (isDir_of_entry he) hValid.length_le hValid.ne_dot hValid.ne_dotdot]
  simp only [he, isDir_iff_kind.mp hi]

/-- A link stops the walk, unless it is last and not followed. -/
theorem walk_cons_link {d : Ino} {i : Ino} (he : fs.entry d c = some i)
    (hk : fs.kind i = some (.link target)) (follow : Bool) (last : Last) (rest : List Name)
    (hRest : rest ≠ [] ∨ follow = true) :
    fs.walk follow d last (c :: rest) = .ok (.link d target rest) := by
  have hValid := fs.wf.entry_valid he
  rw [walk_cons_name (isDir_of_entry he) hValid.length_le hValid.ne_dot hValid.ne_dotdot]
  simp only [he, hk]
  rw [if_neg]
  rintro ⟨h₁, h₂⟩
  rcases hRest with h | h
  · exact h h₁
  · cases h₂.symm.trans h

/-- The last component of a walk that leads to an object which is not a directory. -/
theorem walk_leaf {d : Ino} {i : Ino} (he : fs.entry d c = some i) (hi : fs.isDir i = false)
    (follow : Bool) (last : Last)
    (hLink : follow = true → ∀ target, fs.kind i ≠ some (.link target)) :
    fs.walk follow d last [c] = .ok (.done (.leaf d c i)) := by
  have hValid := fs.wf.entry_valid he
  rw [walk_cons_name (isDir_of_entry he) hValid.length_le hValid.ne_dot hValid.ne_dotdot]
  simp only [he]
  cases hk : fs.kind i with
  | none =>
    have := fs.wf.entry_exists he
    simp [kind, Option.isSome_iff_ne_none] at hk this
    exact absurd hk this
  | some k =>
    cases k with
    | dir => exact absurd (isDir_iff_kind.mpr hk) (by simp [hi])
    | link target =>
      cases follow with
      | true => exact absurd hk (hLink rfl target)
      | false => simp
    | other => simp

/-- How a directory was reached matters only where the walk stays in it. -/
theorem walk_last {d : Ino} (last last' : Last) (h : cs ≠ []) :
    fs.walk follow d last cs = fs.walk follow d last' cs := by
  cases cs with
  | nil => exact absurd rfl h
  | cons c rest => rfl

/-- A free name is reported only where no directory was asked for. -/
theorem settle_of_missing {d : Ino} {n : Name} {f : Found}
    (h : settle m (.missing d n) = .ok f) (r : Found) : settle m r = .ok r := by
  cases m with
  | true => cases h
  | false => cases r <;> rfl

/-! ## Longer paths -/

/-- A walk that ended in a directory goes on from there. -/
theorem walk_append {g : Bool} {d : Ino} {l : Last}
    (h : fs.walk g d last cs = .ok (.done (.dir e l))) (follow : Bool) (cs' : List Name) :
    fs.walk follow d last (cs ++ cs') = fs.walk follow e l cs' := by
  refine walk_induction (P := fun d last cs r => r = .done (.dir e l) →
    fs.walk follow d last (cs ++ cs') = fs.walk follow e l cs') ?_ ?_ ?_ ?_ ?_ ?_ ?_ h rfl
  · intro d last hEq
    cases hEq
    rfl
  · intro d last rest r hDir ih hEq
    rw [cons_append, walk_cons_dot hDir]
    exact ih hEq
  · intro d last p rest r hDir hp ih hEq
    rw [cons_append, walk_cons_dotdot hDir, hp]
    exact ih hEq
  · intro d last c i rest r _ he hi ih hEq
    rw [cons_append, walk_cons_down he hi]
    exact ih hEq
  · intro d last c _ _ _ _ _ hEq
    cases hEq
  · intro d last c i _ _ _ _ hEq
    cases hEq
  · intro d last c i target rest _ _ _ _ hEq
    cases hEq

/-- A walk that stopped at a symbolic link stops there on a longer path too. -/
theorem walk_link_append {g : Bool} {d : Ino} {dir : Ino} {rest : List Name}
    (h : fs.walk g d last cs = .ok (.link dir target rest)) (follow : Bool) {cs' : List Name}
    (hne : cs' ≠ []) :
    fs.walk follow d last (cs ++ cs') = .ok (.link dir target (rest ++ cs')) := by
  refine walk_induction (P := fun d last cs r => r = .link dir target rest →
    fs.walk follow d last (cs ++ cs') = .ok (.link dir target (rest ++ cs')))
    ?_ ?_ ?_ ?_ ?_ ?_ ?_ h rfl
  · intro d last hEq
    cases hEq
  · intro d last rest r hDir ih hEq
    rw [cons_append, walk_cons_dot hDir]
    exact ih hEq
  · intro d last p rest r hDir hp ih hEq
    rw [cons_append, walk_cons_dotdot hDir, hp]
    exact ih hEq
  · intro d last c i rest r _ he hi ih hEq
    rw [cons_append, walk_cons_down he hi]
    exact ih hEq
  · intro d last c _ _ _ _ _ hEq
    cases hEq
  · intro d last c i _ _ _ _ hEq
    cases hEq
  · intro d last c i t rest' _ he hk _ hEq
    cases hEq
    -- the link is not the end of the path any more
    exact walk_cons_link he hk follow last _ (Or.inl (by simp [hne]))

/-- Resolution of a longer path: the directory the first part names, through
whatever links, and from there a walk of the rest that meets none. -/
theorem resolve_append {d : Ino} {l : Last} (h : fs.resolve true k m d cs = .ok (.dir e l))
    {cs' : List Name} (hne : cs' ≠ []) {w : Except Errno Walk} (hw : fs.walk follow e .root cs' = w)
    (hNoLink : ∀ dir target rest, w ≠ .ok (.link dir target rest)) (m' : Bool)
    (next : Ino → Path → List Name → Except Errno Found) :
    fs.resolve follow k m' d (cs ++ cs') = conclude m' next w := by
  -- once the walk does not stop at a link, what would come next is not asked for
  have hEnd : ∀ next', conclude m' next' w = conclude m' next w := by
    intro next'
    match w, hNoLink with
    | .error _, _ => rfl
    | .ok (.done _), _ => rfl
    | .ok (.link dir target rest), h => exact absurd rfl (h dir target rest)
  revert m'
  refine resolve_induction (P := fun k _ d cs => ∀ m', (∀ next', conclude m' next' w =
    conclude m' next w) → fs.resolve follow k m' d (cs ++ cs') = conclude m' next w)
    ?_ ?_ h
  · intro k _ d cs hd _ m' hEnd
    have hEq : fs.walk follow d .root (cs ++ cs') = w := by
      rw [walk_append hd, walk_last l .root hne, hw]
    cases k <;> rw [resolve, hEq, hEnd]
  · intro k _ d cs dir target rest hd ih m' hEnd
    rw [resolve, walk_link_append hd follow hne]
    simp only [conclude]
    have hEmpty : (rest ++ cs').isEmpty = false := by simp [hne]
    rw [hEmpty, Bool.false_and, Bool.or_false, ← append_assoc]
    exact ih m' hEnd

/-! ## Following a final symbolic link or not -/

/-- No result of resolution is a symbolic link. -/
def NotLink (fs : FileSystem) (r : Except Errno Found) : Prop :=
  ∀ d n i target, r = .ok (.leaf d n i) → fs.kind i ≠ some (.link target)

/-- A walk that is not to follow a final symbolic link differs from one that is
only where there is one. -/
theorem walk_true_of_false {d : Ino}
    (hLeaf : ∀ d' n i target, fs.walk false d last cs = .ok (.done (.leaf d' n i)) →
      fs.kind i ≠ some (.link target)) : fs.walk true d last cs = fs.walk false d last cs := by
  induction cs generalizing d last with
  | nil => rfl
  | cons c rest ih =>
    by_cases hDir : fs.isDir d = false
    · simp only [walk, hDir, if_true]
    by_cases hLen : c.length > nameMax
    · simp only [walk, hLen, if_true]
    have hDir' : fs.isDir d := by simpa using hDir
    by_cases h₁ : c = dot
    · subst h₁
      rw [walk_cons_dot hDir'] at hLeaf
      rw [walk_cons_dot hDir', walk_cons_dot hDir', ih hLeaf]
    by_cases h₂ : c = dotdot
    · subst h₂
      rw [walk_cons_dotdot hDir'] at hLeaf
      rw [walk_cons_dotdot hDir', walk_cons_dotdot hDir']
      cases hp : fs.parentOf d with
      | none => rfl
      | some p =>
        rw [hp] at hLeaf
        exact ih hLeaf
    rw [walk_cons_name hDir' (by omega) h₁ h₂] at hLeaf
    rw [walk_cons_name hDir' (by omega) h₁ h₂, walk_cons_name hDir' (by omega) h₁ h₂]
    cases he : fs.entry d c with
    | none => rfl
    | some i =>
      simp only [he] at hLeaf ⊢
      cases hk : fs.kind i with
      | none => rfl
      | some k =>
        simp only [hk] at hLeaf ⊢
        cases k with
        | dir => exact ih hLeaf
        -- only at a last link could the two walks differ
        | link target =>
          by_cases hRest : rest = []
          · simp only [hRest, and_self, if_true] at hLeaf
            exact absurd hk (hLeaf d c i target rfl)
          · simp only [hRest, false_and, if_false]
        | other => rfl

/-- A link that a walk stops at without being told to follow is not the end of the path. -/
theorem rest_ne_nil_of_walk {d : Ino} {dir : Ino} {rest : List Name}
    (h : fs.walk false d last cs = .ok (.link dir target rest)) : rest ≠ [] := by
  refine walk_induction (P := fun _ _ _ r => r = .link dir target rest → rest ≠ [])
    ?_ ?_ ?_ ?_ ?_ ?_ ?_ h rfl
  · intro d last hEq
    cases hEq
  · exact fun d last rest r _ ih => ih
  · exact fun d last p rest r _ _ ih => ih
  · exact fun d last c i rest r _ _ _ ih => ih
  · intro d last c _ _ _ _ _ hEq
    cases hEq
  · intro d last c i _ _ _ _ hEq
    cases hEq
  · intro d last c i t rest' _ _ _ hEnd hEq
    cases hEq
    simpa using hEnd

/-- Following makes no difference where there is no link at the end. -/
theorem resolve_true_of_false {d : Ino} (hLeaf : fs.NotLink (fs.resolve false k false d cs)) :
    fs.resolve true k false d cs = fs.resolve false k false d cs := by
  -- a leaf that the walk ends at is the result
  have hWalk : ∀ {d cs} {next : Ino → Path → List Name → Except Errno Found},
      fs.NotLink (conclude false next (fs.walk false d .root cs)) →
      fs.walk true d .root cs = fs.walk false d .root cs := by
    intro d cs next h
    refine walk_true_of_false fun d' n i target hEq => h d' n i target ?_
    rw [hEq]
    rfl
  induction k generalizing d cs with
  | zero =>
    rw [resolve] at hLeaf ⊢
    rw [hWalk hLeaf, resolve]
  | succ k ih =>
    rw [resolve] at hLeaf ⊢
    rw [hWalk hLeaf, resolve]
    cases hw : fs.walk false d .root cs with
    | error e => rfl
    | ok r =>
      cases r with
      | done f => rfl
      | link dir target rest =>
        rw [hw] at hLeaf
        simp only [conclude] at hLeaf ⊢
        have hEmpty : rest.isEmpty = false := by simp [rest_ne_nil_of_walk hw]
        simp only [hEmpty, Bool.false_and, Bool.or_false] at hLeaf ⊢
        exact ih hLeaf

/-- Following makes a difference only for a path that names a symbolic link. -/
theorem namei_true_of_false (hLeaf : fs.NotLink (fs.namei false p)) :
    fs.namei true p = fs.namei false p := by
  unfold namei at hLeaf ⊢
  split
  · rfl
  · split
    · rfl
    · simp_all [resolve_true_of_false]

/-- What a path names, if not a symbolic link, it names for every call. -/
theorem lookup_true_of_false {i : Ino} (h : fs.lookup false p = .ok i)
    (hLink : ∀ target, fs.kind i ≠ some (.link target)) : fs.lookup true p = .ok i := by
  unfold Tree.lookup at h ⊢
  by_cases hSlash : endsInSlash p
  · simpa [hSlash] using h
  · simp only [hSlash, Bool.or_false] at h ⊢
    have hNot : fs.NotLink (fs.namei false p) := by
      intro d n j target hEq hk
      rw [hEq] at h
      cases h
      exact hLink target hk
    rw [namei_true_of_false hNot]
    exact h

/-! ## One more name -/

/-- `fs'` is `fs` with the name `n` in `d` for `i`, which is a new object or
another name for one that is not a directory. -/
structure Extends (fs fs' : FileSystem) (d : Ino) (n : Name) (i : Ino) : Prop where
  root : fs'.root = fs.root
  cwd : fs'.cwd = fs.cwd
  isDir : fs.isDir d
  free : fs.entry d n = none
  notDir : fs.isDir i = false
  entry (e : Ino) (m : Name) :
    fs'.entry e m = if e = d ∧ m = n then some i else fs.entry e m
  kind {j : Ino} : (fs.inode j).isSome → fs'.kind j = fs.kind j

namespace Extends

variable {fs' : FileSystem} {d : Ino} {n : Name} {i : Ino}
variable {j : Ino}

section

variable (h : fs.Extends fs' d n i)
include h

theorem isDir_of (hj : fs.isDir j) : fs'.isDir j := by
  obtain ⟨x, hx, _⟩ := isDir_iff.mp hj
  rw [isDir_iff_kind, h.kind (by simp [hx])]
  exact isDir_iff_kind.mp hj

/-- No name is lost. -/
theorem entry_of_some {m : Name} (he : fs.entry e m = some j) : fs'.entry e m = some j := by
  rw [h.entry, if_neg]
  · exact he
  · rintro ⟨rfl, rfl⟩
    cases h.free.symm.trans he

theorem kind_of_entry {m : Name} (he : fs.entry e m = some j) : fs'.kind j = fs.kind j :=
  h.kind (fs.wf.entry_exists he)

/-- A new name moves no directory. -/
theorem parentOf (he : fs.isDir e) : fs'.parentOf e = fs.parentOf e := by
  by_cases hRoot : e = fs.root
  · rw [hRoot, parentOf_root, ← h.root, parentOf_root]
  · refine Option.ext fun p => ?_
    rw [parentOf_eq_some he hRoot, parentOf_eq_some (h.isDir_of he) (by rwa [h.root])]
    refine exists_congr fun m => ?_
    constructor
    · intro hp
      rw [h.entry] at hp
      split at hp
      · -- the new name is not for a directory
        cases hp
        exact absurd he (by simp [h.notDir])
      · exact hp
    · exact h.entry_of_some

theorem isDir_eq_false {m : Name} (he : fs.entry e m = some j)
    (hj : fs.isDir j = false) : fs'.isDir j = false := by
  rw [← hj]
  exact isDir_eq_of_kind (h.kind_of_entry he)

/-- A walk that ended at the free name now ends at what it was given to; every
other walk is as before. -/
theorem walk {r : Walk} (hw : fs.walk follow e last cs = .ok r) :
    (r ≠ .done (.missing d n) → fs'.walk follow e last cs = .ok r) ∧
      (r = .done (.missing d n) → fs'.walk follow e last cs = fs'.walk follow d .root [n]) := by
  refine walk_induction (P := fun e last cs r =>
    (r ≠ .done (.missing d n) → fs'.walk follow e last cs = .ok r) ∧
      (r = .done (.missing d n) → fs'.walk follow e last cs = fs'.walk follow d .root [n]))
    ?_ ?_ ?_ ?_ ?_ ?_ ?_ hw
  · exact fun e last => ⟨fun _ => rfl, fun hEq => by cases hEq⟩
  · intro e last rest r he ih
    rw [walk_cons_dot (h.isDir_of he)]
    exact ih
  · intro e last p rest r he hp ih
    rw [walk_cons_dotdot (h.isDir_of he), h.parentOf he, hp]
    exact ih
  · intro e last c j rest r _ he hj ih
    rw [walk_cons_down (h.entry_of_some he) (h.isDir_of hj)]
    exact ih
  -- a name that was free: the new one, or one that still is
  · intro e last c he hLen hDot hDotdot hNone
    refine ⟨fun hne => ?_, fun hEq => ?_⟩
    · have hOther : ¬(e = d ∧ c = n) := by
        rintro ⟨rfl, rfl⟩
        exact hne rfl
      rw [walk_cons_name (h.isDir_of he) hLen hDot hDotdot, h.entry, if_neg hOther, hNone]
      rfl
    · cases hEq
      exact walk_last _ _ (by simp)
  · intro e last c j _ he hj hLink
    refine ⟨fun _ => walk_leaf (h.entry_of_some he) (h.isDir_eq_false he hj) follow last ?_,
      fun hEq => by cases hEq⟩
    intro hf target
    rw [h.kind_of_entry he]
    exact hLink hf target
  · intro e last c j target rest _ he hk hEnd
    refine ⟨fun _ => walk_cons_link (h.entry_of_some he) ?_ follow last rest hEnd,
      fun hEq => by cases hEq⟩
    rw [h.kind_of_entry he, hk]

/-- Resolution goes the same way up to the walk that ends it. -/
theorem namei_of_walk {r r' : Found} (hWalk : ∀ e cs, fs.walk follow e .root cs = .ok (.done r) →
      fs'.walk follow e .root cs = .ok (.done r'))
    (hSettle : ∀ m, settle m r = .ok r → settle m r' = .ok r')
    (hr : fs.namei follow p = .ok r) : fs'.namei follow p = .ok r' := by
  obtain ⟨hNil, hLength, hr⟩ := namei_eq_ok.mp hr
  refine namei_eq_ok.mpr ⟨hNil, hLength, ?_⟩
  simp only [start, h.root, h.cwd] at hr ⊢
  refine resolve_induction (P := fun k m e cs => fs'.resolve follow k m e cs = .ok r') ?_ ?_ hr
  · intro k m e cs hw hm
    cases k <;> rw [resolve, hWalk e cs hw] <;> exact hSettle m hm
  · intro k m e cs dir target rest hw ih
    rw [resolve, (h.walk hw).1 (by simp)]
    simp only [conclude, start, h.root] at ih ⊢
    exact ih

/-- The path of a name that was free leads to what was given that name. -/
theorem namei_missing {r : Found} (hNew : fs'.walk follow d .root [n] = .ok (.done r))
    (hr : fs.namei follow p = .ok (.missing d n)) : fs'.namei follow p = .ok r :=
  h.namei_of_walk (fun _ _ hw => ((h.walk hw).2 rfl).trans hNew)
    (fun _ hm => settle_of_missing hm r) hr

/-- A path that led elsewhere leads there still. -/
theorem namei_of_ok {r : Found} (hOther : r ≠ .missing d n)
    (hr : fs.namei follow p = .ok r) : fs'.namei follow p = .ok r :=
  h.namei_of_walk (fun _ _ hw => (h.walk hw).1 (by simpa using hOther)) (fun _ hm => hm) hr

/-- The new name leads to the object, unless that is a symbolic link to follow. -/
theorem lookup_missing
    (hLink : follow = true ∨ endsInSlash p = true → ∀ target, fs'.kind i ≠ some (.link target))
    (hSlash : endsInSlash p = true → fs'.isDir i)
    (hr : fs.namei (follow || endsInSlash p) p = .ok (.missing d n)) :
    fs'.lookup follow p = .ok i := by
  have he : fs'.entry d n = some i := by rw [h.entry, if_pos ⟨rfl, rfl⟩]
  unfold Tree.lookup
  by_cases hi : fs'.isDir i
  · have hNew : ∀ f, fs'.walk f d .root [n] = .ok (.done (.dir i (.name d n))) := by
      intro f
      rw [walk_cons_down he hi]
      rfl
    rw [h.namei_missing (hNew _) hr]
  · have hi' : fs'.isDir i = false := by simpa using hi
    have hNoSlash : endsInSlash p = false := by
      by_contra hs
      exact hi (hSlash (by simpa using hs))
    rw [h.namei_missing (walk_leaf he hi' _ .root fun hf => hLink (by simpa using hf)) hr]
    simp [hNoSlash]

/-- The path of a name that was given to an object which is not a symbolic link
leads to the object for every call. -/
theorem lookup_new (hLink : ∀ target, fs'.kind i ≠ some (.link target))
    (hSlash : endsInSlash p = true → fs'.isDir i) (hr : fs.namei false p = .ok (.missing d n))
    (follow : Bool) : fs'.lookup follow p = .ok i := by
  refine h.lookup_missing (fun _ => hLink) hSlash ?_
  cases hf : follow || endsInSlash p with
  | false => exact hr
  | true =>
    rw [namei_true_of_false, hr]
    intro d' n' j target hEq
    cases hr.symm.trans hEq

end

end Extends

end FileSystem

end QuicNfs.Kernel

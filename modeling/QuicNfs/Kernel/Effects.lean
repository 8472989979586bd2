import QuicNfs.Kernel.BuiltPaths
import QuicNfs.Kernel.Ownership
import QuicNfs.Kernel.Syscalls

/-!
# QuicNfs — what the system calls can do

One inversion lemma for each call that changes the file system: if it
succeeded, this is what the path named and this is the change. Everything that
is proved about a call later starts from its lemma here.

* `Created` — a fresh object of root's under a name that was free (`open`,
  `mkdir`, `symlink`);
* `Removed` — a name of a file or of an empty directory is gone (`unlink`,
  `rmdir`);
* `Renamed` — one name became another (`rename`);
* `chmod_ok`, `chown_ok`, `truncate_ok`, `utimes_ok` — changes of one object.
-/

namespace QuicNfs.Kernel

open Option Tree

namespace FileSystem

variable {fs fs' : FileSystem}

/-! ## New objects -/

/-- `fs'` is `fs` with a new object `i`, which is `x`, under the free name `n` of `d`. -/
structure Created (fs fs' : FileSystem) (d : Ino) (n : Name) (i : Ino) (x : Inode) : Prop where
  isDir : fs.isDir d
  free : fs.entry d n = none
  valid : ValidName n
  fresh : fs.inode i = none
  noEntries : x.content.entries = []
  owned : x.attr.uid = 0
  eq : ∃ now, fs' = fs.create d n i x now

variable {d i j d' : Ino} {n n' : Name} {x : Inode} {busy : List Ino} {now : Timespec} {host : Host}
  {p q : Path} {mode : Nat} {follow : Bool}

section

variable (h : fs.Created fs' d n i x)
include h

/-- One name more, and nothing else about names. -/
theorem Created.extends : fs.Extends fs' d n i := by
  obtain ⟨now, rfl⟩ := h.eq
  refine ⟨?_, ?_, h.isDir, h.free, (isDir_ne_root_of_none h.fresh).1, ?_, ?_⟩
  · unfold create; simp
  · unfold create; simp
  · exact entry_create h.isDir h.valid h.fresh h.noEntries now
  · intro j hj
    rw [kind_create h.fresh h.noEntries, if_neg]
    rintro rfl
    rw [h.fresh] at hj
    cases hj

theorem Created.kind_new : fs'.kind i = some x.content.kind := by
  obtain ⟨now, rfl⟩ := h.eq
  rw [kind_create h.fresh h.noEntries, if_pos rfl]

/-- The new object is the server's, which runs as root. -/
theorem Created.owner (j : Ino) :
    fs'.owner j = if j = i then some (0, x.attr.gid) else fs.owner j := by
  obtain ⟨now, rfl⟩ := h.eq
  rw [owner_create h.fresh h.noEntries, h.owned]

/-- The new object is not the directory it is in. -/
theorem Created.ne_dir : d ≠ i := by
  rintro rfl
  obtain ⟨y, hy, -⟩ := isDir_iff.mp h.isDir
  rw [h.fresh] at hy
  cases hy

theorem Created.inode_new : fs'.inode i = some x := by
  obtain ⟨now, rfl⟩ := h.eq
  unfold create
  rw [only_bind _ d n i now i (by simpa using Ne.symm h.ne_dir),
    inode_alloc h.fresh h.noEntries, if_pos rfl]

theorem Created.only : fs.Only fs' [d, i] := by
  obtain ⟨now, rfl⟩ := h.eq
  exact only_create h.fresh h.noEntries d n now

end

/-- What `open`, `mkdir` and `symlink` have in common. -/
theorem make_ok {c : Content} {perm : Nat} (hFound : fs.FoundIn (.missing d n))
    (hEmpty : c.entries = []) (h : fs.make busy d n i c perm now = .ok fs') :
    i ∉ busy ∧ ∃ x, x.content = c ∧ fs.Created fs' d n i x := by
  unfold make at h
  split at h
  · cases h
  · next hFree =>
    rw [not_or] at hFree
    have hNone : fs.inode i = none := by simpa using hFree.1
    refine ⟨hFree.2, fs.newInode d c perm now, rfl,
      ⟨hFound.1, hFound.2.1, hFound.2.2, hNone, hEmpty, rfl, now, ?_⟩⟩
    exact (Except.ok.inj h).symm

/-- An existing file is opened, or a new one is made. -/
theorem openCreat_ok (h : fs.openCreat host busy p mode i now = .ok fs') :
    endsInSlash p = false ∧ ((fs' = fs ∧ ∃ d n j, fs.namei true p = .ok (.leaf d n j)) ∨
      ∃ d n x, x.content = .regular [] ∧ fs.namei true p = .ok (.missing d n) ∧
        fs.Created fs' d n i x) := by
  unfold openCreat at h
  split at h
  · cases h
  · cases h
  · next d n j hn =>
    split at h
    · cases h
    · next hSlash =>
      exact ⟨by simpa using hSlash, Or.inl ⟨(Except.ok.inj h).symm, d, n, j, hn⟩⟩
  · next d n hn =>
    split at h
    · cases h
    · next hSlash =>
      obtain ⟨_, x, hx, hCreated⟩ := make_ok (found_of_namei hn) rfl h
      exact ⟨by simpa using hSlash, Or.inr ⟨d, n, x, hx, hn, hCreated⟩⟩

theorem mkdir_ok (h : fs.mkdir host busy p mode i now = .ok fs') :
    ∃ d n x, x.content = .directory ∅ ∧ fs.namei false p = .ok (.missing d n) ∧
      fs.Created fs' d n i x := by
  unfold mkdir at h
  split at h
  · cases h
  · cases h
  · cases h
  · next d n hn =>
    obtain ⟨_, x, hx, hCreated⟩ := make_ok (found_of_namei hn) rfl h
    exact ⟨d, n, x, hx, hn, hCreated⟩

theorem symlink_ok {target : Path} (h : fs.symlink busy target p i now = .ok fs') :
    endsInSlash p = false ∧ ∃ d n x, x.content = .symlink target ∧
      fs.namei false p = .ok (.missing d n) ∧ fs.Created fs' d n i x := by
  unfold symlink at h
  split at h
  · cases h
  split at h
  · cases h
  split at h
  · cases h
  · cases h
  · cases h
  · next d n hn =>
    split at h
    · cases h
    · next hSlash =>
      obtain ⟨_, x, hx, hCreated⟩ := make_ok (found_of_namei hn) rfl h
      exact ⟨by simpa using hSlash, d, n, x, hx, hn, hCreated⟩

/-! ## Names -/

/-- A path ends at a directory, or at a name in one. -/
theorem lookup_ok (h : fs.lookup follow p = .ok i) :
    ((∃ last, fs.namei (follow || endsInSlash p) p = .ok (.dir i last)) ∧ fs.isDir i) ∨
      (endsInSlash p = false ∧ fs.isDir i = false ∧
        ∃ d n, fs.namei follow p = .ok (.leaf d n i) ∧ fs.entry d n = some i) := by
  unfold lookup at h
  split at h
  · cases h
  · next j last hn =>
    have hFound := found_of_namei hn
    cases h
    refine Or.inl ⟨⟨last, hn⟩, ?_⟩
    cases last with
    | name d n => exact hFound.1
    | root | dot | dotdot => exact hFound
  · next d n j hn =>
    split at h
    · cases h
    · next hSlash =>
      cases h
      have hFound := found_of_namei hn
      -- a path that ends in a slash leads to a directory only
      have hSlash' : endsInSlash p = false := by simpa using hSlash
      rw [hSlash', Bool.or_false] at hn
      exact Or.inr ⟨hSlash', hFound.2, d, n, hn, hFound.1⟩
  · cases h

/-- `link` gives a file that is not a directory a free name. -/
theorem linkPath_ok (h : fs.linkPath p q now = .ok fs') :
    ∃ i d n, fs.lookup false p = .ok i ∧ fs.isDir i = false ∧ endsInSlash q = false ∧
      fs.namei false q = .ok (.missing d n) ∧ fs.Extends fs' d n i ∧ fs.SameOwners fs' ∧
      fs.Only fs' [d, i] := by
  unfold linkPath at h
  split at h
  · cases h
  next i hl =>
  split at h
  · cases h
  · cases h
  · cases h
  next d n hn =>
  split at h
  · cases h
  split at h
  · cases h
  next hSlash hDir =>
  obtain ⟨hd, hFree, hValid⟩ := found_of_namei hn
  -- what a path leads to exists, so that it can get a second name
  have hi : fs.isDir i = false := by simpa using hDir
  have hSome : (fs.inode i).isSome := by
    rcases lookup_ok hl with ⟨_, h'⟩ | ⟨_, _, d', n', _, he⟩
    · exact absurd h' (by simp [hi])
    · exact fs.wf.entry_exists he
  have hBind := bindable_of_not_dir hd hValid hSome hi
  cases h
  refine ⟨i, d, n, hl, hi, by simpa using hSlash, hn, ?_, sameOwners_link fs d n i now,
    only_link fs d n i now⟩
  exact ⟨by unfold link; simp, by unfold link; simp, hd, hFree, hi, entry_link hBind now,
    fun _ => kind_link fs d n i now _⟩

/-- `fs'` is `fs` without the name `n` of `d`, which was `i`, an object without
entries; the object is gone too if that was its last name. -/
structure Removed (fs fs' : FileSystem) (d : Ino) (n : Name) (i : Ino) : Prop where
  root : fs'.root = fs.root
  cwd : fs'.cwd = fs.cwd
  named : fs.entry d n = some i
  empty (m : Name) : fs.entry i m = none
  entry (e : Ino) (m : Name) :
    fs'.entry e m = if e = d ∧ m = n then none else fs.entry e m
  kind {j : Ino} : j ≠ i → fs'.kind j = fs.kind j
  owners : fs.KeepsOwners fs'
  only : fs.Only fs' [d, i]

theorem removed_remove (he : fs.entry d n = some i) (hEmpty : ∀ m, fs.entry i m = none)
    (now : Timespec) : fs.Removed (fs.remove d n now) d n i := by
  refine ⟨?_, ?_, he, hEmpty, entry_remove he hEmpty now, kind_remove he now,
    keepsOwners_remove fs d n now, only_remove he now⟩
  · unfold remove; split <;> simp
  · unfold remove; split <;> simp

/-- An object without entries: every entry of it is missing. -/
theorem entry_eq_none_of_not_dir (h : fs.isDir i = false) (m : Name) : fs.entry i m = none := by
  rw [eq_none_iff_forall_not_mem]
  intro j hj
  exact absurd (isDir_of_entry hj) (by simp [h])

theorem unlink_ok (h : fs.unlink p now = .ok fs') :
    ∃ d n i, endsInSlash p = false ∧ fs.namei false p = .ok (.leaf d n i) ∧
      fs.isDir i = false ∧ fs.Removed fs' d n i := by
  unfold unlink at h
  split at h
  · cases h
  · cases h
  · cases h
  · next d n i hn =>
    split at h
    · cases h
    · next hSlash =>
      obtain ⟨he, hi⟩ := found_of_namei hn
      cases h
      exact ⟨d, n, i, by simpa using hSlash, hn, hi,
        removed_remove he (entry_eq_none_of_not_dir hi) now⟩

/-- An empty directory has no entry. -/
theorem entry_eq_none_of_isEmptyDir (h : fs.isEmptyDir i) (m : Name) : fs.entry i m = none := by
  unfold isEmptyDir at h
  obtain ⟨c, hc, hEmpty⟩ := (any_eq_true _ _).mp h
  rw [Bool.and_eq_true] at hEmpty
  obtain ⟨x, hx, rfl⟩ := map_eq_some_iff.mp hc
  rw [eq_none_iff_forall_not_mem]
  intro j hj
  obtain ⟨y, hy, he⟩ := entry_eq_some.mp hj
  rw [hx] at hy
  cases hy
  have hMem := Content.mem_entries.mpr he
  rw [List.isEmpty_iff.mp hEmpty.2] at hMem
  cases hMem

theorem rmdir_ok (h : fs.rmdir p now = .ok fs') :
    ∃ d n i, fs.namei false p = .ok (.dir i (.name d n)) ∧ fs.isDir i ∧ fs.Removed fs' d n i := by
  unfold rmdir at h
  split at h
  · cases h
  · cases h
  · cases h
  · cases h
  · next i d n hn =>
    split at h
    · next hEmpty =>
      obtain ⟨hi, he⟩ := found_of_namei hn
      cases h
      exact ⟨d, n, i, hn, hi, removed_remove he (entry_eq_none_of_isEmptyDir hEmpty) now⟩
    · cases h
  · cases h
  · cases h

/-- `rename` moved a named object: the place it went to was free, or held an
object that it could replace, or held the object itself. -/
theorem rename_ok (h : fs.rename p q now = .ok fs') :
    ∃ d n i d' n' target, (fs.namei false p).bind Found.source = .ok (d, n, i) ∧
      (fs.namei false q).bind Found.place = .ok (d', n', target) ∧
      (fs.isDir i = false ∧ (endsInSlash p ∨ endsInSlash q) → False) ∧
      fs.renameEntry d n i d' n' target now = .ok fs' := by
  unfold rename at h
  split at h
  · cases h
  · cases h
  · next d n i d' n' target hs ht =>
    split at h
    · cases h
    · next hSlash => exact ⟨d, n, i, d', n', target, hs, ht, hSlash, h⟩

/-- What is renamed has a name. -/
theorem source_ok (h : (fs.namei false p).bind Found.source = .ok (d, n, i)) :
    (fs.namei false p = .ok (.dir i (.name d n)) ∨ fs.namei false p = .ok (.leaf d n i)) ∧
      fs.entry d n = some i := by
  cases hn : fs.namei false p with
  | error e => rw [hn] at h; cases h
  | ok f =>
    rw [hn] at h
    have hFound := found_of_namei hn
    cases f with
    | missing d' n' => cases h
    | leaf d' n' i' =>
      simp only [Except.bind, Found.source, Except.ok.injEq, Prod.mk.injEq] at h
      obtain ⟨rfl, rfl, rfl⟩ := h
      exact ⟨Or.inr rfl, hFound.1⟩
    | dir i' last =>
      cases last with
      | root | dot | dotdot => cases h
      | name d' n' =>
        simp only [Except.bind, Found.source, Except.ok.injEq, Prod.mk.injEq] at h
        obtain ⟨rfl, rfl, rfl⟩ := h
        exact ⟨Or.inl rfl, hFound.2⟩

/-- The place of the new name: free, or with an object that is replaced. -/
theorem place_ok {target : Option Ino}
    (h : (fs.namei false q).bind Found.place = .ok (d, n, target)) :
    (target = none ∧ fs.namei false q = .ok (.missing d n) ∨
      ∃ j, target = some j ∧ (fs.namei false q = .ok (.dir j (.name d n)) ∨
        fs.namei false q = .ok (.leaf d n j))) ∧
      fs.isDir d ∧ fs.entry d n = target ∧ ValidName n := by
  cases hn : fs.namei false q with
  | error e => rw [hn] at h; cases h
  | ok f =>
    rw [hn] at h
    have hFound := found_of_namei hn
    cases f with
    | missing d' n' =>
      simp only [Except.bind, Found.place, Except.ok.injEq, Prod.mk.injEq] at h
      obtain ⟨rfl, rfl, rfl⟩ := h
      exact ⟨Or.inl ⟨rfl, rfl⟩, hFound⟩
    | leaf d' n' j =>
      simp only [Except.bind, Found.place, Except.ok.injEq, Prod.mk.injEq] at h
      obtain ⟨rfl, rfl, rfl⟩ := h
      exact ⟨Or.inr ⟨j, rfl, Or.inr rfl⟩, isDir_of_entry hFound.1, hFound.1,
        fs.wf.entry_valid hFound.1⟩
    | dir j last =>
      cases last with
      | root | dot | dotdot => cases h
      | name d' n' =>
        simp only [Except.bind, Found.place, Except.ok.injEq, Prod.mk.injEq] at h
        obtain ⟨rfl, rfl, rfl⟩ := h
        exact ⟨Or.inr ⟨j, rfl, Or.inl rfl⟩, isDir_of_entry hFound.2, hFound.2,
          fs.wf.entry_valid hFound.2⟩

/-- `fs'` is `fs` with the name `n` of `d`, which is `i`, turned into the name
`n'` of `d'`, where `target` was. -/
structure Renamed (fs fs' : FileSystem) (d : Ino) (n : Name) (i d' : Ino) (n' : Name)
    (target : Option Ino) : Prop where
  root : fs'.root = fs.root
  cwd : fs'.cwd = fs.cwd
  entry (e : Ino) (m : Name) :
    fs'.entry e m = if e = d' ∧ m = n' then some i else if e = d ∧ m = n then none else fs.entry e m
  kind {j : Ino} : target ≠ some j → fs'.kind j = fs.kind j
  targetEmpty {j : Ino} : target = some j → ∀ m, fs.entry j m = none
  owners : fs.KeepsOwners fs'
  only : fs.Only fs' ([d, i, d'] ++ target.toList)

/-- An object that may be replaced has no entries. -/
theorem replaces_ok {b : Bool} (h : fs.replaces i d j = .ok b) :
    b = false ∧ i = j ∨ b = true ∧ i ≠ j ∧ ∀ m, fs.entry j m = none := by
  unfold replaces at h
  split at h
  · cases h
  split at h
  · next hEq =>
    cases h
    exact .inl ⟨rfl, hEq⟩
  split at h
  · cases h
  split at h
  · cases h
  split at h
  · cases h
  next _ hne _ _ hEmpty =>
  cases h
  -- a directory has passed the test for entries, and a file has none
  refine .inr ⟨rfl, hne, fun m => ?_⟩
  by_cases hj : fs.isDir j
  · exact entry_eq_none_of_isEmptyDir (by simpa [hj] using hEmpty) m
  · exact entry_eq_none_of_not_dir (by simpa using hj) m

theorem renamed_move (he : fs.entry d n = some i) (hDir : fs.isDir d') (hName : ValidName n')
    (now : Timespec) : fs.Renamed (fs.move d n d' n' now) d n i d' n' none := by
  refine ⟨?_, ?_, entry_move he hDir hName now, fun _ => kind_move fs d n d' n' now _,
    fun h => absurd h (by simp), (sameOwners_move fs d n d' n' now).keepsOwners,
    (only_move he d' n' now).mono (by simp)⟩
  · unfold move; split <;> simp
  · unfold move; split <;> simp

/-- The object in the way goes first. -/
theorem renamed_remove_move (he : fs.entry d n = some i) (hName : ValidName n')
    (hTarget : fs.entry d' n' = some j) (hne : i ≠ j) (hEmpty : ∀ m, fs.entry j m = none)
    (now : Timespec) :
    fs.Renamed ((fs.remove d' n' now).move d n d' n' now) d n i d' n' (some j) := by
  have hRemove := entry_remove hTarget hEmpty now
  -- the directory that holds the target is not the target, which holds nothing
  have hd' : d' ≠ j := by
    rintro rfl
    rw [hEmpty] at hTarget
    cases hTarget
  have hOther : ¬(d = d' ∧ n = n') := by
    rintro ⟨rfl, rfl⟩
    rw [he] at hTarget
    exact hne (some.inj hTarget)
  have he' : (fs.remove d' n' now).entry d n = some i := by rw [hRemove, if_neg hOther, he]
  have hDir' : (fs.remove d' n' now).isDir d' := by
    rw [isDir_eq_of_kind (kind_remove hTarget now hd')]
    exact isDir_of_entry hTarget
  have hMove := renamed_move he' hDir' hName now
  refine ⟨hMove.root.trans ?_, hMove.cwd.trans ?_, fun e m => ?_, fun hk => ?_, fun hj => ?_,
    (keepsOwners_remove fs d' n' now).trans_same (sameOwners_move _ d n d' n' now),
    ((only_remove hTarget now).mono (by simp)).trans ((only_move he' d' n' now).mono (by simp))⟩
  · unfold remove; split <;> simp
  · unfold remove; split <;> simp
  · rw [hMove.entry, hRemove]
    by_cases h₁ : e = d' ∧ m = n'
    · simp only [h₁, and_self, if_true]
    · simp only [h₁, if_false]
  · rw [hMove.kind (by simp), kind_remove hTarget now fun h => hk (congrArg some h.symm)]
  · cases hj
    exact hEmpty

/-- What a successful rename did to the tree: nothing, if source and target are
the same object; otherwise the one name became the other. -/
theorem renameEntry_ok {target : Option Ino} (he : fs.entry d n = some i) (hDir : fs.isDir d')
    (hName : ValidName n') (hTarget : fs.entry d' n' = target)
    (h : fs.renameEntry d n i d' n' target now = .ok fs') :
    (fs.isDir i → i ∉ fs.ancestors d') ∧
      ((target = some i ∧ fs' = fs) ∨ (target ≠ some i ∧ fs.Renamed fs' d n i d' n' target)) := by
  unfold renameEntry at h
  split at h
  · cases h
  next hAnc =>
  refine ⟨fun hi hMem => hAnc ⟨hi, hMem⟩, ?_⟩
  cases target with
  | none =>
    cases Except.ok.inj h
    exact Or.inr ⟨by simp, renamed_move he hDir hName now⟩
  | some j =>
    dsimp only at h
    split at h
    · cases h
    -- two names of one object: rename(2) leaves both
    · next hr =>
      cases h
      obtain ⟨⟨⟩, rfl⟩ | ⟨⟨⟩, _⟩ := replaces_ok hr
      exact Or.inl ⟨rfl, rfl⟩
    · next hr =>
      cases h
      obtain ⟨⟨⟩, _⟩ | ⟨_, hne, hEmpty⟩ := replaces_ok hr
      exact Or.inr ⟨fun hEq => hne (some.inj hEq).symm,
        renamed_remove_move he hName hTarget hne hEmpty now⟩

/-! ## One object -/

theorem chmod_ok (h : fs.chmod p mode now = .ok fs') :
    ∃ i, fs.lookup true p = .ok i ∧ fs.Touched fs' i ∧ fs.SameOwners fs' := by
  unfold chmod at h
  split at h
  · cases h
  · next i hl =>
    cases h
    exact ⟨i, hl, touched_setAttr fs i _, sameOwners_setAttr i fun _ => ⟨rfl, rfl⟩⟩

/-- The owner and group `chown` sets. -/
def newOwner (uid gid : Nat) (o : Nat × Nat) : Nat × Nat :=
  (if uid = unchanged32 then o.1 else uid, if gid = unchanged32 then o.2 else gid)

/-- `chown` alone changes an owner. -/
theorem chown_ok {uid gid : Nat} (h : fs.chown p uid gid now = .ok fs') :
    ∃ i, fs.lookup true p = .ok i ∧ fs.Touched fs' i ∧
      ∀ j, fs'.owner j = if j = i then (fs.owner j).map (newOwner uid gid) else fs.owner j := by
  unfold chown at h
  split at h
  · cases h
  · next i hl =>
    cases h
    refine ⟨i, hl, touched_setAttr fs i _, fun j => ?_⟩
    rw [owner_setAttr]
    split
    · unfold owner
      rw [map_map]
      rfl
    · rfl

theorem truncate_ok {size : Nat} (h : fs.truncate p size now = .ok fs') :
    ∃ i, fs.lookup true p = .ok i ∧ fs.Touched fs' i ∧ fs.SameOwners fs' := by
  unfold truncate at h
  split at h
  · cases h
  split at h
  · cases h
  · next i hl =>
    split at h
    · cases h
      refine ⟨i, hl, (touched_setData fs i _).trans (touched_setAttr _ i _),
        (sameOwners_setData fs i _).trans (sameOwners_setAttr i fun a => ?_)⟩
      split <;> exact ⟨rfl, rfl⟩
    · cases h
    · cases h

theorem utimes_ok {atime mtime : TimeVal} (h : fs.utimes p atime mtime now = .ok fs') :
    ∃ i, fs.lookup true p = .ok i ∧ fs.Touched fs' i ∧ fs.SameOwners fs' := by
  unfold utimes at h
  split at h
  · cases h
  · next i hl =>
    split at h
    · cases h
    · cases h
      exact ⟨i, hl, touched_setAttr fs i _, sameOwners_setAttr i fun _ => ⟨rfl, rfl⟩⟩

theorem touched_write (fs : FileSystem) (i : Ino) (offset : Nat) (data : Bytes) (now : Timespec) :
    fs.Touched (fs.write i offset data now) i ∧ fs.SameOwners (fs.write i offset data now) := by
  unfold write
  split
  · exact ⟨Touched.refl fs i, fun _ => rfl⟩
  · exact ⟨(touched_setData fs i _).trans (touched_setAttr _ i _),
      (sameOwners_setData fs i _).trans (sameOwners_setAttr i fun _ => ⟨rfl, rfl⟩)⟩

theorem fopen_ok {update : Bool} (h : fs.fopen p update = .ok i) : fs.lookup true p = .ok i := by
  unfold fopen at h
  split at h
  · cases h
  · next j hl =>
    split at h
    · cases h
    · exact hl.trans h

theorem opendir_ok (h : fs.opendir p = .ok d) : fs.lookup true p = .ok d := by
  unfold opendir at h
  split at h
  · cases h
  · next j hl =>
    split at h
    · exact hl.trans h
    · cases h

/-! ## Reading attributes -/

/-- What `lstat` reports is the object the path names, unless that cannot be
reached. -/
theorem lstat_ok {st : Stat} (h : fs.lstat host p = .ok st) :
    fs.lookup false p = .ok st.ino ∧
      ∃ x, fs.inode st.ino = some x ∧ st.format = x.content.format ∧ st.perm = x.attr.perm ∧
        st.uid = x.attr.uid ∧ st.gid = x.attr.gid := by
  unfold lstat at h
  cases hl : fs.lookup false p with
  | error e => rw [hl] at h; cases h
  | ok i =>
    rw [hl] at h
    simp only [Except.bind, stat] at h
    cases hx : fs.inode i with
    | none => rw [hx] at h; cases h
    | some x =>
      rw [hx] at h
      cases h
      exact ⟨rfl, x, hx, rfl, rfl, rfl, rfl⟩

/-- An object that a path names exists. -/
theorem isSome_of_lookup (h : fs.lookup follow p = .ok i) : ∃ x, fs.inode i = some x := by
  rcases lookup_ok h with ⟨_, hDir⟩ | ⟨_, _, d, n, _, he⟩
  · obtain ⟨x, hx, _⟩ := isDir_iff.mp hDir
    exact ⟨x, hx⟩
  · exact isSome_iff_exists.mp (fs.wf.entry_exists he)

/-- There is a status for whatever is found. -/
theorem lstat_of_lookup (host : Host) (h : fs.lookup false p = .ok i) :
    ∃ st, fs.lstat host p = .ok st ∧ st.ino = i := by
  obtain ⟨x, hx⟩ := isSome_of_lookup h
  unfold lstat
  rw [h]
  simp only [Except.bind, stat, hx]
  exact ⟨_, rfl, rfl⟩

theorem format_eq_dir_iff : x.content.format = .dir ↔ x.content.isDir := by
  cases hc : x.content with
  | special k => cases k <;> simp [Content.format, Content.isDir]
  | regular | directory | symlink => simp [Content.format, Content.isDir]

theorem isDir_of_format {st : Stat} (h : fs.lstat host p = .ok st) :
    st.format = .dir ↔ fs.isDir st.ino := by
  obtain ⟨_, x, hx, hFormat, _⟩ := lstat_ok h
  rw [hFormat, format_eq_dir_iff]
  simp [isDir, hx]

/-- Where `lstat` reports ENOENT, the path leads nowhere. -/
theorem lookup_of_lstat_error {e : Errno} (h : fs.lstat host p = .error e) :
    fs.lookup false p = .error e := by
  cases hl : fs.lookup false p with
  | error e' =>
    unfold lstat at h
    rw [hl] at h
    simp only [Except.bind, Except.error.injEq] at h
    rw [h]
  | ok i =>
    obtain ⟨st, hst, _⟩ := lstat_of_lookup host hl
    rw [hst] at h
    cases h

/-- Where `lstat` reports ENOENT and a file was made all the same, its name was
free. -/
theorem openCreat_ok_of_free {host' : Host} (hFree : fs.lstat host' p = .error .enoent)
    (h : fs.openCreat host busy p mode i now = .ok fs') :
    endsInSlash p = false ∧ ∃ d n x, x.content = .regular [] ∧
      fs.namei false p = .ok (.missing d n) ∧ fs.Created fs' d n i x := by
  obtain ⟨hSlash, hFound⟩ := openCreat_ok h
  have hError := lookup_of_lstat_error hFree
  -- nothing is there, so in particular no symbolic link
  have hNotLeaf : ∀ d n j, fs.namei false p ≠ .ok (.leaf d n j) := by
    intro d n j hEq
    unfold lookup at hError
    simp [hSlash, hEq] at hError
  have hSame : fs.namei true p = fs.namei false p :=
    namei_true_of_false fun d n j _ hEq => absurd hEq (hNotLeaf d n j)
  rw [hSame] at hFound
  rcases hFound with ⟨_, d, n, j, hEq⟩ | hNew
  · exact absurd hEq (hNotLeaf d n j)
  · exact ⟨hSlash, hNew⟩

end FileSystem

end QuicNfs.Kernel

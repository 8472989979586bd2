import QuicNfs.Kernel.Descent
import QuicNfs.Server.Complete

/-!
# QuicNfs — the paths of the handles

A handle is an inode number; the inode cache says at which path the object is.
The cache is kept by the text of the paths: REMOVE and RMDIR drop the first
mapping with the path of the removed name, RENAME rewrites the first mapping
with the old path. `HandleSafe` says when this is enough:

* names are single components;
* a mounted path is the plain spelling of the directory;
* a removed or renamed path is not mapped twice;
* no path below a renamed one is mapped, and none is mapped at the new name.

* `Sound` — the invariant: every cached path spells the way to its object;
* `Effect.sound` — what a request leaves of it;
* `handle_sound` — along every run of such requests, `lstat` of the path of a
  handle finds the object of the handle;
* `stale_after_rename` — RENAME of a directory leaves the handles below it
  with paths that are gone.
-/

namespace QuicNfs.Server

open Kernel Lib List FileSystem InodeCache

/-! ## The condition on a request -/

/-- The path that the server builds for a name in the directory of a handle. -/
def World.built (w : World) (x : Ino × Bytes) : Option Path :=
  (w.inodeCache.getAbsolutePathFromInodeNumber x.1).map (getFileAbsolutePath · x.2)

/-- The path whose directory RMDIR removes. -/
def World.emptied (w : World) : Request → Option Path
  | .rmdir args => args.decode.bind w.built
  | _ => none

/-- The paths that RENAME works on. -/
def World.renaming (w : World) : Request → Option (Path × Path)
  | .rename args => args.decode.bind fun x =>
    (w.built x.1).bind fun q => (w.built x.2).map fun q' => (q, q')
  | _ => none

/-- The cache can follow a renaming of `q` to `q'`. -/
structure RenameSafe (w : World) (q q' : Path) : Prop where
  once : w.inodeCache.countP (InodeCache.hasPath q) ≤ 1
  below : ∀ m ∈ w.inodeCache, ¬(q ++ [slash]) <+: m.absolutePath
  target : ∀ m ∈ w.inodeCache, m.absolutePath = q' →
    w.fs.lookup false q = .ok m.nfsFilehandle.inodeNumber

instance (w : World) (q q' : Path) : Decidable (RenameSafe w q q') :=
  decidable_of_iff (w.inodeCache.countP (InodeCache.hasPath q) ≤ 1 ∧
      (∀ m ∈ w.inodeCache, ¬(q ++ [slash]) <+: m.absolutePath) ∧
      ∀ m ∈ w.inodeCache, m.absolutePath = q' →
        w.fs.lookup false q = .ok m.nfsFilehandle.inodeNumber)
    ⟨fun ⟨h₁, h₂, h₃⟩ => ⟨h₁, h₂, h₃⟩, fun h => ⟨h.once, h.below, h.target⟩⟩

/-- The cache can follow the request. -/
structure HandleSafe (w : World) (r : Request) : Prop where
  plain : ∀ x ∈ r.names, Plain x.2
  mounted : ∀ p ∈ r.mountPath, ∀ i ∈ (w.fs.lookup false p).toOption, w.fs.Spells p i
  emptied : ∀ q ∈ w.emptied r, w.inodeCache.countP (InodeCache.hasPath q) ≤ 1
  renamed : ∀ x ∈ w.renaming r, RenameSafe w x.1 x.2

instance (w : World) (r : Request) : Decidable (HandleSafe w r) :=
  decidable_of_iff ((∀ x ∈ r.names, Plain x.2) ∧
      (∀ p ∈ r.mountPath, ∀ i ∈ (w.fs.lookup false p).toOption, w.fs.Spells p i) ∧
      (∀ q ∈ w.emptied r, w.inodeCache.countP (InodeCache.hasPath q) ≤ 1) ∧
      ∀ x ∈ w.renaming r, RenameSafe w x.1 x.2)
    ⟨fun ⟨h₁, h₂, h₃, h₄⟩ => ⟨h₁, h₂, h₃, h₄⟩, fun h => ⟨h.plain, h.mounted, h.emptied, h.renamed⟩⟩

/-! ## The invariant -/

/-- Every cached path spells the way to its object, and only directories are
mapped more than once. -/
structure Sound (fs : FileSystem) (cache : InodeCache) : Prop where
  spells {m : InodeCacheMapping} : m ∈ cache → fs.Spells m.absolutePath m.nfsFilehandle.inodeNumber
  single {i : Ino} : fs.isDir i = false → cache.countP (InodeCache.hasInode i) ≤ 1

variable {i : Ino} {p : Path}

namespace Sound

variable {fs fs' : FileSystem} {cache : InodeCache}

theorem nil (fs : FileSystem) : Sound fs [] := ⟨fun h => absurd h (by simp), fun _ => by simp⟩

theorem sublist (h : Sound fs cache) {cache' : InodeCache} (hSub : cache'.Sublist cache) :
    Sound fs cache' :=
  ⟨fun hm => h.spells (hSub.subset hm), fun hi => le_trans hSub.countP_le (h.single hi)⟩

theorem sameNames (h : Sound fs cache) (hNames : fs.SameNames fs') : Sound fs' cache :=
  ⟨fun hm => (h.spells hm).sameNames hNames, fun hi => h.single ((hNames.isDir _).symm.trans hi)⟩

variable {d : Ino} {n : Name}

theorem extended (h : Sound fs cache) {k : Ino} (hExtends : fs.Extends fs' d n k) :
    Sound fs' cache := by
  refine ⟨fun hm => (h.spells hm).extends hExtends, fun {i} hi => h.single ?_⟩
  by_contra hDir
  rw [hExtends.isDir_of (by simpa using hDir)] at hi
  cases hi

/-- The path of a handle spells the way to what `lstat` finds there. -/
theorem spells_of_cached (h : Sound fs cache)
    (hp : cache.getAbsolutePathFromInodeNumber i = some p) : fs.Spells p i := by
  obtain ⟨m, hm, rfl, rfl⟩ := mem_of_getAbsolutePath hp
  exact h.spells hm

theorem add (h : Sound fs cache) (hp : fs.Spells p i)
    (hNew : fs.isDir i = false → cache.countP (hasInode i) = 0) (timestamp : Nat) :
    Sound fs (cache.addInodeMapping ⟨i, timestamp⟩ p) := by
  constructor
  · intro m hm
    rcases mem_cons.mp hm with rfl | hm
    · exact hp
    · exact h.spells hm
  · intro j hj
    rw [addInodeMapping, countP_cons]
    by_cases hij : i = j
    · subst hij
      rw [hNew hj]
      split <;> omega
    · have := h.single hj
      simpa [hasInode, hij] using this

/-- A number that is not in use has no mapping. -/
theorem count_of_none (h : Sound fs cache) (hi : fs.inode i = none) :
    cache.countP (hasInode i) = 0 := by
  rw [countP_eq_zero]
  intro m hm hEq
  have hSome := (h.spells hm).isSome
  rw [beq_iff_eq.mp hEq, hi] at hSome
  cases hSome

/-- The path of an object that is no directory is mapped once. -/
theorem count_path (h : Sound fs cache) {q : Path} (hq : fs.Spells q i) (hi : fs.isDir i = false) :
    cache.countP (hasPath q) ≤ 1 := by
  refine le_trans (countP_mono_left fun m hm hPath => ?_) (h.single hi)
  have hEq : m.absolutePath = q := beq_iff_eq.mp hPath
  exact beq_iff_eq.mpr ((h.spells hm).eq (hEq ▸ hq))

/-- Where every mapping of `i` is gone, what `i` is does not matter. -/
theorem count_eq_zero (h : ∀ m ∈ cache, m.nfsFilehandle.inodeNumber ≠ i) :
    cache.countP (hasInode i) = 0 :=
  countP_eq_zero.mpr fun m hm hEq => h m hm (beq_iff_eq.mp hEq)

/-- **A removed name** whose path was mapped at most once. -/
theorem removed (h : Sound fs cache) (hRemoved : fs.Removed fs' d n i) (hp : fs.Spells p d)
    (hLength : (getFileAbsolutePath p n).length < pathMax)
    (hOnce : cache.countP (hasPath (getFileAbsolutePath p n)) ≤ 1) :
    Sound fs' (cache.removeInodeMappingByAbsolutePath (getFileAbsolutePath p n)) := by
  have hq : fs.Spells (getFileAbsolutePath p n) i := hp.join hRemoved.named hLength
  -- the mappings that stay are not of the removed path
  have hStay : ∀ m ∈ cache.removeInodeMappingByAbsolutePath (getFileAbsolutePath p n),
      m ∈ cache ∧ m.absolutePath ≠ getFileAbsolutePath p n := fun m hm =>
    have hm' := not_of_mem_eraseP hOnce hm
    ⟨hm'.1, fun hEq => absurd hm'.2 (by simp [hasPath, hEq])⟩
  constructor
  · intro m hm
    exact (h.spells (hStay m hm).1).removed hRemoved hp (hStay m hm).2
  · intro j hj
    by_cases hDir : fs.isDir j = false
    · exact le_trans (eraseP_sublist.countP_le) (h.single hDir)
    · -- a directory that is one no longer is the removed one, and its path was unique
      have hDir' : fs.isDir j := by simpa using hDir
      have hji : j = i := by
        by_contra hne
        rw [Tree.isDir_eq_of_kind (hRemoved.kind hne), hDir'] at hj
        cases hj
      subst hji
      rw [count_eq_zero fun m hm hEq => ?_]
      · exact Nat.zero_le 1
      · have hm' := h.spells (hStay m hm).1
        rw [hEq] at hm'
        exact (hStay m hm).2 (hm'.unique hDir' hq)

/-- **A renamed object.** -/
theorem renamed (h : Sound fs cache) {p' : Path} {d' : Ino} {n' : Name} {target : Option Ino}
    (hRenamed : fs.Renamed fs' d n i d' n' target) (hNamed : fs.entry d n = some i)
    (hTarget : fs.entry d' n' = target) (hNew : target ≠ some i) (hp : fs.Spells p d)
    (hp' : fs.Spells p' d') (hp'Cached : ∃ m ∈ cache, m.absolutePath = p') (hn' : Plain n')
    (hNotSelf : d' ≠ i) (hLength : (getFileAbsolutePath p n).length < pathMax)
    (hLength' : (getFileAbsolutePath p' n').length < pathMax)
    (hOnce : cache.countP (hasPath (getFileAbsolutePath p n)) ≤ 1)
    (hBelow : ∀ m ∈ cache, ¬(getFileAbsolutePath p n ++ [slash]) <+: m.absolutePath)
    (hFree : ∀ m ∈ cache, m.absolutePath = getFileAbsolutePath p' n' →
      m.nfsFilehandle.inodeNumber = i) :
    Sound fs' (cache.updateInodeMappingAbsolutePathByAbsolutePath (getFileAbsolutePath p n)
      (getFileAbsolutePath p' n')) := by
  have hq : fs.Spells (getFileAbsolutePath p n) i := hp.join hNamed hLength
  -- nothing is mapped at the new name, since another object is there
  have hNone : ∀ m ∈ cache, m.absolutePath ≠ getFileAbsolutePath p' n' := by
    intro m hm hEq
    have hSpells := h.spells hm
    rw [hEq, hFree m hm hEq] at hSpells
    exact hNew (hTarget.symm.trans (hp'.entry_of_join hn' hSpells))
  constructor
  · intro m hm
    rcases mem_modifyFirst_of_count hOnce hm with ⟨hm, hNot⟩ | ⟨m₀, hm₀, hPath, rfl⟩
    · have hOld : m.absolutePath ≠ getFileAbsolutePath p n := fun hEq =>
        absurd hNot (by simp [hasPath, hEq])
      exact (h.spells hm).renamed hRenamed hTarget hp hp' hOld (hBelow m hm) (hNone m hm)
    · -- the mapping that was rewritten is the one of the object
      have hPath' : m₀.absolutePath = getFileAbsolutePath p n := beq_iff_eq.mp hPath
      have hInode : m₀.nfsFilehandle.inodeNumber = i := by
        have hm := h.spells hm₀
        rw [hPath'] at hm
        exact hm.eq hq
      show fs'.Spells (getFileAbsolutePath p' n') m₀.nfsFilehandle.inodeNumber
      rw [hInode]
      -- the directory it went to is still where it was
      have hp'Old : p' ≠ getFileAbsolutePath p n := fun hEq => hNotSelf (hp'.eq (hEq ▸ hq))
      have hp'New : p' ≠ getFileAbsolutePath p' n' := fun hEq => by
        have hLen := congrArg length hEq
        simp [getFileAbsolutePath] at hLen
      obtain ⟨m', hm', rfl⟩ := hp'Cached
      have hDir := hp'.renamed hRenamed hTarget hp hp' hp'Old (hBelow m' hm') hp'New
      exact hDir.join (by rw [hRenamed.entry, if_pos ⟨rfl, rfl⟩]) hLength'
  · intro j hj
    rw [countP_hasInode_update]
    by_cases hDir : fs.isDir j = false
    · exact h.single hDir
    · -- a directory that is one no longer was replaced, and nothing was mapped there
      have hDir' : fs.isDir j := by simpa using hDir
      have hReplaced : target = some j := by
        by_contra hne
        rw [Tree.isDir_eq_of_kind (hRenamed.kind hne), hDir'] at hj
        cases hj
      have hSpells := hp'.join (hTarget.trans hReplaced) hLength'
      rw [count_eq_zero fun m hm hEq => ?_]
      · exact Nat.zero_le 1
      · have hm' := h.spells hm
        rw [hEq] at hm'
        exact hNone m hm (hm'.unique hDir' hSpells)

/-- A mapping that gets another name of its object. -/
theorem respelled (h : Sound fs cache) {q q' : Path} (hq : fs.Spells q i) (hq' : fs.Spells q' i) :
    Sound fs (cache.updateInodeMappingAbsolutePathByAbsolutePath q q') := by
  constructor
  · intro m hm
    rcases mem_modifyFirst hm with hm | ⟨m₀, hm₀, hPath, rfl⟩
    · exact h.spells hm
    · have hSpells := h.spells hm₀
      rw [beq_iff_eq.mp hPath] at hSpells
      exact hSpells.eq hq ▸ hq'
  · intro j hj
    rw [countP_hasInode_update]
    exact h.single hj

end Sound

/-! ## One request -/

/-- The path of a handle spells the way to the directory found there. -/
theorem DirectoryAt.spells {w : World} {st : Kernel.Stat} (h : DirectoryAt w i p st)
    (hSound : Sound w.fs w.inodeCache) : w.fs.Spells p st.ino := by
  have hSpells := hSound.spells_of_cached h.cached
  cases hSpells.lookup.symm.trans (lstat_ok h.lstat).1
  exact hSpells

theorem DirectoryAt.built {w : World} {st : Kernel.Stat} (h : DirectoryAt w i p st) (n : Bytes) :
    w.built (i, n) = some (getFileAbsolutePath p n) := by
  simp [World.built, h.cached]

section Requests

variable {w : World} {cred : Credential} {r : Request} {ok : Bool} {fs' : FileSystem}
  {cache : InodeCache}

/-- **What a request leaves of the invariant.** -/
theorem Effect.sound (h : Effect w cred r ok fs' cache)
    (hSound : Sound w.fs w.inodeCache) (hSafe : HandleSafe w r) : Sound fs' cache := by
  cases h with
  | nothing => exact hSound
  | @mounted p st ts hExported hStat hDir =>
    have hLookup := (lstat_ok hStat).1
    have hSpells : w.fs.Spells p st.ino := hSafe.mounted p rfl st.ino (by rw [hLookup]; rfl)
    -- a mounted directory may be mapped already
    exact hSound.add hSpells (fun hNot => absurd hDir (by simp [hNot])) ts
  | @lookedUp args i n p st stFile ts hArgs hDir hFile hNew =>
    have hPlain : Plain n := hSafe.plain (i, n) (by simp [Request.names, hArgs])
    have hSpells := (hDir.spells hSound).join_of_lookup hDir.isDir hPlain (lstat_ok hFile).1
    refine hSound.add hSpells (fun _ => Sound.count_eq_zero fun m hm hEq => ?_) ts
    have hNone := find?_eq_none.mp (Option.map_eq_none_iff.mp hNew) m hm
    exact hNone (beq_iff_eq.mpr hEq)
  | forgotten args i => exact hSound.sublist eraseP_sublist
  | touched _ _ _ _ hTouched _ => exact hSound.sameNames hTouched.names
  | @created _ args i n a p st _ fs₁ _ d m j x _ hRequest hArgs hDir hSlot hCreated hTouched _
      hCache =>
    have hPlain : Plain n := hSafe.plain (i, n) (by
      cases r <;> simp_all [Request.creation, Request.names])
    have hNow : Sound fs' w.inodeCache :=
      (hSound.extended hCreated.extends).sameNames hTouched.names
    rcases hCache with rfl | ⟨ts, hLookup, rfl⟩
    · exact hNow
    -- the new number had no mapping, since it was not in use
    refine hNow.add ?_ (fun _ => hSound.count_of_none hCreated.fresh) ts
    have hSpells : fs'.Spells p st.ino :=
      ((hDir.toDirectoryAt.spells hSound).extends hCreated.extends).sameNames hTouched.names
    have hIsDir : fs'.isDir st.ino :=
      (hTouched.names.isDir _).trans (hCreated.extends.isDir_of hDir.isDir)
    exact hSpells.join_of_lookup hIsDir hPlain hLookup
  | symlinked _ _ _ hCreated => exact hSound.extended hCreated.extends
  | linked _ _ _ _ _ hExtends _ _ => exact hSound.extended hExtends
  | @removed _ args i n p st _ _ d m j hRequest hArgs hDir hSlot hRemoved hKind =>
    have hPlain : Plain n := hSafe.plain (i, n) (by
      cases r <;> simp_all [Request.deletion, Request.names])
    have hLength := length_of_slot hSlot
    obtain ⟨rfl, rfl⟩ := hDir.slot hPlain hSlot
    have hSpells := hDir.toDirectoryAt.spells hSound
    refine hSound.removed hRemoved hSpells hLength ?_
    -- RMDIR is told that the path is mapped once, REMOVE is not of a directory
    cases r with
    | remove args' =>
      cases hRequest
      exact hSound.count_path (hSpells.join hRemoved.named hLength) (hKind rfl)
    | rmdir args' =>
      cases hRequest
      exact hSafe.emptied _ (by simp [World.emptied, hArgs, hDir.built])
    | _ => cases hRequest
  | @renamed args i i' n n' p p' st st' _ _ d d' m m' j target hArgs hFrom hTo hSlot hSlot'
      hNamed hTarget hLength' hNotSelf hRenamed =>
    have hPlain : Plain n := hSafe.plain (i, n) (by simp [Request.names, hArgs])
    have hPlain' : Plain n' := hSafe.plain (i', n') (by simp [Request.names, hArgs])
    have hLength := length_of_slot hSlot
    obtain ⟨rfl, rfl⟩ := hFrom.slot hPlain hSlot
    obtain ⟨rfl, rfl⟩ := hTo.slot hPlain' hSlot'
    have hp := hFrom.toDirectoryAt.spells hSound
    have hp' := hTo.toDirectoryAt.spells hSound
    have hq := hp.join hNamed hLength
    rcases hRenamed with ⟨hSame, rfl⟩ | ⟨hNew, hRenamed⟩
    · exact hSound.respelled hq (hp'.join (hTarget.trans hSame) hLength')
    have hRename := hSafe.renamed (getFileAbsolutePath p m, getFileAbsolutePath p' m') (by
      simp [World.renaming, hArgs, hFrom.built, hTo.built])
    obtain ⟨m₀, hm₀, _, hPath⟩ := mem_of_getAbsolutePath hTo.cached
    refine hSound.renamed hRenamed hNamed hTarget hNew hp hp' ⟨m₀, hm₀, hPath⟩ hPlain' hNotSelf
      hLength hLength' hRename.once hRename.below fun m hm hEq => ?_
    exact Except.ok.inj ((hRename.target m hm hEq).symm.trans hq.lookup)

end Requests

/-! ## Runs -/

/-- The condition on an action; the sweep of ReadDir sessions has none. -/
def HandleSafeAction (w : World) : Action → Prop
  | .request _ r => HandleSafe w r
  | .cleanUp => True

instance (w : World) : ∀ a, Decidable (HandleSafeAction w a)
  | .request _ r => inferInstanceAs (Decidable (HandleSafe w r))
  | .cleanUp => inferInstanceAs (Decidable True)

theorem sound_step (w : World) (a : Action) (hSound : Sound w.fs w.inodeCache)
    (hSafe : HandleSafeAction w a) : Sound (w.step a).fs (w.step a).inodeCache := by
  cases a with
  | request cred r => exact (effect_serve w cred r).sound hSound hSafe
  | cleanUp =>
    obtain ⟨hFs, hCache⟩ := effect_cleanUp w
    rw [hFs, hCache]
    exact hSound

/-- From the start of the server, where the cache is empty. -/
theorem sound_steps {w : World} (hFresh : w.Fresh) {run : List Action}
    (hRun : World.Along HandleSafeAction w run) :
    Sound (w.steps run).fs (w.steps run).inodeCache := by
  have hStart : Sound w.fs w.inodeCache := by
    rw [hFresh.inodeCache]
    exact Sound.nil w.fs
  exact World.invariant_steps (I := fun w => Sound w.fs w.inodeCache) sound_step hStart hRun

/-- **The path of a handle leads to its object** in every state that a run of
requests the cache can follow reaches from the start of the server. -/
theorem handle_sound {w : World} (hFresh : w.Fresh) {run : List Action}
    (hRun : World.Along HandleSafeAction w run) {i : Ino} {p : Path}
    (hp : (w.steps run).inodeCache.getAbsolutePathFromInodeNumber i = some p) :
    ∃ st, (w.steps run).fs.lstat (w.steps run).host p = .ok st ∧ st.ino = i := by
  have hSound := sound_steps hFresh hRun
  exact lstat_of_lookup _ (hSound.spells_of_cached hp).lookup

/-- A file that was created and renamed is found under its new name. -/
theorem handle_sound_rename :
    let w := Sample.world.steps [Sample.mount,
      Sample.request (.create (Sample.newFile 2 "new" 1000)), Sample.rename 2 "new" 2 "newer"]
    ∃ st, w.fs.lstat w.host (bytes "/exp/newer") = .ok st ∧ st.ino = 26 :=
  handle_sound (World.fresh_boot _ _ _ _) (by decide) (by decide)

/-- **A renamed directory leaves stale handles below it.** The handle of
`/exp/a/f` keeps that path when `/exp/a` becomes `/exp/b`. -/
theorem stale_after_rename :
    let w := Sample.world.steps [Sample.mount, Sample.request (.lookup (Sample.nameIn 2 "a")),
      Sample.request (.lookup (Sample.nameIn 3 "f")), Sample.rename 2 "a" 2 "b"]
    Sample.world.Fresh ∧
      w.inodeCache.getAbsolutePathFromInodeNumber 4 = some (bytes "/exp/a/f") ∧
      w.fs.lstat w.host (bytes "/exp/a/f") = .error .enoent :=
  ⟨World.fresh_boot _ _ _ _, by decide, by decide⟩

end QuicNfs.Server

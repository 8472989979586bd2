import QuicNfs.Kernel.Below
import QuicNfs.Server.Exports
import QuicNfs.Server.Frame

/-!
# QuicNfs — handles stay sound as long as nothing is renamed

Without RENAME the inode cache follows every request, whatever hard links there are, whichever
numbers are used again and however often a directory is mounted, provided that a directory
that is mapped more than once is not removed. Only MNT maps an object a second time.

* `Canonical` — the paths in the exports file;
* `Follows` — the condition on a request: no RENAME, plain names, a mounted path without
  symbolic links, and no exported directory is removed;
* `MountedTwice` — the invariant: a path that is mapped twice is exported;
* `handle_sound_without_renames` — every cached path leads to the object of its handle.
-/

namespace QuicNfs.Server

open Kernel Lib List InodeCache

/-- An absolute path, not `/`, without blanks, `.`, `..` and superfluous slashes. -/
structure Canonical (p : Path) : Prop where
  spelled : p = joinNames (components p)
  ne_nil : components p ≠ []
  no_dots : ∀ c ∈ components p, c ≠ dot ∧ c ≠ dotdot
  no_blanks : ∀ b ∈ p, isBlank b = false

instance (p : Path) : Decidable (Canonical p) :=
  decidable_of_iff (p = joinNames (components p) ∧ components p ≠ [] ∧
      (∀ c ∈ components p, c ≠ dot ∧ c ≠ dotdot) ∧ p.all (fun b => isBlank b == false) = true)
    ⟨fun ⟨h₁, h₂, h₃, h₄⟩ => ⟨h₁, h₂, h₃, fun b hb => beq_iff_eq.mp (List.all_eq_true.mp h₄ b hb)⟩,
      fun h => ⟨h.spelled, h.ne_nil, h.no_dots,
        List.all_eq_true.mpr fun b hb => beq_iff_eq.mpr (h.no_blanks b hb)⟩⟩

variable {p : Path}

theorem Canonical.plain (h : Canonical p) : ∀ c ∈ components p, Plain c := fun c hc =>
  ⟨component_ne_nil hc, component_no_slash hc, (h.no_dots c hc).1, (h.no_dots c hc).2⟩

/-- Whether the server takes the path for an exported one. -/
def World.exported (w : World) (p : Path) : Bool := isExported w.machine.exports p

def Request.renames : Request → Bool
  | .rename _ => true
  | _ => false

/-- The condition on a request. -/
structure Follows (w : World) (cred : Credential) (r : Request) : Prop where
  noRename : r.renames = false
  plain : ∀ x ∈ r.names, Plain x.2
  mounted : ∀ p ∈ r.mountPath, w.exported p = true →
    w.fs.meetsLink false w.fs.root (components p) = false
  kept : ∀ q ∈ w.emptied r, w.exported q = true → (w.answer cred r).isOk = false

instance (w : World) (cred : Credential) (r : Request) : Decidable (Follows w cred r) :=
  decidable_of_iff (r.renames = false ∧ (∀ x ∈ r.names, Plain x.2) ∧
      (∀ p ∈ r.mountPath, w.exported p = true →
        w.fs.meetsLink false w.fs.root (components p) = false) ∧
      ∀ q ∈ w.emptied r, w.exported q = true → (w.answer cred r).isOk = false)
    ⟨fun ⟨h₁, h₂, h₃, h₄⟩ => ⟨h₁, h₂, h₃, h₄⟩, fun h => ⟨h.noRename, h.plain, h.mounted, h.kept⟩⟩

/-- The paths that are mapped more than once are exported. -/
def MountedTwice (w : World) : Prop :=
  ∀ q, w.exported q = false → w.inodeCache.countP (InodeCache.hasPath q) ≤ 1

/-! ## One request -/

section Requests

variable {w : World} {cred : Credential} {r : Request}

/-- MNT of a path that is not exported. -/
theorem unchanged_of_not_exported (hPath : r.mountPath = some p) (hNot : w.exported p = false) :
    (w.afterRequest cred r).fs = w.fs ∧ (w.afterRequest cred r).inodeCache = w.inodeCache := by
  obtain ⟨args, rfl⟩ : ∃ args, r = .mnt args := by
    cases r <;> simp_all [Request.mountPath]
  have hEffect := effect_serve w cred (.mnt args)
  generalize (w.answer cred (.mnt args)).isOk = ok at hEffect
  generalize (w.afterRequest cred (.mnt args)).fs = fs' at hEffect ⊢
  generalize (w.afterRequest cred (.mnt args)).inodeCache = cache at hEffect ⊢
  cases hEffect with
  | nothing => exact ⟨rfl, rfl⟩
  | mounted _ hExported =>
    cases hPath
    exact absurd (hExported.symm.trans hNot) (by simp)
  | touched hRequest | created hRequest | removed hRequest => cases hRequest

variable {q : Path}

/-- RMDIR of a directory that is exported. -/
theorem unchanged_of_kept (h : Follows w cred r) (hPath : w.emptied r = some q)
    (hExported : w.exported q = true) :
    (w.afterRequest cred r).fs = w.fs ∧ (w.afterRequest cred r).inodeCache = w.inodeCache := by
  have hRmdir : r.changesNames = true := by
    cases r <;> first | rfl | cases hPath
  obtain ⟨t, ht⟩ := unchanged_of_refused hRmdir (h.kept q hPath hExported)
  rw [ht]
  exact ⟨rfl, rfl⟩

/-- The cache can follow the request, or the request leaves everything as it is. -/
theorem Follows.handleSafe (h : Follows w cred r) (hTwice : MountedTwice w)
    (hCanonical : ∀ p, w.exported p = true → Canonical p) :
    HandleSafe w r ∨ (w.afterRequest cred r).fs = w.fs ∧
      (w.afterRequest cred r).inodeCache = w.inodeCache := by
  -- a mount of what is not exported and an RMDIR of what is exported both do nothing
  by_cases hMounted : ∃ p, r.mountPath = some p ∧ w.exported p = false
  · obtain ⟨p, hPath, hNot⟩ := hMounted
    exact Or.inr (unchanged_of_not_exported hPath hNot)
  by_cases hKept : ∃ q, w.emptied r = some q ∧ w.exported q = true
  · obtain ⟨q, hPath, hExported⟩ := hKept
    exact Or.inr (unchanged_of_kept h hPath hExported)
  refine Or.inl ⟨h.plain, fun p hp i hi => ?_, fun q hq => ?_, fun x hx => ?_⟩
  · -- a canonical path without symbolic links spells the directory it leads to
    have hExported : w.exported p = true := by
      by_contra hNot
      exact hMounted ⟨p, hp, by simpa using hNot⟩
    have hPath := hCanonical p hExported
    exact FileSystem.spells_of_lookup hPath.spelled hPath.ne_nil hPath.plain
      (h.mounted p hp hExported) (mem_toOption.mp (Option.mem_toList.mpr hi))
  · refine hTwice q ?_
    by_contra hExported
    exact hKept ⟨q, hq, by simpa using hExported⟩
  · obtain ⟨args, rfl⟩ : ∃ args, r = .rename args := by
      cases r <;> simp_all [World.renaming]
    cases h.noRename

/-- A new mapping of an object that had none is the only one at its path. -/
theorem count_path_add {fs : FileSystem} {cache : InodeCache} {i : Ino} {ts : Nat}
    (hSound : Sound fs (cache.addInodeMapping ⟨i, ts⟩ p)) (hNew : cache.countP (hasInode i) = 0)
    (hOnce : cache.countP (hasPath q) ≤ 1) :
    (cache.addInodeMapping ⟨i, ts⟩ p).countP (hasPath q) ≤ 1 := by
  by_cases hpq : p = q
  · subst hpq
    -- whatever is mapped at `p` is the object that `p` leads to
    have hAll : ∀ m ∈ cache.addInodeMapping ⟨i, ts⟩ p, hasPath p m = true →
        hasInode i m = true := by
      intro m hm hPath
      have hSpells := hSound.spells hm
      rw [beq_iff_eq.mp hPath] at hSpells
      exact beq_iff_eq.mpr (hSpells.eq (hSound.spells (mem_cons_self ..)))
    refine le_trans (countP_mono_left hAll) ?_
    rw [addInodeMapping, countP_cons, hNew]
    split <;> omega
  · rw [addInodeMapping, countP_cons_of_neg (by simpa [hasPath] using hpq)]
    exact hOnce

/-- **Only MNT maps a path twice.** -/
theorem Effect.mountedTwice {ok : Bool} {fs' : FileSystem} {cache : InodeCache}
    (h : Effect w cred r ok fs' cache) (hr : r.renames = false)
    (hBefore : Sound w.fs w.inodeCache) (hAfter : Sound fs' cache) (hTwice : MountedTwice w)
    (hq : w.exported q = false) : cache.countP (hasPath q) ≤ 1 := by
  cases h with
  | nothing | touched | symlinked | linked => exact hTwice q hq
  | @mounted p st ts hExported =>
    -- a second mapping comes from a mount alone, and `q` cannot be mounted
    have hpq : p ≠ q := by
      rintro rfl
      exact absurd (hExported.symm.trans hq) (by simp)
    rw [addInodeMapping, countP_cons_of_neg (by simpa [hasPath] using hpq)]
    exact hTwice q hq
  | @lookedUp args i n p st stFile ts hArgs hDir hFile hNew =>
    -- LOOKUP adds a mapping only for an inode that has none
    refine count_path_add hAfter (Sound.count_eq_zero fun m hm hEq => ?_) (hTwice q hq)
    have hNone := find?_eq_none.mp (Option.map_eq_none_iff.mp hNew) m hm
    exact hNone (beq_iff_eq.mpr hEq)
  | forgotten | removed => exact le_trans eraseP_sublist.countP_le (hTwice q hq)
  | @created _ args i n a p st _ fs₁ _ d m j x _ hRequest hArgs hDir hSlot hCreated hTouched _
      hCache =>
    rcases hCache with rfl | ⟨ts, -, rfl⟩
    · exact hTwice q hq
    · exact count_path_add hAfter (hBefore.count_of_none hCreated.fresh) (hTwice q hq)
  | renamed => cases hr

end Requests

/-! ## Runs -/

def FollowsAction (w : World) : Action → Prop
  | .request cred r => Follows w cred r
  | .cleanUp => True

instance (w : World) : ∀ a, Decidable (FollowsAction w a)
  | .request cred r => inferInstanceAs (Decidable (Follows w cred r))
  | .cleanUp => inferInstanceAs (Decidable True)

/-- What the server keeps true of its cache. -/
structure SoundMounts (exports : Option Bytes) (w : World) : Prop where
  exports : w.machine.exports = exports
  sound : Sound w.fs w.inodeCache
  twice : MountedTwice w

theorem soundMounts_step {content : Bytes} (hShort : ShortExports Canonical content) (w : World)
    (a : Action) (h : SoundMounts (some content) w) (hFollows : FollowsAction w a) :
    SoundMounts (some content) (w.step a) := by
  have hExports : (w.step a).machine.exports = w.machine.exports := (w.step_frame a).1
  -- the steps that change neither the files nor the cache
  have hSame : (w.step a).fs = w.fs → (w.step a).inodeCache = w.inodeCache →
      SoundMounts (some content) (w.step a) := by
    intro hFs hCache
    refine ⟨hExports.trans h.exports, by rw [hFs, hCache]; exact h.sound, fun q hq => ?_⟩
    rw [hCache]
    refine h.twice q ?_
    rwa [World.exported, hExports] at hq
  cases a with
  | cleanUp => exact hSame (effect_cleanUp w).1 (effect_cleanUp w).2
  | request cred r =>
    have hCanonical : ∀ p, w.exported p = true → Canonical p := by
      intro p hp
      rw [World.exported, h.exports] at hp
      exact exported_of_shortExports (fun q hq => hq.no_blanks) hShort hp
    rcases hFollows.handleSafe h.twice hCanonical with hSafe | ⟨hFs, hCache⟩
    · have hEffect := effect_serve w cred r
      have hSound := hEffect.sound h.sound hSafe
      refine ⟨hExports.trans h.exports, hSound, fun q hq => ?_⟩
      rw [World.exported, hExports] at hq
      exact hEffect.mountedTwice hFollows.noRename h.sound hSound h.twice hq
    · exact hSame hFs hCache

/-- **Handles are sound without renames.** In every state that a run reaches from the start of
the server, each cached path leads to the object of its handle. -/
theorem handle_sound_without_renames {w : World} (hFresh : w.Fresh) {content : Bytes}
    (hExports : w.machine.exports = some content) (hShort : ShortExports Canonical content)
    {run : List Action} (hRun : World.Along FollowsAction w run) :
    ∀ m ∈ (w.steps run).inodeCache, ∃ st,
      (w.steps run).fs.lstat (w.steps run).host m.absolutePath = .ok st ∧
        st.ino = m.nfsFilehandle.inodeNumber := by
  have hStart : SoundMounts (some content) w := by
    refine ⟨hExports, ?_, fun q _ => ?_⟩
    · rw [hFresh.inodeCache]
      exact Sound.nil w.fs
    · rw [hFresh.inodeCache]
      exact Nat.zero_le 1
  have hEnd := World.invariant_steps (soundMounts_step hShort) hStart hRun
  intro m hm
  exact FileSystem.lstat_of_lookup _ (hEnd.sound.spells hm).lookup

/-- `/exp` is mounted twice; a file in it gets a second name and loses it again, and a new
directory comes and goes. -/
theorem handle_sound_without_renames_twice :
    let w := Sample.world.steps [Sample.mount, Sample.mount,
      Sample.request (.lookup (Sample.nameIn 2 "a")), Sample.request (.lookup (Sample.nameIn 3 "f")),
      Sample.request (.link ⟨some (Sample.handle 4), some (Sample.nameIn 2 "g")⟩),
      Sample.request (.remove (Sample.nameIn 2 "g")),
      Sample.request (.mkdir (Sample.newFile 2 "d" 1000)),
      Sample.request (.rmdir (Sample.nameIn 2 "d"))]
    ∀ m ∈ w.inodeCache, ∃ st, w.fs.lstat w.host m.absolutePath = .ok st ∧
      st.ino = m.nfsFilehandle.inodeNumber := by
  have hShort : ShortExports Canonical (bytes "/exp *(rw)\n") := by
    have hLines : fileLines (bytes "/exp *(rw)\n") = [bytes "/exp *(rw)", []] := by decide
    intro line hLine
    rw [hLines] at hLine
    rcases mem_cons.mp hLine with rfl | hLine
    · exact Or.inr ⟨bytes "/exp", by decide, by decide, by decide⟩
    · exact Or.inl (mem_singleton.mp hLine)
  exact handle_sound_without_renames (World.fresh_boot _ _ _ _) rfl hShort (by decide +kernel)

end QuicNfs.Server

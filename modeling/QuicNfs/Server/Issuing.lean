import QuicNfs.Server.HandleSoundness
import QuicNfs.Server.Service

/-!
# QuicNfs — the handles that are issued

MNT, LOOKUP, CREATE and MKDIR answer with a handle, and the inode cache learns
where the object of the handle is. This module says what the four do to the
cache on a machine where no call fails for a reason of its own:

* `World.Knows` — the cache has a mapping for an inode number;
* `Issuing` — the list of what such a request can do, complete by
  `Quiet.issuing`;
* `Quiet.knows_of_issued` / `Quiet.issued_of_learned` — a number is known after
  a handle with it was issued, and becomes known in no other way;
* `Quiet.getattr_of_known` — GETATTR of a known number, where the cache is
  sound.
-/

namespace QuicNfs.Server

open Kernel Lib List InodeCache

variable {w : World} {cred : Credential} {r : Request} {i : Ino}

/-! ## What the server knows -/

/-- The inode cache has a mapping for `i`. -/
def World.Knows (w : World) (i : Ino) : Prop :=
  0 < w.inodeCache.countP (InodeCache.hasInode i)

instance (w : World) (i : Ino) : Decidable (w.Knows i) :=
  inferInstanceAs (Decidable (0 < w.inodeCache.countP (InodeCache.hasInode i)))

theorem World.knows_iff : w.Knows i ↔ ∃ p, w.view i = some p := by
  have hSome : w.Knows i ↔ (w.inodeCache.find? (hasInode i)).isSome := by
    rw [find?_isSome]
    exact countP_pos_iff
  rw [hSome, ← Option.isSome_iff_exists, World.view, getAbsolutePathFromInodeNumber,
    Option.isSome_map]

/-- Without a mapping a handle has no path. -/
theorem World.view_of_not_knows (h : ¬w.Knows i) :
    w.inodeCache.getAbsolutePathFromInodeNumber i = none :=
  Option.eq_none_iff_forall_ne_some.mpr fun p hp => h (World.knows_iff.mpr ⟨p, hp⟩)

/-! ## Requests that answer with a handle -/

/-- The handle in an answer. -/
def Answer.handle : Answer → Option NfsFileHandle
  | .fhStatus (.ok handle) => some handle
  | .dirOpRes (.ok body) => some body.file
  | _ => none

/-- MNT, LOOKUP, CREATE and MKDIR. -/
def Request.issues : Request → Bool
  | .mnt _ => true
  | .lookup _ => true
  | .create _ => true
  | .mkdir _ => true
  | _ => false

/-- The handle that an action issues. -/
def World.issued (w : World) : Action → Option NfsFileHandle
  | .request cred r => (w.answer cred r).handle
  | .cleanUp => none

/-- What the four do to the inode cache, with the handle they answer with. -/
inductive Issuing (cache : InodeCache) : Option NfsFileHandle → InodeCache → Prop where
  | nothing : Issuing cache none cache
  | known {i : Ino} {handle : NfsFileHandle}
      (h : cache.getNfsFilehandleFromInodeNumber i = some handle) :
      Issuing cache (some handle) cache
  | new (handle : NfsFileHandle) (p : Path) :
      Issuing cache (some handle) (cache.addInodeMapping handle p)

variable {handle : NfsFileHandle}

namespace Issuing

variable {cache cache' : InodeCache} {issued : Option NfsFileHandle}

/-- What had a mapping keeps it. -/
theorem sublist (h : Issuing cache issued cache') : cache.Sublist cache' := by
  cases h with
  | nothing | known => exact List.Sublist.refl _
  | new handle p => exact sublist_cons_self _ _

/-- The handle that is issued has a mapping. -/
theorem mapped (h : Issuing cache (some handle) cache') :
    0 < cache'.countP (hasInode handle.inodeNumber) := by
  cases h with
  | known hKnown =>
    obtain ⟨m, hm, rfl⟩ := Option.map_eq_some_iff.mp hKnown
    exact countP_pos_iff.mpr ⟨m, mem_of_find?_eq_some hm, beq_self_eq_true _⟩
  | new _ p =>
    exact countP_pos_iff.mpr ⟨⟨handle, p⟩, mem_cons_self, beq_self_eq_true _⟩

/-- A mapping that was not there is that of the handle that is issued. -/
theorem learned (h : Issuing cache issued cache') (hNot : ¬0 < cache.countP (hasInode i))
    (hNow : 0 < cache'.countP (hasInode i)) :
    ∃ handle, issued = some handle ∧ handle.inodeNumber = i := by
  cases h with
  | nothing | known => exact absurd hNow hNot
  | new handle p =>
    obtain ⟨m, hm, hIno⟩ := countP_pos_iff.mp hNow
    -- the mapping is the new one, or it was there before
    rcases mem_cons.mp hm with rfl | hm
    · exact ⟨handle, rfl, beq_iff_eq.mp hIno⟩
    · exact absurd (countP_pos_iff.mpr ⟨m, hm, hIno⟩) hNot

end Issuing

section Creations

/-! CREATE and MKDIR answer with a handle for the path of the new object, or leave the cache as it
was. `Q` says of the reply and the cache after it what is to be shown. -/

variable {Q : NfsReply DirOpOk → InodeCache → Prop}

/-- A postcondition that is about the reply and the cache only. -/
def OfCache (Q : NfsReply DirOpOk → InodeCache → Prop) (reply : NfsReply DirOpOk) (w' : World) :
    Prop :=
  Q reply w'.inodeCache

/-- As long as the cache is as it was, the request may fail. -/
theorem failSafe_ofCache {v : World} (h : ∀ reply, reply.isOk = false → Q reply v.inodeCache) :
    FailSafe (OfCache Q) v :=
  fun reply hReply _ => h reply hReply

variable {cache : InodeCache} (hFail : ∀ reply, reply.isOk = false → Q reply cache)

include hFail

/-- The end of CREATE and MKDIR. -/
theorem safe_finish {p : Path} (a : Attributes)
    (hNew : ∀ body, Q (.ok body) (cache.addInodeMapping body.file p)) {v : World}
    (hCache : v.inodeCache = cache) :
    Safe .none (OfCache Q) (setTimes p a <| withNewHandle p (answerWithHandle p)) v := by
  subst hCache
  have hAnswer : ∀ fs', Safe .none (OfCache Q) (withNewHandle p (answerWithHandle p))
      (v.withFs fs') := fun fs' =>
    safe_answerNew (fun _ _ => trivial) (failSafe_ofCache (v := v.withFs fs') hFail)
      fun st ts _ _ => hNew ⟨⟨st.ino, ts⟩, _⟩
  exact safe_setTimes (fun _ _ _ => trivial) (failSafe_ofCache hFail) (hAnswer v.fs)
    fun _ _ _ fs' _ => hAnswer fs'

variable {args : CreateArgs} (hCache : w.inodeCache = cache)
  (hNew : ∀ i n a p, args.decode = some (i, n, a) →
    cache.getAbsolutePathFromInodeNumber i = some p →
    ∀ body, Q (.ok body) (cache.addInodeMapping body.file (getFileAbsolutePath p n)))

include hCache hNew

theorem safe_createFile : Safe .none (OfCache Q) (serveNfsProcedure9CreateFile cred args) w := by
  subst hCache
  refine safe_orGarbageArgs (failSafe_ofCache hFail) fun x hArgs => ?_
  obtain ⟨d, n, a⟩ := x
  refine safe_withNewName (fun _ _ => ⟨fun _ => trivial, fun _ => trivial⟩)
    (failSafe_ofCache hFail) fun p st hDir _ _ => ?_
  have hEnd := hNew d n a p hArgs hDir.cached
  refine safe_orReport_change (r := fun c => w.fs.openCreat w.host w.machine.openDirs
    (getFileAbsolutePath p n)
    ((if a.mode ≠ unchanged32 then some a.mode else none).getD c.mode) c.ino c.now)
    (fun _ => rfl) (fun _ => trivial) (failSafe_ofCache hFail) fun c fs₁ _ => ?_
  -- what follows changes the file system, and not the cache before the handle is made
  refine safe_setOwner (fun _ => trivial) (failSafe_ofCache (v := w.withFs fs₁) hFail)
    fun _ fs₂ _ => ?_
  exact safe_setSize (fun _ => trivial) (failSafe_ofCache (v := w.withFs fs₂) hFail)
    (safe_finish hFail a hEnd rfl) fun _ fs₃ _ => safe_finish hFail a hEnd rfl

theorem safe_createDirectory :
    Safe .none (OfCache Q) (serveNfsProcedure14CreateDirectory cred args) w := by
  subst hCache
  refine safe_orGarbageArgs (failSafe_ofCache hFail) fun x hArgs => ?_
  obtain ⟨d, n, a⟩ := x
  refine safe_withNewName (fun _ _ => ⟨fun _ => trivial, fun _ => trivial⟩)
    (failSafe_ofCache hFail) fun p st hDir _ _ => ?_
  refine safe_orReport_change (r := fun c => w.fs.mkdir w.host w.machine.openDirs
    (getFileAbsolutePath p n) (if a.mode ≠ unchanged32 then a.mode else 0o700) c.ino c.now)
    (fun _ => rfl) (fun _ => trivial) (failSafe_ofCache hFail) fun c fs₁ _ => ?_
  refine safe_setOwner (fun _ => trivial) (failSafe_ofCache (v := w.withFs fs₁) hFail)
    fun _ fs₂ _ => ?_
  split
  · exact safe_err (failSafe_ofCache (v := w.withFs fs₂) hFail) _
  · exact safe_finish hFail a (hNew d n a p hArgs hDir.cached) rfl

end Creations

/-- The postcondition of LOOKUP, CREATE and MKDIR. -/
def IssuesFrom (cache : InodeCache) : NfsReply DirOpOk → World → Prop :=
  OfCache fun reply cache' => Issuing cache (Answer.dirOpRes reply).handle cache'

theorem issuing_of_failed {cache : InodeCache} (reply : NfsReply DirOpOk)
    (hReply : reply.isOk = false) : Issuing cache (Answer.dirOpRes reply).handle cache := by
  cases reply with
  | ok body => cases hReply
  | systemErr | garbageArgs | err => exact .nothing

/-- Where nothing fails of its own, the attributes of a handle that is about to
be answered are found, and the handle is not forgotten. -/
theorem Quiet.safe_answerWithHandle (hw : Quiet w) {p : Path}
    {Q : NfsReply DirOpOk → World → Prop} {st : Kernel.Stat} (hStat : w.fs.lstat w.host p = .ok st)
    (h : ∀ t, Q (.ok ⟨handle, fattrOfStat st⟩) (w.atTick t)) :
    Safe .none Q (answerWithHandle p handle) w := by
  intro t
  have hTick : Quiet (w.atTick t) := ⟨hw.fault, hw.memory⟩
  refine Prog.sat_of_run (fun o _ => by cases o <;> trivial) ?_
  -- the branch that forgets the handle again is not reached
  rw [run_answerWithHandle (w := w.atTick t) hStat hTick.describes]
  exact h (t + 5)

theorem issuing_mnt (dirpath : MsgPath) :
    Safe .none (fun reply w' => Issuing w.inodeCache (Answer.fhStatus reply).handle w'.inodeCache)
      (serveMntProcedure1AddMountEntry cred dirpath) w := by
  obtain ⟨_ | p⟩ := dirpath
  · exact safe_pure fun _ => .nothing
  · refine safe_mnt (fun _ => trivial) ?_ fun st ts mounts _ _ _ _ => .new ⟨st.ino, ts⟩ p
    intro reply hReply t
    cases reply with
    | ok handle => cases hReply
    | systemErr | garbageArgs | err => exact .nothing

theorem Quiet.issuing_lookup (hw : Quiet w) (args : DirOpArgs) :
    Safe .none (IssuesFrom w.inodeCache) (serveNfsProcedure4LookUpFileName cred args) w := by
  have hFail : FailSafe (IssuesFrom w.inodeCache) w := failSafe_ofCache issuing_of_failed
  refine safe_lookUpFileName hFail (fun _ _ _ _ _ => ⟨fun _ => trivial, fun _ => trivial⟩) ?_ ?_
  · intro d n p stDir st handle h hHandle
    exact hw.safe_answerWithHandle h.file fun _ => .known hHandle
  · intro d n p stDir st h _
    exact safe_answerNew (fun _ _ => trivial) hFail
      fun st' ts _ _ => .new ⟨st'.ino, ts⟩ (getFileAbsolutePath p n)

/-- **The list is complete** where no call fails for a reason of its own. -/
theorem Quiet.issuing (hw : Quiet w) (cred : Credential) (hr : r.issues = true) :
    Issuing w.inodeCache (w.answer cred r).handle (w.afterRequest cred r).inodeCache := by
  refine Safe.run (p := serve cred r)
    (Q := fun a w' => Issuing w.inodeCache a.handle w'.inodeCache) ?_
  cases r with
  | mnt args => exact safe_return (issuing_mnt args)
  | lookup args => exact safe_return (hw.issuing_lookup args)
  | create args =>
    exact safe_return (safe_createFile issuing_of_failed rfl fun _ _ _ _ _ _ _ => .new _ _)
  | mkdir args =>
    exact safe_return (safe_createDirectory issuing_of_failed rfl fun _ _ _ _ _ _ _ => .new _ _)
  | _ => cases hr

/-- No other request answers with a handle. -/
theorem handle_eq_none (w : World) (cred : Credential) (hr : r.issues = false) :
    (w.answer cred r).handle = none := by
  have hReturns : (serve cred r).Returns fun a => a.handle = none := by
    cases r with
    | mnt | lookup | create | mkdir => cases hr
    | _ => exact Prog.returns_bind_any fun _ => Prog.returns_pure rfl
  exact hReturns.run w

/-- Nor does it make another number known. -/
theorem Effect.knows {ok : Bool} {fs' : FileSystem} {cache : InodeCache}
    (h : Effect w cred r ok fs' cache) (hr : r.issues = false)
    (hi : 0 < cache.countP (hasInode i)) : w.Knows i := by
  cases h with
  | nothing | touched | symlinked | linked => exact hi
  | mounted | lookedUp | forgotten => cases hr
  -- an object is made by CREATE and MKDIR only, and they issue handles
  | created hRequest =>
    cases r <;> simp_all [Request.creation, Request.issues]
  | removed => exact lt_of_lt_of_le hi eraseP_sublist.countP_le
  | renamed =>
    rw [countP_hasInode_update] at hi
    exact hi

/-! ## Issued and known -/

/-- **An issued handle is known.** -/
theorem Quiet.knows_of_issued (hw : Quiet w) (h : (w.answer cred r).handle = some handle) :
    (w.afterRequest cred r).Knows handle.inodeNumber := by
  cases hr : r.issues with
  | false => exact absurd h (by simp [handle_eq_none w cred hr])
  | true =>
    have hIssuing := hw.issuing cred hr
    rw [h] at hIssuing
    exact hIssuing.mapped

/-- **A number becomes known only with a handle that is issued.** -/
theorem Quiet.issued_of_learned (hw : Quiet w) (hNot : ¬w.Knows i)
    (hKnows : (w.afterRequest cred r).Knows i) :
    ∃ handle, (w.answer cred r).handle = some handle ∧ handle.inodeNumber = i := by
  cases hr : r.issues with
  | false => exact absurd ((effect_serve w cred r).knows hr hKnows) hNot
  | true => exact (hw.issuing cred hr).learned hNot hKnows

/-- **GETATTR of a known object.** -/
theorem Quiet.getattr_of_known (hw : Quiet w) (hSound : Sound w.fs w.inodeCache)
    (hKnows : w.Knows handle.inodeNumber) (cred : Credential) :
    ∃ st, w.fs.stat w.host handle.inodeNumber = .ok st ∧
      w.answer cred (.getattr ⟨some handle⟩) = .attrStat (.ok (fattrOfStat st)) := by
  obtain ⟨p, hp⟩ := World.knows_iff.mp hKnows
  have hLookup := (hSound.spells_of_cached hp).lookup
  obtain ⟨st, hStat, -⟩ := FileSystem.lstat_of_lookup w.host hLookup
  refine ⟨st, ?_, ?_⟩
  · unfold FileSystem.lstat at hStat
    rw [hLookup] at hStat
    exact hStat
  · unfold World.answer serve
    rw [Prog.run_bind, hw.run_getattr cred hp hStat handle.timestamp]
    rfl

end QuicNfs.Server

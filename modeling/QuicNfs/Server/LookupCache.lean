import QuicNfs.Server.Outcomes

/-!
# QuicNfs — LOOKUP and the inode cache

LOOKUP answers with the handle that the cache has for the object, or with a new one. Where it
cannot get the attributes of the object in the end, it removes the first mapping of the
object from the cache, whether it has added that mapping itself or not.

* `LookupFinds` — LOOKUP has come to the object, and only the handle and the attributes are
  left to do;
* `lookup_forgets_nothing_iff` — a LOOKUP that fails leaves the cache as it was, unless the
  object was known and the second look at it fails.
-/

namespace QuicNfs.Server

open Kernel Lib

/-- What LOOKUP does when it has found the object with number `i` at `q`. -/
def answerLookup (q : Path) (i : Ino) : Proc (NfsReply DirOpOk) := do
  let cache ← Prog.call .getInodeCache
  match cache.getNfsFilehandleFromInodeNumber i with
  | some handle => answerWithHandle q handle
  | none => withNewHandle q (answerWithHandle q)

/-- LOOKUP has found the object at `q` in a directory that the caller may search, and no call
has failed on the way there. -/
structure LookupFinds (w : World) (cred : Credential) (args : DirOpArgs) (q : Path)
    (st : Kernel.Stat) : Prop where
  described : w.Describes
  clear : (w.wait 5).Clear
  stat : w.fs.lstat w.host q = .ok st
  named : ∃ i n p d, args.decode = some (i, n) ∧ w.directory i = .ok (p, d) ∧
    q = getFileAbsolutePath p n ∧ Passes (w.wait 6) cred .execute d

/-- The calls of LOOKUP before the handle. -/
def lookupCalls (cred : Credential) : Nat := 6 + permissionCalls cred

section Lookup

variable {w : World} {cred : Credential} {args : DirOpArgs} {q : Path} {st : Kernel.Stat}

theorem LookupFinds.unique {q' : Path} {st' : Kernel.Stat} (h : LookupFinds w cred args q st)
    (h' : LookupFinds w cred args q' st') : st = st' := by
  obtain ⟨i, n, p, d, hArgs, hDir, rfl, -⟩ := h.named
  obtain ⟨i', n', p', d', hArgs', hDir', rfl, -⟩ := h'.named
  obtain ⟨rfl, rfl⟩ := Prod.mk.inj (Option.some.inj (hArgs.symm.trans hArgs'))
  obtain ⟨rfl, -⟩ := Prod.mk.inj (Except.ok.inj (hDir.symm.trans hDir'))
  exact Except.ok.inj (h.stat.symm.trans h'.stat)

theorem LookupFinds.goesOn (h : LookupFinds w cred args q st) :
    GoesOn (serveNfsProcedure4LookUpFileName cred args) w (answerLookup q st.ino)
      (w.wait (lookupCalls cred)) := by
  obtain ⟨i, n, p, d, hArgs, hDir, rfl, hPasses⟩ := h.named
  obtain ⟨-, hLookup, -⟩ := directory_eq_ok hDir
  unfold serveNfsProcedure4LookUpFileName orGarbageArgs checkLookupProcPermissions
  rw [hArgs]
  refine (goesOn_withDirectory hDir h.described).trans ?_
  refine (goesOn_withExisting (w := w.wait 5) h.stat h.clear).trans ?_
  have hCheck := goesOn_withPermission (w := w.wait 6) hLookup hPasses
    (k := answerLookup (getFileAbsolutePath p n) st.ino)
  rwa [World.wait_wait] at hCheck

/-- Where LOOKUP does not get that far, it stops. -/
theorem stops_lookup (h : ¬∃ q st, LookupFinds w cred args q st) :
    Stops (serveNfsProcedure4LookUpFileName cred args) w := by
  unfold serveNfsProcedure4LookUpFileName checkLookupProcPermissions
  cases hArgs : args.decode with
  | none => exact stops_orGarbageArgs
  | some a =>
    obtain ⟨i, n⟩ := a
    dsimp only [orGarbageArgs]
    -- a test that is passed is one of the conditions of `LookupFinds`
    by_cases hFound : (∃ x, w.directory i = .ok x) ∧ w.Describes
    · obtain ⟨⟨⟨p, d⟩, hDir⟩, hDescribes⟩ := hFound
      obtain ⟨-, hLookup, -⟩ := directory_eq_ok hDir
      refine (goesOn_withDirectory hDir hDescribes).stops ?_
      by_cases hExists : (∃ st, w.fs.lstat w.host (getFileAbsolutePath p n) = .ok st) ∧
          (w.wait 5).Clear
      · obtain ⟨⟨st, hStat⟩, hClear⟩ := hExists
        refine (goesOn_withExisting (w := w.wait 5) hStat hClear).stops ?_
        have hRefused : ¬Passes (w.wait 6) cred .execute d := fun hPasses =>
          h ⟨_, st, hDescribes, hClear, hStat, i, n, p, d, hArgs, hDir, rfl, hPasses⟩
        exact stops_withPermission (w := w.wait 6) hLookup hRefused
      · exact stops_withExisting (w := w.wait 5) hExists
    · exact stops_withDirectory hFound

/-! ## The rollback -/

/-- The handle of a known object is gone if it is removed. -/
theorem removeInodeMapping_ne {cache : InodeCache} {i : Ino} {handle : NfsFileHandle}
    (h : cache.getNfsFilehandleFromInodeNumber i = some handle) :
    cache.removeInodeMappingByInodeNumber handle.inodeNumber ≠ cache := by
  obtain ⟨m, hm, rfl⟩ := Option.map_eq_some_iff.mp h
  have hMem := List.mem_of_find?_eq_some hm
  intro hSame
  have hIno : InodeCache.hasInode m.nfsFilehandle.inodeNumber m = true := beq_self_eq_true _
  have hLength := congrArg List.length hSame
  rw [InodeCache.removeInodeMappingByInodeNumber, List.length_eraseP_of_mem hMem hIno] at hLength
  have := List.length_pos_of_mem hMem
  omega

/-- A new handle is forgotten if the request fails. -/
theorem safe_answerLookup_new (hNew : w.inodeCache.getNfsFilehandleFromInodeNumber st.ino = none) :
    Safe .none (fun reply w' => reply.isOk = false → w'.inodeCache = w.inodeCache)
      (answerLookup q st.ino) w := by
  refine safe_getInodeCache ?_
  rw [hNew]
  exact safe_answerNew (fun _ _ => trivial) (fun _ _ _ _ => rfl)
    fun _ _ _ _ hFailed => absurd hFailed (by simp [Reply.isOk])

theorem run_answerLookup_known {handle : NfsFileHandle}
    (h : w.inodeCache.getNfsFilehandleFromInodeNumber st.ino = some handle) :
    (answerLookup q st.ino).run w = (answerWithHandle q handle).run w := by
  unfold answerLookup
  rw [run_getInodeCache, h]

end Lookup

/-- **A failed LOOKUP forgets nothing** if and only if the attributes of an object whose handle
the cache has already can be read at the end. Where they cannot, that handle is removed. -/
theorem lookup_forgets_nothing_iff (w : World) (cred : Credential) (args : DirOpArgs) :
    ((w.answer cred (.lookup args)).isOk = false →
      (w.afterRequest cred (.lookup args)).inodeCache = w.inodeCache) ↔
      ∀ q st handle, LookupFinds w cred args q st →
        w.inodeCache.getNfsFilehandleFromInodeNumber st.ino = some handle →
        (w.wait (lookupCalls cred)).Describes := by
  unfold World.answer World.afterRequest serve
  rw [run_return]
  dsimp only [Answer.isOk]
  by_cases hFinds : ∃ q st, LookupFinds w cred args q st
  · obtain ⟨q, st, hFinds⟩ := hFinds
    rw [hFinds.goesOn.run]
    cases hHandle : w.inodeCache.getNfsFilehandleFromInodeNumber st.ino with
    | none =>
      -- what is removed, if anything, is the mapping that this request has added
      have hSafe := safe_answerLookup_new (q := q) (w := w.wait (lookupCalls cred)) hHandle
      refine iff_of_true hSafe.run fun q' st' handle hFinds' hHandle' => ?_
      rw [hFinds'.unique hFinds, hHandle] at hHandle'
      cases hHandle'
    | some handle =>
      rw [run_answerLookup_known (w := w.wait (lookupCalls cred)) hHandle]
      by_cases hDescribes : (w.wait (lookupCalls cred)).Describes
      · refine iff_of_true (fun hFailed => ?_) fun _ _ _ _ _ => hDescribes
        rw [run_answerWithHandle (w := w.wait (lookupCalls cred)) hFinds.stat hDescribes] at hFailed
        cases hFailed
      · -- the mapping that is removed is the one that was there
        refine iff_of_false (fun hSame => ?_) fun h => hDescribes (h q st handle hFinds hHandle)
        obtain ⟨t, ht⟩ := run_answerWithHandle_of_not (p := q) hDescribes
        rw [ht] at hSame
        exact removeInodeMapping_ne hHandle (hSame rfl)
  · have hStops := stops_lookup hFinds
    refine iff_of_true (fun _ => ?_) fun q st _ h => absurd ⟨q, st, h⟩ hFinds
    obtain ⟨t, ht⟩ := hStops.still
    rw [ht]
    rfl

/-- **A failed LOOKUP takes a handle away.** The directory `/exp/a` is known when a second
LOOKUP of it fails, at the last `lstat`; after that its handle leads nowhere. -/
theorem lookup_forgets_known :
    let w := (Sample.failing 36).steps [Sample.mount,
      Sample.request (.lookup (Sample.nameIn 2 "a"))]
    let r := Request.lookup (Sample.nameIn 2 "a")
    w.view 3 = some (bytes "/exp/a") ∧ (w.answer (.authSys Sample.caller) r).isOk = false ∧
      (w.afterRequest (.authSys Sample.caller) r).view 3 = none := by
  decide +kernel

end QuicNfs.Server

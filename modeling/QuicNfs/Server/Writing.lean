import QuicNfs.Server.Runs

/-!
# QuicNfs — whether WRITE keeps its word

WRITE answers NFS_OK when `fwrite` has taken the data. The bytes that are still in
the stream's buffer then reach the file in `fclose`, whose result nobody looks at.

* `write_honest_iff` — after NFS_OK the file has the data exactly if the bytes that
  did not reach it stood there before;
* `write_lies` — a flush that fails.
-/

namespace QuicNfs.Server

open Kernel Lib

/-- The world in which WRITE calls `write_to_file`: `get_attributes` and the check of
the permission come before. -/
def World.beforeWriting (w : World) (cred : Credential) : World :=
  w.wait (5 + permissionCalls cred)

theorem fopen_of_lookup {fs : FileSystem} {p : Path} {update : Bool} {file file' : Ino}
    (hOpen : fs.fopen p update = .ok file') (hFile : fs.lookup true p = .ok file) :
    file' = file := by
  have h := FileSystem.fopen_ok hOpen
  rw [hFile] at h
  exact (Except.ok.inj h).symm

/-- A WRITE that answers NFS_OK has written to the file at the cached path. -/
theorem fs_of_write_ok {cred : Credential} {args : WriteArgs} {w w' : World} {i : Ino}
    {data : Bytes} {p : Path} {file : Ino} {fattr : FAttr} (hArgs : args.decode = some (i, data))
    (hPath : w.inodeCache.getAbsolutePathFromInodeNumber i = some p)
    (hFile : w.fs.lookup true p = .ok file)
    (hRun : (serveNfsProcedure8WriteToFile cred args).run w = (.ok fattr, w')) :
    w'.fs = (w.beforeWriting cred).written file args.offset data := by
  unfold serveNfsProcedure8WriteToFile at hRun
  rw [hArgs] at hRun
  change (withFile i _).run w = _ at hRun
  rw [run_withFile_of_cached hPath] at hRun
  obtain ⟨st, -, hRun⟩ := run_withAttributes hRun
  -- a directory and too much data are turned away
  split at hRun
  · cases hRun
  · split at hRun
    · cases hRun
    · have hRun := run_withPermission hRun
      rw [World.wait_wait, Prog.run_bind] at hRun
      cases hResult : ((writeToFile p args.offset data).run (w.beforeWriting cred)).1 with
      | written =>
        obtain ⟨file', hOpen, hWorld⟩ := run_writeToFile (Prod.ext hResult rfl)
        obtain rfl := fopen_of_lookup hOpen hFile
        rw [show (writeToFile p args.offset data).run (w.wait (5 + permissionCalls cred)) =
          (.written, _) from Prod.ext hResult hWorld] at hRun
        obtain ⟨st', -, hRun⟩ := run_withAttributes hRun
        cases hRun
        rfl
      | notOpened | notSeekable | tooBig | ioError | noSpace | failed =>
        unfold World.beforeWriting at hResult
        rw [hResult] at hRun
        cases hRun

theorem answer_write_isOk {w : World} {cred : Credential} {args : WriteArgs}
    (h : (w.answer cred (.write args)).isOk) :
    ∃ fattr, (serveNfsProcedure8WriteToFile cred args).run w =
      (.ok fattr, w.afterRequest cred (.write args)) := by
  have hServe : (serve cred (.write args)).run w =
      (.attrStat ((serveNfsProcedure8WriteToFile cred args).run w).1,
        ((serveNfsProcedure8WriteToFile cred args).run w).2) := Prog.run_bind _ _ w
  unfold World.answer at h
  unfold World.afterRequest
  rw [hServe] at h ⊢
  cases hReply : ((serveNfsProcedure8WriteToFile cred args).run w).1 with
  | ok fattr => exact ⟨fattr, Prod.ext hReply rfl⟩
  | garbageArgs | systemErr | err =>
    rw [hReply] at h
    cases h

/-- **WRITE and the flush.** After a WRITE of a regular file that answered NFS_OK, the
file is the old one with the data at the offset exactly if the bytes that neither
`fwrite` nor the flush got to the file stood there before; in particular if the flush
did not fail. -/
theorem write_honest_iff {cred : Credential} {args : WriteArgs} {w : World} {i : Ino}
    {data old : Bytes} {p : Path} {file : Ino} (hArgs : args.decode = some (i, data))
    (hPath : w.inodeCache.getAbsolutePathFromInodeNumber i = some p)
    (hFile : w.fs.lookup true p = .ok file) (hOld : w.fs.Holds file old)
    (hOk : (w.answer cred (.write args)).isOk) :
    (w.afterRequest cred (.write args)).fs.Holds file (overwrite args.offset data old) ↔
      data.drop ((w.beforeWriting cred).stored data) <+:
        old.drop (args.offset + (w.beforeWriting cred).stored data) := by
  obtain ⟨fattr, hRun⟩ := answer_write_isOk hOk
  have hHolds := World.holds_written (w := w.beforeWriting cred) hOld args.offset data
  rw [fs_of_write_ok hArgs hPath hFile hRun, ← splice_take_eq_iff]
  constructor
  · exact fun h => hHolds.unique h
  · intro h
    have h : overwrite args.offset _ old = overwrite args.offset data old := h
    rwa [h] at hHolds

/-! ## A disk that is full -/

namespace Sample

def root : Credential := .authSys ⟨0, bytes "client", 0, 0, []⟩

/-- Root has mounted the export and looked up `a/f`; the `t`-th call fails. -/
def beforeWrite (t : Nat) : World :=
  (World.boot files host (some (bytes "/exp *(rw)\n")) fun k =>
      if k = t then { env k with fault := some .noSpace } else env k).steps
    [.request root (.mnt ⟨some (bytes "/exp")⟩), .request root (.lookup (nameIn 2 "a")),
      .request root (.lookup (nameIn 3 "f"))]

/-- Overwrite the four bytes of the file. -/
def writeArgs : WriteArgs := ⟨some (handle 4), 0, some (bytes "new!")⟩

end Sample

/-- Where nothing fails, the data is in the file. -/
theorem write_honest_iff_calm :
    ((Sample.beforeWrite 1000).afterRequest Sample.root (.write Sample.writeArgs)).fs.Holds 4
      (overwrite 0 (bytes "new!") (bytes "data")) :=
  (write_honest_iff (p := bytes "/exp/a/f") (i := 4) rfl (by decide +kernel) (by decide +kernel)
    (by decide +kernel) (by decide +kernel)).mpr (by decide +kernel)

/-- The disk is full when `fclose` flushes: WRITE answers NFS_OK, and the file is
still the old one. -/
theorem write_lies :
    ((Sample.beforeWrite 52).answer Sample.root (.write Sample.writeArgs)).isOk ∧
      ((Sample.beforeWrite 52).afterRequest Sample.root (.write Sample.writeArgs)).fs.Holds 4
        (bytes "data") ∧
      ¬ ((Sample.beforeWrite 52).afterRequest Sample.root (.write Sample.writeArgs)).fs.Holds 4
        (overwrite 0 (bytes "new!") (bytes "data")) := by
  decide +kernel

end QuicNfs.Server

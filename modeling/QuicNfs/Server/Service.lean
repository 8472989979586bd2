import QuicNfs.Server.Writing
import QuicNfs.Server.Rules
import QuicNfs.Kernel.BuiltPaths

/-!
# QuicNfs — the service of a quiet server

On a machine where no call fails for a reason of its own, a caller with the
permissions gets what it asks for: `Quiet.lookup`, `Quiet.getattr`, `Quiet.read` and
`Quiet.write` say what the procedures answer, and what the world is afterwards.
-/

namespace QuicNfs.Server

open Kernel Lib FileSystem Prog

/-- The path under which the server knows an object. -/
def World.view (w : World) (i : Ino) : Option Path :=
  w.inodeCache.getAbsolutePathFromInodeNumber i

/-- Nothing has changed but what the server knows and the count of calls. -/
structure Undisturbed (w w' : World) : Prop where
  fs : w'.fs = w.fs
  host : w'.host = w.host
  env : w'.machine.env = w.machine.env
  sessions : w'.readdirSessions = w.readdirSessions

theorem Undisturbed.quiet {w w' : World} (h : Undisturbed w w') (hw : Quiet w) : Quiet w' :=
  ⟨fun t => by rw [h.env]; exact hw.fault t, fun t => by rw [h.env]; exact hw.memory t⟩

variable {w : World} {cred : Credential} {p : Path} {i : Ino}
variable {st : Kernel.Stat} {handle : NfsFileHandle} {fs : FileSystem} {data : Bytes}

theorem nfsFtype_eq_dir_iff (hStat : w.fs.lstat w.host p = .ok st) :
    (fattrOfStat st).nfsFtype = .nfDir ↔ w.fs.isDir st.ino := by
  show decodeFileType st.format = .nfDir ↔ _
  rw [decodeFileType_eq_dir, isDir_of_format hStat]

/-! ## LOOKUP -/

theorem Quiet.run_withDirectory {β : Type} (hw : Quiet w) {d : Ino}
    {k : Path → Proc (NfsReply β)} (hView : w.view d = some p)
    (hLookup : w.fs.lookup false p = .ok i) (hDir : w.fs.isDir i) :
    (withDirectory d k).run w = (k p).run (w.wait 5) := by
  obtain ⟨st, hStat, rfl⟩ := lstat_of_lookup w.host hLookup
  unfold withDirectory
  rw [run_withFile_of_cached hView, hw.run_withAttributes hStat,
    if_pos ((nfsFtype_eq_dir_iff hStat).mpr hDir)]

theorem Quiet.run_withExisting {β : Type} (hw : Quiet w) {k : Kernel.Stat → Proc (NfsReply β)}
    (hStat : w.fs.lstat w.host p = .ok st) : (withExisting p k).run w = (k st).run (w.wait 1) := by
  unfold withExisting
  rw [run_lstat, hw.sees, hStat]

theorem run_answerWithHandle (hStat : w.fs.lstat w.host p = .ok st) (h : w.Describes) :
    (answerWithHandle p handle).run w = (.ok ⟨handle, fattrOfStat st⟩, w.wait 5) := by
  unfold answerWithHandle
  rw [run_bind, run_getAttributes hStat h]
  rfl

/-- The world without the first mapping of `i`. -/
def World.forget (w : World) (i : Ino) : World :=
  { w with inodeCache := w.inodeCache.removeInodeMappingByInodeNumber i }

theorem run_answerWithHandle_of_not (h : ¬w.Describes) :
    ∃ t, (answerWithHandle p handle).run w =
      (.systemErr, (w.forget handle.inodeNumber).atTick t) := by
  obtain ⟨t, ht⟩ := run_getAttributes_of_not (p := p) fun h' => h h'.2
  unfold answerWithHandle
  rw [run_bind, ht]
  exact ⟨t, rfl⟩

/-- What the server knows after it has met the object `e` at the path `q`. -/
def learn (view : Ino → Option Path) (e : Ino) (q : Path) : Ino → Option Path :=
  fun x => if x = e then some ((view e).getD q) else view x

theorem learn_of_known {view : Ino → Option Path} {e : Ino} {q q' : Path}
    (h : view e = some q') : learn view e q = view := by
  funext x
  unfold learn
  split
  · next hx => rw [hx, h]; rfl
  · rfl

theorem view_add (hNew : w.view handle.inodeNumber = none) (t : Nat) :
    World.view { w.wait t with inodeCache := ⟨handle, p⟩ :: w.inodeCache } =
      learn w.view handle.inodeNumber p := by
  funext x
  unfold learn
  rw [hNew]
  show ((⟨handle, p⟩ :: w.inodeCache).find? (InodeCache.hasInode x)).map (·.absolutePath) = _
  by_cases hx : x = handle.inodeNumber
  · rw [if_pos hx, List.find?_cons_of_pos (by simp [InodeCache.hasInode, hx])]
    rfl
  · rw [if_neg hx, List.find?_cons_of_neg (by simpa [InodeCache.hasInode] using Ne.symm hx)]
    rfl

/-- The path is looked at, the clock is read, then the handle and the mapping are allocated. -/
theorem run_createNfsFilehandle (hStat : w.fs.lstat w.host p = .ok st) (hClear : w.Clear)
    (hSupplied : (w.wait 2).Supplied 3) :
    ∃ t, (createNfsFilehandle p).run w =
      (some ⟨st.ino, t⟩, { w.wait 5 with inodeCache := ⟨⟨st.ino, t⟩, p⟩ :: w.inodeCache }) := by
  refine ⟨(w.machine.env (w.machine.tick + 1)).now.sec, ?_⟩
  unfold createNfsFilehandle getInodeNumber
  rw [run_bind, run_lstat, hClear.sees, hStat]
  show (allocate 3 >>= _).run (w.wait 2) = _
  rw [run_bind, run_allocate hSupplied]
  rfl

theorem run_createNfsFilehandle_of_not (h : ¬(w.Clear ∧ (w.wait 2).Supplied 3)) :
    ∃ t, (createNfsFilehandle p).run w = (none, w.atTick t) := by
  unfold createNfsFilehandle getInodeNumber
  rw [run_bind, run_lstat]
  cases hSees : w.sees (w.fs.lstat w.host p) with
  | error e => exact ⟨w.machine.tick + 1, rfl⟩
  | ok st =>
    obtain ⟨t, ht⟩ := run_allocate_of_not fun hSupplied => h ⟨World.clear_of_sees hSees, hSupplied⟩
    refine ⟨t, ?_⟩
    show (allocate 3 >>= _).run (w.wait 2) = _
    rw [run_bind, ht]
    rfl

theorem Quiet.run_createNfsFilehandle (hw : Quiet w) (hStat : w.fs.lstat w.host p = .ok st)
    (hNew : w.view st.ino = none) :
    ∃ t w', (createNfsFilehandle p).run w = (some ⟨st.ino, t⟩, w') ∧ Undisturbed w w' ∧
      w'.view = learn w.view st.ino p := by
  obtain ⟨t, hRun⟩ := Server.run_createNfsFilehandle hStat hw.clear ((hw.wait 2).supplied 3)
  have hNew : w.view (⟨st.ino, t⟩ : NfsFileHandle).inodeNumber = none := hNew
  exact ⟨t, _, hRun, ⟨rfl, rfl, rfl, rfl⟩, view_add hNew 5⟩

/-- LOOKUP of a name in a directory that the caller may search. -/
theorem Quiet.lookup (hw : Quiet w) {d dir e : Ino} {t : Nat} {n : Bytes}
    (hView : w.view d = some p) (hLookup : w.fs.lookup false p = .ok dir) (hDir : w.fs.isDir dir)
    (hAllowed : Allowed w.fs cred .execute dir)
    (hEntry : w.fs.lookup false (getFileAbsolutePath p n) = .ok e) :
    ∃ handle st w', w.fs.lstat w.host (getFileAbsolutePath p n) = .ok st ∧ st.ino = e ∧
      handle.inodeNumber = e ∧ Undisturbed w w' ∧
      w'.view = learn w.view e (getFileAbsolutePath p n) ∧
      (serveNfsProcedure4LookUpFileName cred
        ⟨some ⟨some ⟨d, t⟩⟩, some ⟨some n⟩⟩).run w = (.ok ⟨handle, fattrOfStat st⟩, w') := by
  obtain ⟨st, hStat, rfl⟩ := lstat_of_lookup w.host hEntry
  unfold serveNfsProcedure4LookUpFileName checkLookupProcPermissions
  show ∃ handle st' w', _ ∧ _ ∧ _ ∧ _ ∧ _ ∧ (withDirectory d _).run w = _
  rw [hw.run_withDirectory hView hLookup hDir, (hw.wait 5).run_withExisting hStat,
    Quiet.run_withPermission ((hw.wait 5).wait 1) hLookup hAllowed, World.wait_wait,
    World.wait_wait, run_getInodeCache]
  have hw' := hw.wait (5 + (1 + permissionCalls cred))
  cases hHandle : w.inodeCache.getNfsFilehandleFromInodeNumber st.ino with
  | some handle =>
    obtain ⟨hIno, path, hKnown⟩ := InodeCache.of_getNfsFilehandle hHandle
    rw [World.inodeCache_wait, hHandle]
    dsimp only
    rw [run_answerWithHandle (w := w.wait _) hStat hw'.describes]
    exact ⟨handle, st, (w.wait (5 + (1 + permissionCalls cred))).wait 5, hStat, rfl,
      hIno, ⟨rfl, rfl, rfl, rfl⟩, (learn_of_known hKnown).symm, rfl⟩
  | none =>
    have hNew : w.view st.ino = none := InodeCache.getAbsolutePath_of_no_handle hHandle
    obtain ⟨t, w₁, hCreate, hSame, hLearn⟩ := hw'.run_createNfsFilehandle hStat hNew
    have hStat₁ : w₁.fs.lstat w₁.host (getFileAbsolutePath p n) = .ok st := by
      rw [hSame.fs, hSame.host]
      exact hStat
    rw [World.inodeCache_wait, hHandle]
    dsimp only [withNewHandle]
    rw [run_bind, hCreate]
    dsimp only
    rw [run_answerWithHandle hStat₁ (hSame.quiet hw').describes]
    exact ⟨_, st, w₁.wait 5, hStat, rfl, rfl, ⟨hSame.fs, hSame.host, hSame.env, hSame.sessions⟩, hLearn, rfl⟩

/-! ## Reading and writing -/

theorem not_link_of_holds (h : fs.Holds i data) (target : Bytes) :
    fs.kind i ≠ some (.link target) := by
  obtain ⟨x, hx, hContent⟩ := Option.map_eq_some_iff.mp h
  unfold Tree.kind
  rw [hx]
  simp [hContent, Content.kind]

theorem not_dir_of_holds (h : fs.Holds i data) : fs.isDir i = false := by
  obtain ⟨x, hx, hContent⟩ := Option.map_eq_some_iff.mp h
  unfold Tree.isDir
  rw [hx]
  simp [hContent, Content.isDir]

/-- `lstat` of a regular file reports its length. -/
theorem lstat_of_holds (h : w.fs.Holds i data) (hLookup : w.fs.lookup false p = .ok i) :
    ∃ st, w.fs.lstat w.host p = .ok st ∧ (fattrOfStat st).size = data.length ∧
      (fattrOfStat st).nfsFtype ≠ .nfDir := by
  obtain ⟨x, hx, hContent⟩ := Option.map_eq_some_iff.mp h
  unfold lstat
  rw [hLookup]
  simp only [Except.bind, stat, hx]
  refine ⟨_, rfl, ?_, ?_⟩
  · show x.content.size = _
    rw [hContent]
    rfl
  · show decodeFileType x.content.format ≠ _
    rw [hContent]
    simp [decodeFileType, Content.format]

theorem fopen_of_holds (h : fs.Holds i data) (hLookup : fs.lookup false p = .ok i) (update : Bool) :
    fs.fopen p update = .ok i := by
  unfold fopen
  rw [lookup_true_of_false hLookup (not_link_of_holds h)]
  simp [not_dir_of_holds h]

theorem Quiet.run_readFromFile (hw : Quiet w) (h : w.fs.Holds i data)
    (hLookup : w.fs.lookup false p = .ok i) (offset byteCount : Nat) :
    (readFromFile p offset byteCount).run w =
      (some ((data.drop offset).take byteCount), w.wait 4) := by
  have hOpen : w.machine.fs.fopen p false = .ok i := fopen_of_holds h hLookup false
  have hRead : ∀ device, w.machine.fs.read i offset byteCount device =
      .ok ((data.drop offset).take byteCount) := by
    intro device
    unfold FileSystem.read
    rw [show w.machine.fs.content i = _ from h]
  unfold readFromFile
  rw [run_answer rfl, hw.sees, hOpen]
  dsimp only
  rw [run_answer rfl, (hw.wait 1).sees]
  dsimp only
  rw [run_answer rfl, ((hw.wait 1).wait 1).sees]
  have hRead := hRead ((w.wait 1).wait 1).machine.here.device
  rw [show ((w.wait 1).wait 1).machine.fs.read i offset byteCount _ = _ from hRead, run_fclose_nil]
  rfl

/-- READ of a regular file that the caller may read. -/
theorem Quiet.read (hw : Quiet w) (hView : w.view i = some p)
    (hLookup : w.fs.lookup false p = .ok i) (h : w.fs.Holds i data)
    (hAllowed : Allowed w.fs cred .read i) (t offset count : Nat) :
    ∃ fattr w', fattr.size = data.length ∧ Undisturbed w w' ∧ w'.view = w.view ∧
      (serveNfsProcedure6ReadFromFile cred ⟨some ⟨some ⟨i, t⟩⟩, offset, count⟩).run w =
        (.ok ⟨fattr, (data.drop offset).take (min count NFS_MAXDATA)⟩, w') := by
  obtain ⟨st, hStat, hSize, hNotDir⟩ := lstat_of_holds h hLookup
  unfold serveNfsProcedure6ReadFromFile checkReadProcPermissions
  show ∃ fattr w', _ ∧ _ ∧ _ ∧ (withFile i _).run w = _
  rw [run_withFile_of_cached hView, hw.run_withAttributes hStat, if_neg hNotDir,
    Quiet.run_withPermission (hw.wait 5) hLookup hAllowed, World.wait_wait]
  have hw' := hw.wait (5 + permissionCalls cred)
  rw [run_bind, hw'.run_readFromFile h hLookup]
  dsimp only
  rw [Quiet.run_withAttributes (hw'.wait 4) hStat]
  exact ⟨fattrOfStat st, ((w.wait (5 + permissionCalls cred)).wait 4).wait 5, hSize,
    ⟨rfl, rfl, rfl, rfl⟩, rfl, rfl⟩

/-- GETATTR reports what `lstat` finds at the path of the handle. -/
theorem Quiet.run_getattr (hw : Quiet w) (cred : Credential) (hView : w.view i = some p)
    (hStat : w.fs.lstat w.host p = .ok st) (t : Nat) :
    (serveNfsProcedure1GetFileAttributes cred ⟨some ⟨i, t⟩⟩).run w =
      (.ok (fattrOfStat st), w.wait 5) := by
  unfold serveNfsProcedure1GetFileAttributes
  show (withFile i _).run w = _
  -- no permission is needed, so the attributes are the next that is asked for
  have hNothing : ∀ k : Proc (NfsReply FAttr),
      (withPermission cred (checkGetattrProcPermissions p) k).run w = k.run w := by
    intro k
    cases cred with
    | authNone => rfl
    | authSys caller =>
      have hGranted : checkGetattrProcPermissions p caller = pure .granted := ite_self _
      show (checkGetattrProcPermissions p caller >>= _).run w = _
      rw [hGranted]
      rfl
  rw [run_withFile_of_cached hView, hNothing, hw.run_withAttributes hStat]
  rfl

/-- GETATTR reports the length of a regular file. -/
theorem Quiet.getattr (hw : Quiet w) (cred : Credential) (hView : w.view i = some p)
    (hLookup : w.fs.lookup false p = .ok i) (h : w.fs.Holds i data) (t : Nat) :
    ∃ fattr w', fattr.size = data.length ∧ Undisturbed w w' ∧ w'.view = w.view ∧
      (serveNfsProcedure1GetFileAttributes cred ⟨some ⟨i, t⟩⟩).run w = (.ok fattr, w') := by
  obtain ⟨st, hStat, hSize, -⟩ := lstat_of_holds h hLookup
  exact ⟨fattrOfStat st, w.wait 5, hSize, ⟨rfl, rfl, rfl, rfl⟩, rfl,
    hw.run_getattr cred hView hStat t⟩

/-- The permission bits of every object are those of before. -/
def SameModes (fs fs' : FileSystem) : Prop :=
  ∀ j x, fs.inode j = some x → ∃ x', fs'.inode j = some x' ∧ x'.attr.perm = x.attr.perm ∧
    x'.attr.uid = x.attr.uid ∧ x'.attr.gid = x.attr.gid

theorem SameModes.allowed {fs' : FileSystem} (h : SameModes fs fs') {a : Access}
    (hAllowed : Allowed fs cred a i) : Allowed fs' cred a i := by
  intro caller hCaller hRoot
  obtain ⟨x, hx, hAllows⟩ := hAllowed caller hCaller hRoot
  obtain ⟨x', hx', hPerm, hUid, hGid⟩ := h i x hx
  exact ⟨x', hx', by rw [hPerm, hUid, hGid]; exact hAllows⟩

theorem sameModes_write (fs : FileSystem) (j : Ino) (offset : Nat) (data : Bytes)
    (now : Timespec) : SameModes fs (fs.write j offset data now) := by
  intro k x hx
  unfold write
  split
  · exact ⟨x, hx, rfl, rfl, rfl⟩
  · rw [inode_setAttr, inode_setData, hx]
    by_cases hk : k = j
    · rw [if_pos hk, if_pos hk]
      have hAttr : (Inode.mapData (overwrite offset data) x).attr = x.attr := by
        unfold Inode.mapData
        split <;> rfl
      exact ⟨_, rfl, by simp [hAttr]⟩
    · rw [if_neg hk, if_neg hk]
      exact ⟨x, rfl, rfl, rfl, rfl⟩

theorem SameModes.trans {fs' fs'' : FileSystem} (h : SameModes fs fs') (h' : SameModes fs' fs'') :
    SameModes fs fs'' := by
  intro j x hx
  obtain ⟨x', hx', hPerm, hUid, hGid⟩ := h j x hx
  obtain ⟨x'', hx'', hPerm', hUid', hGid'⟩ := h' j x' hx'
  exact ⟨x'', hx'', hPerm'.trans hPerm, hUid'.trans hUid, hGid'.trans hGid⟩

/-- WRITE to a regular file that the caller may write. -/
theorem Quiet.write (hw : Quiet w) {old : Bytes} (hView : w.view i = some p)
    (hLookup : w.fs.lookup false p = .ok i) (h : w.fs.Holds i old)
    (hAllowed : Allowed w.fs cred .write i) (hData : data.length ≤ NFS_MAXDATA) (t offset : Nat) :
    ∃ fattr w', w'.fs.Holds i (overwrite offset data old) ∧ w.fs.SameNames w'.fs ∧
      SameModes w.fs w'.fs ∧ Quiet w' ∧ w'.view = w.view ∧
      (serveNfsProcedure8WriteToFile cred ⟨some ⟨some ⟨i, t⟩⟩, offset, some data⟩).run w =
        (.ok fattr, w') := by
  obtain ⟨st, hStat, -, hNotDir⟩ := lstat_of_holds h hLookup
  -- the world in which write_to_file starts, and the tree it leaves
  let u := w.wait (5 + permissionCalls cred)
  have hu : Quiet u := hw.wait _
  have hHolds := World.holds_written (w := u) h offset data
  rw [hu.take_stored] at hHolds
  have hNames : w.fs.SameNames (u.written i offset data) :=
    (sameNames_write u.fs i offset _ _).trans (sameNames_write _ i _ _ _)
  have hModes : SameModes w.fs (u.written i offset data) :=
    (sameModes_write u.fs i offset _ _).trans (sameModes_write _ i _ _ _)
  have hLookup' : (u.written i offset data).lookup false p = .ok i := by
    rw [hNames.lookup]
    exact hLookup
  obtain ⟨st', hStat', -, -⟩ := lstat_of_holds (w := u.withFs (u.written i offset data)) hHolds hLookup'
  unfold serveNfsProcedure8WriteToFile checkWriteProcPermissions
  show ∃ fattr w', _ ∧ _ ∧ _ ∧ _ ∧ _ ∧ (withFile i _).run w = _
  rw [run_withFile_of_cached hView, hw.run_withAttributes hStat, if_neg hNotDir,
    if_neg (Nat.not_lt.mpr hData), Quiet.run_withPermission (hw.wait 5) hLookup hAllowed,
    World.wait_wait, run_bind, hu.run_writeToFile (fopen_of_holds h hLookup true)]
  have hu' : Quiet ((u.withFs (u.written i offset data)).wait 4) := (hu.withFs _).wait 4
  dsimp only
  rw [hu'.run_withAttributes hStat']
  exact ⟨fattrOfStat st', ((u.withFs (u.written i offset data)).wait 4).wait 5, hHolds, hNames, hModes,
    hu'.wait 5, rfl, rfl⟩

end QuicNfs.Server

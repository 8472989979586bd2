import QuicNfs.Server.DirectoryReading

/-!
# QuicNfs — the procedures of the Nfs and Mount programs

`serve_mnt_procedure_…` and `serve_nfs_procedure_…`, from the unpacked
arguments to the results. The blocks that recur in the source (find the path of
a handle, get its attributes, check the permission, look at the file a name
leads to) are one definition each, with the rest of the procedure as their
last argument, so that a procedure below reads in the order of its source.
-/

namespace QuicNfs.Server

open Kernel Lib

/-- What a procedure of the Nfs program answers. -/
abbrev NfsReply (β : Type) := Reply Stat β

variable {α β : Type}

/-! ## Arguments -/

def DirOpArgs.decode (args : DirOpArgs) : Option (Ino × Bytes) := do
  let dir ← args.dir
  let handle ← dir.nfsFilehandle
  let name ← args.name
  let filename ← name.filename
  pure (handle.inodeNumber, filename)

/-- `SAttr` with both times present. -/
structure Attributes where
  mode : Nat
  uid : Nat
  gid : Nat
  size : Nat
  atime : MsgTimeVal
  mtime : MsgTimeVal
deriving DecidableEq, Repr

def SAttr.decode (sattr : SAttr) : Option Attributes := do
  let atime ← sattr.atime
  let mtime ← sattr.mtime
  pure ⟨sattr.mode, sattr.uid, sattr.gid, sattr.size, atime, mtime⟩

def SAttrArgs.decode (args : SAttrArgs) : Option (Ino × Attributes) := do
  let file ← args.file
  let handle ← file.nfsFilehandle
  let sattr ← args.attributes
  let attributes ← sattr.decode
  pure (handle.inodeNumber, attributes)

def CreateArgs.decode (args : CreateArgs) : Option (Ino × Bytes × Attributes) := do
  let diropargs ← args.location
  let (inode, filename) ← diropargs.decode
  let sattr ← args.attributes
  let attributes ← sattr.decode
  pure (inode, filename, attributes)

def FHandle.decode (fhandle : FHandle) : Option Ino :=
  fhandle.nfsFilehandle.map (·.inodeNumber)

/-- Arguments that lack a part make the reply GARBAGE_ARGS. -/
def orGarbageArgs (args : Option α) (k : α → Proc (NfsReply β)) : Proc (NfsReply β) :=
  match args with
  | none => pure .garbageArgs
  | some a => k a

/-! ## Permissions of the procedures

`nfs_permissions.c`. Most procedures need one permission on one path; SETATTR
and RENAME have a check of their own below. -/

/-- Root may, another caller needs the permission `a` on one path. -/
def needs (a : Access) (absolutePath : Path) (caller : AuthSysParams) : Proc Verdict :=
  unlessRoot caller.uid (checkPermission a absolutePath caller.uid caller.gid)

/-- No special permissions are needed. -/
def needsNothing (_absolutePath : Path) (caller : AuthSysParams) : Proc Verdict :=
  unlessRoot caller.uid (pure .granted)

def checkGetattrProcPermissions := needsNothing
def checkStatfsProcPermissions := needsNothing
def checkLookupProcPermissions := needs .execute
def checkReadlinkProcPermissions := needs .read
def checkReadProcPermissions := needs .read
def checkReaddirProcPermissions := needs .read
def checkWriteProcPermissions := needs .write
/-- Of the directory that a new or old name is in, as are the next five. -/
def checkCreateProcPermissions := needs .write
def checkMkdirProcPermissions := needs .write
def checkSymlinkProcPermissions := needs .write
def checkLinkProcPermissions := needs .write
def checkRemoveProcPermissions := needs .write
def checkRmdirProcPermissions := needs .write

/-! ## Recurring blocks -/

/-- The path of a handle, from the inode cache. -/
def withFile (inodeNumber : Ino) (k : Path → Proc (NfsReply β)) : Proc (NfsReply β) := do
  let cache ← Prog.call .getInodeCache
  match cache.getAbsolutePathFromInodeNumber inodeNumber with
  | none => pure (.err .nfserrNoent)
  | some absolutePath => k absolutePath

def withAttributes (absolutePath : Path) (k : FAttr → Proc (NfsReply β)) : Proc (NfsReply β) := do
  match ← getAttributes absolutePath with
  | none => pure .systemErr
  | some fattr => k fattr

/-- The path of a handle that has to be a directory's. -/
def withDirectory (inodeNumber : Ino) (k : Path → Proc (NfsReply β)) : Proc (NfsReply β) :=
  withFile inodeNumber fun absolutePath =>
  withAttributes absolutePath fun fattr =>
  if fattr.nfsFtype = .nfDir then k absolutePath else pure (.err .nfserrNotdir)

/-- The permission check, made for AUTH_SYS callers. -/
def withPermission (credential : Credential) (check : AuthSysParams → Proc Verdict)
    (k : Proc (NfsReply β)) : Proc (NfsReply β) :=
  match credential with
  | .authNone => k
  | .authSys authSys => do
    match ← check authSys with
    | .failed => pure .systemErr
    | .refused => pure (.err .nfserrAcces)
    | .granted => k

/-- The file at a path has to exist. -/
def withExisting (absolutePath : Path) (k : Kernel.Stat → Proc (NfsReply β)) : Proc (NfsReply β) := do
  match ← sys (.lstat absolutePath) with
  | .ok st => k st
  | .error .enoent => pure (.err .nfserrNoent)
  | .error _ => pure .systemErr

/-- No file may exist at a path. -/
def withFree (absolutePath : Path) (k : Proc (NfsReply β)) : Proc (NfsReply β) := do
  match ← sys (.lstat absolutePath) with
  | .ok _ => pure (.err .nfserrExist)
  | .error .enoent => k
  | .error _ => pure .systemErr

/-- A call whose failures the procedure reports in its own way; `none` is a
SYSTEM_ERR. -/
def orReport (report : Errno → Option Stat) (call : Proc (Except Errno α)) (k : α → Proc (NfsReply β)) :
    Proc (NfsReply β) := do
  match ← call with
  | .ok a => k a
  | .error e =>
    match report e with
    | some stat => pure (.err stat)
    | none => pure .systemErr

/-- A call whose failure is a SYSTEM_ERR. -/
def orSystemErr (call : Proc (Except Errno α)) (k : α → Proc (NfsReply β)) : Proc (NfsReply β) :=
  orReport (fun _ => none) call k

/-- `chown` with the ids of the request; all ones leave an id as it is. -/
def setOwner (absolutePath : Path) (a : Attributes) (k : Proc (NfsReply β)) : Proc (NfsReply β) :=
  orSystemErr (sys (.chown absolutePath a.uid a.gid)) fun () => k

def setSize (absolutePath : Path) (a : Attributes) (k : Proc (NfsReply β)) : Proc (NfsReply β) :=
  if a.size ≠ unchanged64 then
    orSystemErr (sys (.truncate absolutePath a.size)) fun () => k
  else k

/-- The times are set only if the request sets all four fields. -/
def Attributes.setsTimes (a : Attributes) : Prop :=
  a.atime.seconds ≠ unchanged64 ∧ a.atime.useconds ≠ unchanged64 ∧
    a.mtime.seconds ≠ unchanged64 ∧ a.mtime.useconds ≠ unchanged64

instance (a : Attributes) : Decidable a.setsTimes := by
  unfold Attributes.setsTimes; infer_instance

def setTimes (absolutePath : Path) (a : Attributes) (k : Proc (NfsReply β)) : Proc (NfsReply β) :=
  if a.setsTimes then
    orSystemErr (sys (.utimes absolutePath ⟨a.atime.seconds, a.atime.useconds⟩
      ⟨a.mtime.seconds, a.mtime.useconds⟩)) fun () => k
  else k

/-- A handle for a new file, with its attributes. Where they cannot be read the
handle is forgotten again. -/
def answerWithHandle (absolutePath : Path) (handle : NfsFileHandle) : Proc (NfsReply DirOpOk) := do
  match ← getAttributes absolutePath with
  | none =>
    let cache ← Prog.call .getInodeCache
    Prog.call (.setInodeCache (cache.removeInodeMappingByInodeNumber handle.inodeNumber))
    pure .systemErr
  | some fattr => pure (.ok ⟨handle, fattr⟩)

def withNewHandle (absolutePath : Path) (k : NfsFileHandle → Proc (NfsReply β)) : Proc (NfsReply β) := do
  match ← createNfsFilehandle absolutePath with
  | none => pure .systemErr
  | some handle => k handle

def forgetPath (absolutePath : Path) : Proc Unit := do
  let cache ← Prog.call .getInodeCache
  Prog.call (.setInodeCache (cache.removeInodeMappingByAbsolutePath absolutePath))

/-! ## The Mount program -/

/-- MOUNTPROC_MNT: the directory gets a new mapping on every mount. -/
def serveMntProcedure1AddMountEntry (credential : Credential) (dirpath : MsgPath) :
    Proc (Reply MntStat NfsFileHandle) := do
  match dirpath.path with
  | none => pure .garbageArgs
  | some directoryAbsolutePath =>
    match ← sys (.lstat directoryAbsolutePath) with
    | .error .enoent => pure (.err .mnterrNoent)
    | .error _ => pure .systemErr
    | .ok _ =>
      match ← getAttributes directoryAbsolutePath with
      | none => pure .systemErr
      | some fattr =>
        if fattr.nfsFtype ≠ .nfDir then pure (.err .mnterrNotdir)
        else if !(← isDirectoryExported directoryAbsolutePath) then pure (.err .mnterrNotexp)
        else
          -- `check_mount_proc_permissions` grants every caller the mount
          match ← createNfsFilehandle directoryAbsolutePath with
          | none => pure .systemErr
          | some handle =>
            let hostname := match credential with
              | .authNone => []
              | .authSys authSys => authSys.machinename
            let mounts ← Prog.call .getMountList
            Prog.call (.setMountList (⟨hostname, directoryAbsolutePath⟩ :: mounts))
            pure (.ok handle)

/-! ## The Nfs program -/

def serveNfsProcedure1GetFileAttributes (credential : Credential) (fhandle : FHandle) :
    Proc (NfsReply FAttr) :=
  orGarbageArgs fhandle.decode fun inodeNumber =>
  withFile inodeNumber fun fileAbsolutePath =>
  withPermission credential (checkGetattrProcPermissions fileAbsolutePath) <|
  withAttributes fileAbsolutePath fun fattr =>
  pure (.ok fattr)

/-- Whether the request sets anything but the owner and group. -/
def Attributes.setsOthers (a : Attributes) : Prop :=
  a.mode ≠ unchanged32 ∨ a.size ≠ unchanged64 ∨ a.atime.seconds ≠ unchanged64 ∨
    a.atime.useconds ≠ unchanged64 ∨ a.mtime.seconds ≠ unchanged64 ∨
    a.mtime.useconds ≠ unchanged64

instance (a : Attributes) : Decidable a.setsOthers := by
  unfold Attributes.setsOthers; infer_instance

def checkSetattrProcPermissions (absolutePath : Path) (a : Attributes) (caller : AuthSysParams) :
    Proc Verdict :=
  unlessRoot caller.uid
    -- only root user can change ownership
    (if a.uid ≠ unchanged32 ∨ a.gid ≠ unchanged32 then pure .refused
    -- otherwise setting anything else requires write permission
    else if a.setsOthers then checkWritePermission absolutePath caller.uid caller.gid
    else pure .granted)

def setMode (absolutePath : Path) (a : Attributes) (k : Proc (NfsReply β)) : Proc (NfsReply β) :=
  if a.mode ≠ unchanged32 then orSystemErr (sys (.chmod absolutePath a.mode)) fun () => k
  else k

def serveNfsProcedure2SetFileAttributes (credential : Credential) (args : SAttrArgs) :
    Proc (NfsReply FAttr) :=
  orGarbageArgs args.decode fun (inodeNumber, a) =>
  withFile inodeNumber fun fileAbsolutePath =>
  withPermission credential (checkSetattrProcPermissions fileAbsolutePath a) <|
  setMode fileAbsolutePath a <|
  setOwner fileAbsolutePath a <|
  setSize fileAbsolutePath a <|
  setTimes fileAbsolutePath a <|
  withAttributes fileAbsolutePath fun fattr =>
  pure (.ok fattr)

def serveNfsProcedure4LookUpFileName (credential : Credential) (args : DirOpArgs) :
    Proc (NfsReply DirOpOk) :=
  orGarbageArgs args.decode fun (inodeNumber, fileName) =>
  withDirectory inodeNumber fun directoryAbsolutePath =>
  let fileAbsolutePath := getFileAbsolutePath directoryAbsolutePath fileName
  withExisting fileAbsolutePath fun fileStat =>
  withPermission credential (checkLookupProcPermissions directoryAbsolutePath) do
    let cache ← Prog.call .getInodeCache
    match cache.getNfsFilehandleFromInodeNumber fileStat.ino with
    | some handle => answerWithHandle fileAbsolutePath handle
    | none => withNewHandle fileAbsolutePath (answerWithHandle fileAbsolutePath)

def reportReadlink : Errno → Option Stat
  | .eio => some .nfserrIo
  | _ => none

def serveNfsProcedure5ReadFromSymbolicLink (credential : Credential) (fhandle : FHandle) :
    Proc (NfsReply Bytes) :=
  orGarbageArgs fhandle.decode fun inodeNumber =>
  withFile inodeNumber fun symlinkAbsolutePath =>
  withAttributes symlinkAbsolutePath fun fattr =>
  if fattr.nfsFtype ≠ .nfLnk then pure (.err .nfserrStale)
  else
    withPermission credential (checkReadlinkProcPermissions symlinkAbsolutePath) <|
    orReport reportReadlink (sys (.readlink symlinkAbsolutePath NFS_MAXPATHLEN)) fun target =>
    pure (.ok target)

def serveNfsProcedure6ReadFromFile (credential : Credential) (args : ReadArgs) :
    Proc (NfsReply ReadResBody) :=
  orGarbageArgs (args.file.bind FHandle.decode) fun inodeNumber =>
  withFile inodeNumber fun fileAbsolutePath =>
  withAttributes fileAbsolutePath fun fattr =>
  if fattr.nfsFtype = .nfDir then pure (.err .nfserrIsdir)
  else
    withPermission credential (checkReadProcPermissions fileAbsolutePath) do
      match ← readFromFile fileAbsolutePath args.offset (min args.count NFS_MAXDATA) with
      | none => pure .systemErr
      | some data =>
        withAttributes fileAbsolutePath fun fattr =>
        pure (.ok ⟨fattr, data⟩)

def reportWrite : WriteResult → NfsReply FAttr
  | .tooBig => .err .nfserrFbig
  | .ioError => .err .nfserrIo
  | .noSpace => .err .nfserrNospc
  | _ => .systemErr

def WriteArgs.decode (args : WriteArgs) : Option (Ino × Bytes) := do
  let file ← args.file
  let inode ← file.decode
  let data ← args.nfsdata
  pure (inode, data)

def serveNfsProcedure8WriteToFile (credential : Credential) (args : WriteArgs) :
    Proc (NfsReply FAttr) :=
  orGarbageArgs args.decode fun (inodeNumber, data) =>
  withFile inodeNumber fun fileAbsolutePath =>
  withAttributes fileAbsolutePath fun fattr =>
  if fattr.nfsFtype = .nfDir then pure (.err .nfserrIsdir)
  else if data.length > NFS_MAXDATA then pure (.err .nfserrFbig)
  else
    withPermission credential (checkWriteProcPermissions fileAbsolutePath) do
      match ← writeToFile fileAbsolutePath args.offset data with
      | .written =>
        withAttributes fileAbsolutePath fun fattr =>
        pure (.ok fattr)
      | r => pure (reportWrite r)

/-- A directory and the path of a free name in it, checked as CREATE, MKDIR,
SYMLINK and LINK do: the name's length, that no file exists there, and the
procedure's `check` of the directory. -/
def withNewName (check : Path → AuthSysParams → Proc Verdict) (credential : Credential)
    (inodeNumber : Ino) (fileName : Bytes) (k : Path → Proc (NfsReply β)) : Proc (NfsReply β) :=
  withDirectory inodeNumber fun directoryAbsolutePath =>
  if fileName.length > NFS_MAXNAMLEN then pure (.err .nfserrNametoolong)
  else
    withFree (getFileAbsolutePath directoryAbsolutePath fileName) <|
    withPermission credential (check directoryAbsolutePath) <|
    k (getFileAbsolutePath directoryAbsolutePath fileName)

def reportCreate : Errno → Option Stat
  | .eio => some .nfserrIo
  | .enametoolong => some .nfserrNametoolong
  | .enospc => some .nfserrNospc
  | .enxio => some .nfserrNxio
  | _ => none

def serveNfsProcedure9CreateFile (credential : Credential) (args : CreateArgs) :
    Proc (NfsReply DirOpOk) :=
  orGarbageArgs args.decode fun (inodeNumber, fileName, a) =>
  withNewName checkCreateProcPermissions credential inodeNumber fileName fun fileAbsolutePath =>
  -- without a mode in the request, open is called without its third argument
  let mode := if a.mode ≠ unchanged32 then some a.mode else none
  orReport reportCreate (sys (.openCreat fileAbsolutePath mode)) fun () =>
  setOwner fileAbsolutePath a <|
  setSize fileAbsolutePath a <|
  setTimes fileAbsolutePath a <|
  withNewHandle fileAbsolutePath (answerWithHandle fileAbsolutePath)

def reportMkdir : Errno → Option Stat
  | .edquot => some .nfserrDquot
  | .enametoolong => some .nfserrNametoolong
  | .enospc => some .nfserrNospc
  | .erofs => some .nfserrRofs
  | _ => none

def serveNfsProcedure14CreateDirectory (credential : Credential) (args : CreateArgs) :
    Proc (NfsReply DirOpOk) :=
  orGarbageArgs args.decode fun (inodeNumber, fileName, a) =>
  withNewName checkMkdirProcPermissions credential inodeNumber fileName
    fun directoryAbsolutePath =>
  let mode := if a.mode ≠ unchanged32 then a.mode else 0o700
  orReport reportMkdir (sys (.mkdir directoryAbsolutePath mode)) fun () =>
  setOwner directoryAbsolutePath a <|
  -- the size of a directory cannot be set; the new directory stays
  if a.size ≠ unchanged64 then pure (.err .nfserrIsdir)
  else
    setTimes directoryAbsolutePath a <|
    withNewHandle directoryAbsolutePath (answerWithHandle directoryAbsolutePath)

def reportSymlink : Errno → Option Stat
  | .eio => some .nfserrIo
  | .enametoolong => some .nfserrNametoolong
  | .enoent => some .nfserrNoent
  | .enospc => some .nfserrNospc
  | .erofs => some .nfserrRofs
  | _ => none

def SymLinkArgs.decode (args : SymLinkArgs) : Option (Ino × Bytes × Path) := do
  let diropargs ← args.source
  let (inode, filename) ← diropargs.decode
  let target ← args.target
  let path ← target.path
  let sattr ← args.attributes
  let _ ← sattr.decode
  pure (inode, filename, path)

def serveNfsProcedure13CreateSymbolicLink (credential : Credential) (args : SymLinkArgs) :
    Proc (NfsReply Unit) :=
  orGarbageArgs args.decode fun (inodeNumber, fileName, target) =>
  withNewName checkSymlinkProcPermissions credential inodeNumber fileName
    fun symlinkAbsolutePath =>
  orReport reportSymlink (sys (.symlink target symlinkAbsolutePath)) fun () =>
  pure (.ok ())

def reportLink : Errno → Option Stat
  | .edquot => some .nfserrDquot
  | .eio => some .nfserrIo
  | .enametoolong => some .nfserrNametoolong
  | .enoent => some .nfserrNoent
  | .enospc => some .nfserrNospc
  | .erofs => some .nfserrRofs
  | _ => none

def LinkArgs.decode (args : LinkArgs) : Option (Ino × Ino × Bytes) := do
  let target ← args.source
  let targetInode ← target.decode
  let diropargs ← args.target
  let (inode, filename) ← diropargs.decode
  pure (targetInode, inode, filename)

def serveNfsProcedure12CreateLinkToFile (credential : Credential) (args : LinkArgs) :
    Proc (NfsReply Unit) :=
  orGarbageArgs args.decode fun (targetInodeNumber, inodeNumber, fileName) =>
  withFile targetInodeNumber fun targetAbsolutePath =>
  withAttributes targetAbsolutePath fun targetFattr =>
  if targetFattr.nfsFtype ≠ .nfReg then pure (.err .nfserrIsdir)
  else
    withNewName checkLinkProcPermissions credential inodeNumber fileName fun linkAbsolutePath =>
    orReport reportLink (sys (.link targetAbsolutePath linkAbsolutePath)) fun () =>
    pure (.ok ())

def reportUnlink : Errno → Option Stat
  | .eio => some .nfserrIo
  | .enametoolong => some .nfserrNametoolong
  | .erofs => some .nfserrRofs
  | _ => none

/-- A directory, and a file in it that REMOVE or RMDIR is to delete; `k` gets
the paths of both and the file's attributes. -/
def withOldName (inodeNumber : Ino) (fileName : Bytes)
    (k : Path → Path → FAttr → Proc (NfsReply β)) : Proc (NfsReply β) :=
  withDirectory inodeNumber fun directoryAbsolutePath =>
  withExisting (getFileAbsolutePath directoryAbsolutePath fileName) fun _ =>
  withAttributes (getFileAbsolutePath directoryAbsolutePath fileName) fun fattr =>
  k directoryAbsolutePath (getFileAbsolutePath directoryAbsolutePath fileName) fattr

def serveNfsProcedure10RemoveFile (credential : Credential) (args : DirOpArgs) :
    Proc (NfsReply Unit) :=
  orGarbageArgs args.decode fun (inodeNumber, fileName) =>
  withOldName inodeNumber fileName fun directoryAbsolutePath fileAbsolutePath fattr =>
  if fattr.nfsFtype = .nfDir then pure (.err .nfserrIsdir)
  else
    withPermission credential (checkRemoveProcPermissions directoryAbsolutePath) <|
    orReport reportUnlink (sys (.unlink fileAbsolutePath)) fun () => do
      forgetPath fileAbsolutePath
      pure (.ok ())

def reportRmdir : Errno → Option Stat
  | .enametoolong => some .nfserrNametoolong
  | .enotempty => some .nfserrNotempty
  | .erofs => some .nfserrRofs
  | _ => none

def serveNfsProcedure15RemoveDirectory (credential : Credential) (args : DirOpArgs) :
    Proc (NfsReply Unit) :=
  orGarbageArgs args.decode fun (inodeNumber, fileName) =>
  withOldName inodeNumber fileName fun directoryAbsolutePath fileAbsolutePath fattr =>
  if fattr.nfsFtype ≠ .nfDir then pure (.err .nfserrNotdir)
  else
    withPermission credential (checkRmdirProcPermissions directoryAbsolutePath) <|
    orReport reportRmdir (sys (.rmdir fileAbsolutePath)) fun () => do
      forgetPath fileAbsolutePath
      pure (.ok ())

def reportRename : Errno → Option Stat
  | .edquot => some .nfserrDquot
  | .einval => some .nfserrExist
  | .enametoolong => some .nfserrNametoolong
  | .enoent => some .nfserrNoent
  | .enospc => some .nfserrNospc
  | .enotempty => some .nfserrNotempty
  | .erofs => some .nfserrRofs
  | _ => none

def RenameArgs.decode (args : RenameArgs) : Option ((Ino × Bytes) × (Ino × Bytes)) := do
  let source ← args.source
  let old ← source.decode
  let target ← args.target
  let new ← target.decode
  pure (old, new)

/-- Write permission on the directory the file leaves, then on the one it goes to. -/
def checkRenameProcPermissions (fromPath toPath : Path) (caller : AuthSysParams) : Proc Verdict :=
  unlessRoot caller.uid do
    match ← checkWritePermission fromPath caller.uid caller.gid with
    | .failed => pure .failed
    | .refused => pure .refused
    | .granted => checkWritePermission toPath caller.uid caller.gid

def serveNfsProcedure11RenameFile (credential : Credential) (args : RenameArgs) :
    Proc (NfsReply Unit) :=
  orGarbageArgs args.decode fun ((fromInodeNumber, oldName), (toInodeNumber, newName)) =>
  withDirectory fromInodeNumber fun fromDirectoryAbsolutePath =>
  let oldAbsolutePath := getFileAbsolutePath fromDirectoryAbsolutePath oldName
  withExisting oldAbsolutePath fun _ =>
  withDirectory toInodeNumber fun toDirectoryAbsolutePath =>
  let newAbsolutePath := getFileAbsolutePath toDirectoryAbsolutePath newName
  withPermission credential
    (checkRenameProcPermissions fromDirectoryAbsolutePath toDirectoryAbsolutePath) <|
  orReport reportRename (sys (.rename oldAbsolutePath newAbsolutePath)) fun () => do
    let cache ← Prog.call .getInodeCache
    Prog.call (.setInodeCache
      (cache.updateInodeMappingAbsolutePathByAbsolutePath oldAbsolutePath newAbsolutePath))
    pure (.ok ())

def ReadDirArgs.decode (args : ReadDirArgs) : Option (Ino × Nat) := do
  let dir ← args.dir
  let inode ← dir.decode
  let cookie ← args.cookie
  pure (inode, cookie)

def serveNfsProcedure16ReadFromDirectory (credential : Credential) (args : ReadDirArgs) :
    Proc (NfsReply ReadDirOk) :=
  orGarbageArgs args.decode fun (inodeNumber, cookie) =>
  withDirectory inodeNumber fun directoryAbsolutePath =>
  withPermission credential (checkReaddirProcPermissions directoryAbsolutePath) <|
  match credential with
  | .authNone => pure .systemErr
  | .authSys authSys => do
    match ← readFromDirectory authSys directoryAbsolutePath inodeNumber cookie args.count with
    | none => pure .systemErr
    | some (entries, eof) => pure (.ok ⟨entries, eof⟩)

def reportStatfs : Errno → Option Stat
  | .eio => some .nfserrIo
  | _ => none

def serveNfsProcedure17GetFilesystemAttributes (credential : Credential) (fhandle : FHandle) :
    Proc (NfsReply FsInfo) :=
  orGarbageArgs fhandle.decode fun inodeNumber =>
  withFile inodeNumber fun fileAbsolutePath =>
  withPermission credential (checkStatfsProcPermissions fileAbsolutePath) <|
  orReport reportStatfs (sys (.statvfs fileAbsolutePath)) fun st =>
  pure (.ok ⟨st.bsize, st.frsize, st.blocks, st.bfree, st.bavail⟩)

end QuicNfs.Server

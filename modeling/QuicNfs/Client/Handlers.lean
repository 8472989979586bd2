import QuicNfs.Server.Server

/-!
# QuicNfs — the client

The FUSE handlers `nfs_read`, `nfs_write`, `nfs_readdir`, `nfs_mknod` and `nfs_utimens`
with `resolve_absolute_path`, those that change names, and `append_to_file` of the REPL,
as programs that make remote procedure calls. Offsets of 64 bits are narrowed to the 32 bits
of the protocol field where the source assigns them. A loop of the source has fuel; `runsOn`
is a loop that has used it up.

* `Rpc` — a call of a stub, with the status and the results it gives;
* `Link` — a client at a server: other clients act between its calls, and a call can
  fail in the transport.
-/

namespace QuicNfs.Client

open Kernel Server Lib

/-- The operations of a client. Without an answer the stub has returned a status other
than 0. -/
inductive Rpc : Type → Type where
  | call (request : Request) : Rpc (Option Answer)

abbrev Remote := Prog Rpc

/-! ## The stubs -/

/-- What a handler learns from a stub. A reply that is not a success is a status other
than 0. -/
inductive StubResult (β : Type) where
  | failed
  | err (stat : Server.Stat)
  | ok (body : β)
deriving DecidableEq, Repr

def StubResult.of {β : Type} : NfsReply β → StubResult β
  | .garbageArgs => .failed
  | .systemErr => .failed
  | .err stat => .err stat
  | .ok body => .ok body

def nfsProcedure1GetFileAttributes (fhandle : FHandle) : Remote (StubResult FAttr) := do
  match ← Prog.call (.call (.getattr fhandle)) with
  | some (.attrStat reply) => return .of reply
  | _ => return .failed

def nfsProcedure2SetFileAttributes (sattrargs : SAttrArgs) : Remote (StubResult FAttr) := do
  match ← Prog.call (.call (.setattr sattrargs)) with
  | some (.attrStat reply) => return .of reply
  | _ => return .failed

def nfsProcedure4LookUpFileName (diropargs : DirOpArgs) : Remote (StubResult DirOpOk) := do
  match ← Prog.call (.call (.lookup diropargs)) with
  | some (.dirOpRes reply) => return .of reply
  | _ => return .failed

def nfsProcedure5ReadFromSymbolicLink (fhandle : FHandle) : Remote (StubResult Bytes) := do
  match ← Prog.call (.call (.readlink fhandle)) with
  | some (.readLinkRes reply) => return .of reply
  | _ => return .failed

def nfsProcedure6ReadFromFile (readargs : ReadArgs) : Remote (StubResult ReadResBody) := do
  match ← Prog.call (.call (.read readargs)) with
  | some (.readRes reply) => return .of reply
  | _ => return .failed

def nfsProcedure8WriteToFile (writeargs : WriteArgs) : Remote (StubResult FAttr) := do
  match ← Prog.call (.call (.write writeargs)) with
  | some (.attrStat reply) => return .of reply
  | _ => return .failed

def nfsProcedure9CreateFile (createargs : CreateArgs) : Remote (StubResult DirOpOk) := do
  match ← Prog.call (.call (.create createargs)) with
  | some (.dirOpRes reply) => return .of reply
  | _ => return .failed

def nfsProcedure16ReadFromDirectory (readdirargs : ReadDirArgs) :
    Remote (StubResult ReadDirOk) := do
  match ← Prog.call (.call (.readdir readdirargs)) with
  | some (.readDirRes reply) => return .of reply
  | _ => return .failed

/-! ## Error codes -/

def EPERM : Int := 1
def ENOENT : Int := 2
def EIO : Int := 5
def ENXIO : Int := 6
def EACCES : Int := 13
def EEXIST : Int := 17
def ENODEV : Int := 19
def ENOTDIR : Int := 20
def EISDIR : Int := 21
def EINVAL : Int := 22
def EFBIG : Int := 27
def ENOSPC : Int := 28
def EROFS : Int := 30
def ENAMETOOLONG : Int := 36
def ENOTEMPTY : Int := 39
def ESTALE : Int := 116
def EDQUOT : Int := 122

/-- ENXIO lacks the sign of the others. -/
def mapNfsError : Server.Stat → Int
  | .nfsOk => 0
  | .nfserrPerm => -EPERM
  | .nfserrNoent => -ENOENT
  | .nfserrIo => - EIO
  | .nfserrNxio => ENXIO
  | .nfserrAcces => -EACCES
  | .nfserrExist => -EEXIST
  | .nfserrNodev => -ENODEV
  | .nfserrNotdir => -ENOTDIR
  | .nfserrIsdir => -EISDIR
  | .nfserrFbig => -EFBIG
  | .nfserrNospc => -ENOSPC
  | .nfserrRofs => -EROFS
  | .nfserrNametoolong => -ENAMETOOLONG
  | .nfserrNotempty => -ENOTEMPTY
  | .nfserrDquot => -EDQUOT
  | .nfserrStale => -ESTALE
  | .nfserrWflush => - EIO

/-- A `size_t` returned as an `int`. -/
def toInt (n : Nat) : Int := Int.bmod n (2 ^ 32)

theorem toInt_of_lt {n : Nat} (h : n < 2 ^ 31) : toInt n = n := by
  unfold toInt
  rw [Int.bmod_def, if_pos] <;> omega

/-! ## Paths -/

/-- The LOOKUP calls for the components that are left. -/
def lookUpComponents (currFhandle : NfsFileHandle) (currFtype : FType) :
    List Bytes → Remote (Except Int (NfsFileHandle × FType))
  | [] => return .ok (currFhandle, currFtype)
  | pathnameComponent :: rest =>
    if currFtype ≠ .nfDir then return .error ENOTDIR
    else do
      match ← nfsProcedure4LookUpFileName ⟨some ⟨some currFhandle⟩, some ⟨some pathnameComponent⟩⟩ with
      | .failed => return .error EIO
      | .err .nfserrAcces => return .error EACCES
      | .err _ => return .error ENOENT
      | .ok diropok => lookUpComponents diropok.file diropok.attributes.nfsFtype rest

/-- `strtok_r` with a slash gives the components of the path. -/
def resolveAbsolutePath (filesystemRootFhandle : NfsFileHandle) (path : Bytes) :
    Remote (Except Int (NfsFileHandle × FType)) :=
  if path.head? ≠ some slash then return .error EINVAL
  else lookUpComponents filesystemRootFhandle .nfDir (components path)

/-- The path without the slashes at its end. -/
def stripSlashes (path : Bytes) : Bytes := (path.reverse.dropWhile (· == slash)).reverse

/-- `dirname` of the C library. Where it gives two slashes, they name the root like one. -/
def dirname (path : Bytes) : Bytes :=
  let stripped := stripSlashes path
  if stripped = [] then (if path = [] then dot else [slash])
  else if slash ∉ stripped then dot
  else
    let parent := stripSlashes (stripped.reverse.dropWhile (· != slash)).reverse
    if parent = [] then [slash] else parent

/-- `basename` of the C library, that of `libgen.h`. -/
def basename (path : Bytes) : Bytes :=
  let stripped := stripSlashes path
  if stripped = [] then (if path = [] then dot else [slash])
  else (stripped.reverse.takeWhile (· != slash)).reverse

example : (dirname (bytes "/a//b/"), basename (bytes "/a//b/")) = (bytes "/a", bytes "b") := by
  decide +kernel

/-! ## Loops -/

/-- How a loop of calls ends. -/
inductive LoopEnd (α : Type) where
  | runsOn
  | failed
  | err (stat : Server.Stat)
  | done (result : α)
deriving DecidableEq, Repr

def READ_BYTES_PER_RPC : Nat := 5000
def WRITE_BYTES_PER_RPC : Nat := 5000

/-- The loop of `blocking_read`; what is in the buffer already has been read. The size
of the file is known from each reply. -/
def readChunks (fileFhandle : NfsFileHandle) (bytesToRead offset : Nat) :
    Nat → Bytes → Remote (LoopEnd Bytes)
  | 0, _ => return .runsOn
  | fuel + 1, readBuffer => do
    let bytesLeftToRead := bytesToRead - readBuffer.length
    let count := if bytesLeftToRead < READ_BYTES_PER_RPC then bytesLeftToRead else READ_BYTES_PER_RPC
    match ← nfsProcedure6ReadFromFile
        ⟨some ⟨some fileFhandle⟩, (offset + readBuffer.length) % 2 ^ 32, count⟩ with
    | .failed => return .failed
    | .err stat => return .err stat
    | .ok readresbody =>
      let readBuffer := readBuffer ++ readresbody.nfsdata.take bytesLeftToRead
      if readBuffer.length < bytesToRead ∧
          offset + readBuffer.length < readresbody.attributes.size then
        readChunks fileFhandle bytesToRead offset fuel readBuffer
      else return .done readBuffer

/-- The loop of `blocking_write` and of `append_to_file`. -/
def writeChunks (fileFhandle : NfsFileHandle) (writeBuffer : Bytes) (offset : Nat) :
    Nat → Nat → Remote (LoopEnd Nat)
  | 0, _ => return .runsOn
  | fuel + 1, bytesWritten =>
    if bytesWritten < writeBuffer.length then do
      let nfsdata := (writeBuffer.drop bytesWritten).take WRITE_BYTES_PER_RPC
      match ← nfsProcedure8WriteToFile
          ⟨some ⟨some fileFhandle⟩, (offset + bytesWritten) % 2 ^ 32, some nfsdata⟩ with
      | .failed => return .failed
      | .err stat => return .err stat
      | .ok _ => writeChunks fileFhandle writeBuffer offset fuel (bytesWritten + nfsdata.length)
    else return .done bytesWritten

def READDIR_BYTES_PER_RPC : Nat := 500

/-- The loop of `blocking_readdir`: each call goes on at the cookie of the last entry. -/
def readDirectoryEntries (fileFhandle : NfsFileHandle) :
    Nat → Nat → List Bytes → Remote (LoopEnd (List Bytes))
  | 0, _, _ => return .runsOn
  | fuel + 1, offsetCookie, filenamesList => do
    match ← nfsProcedure16ReadFromDirectory
        ⟨some ⟨some fileFhandle⟩, some offsetCookie, READDIR_BYTES_PER_RPC⟩ with
    | .failed => return .failed
    | .err stat => return .err stat
    | .ok readdirok =>
      let filenamesList := filenamesList ++ readdirok.entries.map (·.name)
      let offsetCookie := (readdirok.entries.getLast?.map (·.cookie)).getD offsetCookie
      if readdirok.eof then return .done filenamesList
      else readDirectoryEntries fileFhandle fuel offsetCookie filenamesList

/-! ## Handlers -/

/-- How a call of a handler ends. -/
inductive Outcome where
  | runsOn
  /-- `free` is called on an object of the stack. -/
  | aborts
  /-- `map_nfs_error` is called with the status of a message that has been freed. The message
  held `stat`; what is read is undefined. -/
  | mapsFreed (stat : Server.Stat)
  | returns (code : Int)
deriving DecidableEq, Repr

/-- A status other than NFS_OK. Only the branch for NFSERR_ACCES has a constant; the other one
reads the status anew, from the message that it has just freed. -/
def refused : Server.Stat → Outcome
  | .nfserrAcces => .returns (-EACCES)
  | stat => .mapsFreed stat

/-- What `nfs_read` returns, and the bytes it has put into the buffer. -/
def nfsRead (filesystemRootFhandle : NfsFileHandle) (fuel : Nat) (path : Bytes)
    (size offset : Nat) : Remote (Outcome × Bytes) := do
  match ← resolveAbsolutePath filesystemRootFhandle path with
  | .error errorCode => return (.returns (-errorCode), [])
  | .ok (fileFhandle, _) =>
    match ← readChunks fileFhandle size offset fuel [] with
    | .runsOn => return (.runsOn, [])
    -- a reply that reports a failure makes blocking_read free its argument
    | .failed => return (.aborts, [])
    | .err _ => return (.aborts, [])
    | .done readBuffer => return (.returns (toInt readBuffer.length), readBuffer)

def nfsWrite (filesystemRootFhandle : NfsFileHandle) (fuel : Nat) (path : Bytes)
    (buffer : Bytes) (offset : Nat) : Remote Outcome := do
  match ← resolveAbsolutePath filesystemRootFhandle path with
  | .error errorCode => return .returns (-errorCode)
  | .ok (fileFhandle, _) =>
    match ← writeChunks fileFhandle buffer offset fuel 0 with
    | .runsOn => return .runsOn
    | .failed => return .returns (- EIO)
    | .err stat => return refused stat
    | .done bytesWritten => return .returns (toInt bytesWritten)

/-- What `nfs_readdir` returns, and the names it has passed to the filler. -/
def nfsReaddir (filesystemRootFhandle : NfsFileHandle) (fuel : Nat) (path : Bytes) :
    Remote (Outcome × List Bytes) := do
  match ← resolveAbsolutePath filesystemRootFhandle path with
  | .error errorCode => return (.returns (-errorCode), [])
  | .ok (fileFhandle, _) =>
    match ← readDirectoryEntries fileFhandle fuel 0 [] with
    | .runsOn => return (.runsOn, [])
    | .failed => return (.returns (- EIO), [])
    -- here the message is freed after its status was mapped
    | .err stat => return (.returns (mapNfsError stat), [])
    | .done filenamesList => return (.returns 0, filenamesList)

/-- The device number of a special file is not passed on. -/
def nfsMknod (filesystemRootFhandle : NfsFileHandle) (authSys : AuthSysParams) (path : Bytes)
    (mode : Nat) : Remote Outcome := do
  let directoryPath := dirname path
  let containingDirectoryPath := if directoryPath = dot then [slash] else directoryPath
  let newFileName := basename path
  match ← resolveAbsolutePath filesystemRootFhandle containingDirectoryPath with
  | .error errorCode => return .returns (-errorCode)
  | .ok (containingDirectoryFhandle, _) =>
    let unset : MsgTimeVal := ⟨unchanged64, unchanged64⟩
    match ← nfsProcedure9CreateFile
        ⟨some ⟨some ⟨some containingDirectoryFhandle⟩, some ⟨some newFileName⟩⟩,
          some ⟨mode, authSys.uid, authSys.gid, unchanged64, some unset, some unset⟩⟩ with
    | .failed => return .returns (- EIO)
    | .err stat => return refused stat
    | .ok _ => return .returns 0

def UTIME_NOW : Nat := 2 ^ 30 - 1
def UTIME_OMIT : Nat := 2 ^ 30 - 2

/-- A time as `blocking_utimens` sends it. The test for `UTIME_OMIT` is made of the seconds
too. -/
def utimensTimeVal (tv currentTime : Timespec) : MsgTimeVal :=
  if tv.sec = UTIME_OMIT ∨ tv.nsec = UTIME_OMIT then ⟨unchanged64, unchanged64⟩
  else if tv.nsec = UTIME_NOW then ⟨currentTime.sec, currentTime.nsec / 1000⟩
  else ⟨tv.sec, tv.nsec / 1000⟩

/-- The clock is read anew for each of the two times. -/
def nfsUtimens (filesystemRootFhandle : NfsFileHandle) (path : Bytes)
    (atime mtime atimeClock mtimeClock : Timespec) : Remote Outcome := do
  match ← resolveAbsolutePath filesystemRootFhandle path with
  | .error errorCode => return .returns (-errorCode)
  | .ok (fileFhandle, _) =>
    match ← nfsProcedure2SetFileAttributes
        ⟨some ⟨some fileFhandle⟩, some ⟨unchanged32, unchanged32, unchanged32, unchanged64,
          some (utimensTimeVal atime atimeClock), some (utimensTimeVal mtime mtimeClock)⟩⟩ with
    | .failed => return .returns (- EIO)
    | .err stat => return refused stat
    | .ok _ => return .returns 0

/-! ## Handlers that change names -/

/-- A handler, with the handle of a path. -/
def resolving (root : NfsFileHandle) (path : Bytes) (rest : FHandle → Remote Outcome) :
    Remote Outcome := do
  match ← resolveAbsolutePath root path with
  | .error errorCode => return .returns (-errorCode)
  | .ok (fhandle, _) => rest ⟨some fhandle⟩

/-- A handler, with the last name of a path in its containing directory. -/
def naming (root : NfsFileHandle) (path : Bytes) (rest : DirOpArgs → Remote Outcome) :
    Remote Outcome :=
  resolving root (if dirname path = dot then [slash] else dirname path) fun dir =>
    rest ⟨some dir, some ⟨some (basename path)⟩⟩

def report : Option Answer → Outcome
  | some (.nfsStat (.ok _)) => .returns 0
  | some (.nfsStat (.err stat)) => refused stat
  | _ => .returns (- EIO)

/-- A call with nothing but a status in its results. -/
def reporting (request : Request) : Remote Outcome := do
  return report (← Prog.call (.call request))

section Names

variable (root : NfsFileHandle) (path target : Bytes)

def nfsUnlink : Remote Outcome := naming root path fun name => reporting (.remove name)

def nfsRmdir : Remote Outcome := naming root path fun name => reporting (.rmdir name)

def nfsRename : Remote Outcome :=
  naming root path fun old => naming root target fun new =>
    reporting (.rename ⟨some old, some new⟩)

/-- The directory of the new link `path` is resolved first. -/
def nfsLink : Remote Outcome :=
  naming root path fun name => resolving root target fun file =>
    reporting (.link ⟨some file, some name⟩)

def nfsSymlink : Remote Outcome :=
  naming root path fun name => reporting (.symlink ⟨some name, some ⟨some target⟩,
    some ⟨unchanged32, unchanged32, unchanged32, unchanged64, some ⟨unchanged64, unchanged64⟩,
      some ⟨unchanged64, unchanged64⟩⟩⟩)

end Names

/-- `append_to_file` of the REPL: a newline and the text go to the end of the file. -/
def appendToFile (fileFhandle : NfsFileHandle) (fuel : Nat) (text : Bytes) : Remote Outcome := do
  match ← nfsProcedure1GetFileAttributes ⟨some fileFhandle⟩ with
  | .failed => return .returns 1
  | .err _ => return .returns 1
  | .ok attributes =>
    match ← writeChunks fileFhandle (10 :: text) attributes.size fuel 0 with
    | .runsOn => return .runsOn
    | .failed => return .returns 1
    | .err _ => return .returns 1
    | .done _ => return .returns 0

/-! ## At a server -/

/-- What becomes of a call in the transport. -/
inductive Fate where
  | delivered
  | callLost
  | replyLost
deriving DecidableEq, Repr

/-- A client at a server. Before the `k`-th call of this client, the others do
`others k`. -/
structure Link where
  world : World
  credential : Credential
  calls : Nat
  others : Nat → World → World
  fate : Nat → Fate

namespace Link

/-- The server as the next call finds it. -/
def before (l : Link) : World := l.others l.calls l.world

def exec {β : Type} : Rpc β → Link → β × Link
  | .call r, l =>
    match l.fate l.calls with
    | .callLost => (none, { l with world := l.before, calls := l.calls + 1 })
    | .replyLost =>
      (none, { l with world := l.before.afterRequest l.credential r, calls := l.calls + 1 })
    | .delivered =>
      (some (l.before.answer l.credential r),
        { l with world := l.before.afterRequest l.credential r, calls := l.calls + 1 })

end Link

instance : Handler Rpc Link := ⟨Link.exec⟩

end QuicNfs.Client

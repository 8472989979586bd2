import QuicNfs.Server.State

/-!
# QuicNfs — file management

`file_management.c`, `common_permissions.c`, `path_building.c` and the check of
the exports file: what the procedures are made of. A function of the source
that returns an error code and fills a buffer answers `none` or an error code
here.
-/

namespace QuicNfs.Server

open Kernel Lib

/-- The path of `fileName` in a directory, whatever the name is. -/
def getFileAbsolutePath (directoryAbsolutePath : Path) (fileName : Bytes) : Path :=
  directoryAbsolutePath ++ slash :: fileName

/-! ## Attributes and filehandles -/

def decodeFileType : Format → FType
  | .reg => .nfReg
  | .dir => .nfDir
  | .blk => .nfBlk
  | .chr => .nfChr
  | .lnk => .nfLnk
  | .fifo => .nfNon
  | .sock => .nfNon

/-- The nanoseconds go into the field for microseconds. -/
def toMsgTimeVal (t : Timespec) : MsgTimeVal := ⟨t.sec, t.nsec⟩

def fattrOfStat (st : Kernel.Stat) : FAttr where
  nfsFtype := decodeFileType st.format
  mode := st.mode
  nlink := st.nlink
  uid := st.uid
  gid := st.gid
  size := st.size
  blocksize := st.blksize
  rdev := st.rdev
  blocks := st.blocks
  fsid := st.dev
  fileid := st.ino
  atime := toMsgTimeVal st.atime
  mtime := toMsgTimeVal st.mtime
  ctime := toMsgTimeVal st.ctime

/-- `n` allocations, up to the first that fails. -/
def allocate : Nat → Proc Bool
  | 0 => pure true
  | n + 1 => do
    if ← sys .malloc then allocate n else pure false

def getAttributes (absolutePath : Path) : Proc (Option FAttr) := do
  match ← sys (.lstat absolutePath) with
  | .error _ => pure none
  | .ok st =>
    -- the file type and the three times are allocated one by one
    let allocated ← allocate 4
    pure (if allocated then some (fattrOfStat st) else none)

def getInodeNumber (absolutePath : Path) : Proc (Option Ino) := do
  match ← sys (.lstat absolutePath) with
  | .error _ => pure none
  | .ok st => pure (some st.ino)

/-- Makes a handle and remembers its path, also where the inode has one already. -/
def createNfsFilehandle (absolutePath : Path) : Proc (Option NfsFileHandle) := do
  match ← getInodeNumber absolutePath with
  | none => pure none
  | some inodeNumber =>
    let timestamp ← sys .time
    -- the handle, then the mapping and its own copy of the handle
    if ← allocate 3 then
      let handle : NfsFileHandle := ⟨inodeNumber, timestamp⟩
      let cache ← Prog.call .getInodeCache
      Prog.call (.setInodeCache (cache.addInodeMapping handle absolutePath))
      pure (some handle)
    else pure none

/-! ## Reading and writing -/

def readFromFile (fileAbsolutePath : Path) (offset byteCount : Nat) : Proc (Option Bytes) := do
  match ← sys (.fopen fileAbsolutePath false) with
  | .error _ => pure none
  | .ok file =>
    match ← sys (.fseek file offset) with
    | .error _ =>
      let _ ← sys (.fclose file offset [])
      pure none
    | .ok () =>
      let data ← sys (.fread file offset byteCount)
      let _ ← sys (.fclose file offset [])
      match data with
      | .error _ => pure none
      | .ok data => pure (some data)

/-- The ways `write_to_file` can end. -/
inductive WriteResult where
  | written
  | notOpened
  | notSeekable
  | tooBig
  | ioError
  | noSpace
  | failed
deriving DecidableEq, Repr

def writeResultOfErrno : Errno → WriteResult
  | .efbig => .tooBig
  | .eio => .ioError
  | .enospc => .noSpace
  | .enomem => .noSpace
  | _ => .failed

def writeToFile (fileAbsolutePath : Path) (offset : Nat) (source : Bytes) :
    Proc WriteResult := do
  match ← sys (.fopen fileAbsolutePath true) with
  | .error _ => pure .notOpened
  | .ok file =>
    match ← sys (.fseek file offset) with
    | .error _ =>
      let _ ← sys (.fclose file offset [])
      pure .notSeekable
    | .ok () =>
      match ← sys (.fwrite file offset source) with
      | .error e =>
        let _ ← sys (.fclose file offset [])
        pure (writeResultOfErrno e)
      | .ok buffered =>
        -- whether the buffered bytes could be flushed is not looked at
        let _ ← sys (.fclose file (offset + (source.length - buffered.length)) buffered)
        pure .written

/-! ## Permissions -/

inductive Access where
  | read | write | execute
deriving DecidableEq, Repr

/-- The bit of an access among the three of its class. -/
def Access.bit : Access → Nat
  | read => 2
  | write => 1
  | execute => 0

/-- The owner, group and other rule: only the first class the caller is in counts. -/
def allows (a : Access) (perm ownerUid ownerGid callerUid callerGid : Nat) : Bool :=
  if callerUid = ownerUid then perm.testBit (6 + a.bit)
  else if callerGid = ownerGid then perm.testBit (3 + a.bit)
  else perm.testBit a.bit

/-- The outcome of a permission check: it failed (`< 0`), or the caller has the
permission (`0`) or not (`1`). -/
inductive Verdict where
  | failed | granted | refused
deriving DecidableEq, Repr

/-- `check_read_permission`, `check_write_permission` and
`check_execute_permission` differ in the bit they look at. -/
def checkPermission (a : Access) (absolutePath : Path) (callerUid callerGid : Nat) :
    Proc Verdict := do
  match ← sys (.lstat absolutePath) with
  | .error _ => pure .failed
  | .ok st =>
    pure (if allows a st.perm st.uid st.gid callerUid callerGid then .granted else .refused)

def checkReadPermission := checkPermission .read
def checkWritePermission := checkPermission .write
def checkExecutePermission := checkPermission .execute

/-- The root can do anything. -/
def unlessRoot (callerUid : Nat) (check : Proc Verdict) : Proc Verdict :=
  if callerUid = 0 then pure .granted else check

/-! ## The exports file -/

/-- One `fgets` into a buffer of `size + 1` bytes: at most `size` bytes, up to
and with the first newline. -/
def fgets (size : Nat) : Bytes → Bytes × Bytes
  | [] => ([], [])
  | b :: rest =>
    match size with
    | 0 => ([], b :: rest)
    | size + 1 => if b = 10 then ([b], rest) else ((b :: (fgets size rest).1), (fgets size rest).2)

def strstr (haystack needle : Bytes) : Bool := haystack.tails.any needle.isPrefixOf

/-- Whether one line exports `absolutePath`: the path, white space, and
`*(rw)` somewhere after it. -/
def lineExports (absolutePath : Path) (line : Bytes) : Bool :=
  absolutePath.isPrefixOf line &&
    (let options := line.drop absolutePath.length
     (options.head? == some 32 || options.head? == some 9) &&
       strstr options (bytes "*(rw)"))

/-- The C string in a buffer: it ends at the first NUL. -/
def cString (buffer : Bytes) : Bytes := buffer.takeWhile (· ≠ 0)

/-- The lines of the exports file as the 1024-byte buffer reads them. -/
def exportLines : Nat → Bytes → List Bytes
  | 0, _ => []
  | _ + 1, [] => []
  | fuel + 1, content =>
    let r := fgets 1023 content
    -- the string functions see the buffer up to a NUL of the file's own
    (cString r.1).takeWhile (· ≠ 10) :: exportLines fuel r.2

def isExported (exports : Option Bytes) (absolutePath : Path) : Bool :=
  match exports with
  | none => false
  | some content => (exportLines content.length content).any (lineExports absolutePath)

def isDirectoryExported (absolutePath : Path) : Proc Bool := do
  let exports ← sys .readExports
  pure (isExported exports absolutePath)

end QuicNfs.Server

import QuicNfs.Kernel.Namei

/-!
# QuicNfs — the system calls

What the POSIX calls of the server do to a file system, one function for each
call. The server runs as root: no call fails for want of a permission, and
new objects belong to root. A call that fails leaves the file system as it
was; failures that do not come from the tree (I/O errors, quotas, a full
device) are added in `Kernel/Machine.lean`.
-/

namespace QuicNfs.Kernel

/-- The file format bits of `st_mode`. -/
inductive Format where
  | reg | dir | blk | chr | lnk | fifo | sock
deriving DecidableEq, Repr

def Format.bits : Format → Nat
  | fifo => 0o010000
  | chr => 0o020000
  | dir => 0o040000
  | blk => 0o060000
  | reg => 0o100000
  | lnk => 0o120000
  | sock => 0o140000

/-- The fields of `struct stat` the server reads. `st_mode` is kept as its two
parts. -/
structure Stat where
  ino : Ino
  format : Format
  perm : Nat
  nlink : Nat
  uid : Nat
  gid : Nat
  size : Nat
  blksize : Nat
  rdev : Nat
  blocks : Nat
  dev : Nat
  atime : Timespec
  mtime : Timespec
  ctime : Timespec
deriving DecidableEq, Repr

def Stat.mode (st : Stat) : Nat := st.format.bits + st.perm

/-- `struct timeval`. -/
structure TimeVal where
  sec : Nat
  usec : Nat
deriving DecidableEq, Repr

def TimeVal.toTimespec (t : TimeVal) : Timespec := ⟨t.sec, t.usec * 1000⟩

structure StatVfs where
  frsize : Nat
  bsize : Nat
  blocks : Nat
  bfree : Nat
  bavail : Nat
deriving DecidableEq, Repr

/-- What is fixed for the whole life of the server process. -/
structure Host where
  umask : Nat
  dev : Nat
  blksize : Nat
  statvfs : StatVfs
  /-- The `telldir` position after the first `k` entries of a directory. -/
  cookie : Ino → Nat → Nat

/-- `(uint32_t)-1`: leave the owner or group as it is. -/
def unchanged32 : Nat := 2 ^ 32 - 1

def Content.format : Content → Format
  | regular _ => .reg
  | directory _ => .dir
  | symlink _ => .lnk
  | special .blk => .blk
  | special .chr => .chr
  | special .fifo => .fifo
  | special .sock => .sock

def Content.size : Content → Nat
  | regular data => data.length
  | directory es => es.entries.length
  | symlink target => target.length
  | special _ => 0

/-- The bits of `mode` the umask lets through. -/
def withUmask (umask mode : Nat) : Nat := (mode % 4096) &&& (4095 - umask % 4096)

/-- `S_ISUID`, and `S_ISGID` where the group may execute, are lost when the
owner of a file that is not a directory is set, even to what it was. -/
def dropSetId (isDir : Bool) (perm : Nat) : Nat :=
  if isDir then perm
  else
    let perm := if perm.testBit 11 then perm - 2 ^ 11 else perm
    if perm.testBit 10 ∧ perm.testBit 3 then perm - 2 ^ 10 else perm

def Attr.chown (isDir : Bool) (uid gid : Nat) (now : Timespec) (a : Attr) : Attr :=
  { a with
    uid := if uid = unchanged32 then a.uid else uid
    gid := if gid = unchanged32 then a.gid else gid
    perm := dropSetId isDir a.perm
    ctime := now }

/-- `size` bytes: cut off, or filled up with zeros. -/
def resize (size : Nat) (data : Bytes) : Bytes :=
  data.take size ++ List.replicate (size - data.length) 0

/-- `data` with `new` stored at `offset`. -/
def overwrite (offset : Nat) (new data : Bytes) : Bytes :=
  if new = [] then data
  else resize offset data ++ new ++ data.drop (offset + new.length)

namespace FileSystem

def stat (host : Host) (fs : FileSystem) (i : Ino) : Except Errno Stat :=
  match fs.inode i with
  | none => .error .enoent
  | some x => .ok {
      ino := i
      format := x.content.format
      perm := x.attr.perm
      nlink := if x.content.isDir then
          2 + (x.content.entries.countP fun e => fs.isDir e.2) else fs.nameCount i
      uid := x.attr.uid
      gid := x.attr.gid
      size := x.content.size
      blksize := host.blksize
      rdev := 0
      blocks := (x.content.size + 511) / 512
      dev := host.dev
      atime := x.attr.atime
      mtime := x.attr.mtime
      ctime := x.attr.ctime }

def lstat (host : Host) (fs : FileSystem) (p : Path) : Except Errno Stat :=
  (fs.lookup false p).bind (fs.stat host)

/-- The group of an object made in directory `d`. -/
def newGid (fs : FileSystem) (d : Ino) : Nat :=
  match fs.inode d with
  | some x => if x.attr.perm.testBit 10 then x.attr.gid else 0
  | none => 0

/-- An object of root's, made in directory `d`. -/
def newInode (fs : FileSystem) (d : Ino) (c : Content) (perm : Nat) (now : Timespec) : Inode where
  content := c
  attr := { perm := perm, uid := 0, gid := fs.newGid d, atime := now, mtime := now, ctime := now }

/-- Make an object under a free name. The kernel picks the inode number; it
picks none that is in use, by a file or by an open directory stream. -/
def make (fs : FileSystem) (busy : List Ino) (d : Ino) (n : Name) (i : Ino) (c : Content)
    (perm : Nat) (now : Timespec) : Except Errno FileSystem :=
  if (fs.inode i).isSome ∨ i ∈ busy then .error .enospc
  else .ok (fs.create d n i (fs.newInode d c perm now) now)

/-- `open(p, O_CREAT, mode)`. -/
def openCreat (host : Host) (fs : FileSystem) (busy : List Ino) (p : Path) (mode : Nat) (i : Ino)
    (now : Timespec) : Except Errno FileSystem :=
  match fs.namei true p with
  | .error e => .error e
  | .ok (.dir _ _) => .error .eisdir
  | .ok (.leaf _ _ _) => if endsInSlash p then .error .eisdir else .ok fs
  | .ok (.missing d n) =>
    if endsInSlash p then .error .eisdir
    else fs.make busy d n i (.regular []) (withUmask host.umask mode) now

def mkdir (host : Host) (fs : FileSystem) (busy : List Ino) (p : Path) (mode : Nat) (i : Ino)
    (now : Timespec) : Except Errno FileSystem :=
  match fs.namei false p with
  | .error e => .error e
  | .ok (.dir _ _) => .error .eexist
  | .ok (.leaf _ _ _) => .error .eexist
  | .ok (.missing d n) =>
    -- mkdir keeps the sticky bit, and the set-group-id bit is the parent's
    let inherited := match fs.inode d with
      | some x => if x.attr.perm.testBit 10 then 2 ^ 10 else 0
      | none => 0
    fs.make busy d n i (.directory ∅) (withUmask host.umask (mode % 1024) + inherited) now

def symlink (fs : FileSystem) (busy : List Ino) (target p : Path) (i : Ino) (now : Timespec) :
    Except Errno FileSystem :=
  if target = [] then .error .enoent
  else if target.length ≥ pathMax then .error .enametoolong
  else
    match fs.namei false p with
    | .error e => .error e
    | .ok (.dir _ _) => .error .eexist
    | .ok (.leaf _ _ _) => .error .eexist
    | .ok (.missing d n) =>
      if endsInSlash p then .error .enoent
      else fs.make busy d n i (.symlink target) 0o777 now

/-- `link(p, q)`: a final symbolic link is linked itself. -/
def linkPath (fs : FileSystem) (p q : Path) (now : Timespec) : Except Errno FileSystem :=
  match fs.lookup false p with
  | .error e => .error e
  | .ok i =>
    match fs.namei false q with
    | .error e => .error e
    | .ok (.dir _ _) => .error .eexist
    | .ok (.leaf _ _ _) => .error .eexist
    | .ok (.missing d n) =>
      if endsInSlash q then .error .enoent
      else if fs.isDir i then .error .eperm
      else .ok (fs.link d n i now)

def unlink (fs : FileSystem) (p : Path) (now : Timespec) : Except Errno FileSystem :=
  match fs.namei false p with
  | .error e => .error e
  | .ok (.dir _ _) => .error .eisdir
  | .ok (.missing _ _) => .error .enoent
  | .ok (.leaf d n _) => if endsInSlash p then .error .enotdir else .ok (fs.remove d n now)

/-- A directory with no entries. -/
def isEmptyDir (fs : FileSystem) (d : Ino) : Bool :=
  (fs.content d).any fun c => c.isDir && c.entries.isEmpty

def rmdir (fs : FileSystem) (p : Path) (now : Timespec) : Except Errno FileSystem :=
  match fs.namei false p with
  | .error e => .error e
  | .ok (.dir _ .root) => .error .ebusy
  | .ok (.dir _ .dot) => .error .einval
  | .ok (.dir _ .dotdot) => .error .enotempty
  | .ok (.dir i (.name d n)) =>
    if fs.isEmptyDir i then .ok (fs.remove d n now) else .error .enotempty
  | .ok (.leaf _ _ _) => .error .enotdir
  | .ok (.missing _ _) => .error .enoent

end FileSystem

/-- The named object a rename takes away. -/
def Found.source : Found → Except Errno (Ino × Name × Ino)
  | dir i (.name d n) => .ok (d, n, i)
  | dir _ _ => .error .ebusy
  | leaf d n i => .ok (d, n, i)
  | missing _ _ => .error .enoent

/-- The place a rename puts it, with what is there already. -/
def Found.place : Found → Except Errno (Ino × Name × Option Ino)
  | dir i (.name d n) => .ok (d, n, some i)
  | dir _ _ => .error .ebusy
  | leaf d n i => .ok (d, n, some i)
  | missing d n => .ok (d, n, none)

namespace FileSystem

/-- Whether object `i` may replace what is at the target of a rename; `d` is
the directory it leaves. `false`: the two are the same object, and nothing is
to be done. -/
def replaces (fs : FileSystem) (i d j : Ino) : Except Errno Bool :=
  if fs.isDir j ∧ j ∈ fs.ancestors d then .error .enotempty
  else if i = j then .ok false
  else if fs.isDir i ∧ fs.isDir j = false then .error .enotdir
  else if fs.isDir i = false ∧ fs.isDir j then .error .eisdir
  else if fs.isDir j ∧ fs.isEmptyDir j = false then .error .enotempty
  else .ok true

/-- `rename` from the name `n` of `d`, which is `i`, to the name `n'` of `d'`,
which is `target`. -/
def renameEntry (fs : FileSystem) (d : Ino) (n : Name) (i d' : Ino) (n' : Name)
    (target : Option Ino) (now : Timespec) : Except Errno FileSystem :=
  if fs.isDir i ∧ i ∈ fs.ancestors d' then .error .einval
  else
    match target with
    | none => .ok (fs.move d n d' n' now)
    | some j =>
      match fs.replaces i d j with
      | .error e => .error e
      | .ok false => .ok fs
      | .ok true => .ok ((fs.remove d' n' now).move d n d' n' now)

def rename (fs : FileSystem) (p q : Path) (now : Timespec) : Except Errno FileSystem :=
  match (fs.namei false p).bind Found.source, (fs.namei false q).bind Found.place with
  | .error e, _ => .error e
  | .ok _, .error e => .error e
  | .ok (d, n, i), .ok (d', n', target) =>
    if fs.isDir i = false ∧ (endsInSlash p ∨ endsInSlash q) then .error .enotdir
    else fs.renameEntry d n i d' n' target now

/-! ## Calls on one object

Each of them follows a final symbolic link. -/

def chmod (fs : FileSystem) (p : Path) (mode : Nat) (now : Timespec) : Except Errno FileSystem :=
  match fs.lookup true p with
  | .error e => .error e
  | .ok i => .ok (fs.setAttr i fun a => { a with perm := mode % 4096, ctime := now })

def chown (fs : FileSystem) (p : Path) (uid gid : Nat) (now : Timespec) : Except Errno FileSystem :=
  match fs.lookup true p with
  | .error e => .error e
  | .ok i => .ok (fs.setAttr i (Attr.chown (fs.isDir i) uid gid now))

/-- `truncate`; the size arrives as `off_t`, so its upper half is negative. -/
def truncate (fs : FileSystem) (p : Path) (size : Nat) (now : Timespec) : Except Errno FileSystem :=
  if size ≥ 2 ^ 63 then .error .einval
  else
    match fs.lookup true p with
    | .error e => .error e
    | .ok i =>
      match fs.content i with
      | some (.regular data) =>
        .ok ((fs.setData i (resize size)).setAttr i fun a =>
          if data.length = size then a else { a with mtime := now, ctime := now })
      | some (.directory _) => .error .eisdir
      | _ => .error .einval

def utimes (fs : FileSystem) (p : Path) (atime mtime : TimeVal) (now : Timespec) :
    Except Errno FileSystem :=
  match fs.lookup true p with
  | .error e => .error e
  | .ok i =>
    if atime.usec ≥ 1000000 ∨ mtime.usec ≥ 1000000 then .error .einval
    else .ok (fs.setAttr i fun a =>
      { a with atime := atime.toTimespec, mtime := mtime.toTimespec, ctime := now })

/-- `readlink` into a buffer of `size` bytes. -/
def readlink (fs : FileSystem) (p : Path) (size : Nat) : Except Errno Bytes :=
  match fs.lookup false p with
  | .error e => .error e
  | .ok i =>
    match fs.content i with
    | some (.symlink target) => .ok (target.take size)
    | _ => .error .einval

/-- `fopen` of an existing file, for reading or for update: the open file. -/
def fopen (fs : FileSystem) (p : Path) (update : Bool) : Except Errno Ino :=
  match fs.lookup true p with
  | .error e => .error e
  | .ok i => if update ∧ fs.isDir i then .error .eisdir else .ok i

/-- The bytes a read at `offset` gets; `device` is what a device would deliver. -/
def read (fs : FileSystem) (i : Ino) (offset count : Nat) (device : Bytes) : Except Errno Bytes :=
  match fs.content i with
  | some (.regular data) => .ok ((data.drop offset).take count)
  | some (.special _) => .ok (device.take count)
  | _ => .error .eisdir

/-- Store `data` at `offset` of an open file. -/
def write (fs : FileSystem) (i : Ino) (offset : Nat) (data : Bytes) (now : Timespec) : FileSystem :=
  if data = [] then fs
  else (fs.setData i (overwrite offset data)).setAttr i fun a =>
    { a with mtime := now, ctime := now }

def opendir (fs : FileSystem) (p : Path) : Except Errno Ino :=
  match fs.lookup true p with
  | .error e => .error e
  | .ok i => if fs.isDir i then .ok i else .error .enotdir

/-- What `readdir` delivers of directory `d`, entry by entry. A directory that
is gone has nothing to deliver. -/
def listing (fs : FileSystem) (d : Ino) : List (Name × Ino) :=
  match fs.content d with
  | some (.directory es) =>
    (dot, d) :: (dotdot, (fs.parentOf d).getD d) :: es.entries.map fun e => (e.1, e.2)
  | _ => []

end FileSystem

end QuicNfs.Kernel

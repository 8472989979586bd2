import QuicNfs.Kernel.Machine
import QuicNfs.Lib.FirstMatch
import QuicNfs.Server.Protocol

/-!
# QuicNfs — the state of the server

What the Nfs and Mount server keeps between requests: the inode cache, the
mount list and the open ReadDir sessions. Together with the machine below it
this is the `World` the procedures run in.

The procedures are programs over `Op`: the system calls, and reads and writes
of the server's own memory.
-/

namespace QuicNfs.Server

open Kernel Lib

/-! ## The inode cache -/

structure InodeCacheMapping where
  nfsFilehandle : NfsFileHandle
  absolutePath : Path
deriving DecidableEq, Repr

/-- The mappings, the newest first. -/
abbrev InodeCache := List InodeCacheMapping

namespace InodeCache

def hasInode (i : Ino) (m : InodeCacheMapping) : Bool := m.nfsFilehandle.inodeNumber == i

def hasPath (p : Path) (m : InodeCacheMapping) : Bool := m.absolutePath == p

def addInodeMapping (fh : NfsFileHandle) (p : Path) (cache : InodeCache) : InodeCache :=
  ⟨fh, p⟩ :: cache

def removeInodeMappingByInodeNumber (i : Ino) (cache : InodeCache) : InodeCache :=
  cache.eraseP (hasInode i)

/-- Removes the first mapping to `p`. The source reads the head of the list
without a check; every caller has found a mapping in it before. -/
def removeInodeMappingByAbsolutePath (p : Path) (cache : InodeCache) : InodeCache :=
  cache.eraseP (hasPath p)

def updateInodeMappingAbsolutePathByAbsolutePath (p q : Path) (cache : InodeCache) : InodeCache :=
  modifyFirst (hasPath p) (fun m => { m with absolutePath := q }) cache

def getAbsolutePathFromInodeNumber (i : Ino) (cache : InodeCache) : Option Path :=
  (cache.find? (hasInode i)).map (·.absolutePath)

def getNfsFilehandleFromInodeNumber (i : Ino) (cache : InodeCache) : Option NfsFileHandle :=
  (cache.find? (hasInode i)).map (·.nfsFilehandle)

variable {i : Ino} {cache : InodeCache}

theorem mem_of_getAbsolutePath {p : Path} (h : getAbsolutePathFromInodeNumber i cache = some p) :
    ∃ m ∈ cache, m.nfsFilehandle.inodeNumber = i ∧ m.absolutePath = p := by
  obtain ⟨m, hm, rfl⟩ := Option.map_eq_some_iff.mp h
  exact ⟨m, List.mem_of_find?_eq_some hm, by simpa [hasInode] using List.find?_some hm, rfl⟩

/-- The handle and the path of an object come from the same mapping. -/
theorem of_getNfsFilehandle {handle : NfsFileHandle}
    (h : getNfsFilehandleFromInodeNumber i cache = some handle) :
    handle.inodeNumber = i ∧ ∃ p, getAbsolutePathFromInodeNumber i cache = some p := by
  obtain ⟨m, hm, rfl⟩ := Option.map_eq_some_iff.mp h
  exact ⟨by simpa [hasInode] using List.find?_some hm, m.absolutePath,
    Option.map_eq_some_iff.mpr ⟨m, hm, rfl⟩⟩

theorem getAbsolutePath_of_no_handle (h : getNfsFilehandleFromInodeNumber i cache = none) :
    getAbsolutePathFromInodeNumber i cache = none :=
  Option.map_eq_none_iff.mpr (Option.map_eq_none_iff.mp h)

/-- A path that is rewritten stays the path of its object. -/
theorem countP_hasInode_update (q q' : Path) (cache : InodeCache) (i : Ino) :
    (updateInodeMappingAbsolutePathByAbsolutePath q q' cache).countP (hasInode i) =
      cache.countP (hasInode i) :=
  countP_modifyFirst (by intro m _; rfl) cache

end InodeCache

/-! ## Mounts and ReadDir sessions -/

structure MountListEntry where
  hostname : Bytes
  directory : Path
deriving DecidableEq, Repr

/-- A client's open stream over a directory. -/
structure ReadDirSession where
  clientAuthsysparams : AuthSysParams
  directoryAbsolutePath : Path
  directoryInodeNumber : Ino
  /-- The directory the stream reads. -/
  directoryStream : Ino
  lastReaddirRpcTimestamp : Nat
deriving DecidableEq, Repr

/-- Whether two callers count as the same client. The group of the second one
is compared with itself. -/
def compareAuthsysparams (a b : AuthSysParams) : Bool :=
  a.machinename == b.machinename && a.uid == b.uid && b.gid == b.gid

/-- The session of a client for a directory. -/
def ReadDirSession.belongsTo (client : AuthSysParams) (d : Ino) (s : ReadDirSession) : Bool :=
  s.directoryInodeNumber == d && compareAuthsysparams client s.clientAuthsysparams

/-! ## The world of the procedures -/

structure World where
  machine : Machine
  inodeCache : InodeCache
  mountList : List MountListEntry
  readdirSessions : List ReadDirSession

/-- What a procedure can do. -/
inductive Op : Type → Type 1 where
  | sys {β : Type} (o : Sys β) : Op β
  | getInodeCache : Op InodeCache
  | setInodeCache (cache : InodeCache) : Op Unit
  | getMountList : Op (List MountListEntry)
  | setMountList (mounts : List MountListEntry) : Op Unit
  | getReaddirSessions : Op (List ReadDirSession)
  | setReaddirSessions (sessions : List ReadDirSession) : Op Unit

namespace World

def exec {β : Type} : Op β → World → β × World
  | .sys o, w =>
    let r := w.machine.exec o
    (r.1, { w with machine := r.2 })
  | .getInodeCache, w => (w.inodeCache, w)
  | .setInodeCache cache, w => ((), { w with inodeCache := cache })
  | .getMountList, w => (w.mountList, w)
  | .setMountList mounts, w => ((), { w with mountList := mounts })
  | .getReaddirSessions, w => (w.readdirSessions, w)
  | .setReaddirSessions sessions, w => ((), { w with readdirSessions := sessions })

end World

instance : Handler Op World := ⟨World.exec⟩

abbrev Proc := Prog Op

def sys {β : Type} (o : Sys β) : Proc β := Prog.call (.sys o)

namespace World

def fs (w : World) : FileSystem := w.machine.fs

def host (w : World) : Host := w.machine.host

/-- The world `w` when the next call is the `t`-th: nothing else has changed. -/
def atTick (w : World) (t : Nat) : World := { w with machine := { w.machine with tick := t } }

/-- The world `w` with another file system. -/
def withFs (w : World) (fs : FileSystem) : World := { w with machine := { w.machine with fs := fs } }

@[simp] theorem fs_atTick (w : World) (t : Nat) : (w.atTick t).fs = w.fs := rfl

end World

end QuicNfs.Server

import QuicNfs.Kernel.Places
import QuicNfs.Server.StreamRules

/-!
# QuicNfs — what a request can do

* `PathOf w r` — the paths a request works on;
* `Reached w credential r fs` — the objects that a request can read when the
  file system is `fs`;
* `Effect w credential r ok fs cache` — everything a request can leave behind,
  procedure by procedure: the file system `fs` and the inode cache `cache`, with
  what was checked on the way there. `ok` says whether the request was answered
  with success.

`Server/Complete.lean` shows that both lists are complete, so the properties of
the server are case distinctions over them.
-/

namespace QuicNfs.Server

open Kernel Lib

/-- The handle `i` is that of a directory at `p` in which the caller may write. -/
structure Authorised (w : World) (cred : Credential) (i : Ino) (p : Path)
    (st : Kernel.Stat) : Prop extends DirectoryAt w i p st where
  granted {caller : AuthSysParams} : cred = .authSys caller → Granted w .write p caller

variable {i : Ino} {n : Bytes}

/-- A plain name stays in the directory of its handle. -/
theorem DirectoryAt.slot {w : World} {p : Path} {st : Kernel.Stat} (h : DirectoryAt w i p st)
    (hn : Plain n) {d : Ino} {m : Name}
    (hSlot : w.fs.slot (getFileAbsolutePath p n) = some (d, m)) : d = st.ino ∧ m = n :=
  FileSystem.slot_join_plain (FileSystem.lstat_ok h.lstat).1 h.isDir hn hSlot

/-- The names of a request, each with the handle of its directory. -/
def Request.names : Request → List (Ino × Bytes)
  | .lookup args => args.decode.toList
  | .create args => (args.decode.map fun a => (a.1, a.2.1)).toList
  | .mkdir args => (args.decode.map fun a => (a.1, a.2.1)).toList
  | .symlink args => (args.decode.map fun a => (a.1, a.2.1)).toList
  | .link args => (args.decode.map fun a => (a.2.1, a.2.2)).toList
  | .remove args => args.decode.toList
  | .rmdir args => args.decode.toList
  | .rename args => (args.decode.map fun a => [a.1, a.2]).getD []
  | _ => []

/-- The handles of a request. -/
def Request.handles : Request → List Ino
  | .mnt _ => []
  | .getattr fhandle => fhandle.decode.toList
  | .setattr args => (args.decode.map (·.1)).toList
  | .readlink fhandle => fhandle.decode.toList
  | .read args => (args.file.bind FHandle.decode).toList
  | .write args => (args.decode.map (·.1)).toList
  | .link args => (args.decode.map fun a => [a.1, a.2.1]).getD []
  | .readdir args => (args.decode.map (·.1)).toList
  | .statfs fhandle => fhandle.decode.toList
  | r => r.names.map (·.1)

def Request.mountPath : Request → Option Path
  | .mnt dirpath => dirpath.path
  | _ => none

/-- The requests whose system calls follow a symbolic link at the end of the
handle's path. -/
def Request.follows : Request → Bool
  | .setattr _ => true
  | .read _ => true
  | .write _ => true
  | .statfs _ => true
  | _ => false

/-- CREATE and MKDIR. -/
def Request.creation : Request → Option CreateArgs
  | .create args => some args
  | .mkdir args => some args
  | _ => none

/-- REMOVE and RMDIR. -/
def Request.deletion : Request → Option DirOpArgs
  | .remove args => some args
  | .rmdir args => some args
  | _ => none

/-- SETATTR and WRITE. -/
def Request.altersFile : Request → Bool
  | .setattr _ => true
  | .write _ => true
  | _ => false

/-- The paths a request works on: those of its handles, and those built for its
names. -/
inductive PathOf (w : World) (r : Request) : Path → Prop where
  | handle {i : Ino} {p : Path} (hHandle : i ∈ r.handles)
      (hp : w.inodeCache.getAbsolutePathFromInodeNumber i = some p) : PathOf w r p
  | name {i : Ino} {n : Bytes} {p : Path} (hName : (i, n) ∈ r.names)
      (hp : w.inodeCache.getAbsolutePathFromInodeNumber i = some p) :
      PathOf w r (getFileAbsolutePath p n)

variable {r : Request}

/-- The directory of a name is that of a handle. -/
theorem mem_handles_of_mem_names (h : (i, n) ∈ r.names) : i ∈ r.handles := by
  cases r with
  -- LINK has a second handle, that of the file
  | link args =>
    obtain ⟨k, hArgs⟩ : ∃ k, args.decode = some (k, i, n) := by simpa [Request.names] using h
    simp [Request.handles, hArgs]
  | mnt | getattr | setattr | readlink | read | write | readdir | statfs =>
    cases h
  | lookup | create | mkdir | symlink | remove | rmdir | rename =>
    exact List.mem_map.mpr ⟨(i, n), h, rfl⟩

theorem PathOf.directory {w : World} {p : Path} (hName : (i, n) ∈ r.names)
    (hp : w.inodeCache.getAbsolutePathFromInodeNumber i = some p) : PathOf w r p :=
  .handle (mem_handles_of_mem_names hName) hp

/-- The name of the object that CREATE or MKDIR makes. -/
theorem names_of_creation {args : CreateArgs} (hRequest : r.creation = some args) {a : Attributes}
    (hArgs : args.decode = some (i, n, a)) : (i, n) ∈ r.names := by
  cases r <;> simp_all [Request.creation, Request.names]

/-- What a request can read when the file system has become `fs`. -/
inductive Reached (w : World) (cred : Credential) (r : Request) (fs : FileSystem) :
    Ino → Prop where
  | named {p : Path} {i : Ino} (hp : PathOf w r p) (hNames : w.fs.SameNames fs)
      (hi : w.fs.lookup false p = .ok i) : Reached w cred r fs i
  | followed {p : Path} {i : Ino} (hFollows : r.follows = true) (hp : PathOf w r p)
      (hNames : w.fs.SameNames fs) (hi : w.fs.lookup true p = .ok i) : Reached w cred r fs i
  | new {k : Ino} {n : Bytes} {p : Path} {st : Kernel.Stat} {fs₁ : FileSystem} {d : Ino} {m : Name}
      {i : Ino} {x : Inode} (hName : (k, n) ∈ r.names) (hDir : DirectoryAt w k p st)
      (hSlot : w.fs.slot (getFileAbsolutePath p n) = some (d, m))
      (hCreated : w.fs.Created fs₁ d m i x) (hNames : fs₁.SameNames fs) :
      Reached w cred r fs i
  /-- MNT looks at its path before it knows whether that is exported. -/
  | mounted {p : Path} {i : Ino} (hp : r.mountPath = some p) (hNames : w.fs.SameNames fs)
      (hi : w.fs.lookup false p = .ok i) : Reached w cred r fs i
  /-- READDIR goes on with the stream of an open session. -/
  | stream {args : ReadDirArgs} {i : Ino} {cookie : Nat} {client : AuthSysParams} {p : Path}
      {s : ReadDirSession} (hRequest : r = .readdir args) (hArgs : args.decode = some (i, cookie))
      (hClient : cred = .authSys client)
      (hp : w.inodeCache.getAbsolutePathFromInodeNumber i = some p)
      (hs : s ∈ w.readdirSessions) (hBelongs : s.belongsTo client i = true)
      (hNames : w.fs.SameNames fs) : Reached w cred r fs s.directoryStream

/-- What a request can leave behind. -/
inductive Effect (w : World) (cred : Credential) :
    Request → Bool → FileSystem → InodeCache → Prop where
  /-- Requests that read, and those that were refused. -/
  | nothing (r : Request) (ok : Bool) : Effect w cred r ok w.fs w.inodeCache
  | mounted {p : Path} {st : Kernel.Stat} (timestamp : Nat)
      (hExported : isExported w.machine.exports p = true) (hStat : w.fs.lstat w.host p = .ok st)
      (hDir : w.fs.isDir st.ino) :
      Effect w cred (.mnt ⟨some p⟩) true w.fs (w.inodeCache.addInodeMapping ⟨st.ino, timestamp⟩ p)
  | lookedUp {args : DirOpArgs} {i : Ino} {n : Bytes} {p : Path} {st stFile : Kernel.Stat}
      (timestamp : Nat) (hArgs : args.decode = some (i, n)) (hDir : DirectoryAt w i p st)
      (hFile : w.fs.lstat w.host (getFileAbsolutePath p n) = .ok stFile)
      (hNew : w.inodeCache.getNfsFilehandleFromInodeNumber stFile.ino = none) :
      Effect w cred (.lookup args) true w.fs
        (w.inodeCache.addInodeMapping ⟨stFile.ino, timestamp⟩ (getFileAbsolutePath p n))
  /-- LOOKUP drops the handle it could not report the attributes of. -/
  | forgotten (args : DirOpArgs) (i : Ino) :
      Effect w cred (.lookup args) false w.fs (w.inodeCache.removeInodeMappingByInodeNumber i)
  /-- SETATTR and WRITE work on what the path of the handle leads to. -/
  | touched {r : Request} {ok : Bool} {i : Ino} {p : Path} {f : Ino} {fs' : FileSystem}
      (hRequest : r.altersFile = true) (hHandle : i ∈ r.handles)
      (hCached : w.inodeCache.getAbsolutePathFromInodeNumber i = some p)
      (hFile : w.fs.lookup true p = .ok f) (hTouched : w.fs.Touched fs' f)
      (hOwners : ∀ caller, cred = .authSys caller → caller.uid ≠ 0 → w.fs.SameOwners fs') :
      Effect w cred r ok fs' w.inodeCache
  /-- The new object may be left with attributes other than those asked for if
  the request fails. -/
  | created {r : Request} {args : CreateArgs} {i : Ino} {n : Bytes} {a : Attributes} {p : Path}
      {st : Kernel.Stat} {ok : Bool} {fs₁ fs' : FileSystem} {d : Ino} {m : Name} {j : Ino}
      {x : Inode} {cache : InodeCache} (hRequest : r.creation = some args)
      (hArgs : args.decode = some (i, n, a)) (hDir : Authorised w cred i p st)
      (hSlot : w.fs.slot (getFileAbsolutePath p n) = some (d, m))
      (hCreated : w.fs.Created fs₁ d m j x) (hTouched : fs₁.Touched fs' j)
      (hOwner : ok = true → fs'.owner j = some (FileSystem.newOwner a.uid a.gid (0, x.attr.gid)))
      (hCache : cache = w.inodeCache ∨ ∃ timestamp,
        fs'.lookup false (getFileAbsolutePath p n) = .ok j ∧
        cache = w.inodeCache.addInodeMapping ⟨j, timestamp⟩ (getFileAbsolutePath p n)) :
      Effect w cred r ok fs' cache
  | symlinked {args : SymLinkArgs} {i : Ino} {n : Bytes} {target p : Path} {st : Kernel.Stat}
      {ok : Bool} {fs' : FileSystem} {d : Ino} {m : Name} {j : Ino} {x : Inode}
      (hArgs : args.decode = some (i, n, target)) (hDir : Authorised w cred i p st)
      (hSlot : w.fs.slot (getFileAbsolutePath p n) = some (d, m))
      (hCreated : w.fs.Created fs' d m j x) :
      Effect w cred (.symlink args) ok fs' w.inodeCache
  | linked {args : LinkArgs} {k i : Ino} {n : Bytes} {q p : Path} {st : Kernel.Stat} {ok : Bool}
      {fs' : FileSystem} {d : Ino} {m : Name} {j : Ino}
      (hArgs : args.decode = some (k, i, n))
      (hSource : w.inodeCache.getAbsolutePathFromInodeNumber k = some q)
      (hFile : w.fs.lookup false q = .ok j) (hDir : Authorised w cred i p st)
      (hSlot : w.fs.slot (getFileAbsolutePath p n) = some (d, m))
      (hExtends : w.fs.Extends fs' d m j) (hOwners : w.fs.SameOwners fs')
      (hOnly : w.fs.Only fs' [d, j]) :
      Effect w cred (.link args) ok fs' w.inodeCache
  | removed {r : Request} {args : DirOpArgs} {i : Ino} {n : Bytes} {p : Path} {st : Kernel.Stat}
      {ok : Bool} {fs' : FileSystem} {d : Ino} {m : Name} {j : Ino}
      (hRequest : r.deletion = some args)
      (hArgs : args.decode = some (i, n)) (hDir : Authorised w cred i p st)
      (hSlot : w.fs.slot (getFileAbsolutePath p n) = some (d, m))
      (hRemoved : w.fs.Removed fs' d m j)
      (hKind : r = .remove args → w.fs.isDir j = false) :
      Effect w cred r ok fs'
        (w.inodeCache.removeInodeMappingByAbsolutePath (getFileAbsolutePath p n))
  /-- Nothing is renamed where the two names are of the same object. -/
  | renamed {args : RenameArgs} {i i' : Ino} {n n' : Bytes} {p p' : Path} {st st' : Kernel.Stat}
      {ok : Bool} {fs' : FileSystem} {d d' : Ino} {m m' : Name} {j : Ino} {target : Option Ino}
      (hArgs : args.decode = some ((i, n), (i', n')))
      (hFrom : Authorised w cred i p st) (hTo : Authorised w cred i' p' st')
      (hSlot : w.fs.slot (getFileAbsolutePath p n) = some (d, m))
      (hSlot' : w.fs.slot (getFileAbsolutePath p' n') = some (d', m'))
      (hNamed : w.fs.entry d m = some j) (hTarget : w.fs.entry d' m' = target)
      (hLength : (getFileAbsolutePath p' n').length < pathMax) (hNotSelf : d' ≠ j)
      (hRenamed : (target = some j ∧ fs' = w.fs) ∨
        (target ≠ some j ∧ w.fs.Renamed fs' d m j d' m' target)) :
      Effect w cred (.rename args) ok fs'
        (w.inodeCache.updateInodeMappingAbsolutePathByAbsolutePath (getFileAbsolutePath p n)
          (getFileAbsolutePath p' n'))

end QuicNfs.Server

import QuicNfs.Kernel.Syscalls
import QuicNfs.Lib.Program

/-!
# QuicNfs — the machine the server runs on

The kernel as an environment of programs: `Sys` is the calls the server makes,
`Machine` the state they work on. What the tree does not determine (device
errors, exhausted memory, the clock, the choice of an inode number) comes from
`env`, one `Circumstance` for each call, so that a statement for every `env`
is a statement for every behaviour of the machine.
-/

namespace QuicNfs.Kernel

open Lib

/-- Why a call can fail whatever the tree is. None of them says that a name
is missing or taken. -/
inductive Fault where
  | io | noSuchDevice | access | tooBig | noSpace | readOnly | noMemory | quota | permission
deriving DecidableEq, Repr

def Fault.errno : Fault → Errno
  | io => .eio
  | noSuchDevice => .enxio
  | access => .eacces
  | tooBig => .efbig
  | noSpace => .enospc
  | readOnly => .erofs
  | noMemory => .enomem
  | quota => .edquot
  | permission => .eperm

/-- What the outside world does during one call. -/
structure Circumstance where
  fault : Option Fault
  now : Timespec
  /-- The inode number a new object would get. -/
  ino : Ino
  /-- Whether an allocation succeeds. -/
  memory : Bool
  /-- The mode argument of an `open` that is given none. -/
  mode : Nat
  /-- How many bytes of a buffered or failing write reach the file. -/
  stored : Nat
  /-- What a device delivers. -/
  device : Bytes
  /-- Where `seekdir` leads with a position that is not one of the directory. -/
  position : Nat

instance : Inhabited Circumstance :=
  ⟨⟨none, default, 0, true, 0, 0, [], 0⟩⟩

structure Machine where
  fs : FileSystem
  /-- The directories that open streams hold on to. -/
  openDirs : List Ino
  host : Host
  /-- The content of `./exports`, if it can be opened. -/
  exports : Option Bytes
  env : Nat → Circumstance
  tick : Nat

/-- The calls of the server, with what they answer. -/
inductive Sys : Type → Type where
  | lstat (p : Path) : Sys (Except Errno Stat)
  | openCreat (p : Path) (mode : Option Nat) : Sys (Except Errno Unit)
  | mkdir (p : Path) (mode : Nat) : Sys (Except Errno Unit)
  | symlink (target p : Path) : Sys (Except Errno Unit)
  | link (p q : Path) : Sys (Except Errno Unit)
  | unlink (p : Path) : Sys (Except Errno Unit)
  | rmdir (p : Path) : Sys (Except Errno Unit)
  | rename (p q : Path) : Sys (Except Errno Unit)
  | chmod (p : Path) (mode : Nat) : Sys (Except Errno Unit)
  | chown (p : Path) (uid gid : Nat) : Sys (Except Errno Unit)
  | truncate (p : Path) (size : Nat) : Sys (Except Errno Unit)
  | utimes (p : Path) (atime mtime : TimeVal) : Sys (Except Errno Unit)
  | readlink (p : Path) (size : Nat) : Sys (Except Errno Bytes)
  | statvfs (p : Path) : Sys (Except Errno StatVfs)
  /-- `fopen` in mode `rb`, or `r+b` for update. -/
  | fopen (p : Path) (update : Bool) : Sys (Except Errno Ino)
  | fseek (f : Ino) (offset : Nat) : Sys (Except Errno Unit)
  | fread (f : Ino) (offset count : Nat) : Sys (Except Errno Bytes)
  /-- Answers with the bytes that are still in the stream's buffer; an error is
  a short count. -/
  | fwrite (f : Ino) (offset : Nat) (data : Bytes) : Sys (Except Errno Bytes)
  /-- Flushes what is in the stream's buffer; answers whether that succeeded. -/
  | fclose (f : Ino) (offset : Nat) (buffered : Bytes) : Sys Bool
  | opendir (p : Path) : Sys (Except Errno Ino)
  | closedir (d : Ino) : Sys Unit
  /-- The entry at a position of a directory stream, with the `telldir` value
  after it; `none` at the end. -/
  | readdir (d : Ino) (position : Nat) : Sys (Except Errno (Option (Name × Ino × Nat)))
  | seekdir (d : Ino) (cookie : Nat) : Sys Nat
  | malloc : Sys Bool
  | time : Sys Nat
  | readExports : Sys (Option Bytes)

/-- The objects whose attributes, target, bytes or entries a call reads. -/
def Sys.reads {β : Type} (fs : FileSystem) : Sys β → List Ino
  | .lstat p => (fs.lookup false p).toOption.toList
  | .readlink p _ => (fs.lookup false p).toOption.toList
  | .statvfs p => (fs.lookup true p).toOption.toList
  | .fread f _ _ => [f]
  | .readdir d _ => [d]
  | _ => []

theorem mem_toOption {ε α : Type} {r : Except ε α} {a : α} : a ∈ r.toOption.toList ↔ r = .ok a := by
  cases r with
  | error e => simp [Except.toOption]
  | ok b => simp [Except.toOption, eq_comm]

namespace Machine

def here (m : Machine) : Circumstance := m.env m.tick

def next (m : Machine) : Machine := { m with tick := m.tick + 1 }

/-- A call that reads. -/
def answer {α : Type} (m : Machine) (r : Except Errno α) : Except Errno α × Machine :=
  match m.here.fault with
  | some f => (.error f.errno, m.next)
  | none => (r, m.next)

/-- A call that changes the file system, if it succeeds. -/
def change (m : Machine) (r : Except Errno FileSystem) : Except Errno Unit × Machine :=
  match m.here.fault with
  -- a fault comes before the call looks at the tree
  | some f => (.error f.errno, m.next)
  | none =>
    match r with
    | .error e => (.error e, m.next)
    | .ok fs => (.ok (), { m.next with fs := fs })

/-- The position in directory `d` that `telldir` calls `cookie`. -/
def seek (m : Machine) (d : Ino) (cookie : Nat) : Nat :=
  ((List.range ((m.fs.listing d).length + 1)).find? fun k => m.host.cookie d k == cookie).getD
    m.here.position

/-- `fwrite`: some bytes reach the file, the others stay in the stream's
buffer, or are lost if the call fails. -/
def streamWrite (m : Machine) (f : Ino) (offset : Nat) (data : Bytes) :
    Except Errno Bytes × Machine :=
  -- how much is written through is the library's choice, also if the call fails afterwards
  let m' := { m.next with fs := m.fs.write f offset (data.take m.here.stored) m.here.now }
  match m.here.fault with
  | some e => (.error e.errno, m')
  | none => (.ok (data.drop m.here.stored), m')

/-- `fclose`: the buffered bytes reach the file, or some of them if that fails. -/
def streamClose (m : Machine) (f : Ino) (offset : Nat) (buffered : Bytes) : Bool × Machine :=
  match m.here.fault with
  | some _ =>
    (false, { m.next with fs := m.fs.write f offset (buffered.take m.here.stored) m.here.now })
  | none => (true, { m.next with fs := m.fs.write f offset buffered m.here.now })

/-- `opendir`: the stream holds on to the directory. -/
def streamOpen (m : Machine) (p : Path) : Except Errno Ino × Machine :=
  match m.answer (m.fs.opendir p) with
  | (.ok d, m') => (.ok d, { m' with openDirs := d :: m'.openDirs })
  | (.error e, m') => (.error e, m')

def readExportsFile (m : Machine) : Option Bytes × Machine :=
  match m.here.fault with
  | some _ => (none, m.next)
  | none => (m.exports, m.next)

def exec {β : Type} : Sys β → Machine → β × Machine
  | .lstat p, m => m.answer (m.fs.lstat m.host p)
  | .openCreat p mode, m =>
    m.change (m.fs.openCreat m.host m.openDirs p (mode.getD m.here.mode) m.here.ino m.here.now)
  | .mkdir p mode, m => m.change (m.fs.mkdir m.host m.openDirs p mode m.here.ino m.here.now)
  | .symlink target p, m => m.change (m.fs.symlink m.openDirs target p m.here.ino m.here.now)
  | .link p q, m => m.change (m.fs.linkPath p q m.here.now)
  | .unlink p, m => m.change (m.fs.unlink p m.here.now)
  | .rmdir p, m => m.change (m.fs.rmdir p m.here.now)
  | .rename p q, m => m.change (m.fs.rename p q m.here.now)
  | .chmod p mode, m => m.change (m.fs.chmod p mode m.here.now)
  | .chown p uid gid, m => m.change (m.fs.chown p uid gid m.here.now)
  | .truncate p size, m => m.change (m.fs.truncate p size m.here.now)
  | .utimes p atime mtime, m => m.change (m.fs.utimes p atime mtime m.here.now)
  | .readlink p size, m => m.answer (m.fs.readlink p size)
  | .statvfs p, m => m.answer ((m.fs.lookup true p).map fun _ => m.host.statvfs)
  | .fopen p update, m => m.answer (m.fs.fopen p update)
  -- the position is an argument of the calls that follow
  | .fseek _ _, m => m.answer (.ok ())
  | .fread f offset count, m => m.answer (m.fs.read f offset count m.here.device)
  | .fwrite f offset data, m => m.streamWrite f offset data
  | .fclose f offset buffered, m => m.streamClose f offset buffered
  | .opendir p, m => m.streamOpen p
  | .closedir d, m => ((), { m.next with openDirs := m.openDirs.erase d })
  | .readdir d position, m =>
    m.answer (.ok (((m.fs.listing d)[position]?).map fun e =>
      (e.1, e.2, m.host.cookie d (position + 1))))
  | .seekdir d cookie, m => (m.seek d cookie, m.next)
  | .malloc, m => (m.here.memory, m.next)
  | .time, m => (m.here.now.sec, m.next)
  | .readExports, m => m.readExportsFile

theorem answer_next {α : Type} (m : Machine) (r : Except Errno α) : (m.answer r).2 = m.next := by
  unfold answer
  split <;> rfl

/-- No call changes more of the machine than the files, the open streams and the
count of calls. -/
theorem exec_frame {β : Type} (o : Sys β) (m : Machine) :
    ∃ fs openDirs, (m.exec o).2 = { m.next with fs := fs, openDirs := openDirs } := by
  have hChange : ∀ r, ∃ fs openDirs,
      (m.change r).2 = { m.next with fs := fs, openDirs := openDirs } := by
    intro r
    unfold change
    split
    · exact ⟨m.fs, m.openDirs, rfl⟩
    · cases r with
      | error e => exact ⟨m.fs, m.openDirs, rfl⟩
      | ok fs => exact ⟨fs, m.openDirs, rfl⟩
  cases o with
  | lstat | readlink | statvfs | fopen | fseek | fread | readdir =>
    exact ⟨m.fs, m.openDirs, answer_next m _⟩
  | openCreat | mkdir | symlink | link | unlink | rmdir | rename | chmod | chown | truncate
  | utimes => exact hChange _
  | fwrite f offset data =>
    refine ⟨m.fs.write f offset (data.take m.here.stored) m.here.now, m.openDirs, ?_⟩
    show (m.streamWrite f offset data).2 = _
    unfold streamWrite
    dsimp only
    split <;> rfl
  | fclose f offset buffered =>
    show ∃ fs openDirs, (m.streamClose f offset buffered).2 = _
    unfold streamClose
    split <;> exact ⟨_, m.openDirs, rfl⟩
  -- the one call that changes the machine after it has been answered
  | opendir p =>
    show ∃ fs openDirs, (m.streamOpen p).2 = _
    have hNext := answer_next m (m.fs.opendir p)
    unfold streamOpen
    split
    · next d m' hd =>
      rw [hd] at hNext
      exact ⟨m.fs, d :: m.openDirs, by rw [show m' = m.next from hNext]; rfl⟩
    · next e m' he =>
      rw [he] at hNext
      exact ⟨m.fs, m.openDirs, hNext⟩
  | closedir d => exact ⟨m.fs, m.openDirs.erase d, rfl⟩
  | seekdir | malloc | time => exact ⟨m.fs, m.openDirs, rfl⟩
  | readExports =>
    refine ⟨m.fs, m.openDirs, ?_⟩
    show m.readExportsFile.2 = _
    unfold readExportsFile
    split <;> rfl

end Machine

instance : Handler Sys Machine := ⟨Machine.exec⟩

end QuicNfs.Kernel

import QuicNfs.Server.Procedures

/-!
# QuicNfs — the server

One request after the other, with the sweep of expired ReadDir sessions
anywhere in between: `serve` hands a request to its procedure, `World.step`
lets one action happen, `World.steps` a whole run.
-/

namespace QuicNfs.Server

open Kernel Lib

/-- The results of the procedures. -/
inductive Answer where
  | fhStatus (reply : Reply MntStat NfsFileHandle)
  | attrStat (reply : NfsReply FAttr)
  | dirOpRes (reply : NfsReply DirOpOk)
  | readLinkRes (reply : NfsReply Bytes)
  | readRes (reply : NfsReply ReadResBody)
  | nfsStat (reply : NfsReply Unit)
  | readDirRes (reply : NfsReply ReadDirOk)
  | statFsRes (reply : NfsReply FsInfo)
deriving DecidableEq, Repr

def Reply.isOk {σ β : Type} : Reply σ β → Bool
  | ok _ => true
  | _ => false

/-- The request was carried out: MNT_OK or NFS_OK. -/
def Answer.isOk : Answer → Bool
  | fhStatus r => r.isOk
  | attrStat r => r.isOk
  | dirOpRes r => r.isOk
  | readLinkRes r => r.isOk
  | readRes r => r.isOk
  | nfsStat r => r.isOk
  | readDirRes r => r.isOk
  | statFsRes r => r.isOk

def serve (credential : Credential) : Request → Proc Answer
  | .mnt a => do return .fhStatus (← serveMntProcedure1AddMountEntry credential a)
  | .getattr a => do return .attrStat (← serveNfsProcedure1GetFileAttributes credential a)
  | .setattr a => do return .attrStat (← serveNfsProcedure2SetFileAttributes credential a)
  | .lookup a => do return .dirOpRes (← serveNfsProcedure4LookUpFileName credential a)
  | .readlink a => do
    return .readLinkRes (← serveNfsProcedure5ReadFromSymbolicLink credential a)
  | .read a => do return .readRes (← serveNfsProcedure6ReadFromFile credential a)
  | .write a => do return .attrStat (← serveNfsProcedure8WriteToFile credential a)
  | .create a => do return .dirOpRes (← serveNfsProcedure9CreateFile credential a)
  | .remove a => do return .nfsStat (← serveNfsProcedure10RemoveFile credential a)
  | .rename a => do return .nfsStat (← serveNfsProcedure11RenameFile credential a)
  | .link a => do return .nfsStat (← serveNfsProcedure12CreateLinkToFile credential a)
  | .symlink a => do return .nfsStat (← serveNfsProcedure13CreateSymbolicLink credential a)
  | .mkdir a => do return .dirOpRes (← serveNfsProcedure14CreateDirectory credential a)
  | .rmdir a => do return .nfsStat (← serveNfsProcedure15RemoveDirectory credential a)
  | .readdir a => do return .readDirRes (← serveNfsProcedure16ReadFromDirectory credential a)
  | .statfs a => do
    return .statFsRes (← serveNfsProcedure17GetFilesystemAttributes credential a)

/-- What can happen to a server: a request, or the periodic sweep. -/
inductive Action where
  | request (credential : Credential) (request : Request)
  | cleanUp
deriving DecidableEq, Repr

namespace World

def answer (w : World) (credential : Credential) (r : Request) : Answer :=
  ((serve credential r).run w).1

def afterRequest (w : World) (credential : Credential) (r : Request) : World :=
  ((serve credential r).run w).2

def step (w : World) : Action → World
  | .request credential r => w.afterRequest credential r
  | .cleanUp => (cleanUpExpiredReaddirSessions.run w).2

/-- The world after a run. -/
def steps (w : World) : List Action → World
  | [] => w
  | a :: rest => (w.step a).steps rest

@[simp] theorem steps_nil (w : World) : w.steps [] = w := rfl

@[simp] theorem steps_cons (w : World) (a : Action) (rest : List Action) :
    w.steps (a :: rest) = (w.step a).steps rest := rfl

theorem steps_append (w : World) (run rest : List Action) :
    w.steps (run ++ rest) = (w.steps run).steps rest := by
  induction run generalizing w with
  | nil => rfl
  | cons a run ih => exact ih _

/-- Every action of the run happens in a state that meets the condition. -/
def Along (Cond : World → Action → Prop) : World → List Action → Prop
  | _, [] => True
  | w, a :: rest => Cond w a ∧ Along Cond (w.step a) rest

instance (Cond : World → Action → Prop) [∀ w a, Decidable (Cond w a)] :
    ∀ w run, Decidable (Along Cond w run)
  | _, [] => inferInstanceAs (Decidable True)
  | w, a :: rest =>
    have := instDecidableAlong Cond (w.step a) rest
    inferInstanceAs (Decidable (Cond w a ∧ Along Cond (w.step a) rest))

variable {w : World} {run : List Action}

theorem along_append {Cond : World → Action → Prop} {rest : List Action} :
    Along Cond w (run ++ rest) ↔ Along Cond w run ∧ Along Cond (w.steps run) rest := by
  induction run generalizing w with
  | nil => simp [Along]
  | cons a run ih => simp only [List.cons_append, Along, ih, steps_cons, and_assoc]

theorem Along.mono {Cond Cond' : World → Action → Prop} (hCond : ∀ w a, Cond w a → Cond' w a)
    (h : Along Cond w run) : Along Cond' w run := by
  induction run generalizing w with
  | nil => trivial
  | cons a run ih => exact ⟨hCond w a h.1, ih h.2⟩

/-- `P` holds at the start of the run and after each of its actions. -/
def Throughout (P : World → Prop) : World → List Action → Prop
  | w, [] => P w
  | w, a :: rest => P w ∧ Throughout P (w.step a) rest

instance (P : World → Prop) [∀ w, Decidable (P w)] : ∀ w run, Decidable (Throughout P w run)
  | w, [] => inferInstanceAs (Decidable (P w))
  | w, a :: rest =>
    have := instDecidableThroughout P (w.step a) rest
    inferInstanceAs (Decidable (P w ∧ Throughout P (w.step a) rest))

theorem Throughout.start {P : World → Prop} (h : Throughout P w run) : P w := by
  cases run with
  | nil => exact h
  | cons a rest => exact h.1

/-- What every step keeps under a condition on its action, a run of such
actions keeps. -/
theorem invariant_steps {I : World → Prop} {Cond : World → Action → Prop}
    (hStep : ∀ w a, I w → Cond w a → I (w.step a)) (hInv : I w) (hRun : Along Cond w run) :
    I (w.steps run) := by
  induction run generalizing w with
  | nil => exact hInv
  | cons a run ih => exact ih (hStep w a hInv hRun.1) hRun.2

end World

/-- Nothing the server does changes the exports file, what the outside world does, or
the machine's own settings. -/
theorem World.step_frame (w : World) (a : Action) :
    (w.step a).machine.exports = w.machine.exports ∧ (w.step a).machine.env = w.machine.env ∧
      (w.step a).machine.host = w.machine.host := by
  -- operation by operation: only system calls touch the machine at all
  have hExec : ∀ {β : Type} (o : Op β) (v : World),
      v.machine.exports = w.machine.exports ∧ v.machine.env = w.machine.env ∧
        v.machine.host = w.machine.host →
      (Handler.exec o v).2.machine.exports = w.machine.exports ∧
        (Handler.exec o v).2.machine.env = w.machine.env ∧
        (Handler.exec o v).2.machine.host = w.machine.host := by
    intro β o v hv
    cases o with
    | sys o =>
      obtain ⟨fs, openDirs, hFrame⟩ := Machine.exec_frame o v.machine
      show (v.machine.exec o).2.exports = _ ∧ (v.machine.exec o).2.env = _ ∧
        (v.machine.exec o).2.host = _
      rw [hFrame]
      exact hv
    | getInodeCache | setInodeCache | getMountList | setMountList | getReaddirSessions
    | setReaddirSessions => exact hv
  cases a with
  | request credential r => exact Prog.run_invariant hExec (serve credential r) ⟨rfl, rfl, rfl⟩
  | cleanUp => exact Prog.run_invariant hExec cleanUpExpiredReaddirSessions ⟨rfl, rfl, rfl⟩

theorem World.host_steps (w : World) (run : List Action) :
    (w.steps run).machine.host = w.machine.host := by
  induction run generalizing w with
  | nil => rfl
  | cons a run ih => exact (ih (w.step a)).trans (w.step_frame a).2.2

/-- A server that has just been started: nothing is cached, nothing mounted,
no stream open. -/
structure World.Fresh (w : World) : Prop where
  inodeCache : w.inodeCache = []
  mountList : w.mountList = []
  readdirSessions : w.readdirSessions = []
  openDirs : w.machine.openDirs = []

/-- The server at its start on a machine. -/
def World.boot (fs : FileSystem) (host : Host) (exports : Option Bytes)
    (env : Nat → Circumstance) : World where
  -- the number of calls made so far is 0
  machine := ⟨fs, [], host, exports, env, 0⟩
  inodeCache := []
  mountList := []
  readdirSessions := []

theorem World.fresh_boot (fs : FileSystem) (host : Host) (exports : Option Bytes)
    (env : Nat → Circumstance) : (World.boot fs host exports env).Fresh :=
  ⟨rfl, rfl, rfl, rfl⟩

/-! ## A small server

The directory `/exp` is exported, anyone may write in it; it holds a directory
`a` of root's with a file `f`, and a symbolic link `l` to the file `/secret`,
which only root may read. No call fails for a reason of its own. -/

namespace Sample

def attr (perm : Nat) : Attr := ⟨perm, 0, 0, default, default, default⟩

def files : FileSystem :=
  (FileSystem.rootOnly 1 (attr 0o755))
    |>.create 1 (bytes "exp") 2 ⟨.directory ∅, attr 0o777⟩ default
    |>.create 2 (bytes "a") 3 ⟨.directory ∅, attr 0o755⟩ default
    |>.create 3 (bytes "f") 4 ⟨.regular (bytes "data"), attr 0o644⟩ default
    |>.create 1 (bytes "secret") 5 ⟨.regular (bytes "hidden"), attr 0o600⟩ default
    |>.create 2 (bytes "l") 6 ⟨.symlink (bytes "/secret"), attr 0o777⟩ default

def host : Host where
  umask := 0o22
  dev := 1
  blksize := 4096
  statvfs := ⟨4096, 4096, 0, 0, 0⟩
  cookie := fun _ k => k

/-- Every new object gets a number above those in use. -/
def env (t : Nat) : Circumstance := { (default : Circumstance) with ino := t + 7 }

def world : World := .boot files host (some (bytes "/exp *(rw)\n")) env

/-- The same server where the `t`-th call fails. -/
def failing (t : Nat) : World :=
  .boot files host (some (bytes "/exp *(rw)\n")) fun k =>
    { env k with fault := if k = t then some .io else none }

def caller : AuthSysParams := ⟨0, bytes "client", 1000, 1000, []⟩

def handle (i : Ino) : FHandle := ⟨some ⟨i, 0⟩⟩

/-- The name `n` in the directory with inode number `d`. -/
def nameIn (d : Ino) (n : String) : DirOpArgs := ⟨some (handle d), some ⟨some (bytes n)⟩⟩

/-- CREATE or MKDIR arguments that set nothing but the mode and the owner. -/
def newFile (d : Ino) (n : String) (uid : Nat) : CreateArgs where
  location := some (nameIn d n)
  attributes := some ⟨0o644, uid, uid, unchanged64, some ⟨unchanged64, unchanged64⟩,
    some ⟨unchanged64, unchanged64⟩⟩

def request (r : Request) : Action := .request (.authSys caller) r

def rename (d : Ino) (n : String) (d' : Ino) (n' : String) : Action :=
  request (.rename ⟨some (nameIn d n), some (nameIn d' n')⟩)

def mount : Action := request (.mnt ⟨some (bytes "/exp")⟩)

end Sample

end QuicNfs.Server

import QuicNfs.Client.Repl
import QuicNfs.Client.Resolution

/-!
# QuicNfs — `cd` and the machine of the client

`handle_cd` asks the server for the directory, and then checks the permission to enter it
with `check_execute_permission`: a function of the server, which looks at the path on the
machine where it runs. On the client that is the client's own file system.

* `cdOutcome` — how `cd` ends, from the reply and the verdict of the check;
* `directories_cds` — every directory that has been entered is one;
* `cd_depends_on_server_iff` — when two machines agree with the server.
-/

namespace QuicNfs.Client

open Kernel Server Lib Prog

/-! ## One command -/

/-- Where `cd` goes if nothing is in its way. -/
def entered (state : ReplState) (directoryName : Bytes) (diropok : DirOpOk) :
    Returned × ReplState :=
  if directoryName = dot then (.code 0, state)
  else if directoryName = dotdot then
    match state.cwdNode with
    | .root .. => (.code 0, state)
    | .child parent .. => (.code 0, { state with cwdNode := parent })
  else
    let childNode := .child state.cwdNode
      (getFileAbsolutePath state.cwdNode.absolutePath directoryName) diropok.attributes.nfsFtype
      diropok.file
    (.nothing, { state with cwdNode := childNode })

/-- How `cd` ends: only a new directory is checked. -/
def cdOutcome (state : ReplState) (directoryName : Bytes) :
    StubResult DirOpOk → Verdict → Returned × Option ReplState
  | .ok diropok, verdict =>
    if diropok.attributes.nfsFtype = .nfDir ∧
        (directoryName = dot ∨ directoryName = dotdot ∨ verdict = .granted) then
      ((entered state directoryName diropok).1, some (entered state directoryName diropok).2)
    else (.code 1, some state)
  | _, _ => (.code 1, some state)

section Command

variable (link : Link) (state : ReplState) (directoryName : Bytes)

/-- The LOOKUP of the directory. -/
def lookUpDirectory : Remote (StubResult DirOpOk) :=
  nfsProcedure4LookUpFileName ⟨some ⟨some state.cwdNode.fhandle⟩, some ⟨some directoryName⟩⟩

/-- The check of the permission, on the machine of the client. -/
def checkLocally (machine : World) : Verdict :=
  ((checkExecutePermission (getFileAbsolutePath state.cwdNode.absolutePath directoryName)
    state.authSys.uid state.authSys.gid).run machine).1

/-- What `cd` returns and leaves, on a machine. -/
def cd (machine : World) : Returned × Option ReplState :=
  ((handleCd (some state) directoryName).run (⟨link, machine⟩ : Shell)).1

/-- The link is as the LOOKUP has left it. -/
theorem run_handleCd (hCwd : state.cwdNode.ftype = .nfDir) (machine : World) :
    ∃ machine', (handleCd (some state) directoryName).run (⟨link, machine⟩ : Shell) =
      (cdOutcome state directoryName ((lookUpDirectory state directoryName).run link).1
        (checkLocally state directoryName machine),
        ⟨((lookUpDirectory state directoryName).run link).2, machine'⟩) := by
  unfold handleCd lookUpDirectory checkLocally
  dsimp only
  rw [run_bind, Shell.run_remote]
  generalize (nfsProcedure4LookUpFileName
    ⟨some ⟨some state.cwdNode.fhandle⟩, some ⟨some directoryName⟩⟩).run link = replied
  obtain ⟨reply, link'⟩ := replied
  cases reply with
  | failed | err stat => exact ⟨machine, rfl⟩
  | ok diropok =>
    dsimp only [cdOutcome, entered]
    by_cases hDir : diropok.attributes.nfsFtype = .nfDir
    · rw [if_neg (not_not.mpr hDir)]
      by_cases hDot : directoryName = dot
      · rw [if_pos hDot, if_pos ⟨hDir, .inl hDot⟩, if_pos hDot]
        exact ⟨machine, rfl⟩
      rw [if_neg hDot]
      by_cases hDotdot : directoryName = dotdot
      · rw [if_pos hDotdot, if_pos ⟨hDir, .inr (.inl hDotdot)⟩, if_neg hDot, if_pos hDotdot]
        cases state.cwdNode <;> exact ⟨machine, rfl⟩
      · -- only here does the machine of the client come in
        rw [if_neg hDotdot, run_bind, Shell.run_onMachine, if_neg hDot, if_neg hDotdot]
        generalize ((checkExecutePermission (getFileAbsolutePath state.cwdNode.absolutePath
          directoryName) state.authSys.uid state.authSys.gid).run machine) = checked
        obtain ⟨verdict, machine'⟩ := checked
        cases verdict with
        | failed | refused =>
          rw [if_neg (by simp [hDot, hDotdot])]
          exact ⟨machine', rfl⟩
        | granted =>
          -- the working directory is a directory, so that the node gets its parent
          dsimp only [DAGNode.addChild]
          rw [if_neg (not_not.mpr hCwd), if_pos ⟨hDir, .inr (.inr rfl)⟩]
          exact ⟨machine', rfl⟩
    · rw [if_pos hDir, if_neg fun h => hDir h.1]
      exact ⟨machine, rfl⟩

theorem cd_eq (hCwd : state.cwdNode.ftype = .nfDir) (machine : World) :
    cd link state directoryName machine =
      cdOutcome state directoryName ((lookUpDirectory state directoryName).run link).1
        (checkLocally state directoryName machine) := by
  obtain ⟨machine', hRun⟩ := run_handleCd link state directoryName hCwd machine
  rw [cd, hRun]

end Command

/-! ## The directories entered so far -/

/-- A node and those above it are directories. -/
def DAGNode.Directories : DAGNode → Prop
  | .root _ ftype _ => ftype = .nfDir
  | .child parent _ ftype _ => ftype = .nfDir ∧ parent.Directories

theorem DAGNode.Directories.ftype {node : DAGNode} (h : node.Directories) : node.ftype = .nfDir := by
  cases node with
  | root => exact h
  | child => exact h.1

/-- Whatever the server and the machine answer, only directories are entered. -/
theorem directories_handleCd {state : ReplState} (h : state.cwdNode.Directories)
    (directoryName : Bytes) :
    (handleCd (some state) directoryName).Returns fun result =>
      ∃ state', result.2 = some state' ∧ state'.cwdNode.Directories := by
  unfold handleCd
  refine returns_bind_any fun reply => ?_
  cases reply with
  | failed | err stat => exact returns_pure ⟨state, rfl, h⟩
  | ok diropok =>
    dsimp only
    split
    · exact Prog.returns_pure ⟨state, rfl, h⟩
    next hDir =>
    split
    · exact Prog.returns_pure ⟨state, rfl, h⟩
    split
    · -- the parent has been entered before, so the invariant has it too
      rcases hNode : state.cwdNode with ⟨path, ftype, fhandle⟩ | ⟨parent, path, ftype, fhandle⟩
      · exact Prog.returns_pure ⟨state, rfl, h⟩
      · rw [hNode] at h
        exact Prog.returns_pure ⟨_, rfl, h.2⟩
    · refine Prog.returns_bind_any fun verdict => ?_
      cases verdict with
      | failed | refused => exact Prog.returns_pure ⟨state, rfl, h⟩
      | granted =>
        dsimp only [DAGNode.addChild]
        rw [if_neg (not_not.mpr h.ftype)]
        exact Prog.returns_pure ⟨_, rfl, not_not.mp hDir, h⟩

/-- One `cd` after the other. -/
def cds : List Bytes → Option ReplState → Prog ReplOp (Option ReplState)
  | [], state => return state
  | directoryName :: rest, state => do
    let result ← handleCd state directoryName
    cds rest result.2

/-- Since the file system was mounted, only directories have been entered. -/
theorem directories_cds {state : ReplState} (h : state.cwdNode.Directories) (names : List Bytes) :
    (cds names (some state)).Returns fun result =>
      ∃ state', result = some state' ∧ state'.cwdNode.Directories := by
  induction names generalizing state with
  | nil => exact returns_pure ⟨state, rfl, h⟩
  | cons name rest ih =>
    refine returns_bind (directories_handleCd h name) ?_
    rintro ⟨returned, -⟩ ⟨state', rfl, h'⟩
    exact ih h'

/-! ## Two machines -/

/-- The command has not reported a failure. -/
def Succeeds (result : Returned × Option ReplState) : Prop := result.1 ≠ .code 1

instance (result : Returned × Option ReplState) : Decidable (Succeeds result) :=
  inferInstanceAs (Decidable (_ ≠ _))

theorem entered_succeeds (state : ReplState) (directoryName : Bytes) (diropok : DirOpOk) :
    (entered state directoryName diropok).1 ≠ .code 1 := by
  unfold entered
  split
  · nofun
  · split
    · cases state.cwdNode <;> nofun
    · nofun

theorem succeeds_cdOutcome (state : ReplState) (directoryName : Bytes)
    (reply : StubResult DirOpOk) (verdict : Verdict) :
    Succeeds (cdOutcome state directoryName reply verdict) ↔
      ∃ diropok, reply = .ok diropok ∧ diropok.attributes.nfsFtype = .nfDir ∧
        (directoryName = dot ∨ directoryName = dotdot ∨ verdict = .granted) := by
  cases reply with
  | failed | err stat => exact iff_of_false (fun h => h rfl) nofun
  | ok diropok =>
    dsimp only [cdOutcome]
    by_cases hPasses : diropok.attributes.nfsFtype = .nfDir ∧
        (directoryName = dot ∨ directoryName = dotdot ∨ verdict = .granted)
    · rw [if_pos hPasses]
      exact iff_of_true (entered_succeeds _ _ _) ⟨diropok, rfl, hPasses⟩
    · rw [if_neg hPasses]
      refine iff_of_false (fun h => h rfl) ?_
      rintro ⟨d, hEq, h⟩
      exact hPasses (StubResult.ok.inj hEq ▸ h)

/-- Where `cd` has gone depends on whether it has succeeded only. -/
theorem cdOutcome_congr (state : ReplState) (directoryName : Bytes)
    (reply : StubResult DirOpOk) {verdict verdict' : Verdict}
    (h : Succeeds (cdOutcome state directoryName reply verdict) ↔
      Succeeds (cdOutcome state directoryName reply verdict')) :
    cdOutcome state directoryName reply verdict = cdOutcome state directoryName reply verdict' := by
  rw [succeeds_cdOutcome, succeeds_cdOutcome] at h
  cases reply with
  | failed | err stat => rfl
  | ok diropok =>
    have hSame : (diropok.attributes.nfsFtype = .nfDir ∧
        (directoryName = dot ∨ directoryName = dotdot ∨ verdict = .granted)) ↔
        (diropok.attributes.nfsFtype = .nfDir ∧
        (directoryName = dot ∨ directoryName = dotdot ∨ verdict' = .granted)) := by
      simpa using h
    dsimp only [cdOutcome]
    rw [if_congr hSame rfl rfl]

section Machines

variable (link : Link) (state : ReplState) (directoryName : Bytes)

/-- The credential has the permission to enter what the server has looked up. -/
def ExecuteAllowed (diropok : DirOpOk) : Prop :=
  Allowed ((lookUpDirectory state directoryName).run link).2.world.fs link.credential .execute
    diropok.file.inodeNumber

/-- The server has found a directory that the credential may enter. -/
def MayEnter : Prop :=
  ∃ diropok, ((lookUpDirectory state directoryName).run link).1 = .ok diropok ∧
    diropok.attributes.nfsFtype = .nfDir ∧ ExecuteAllowed link state directoryName diropok

/-- On this machine nothing is checked, or the check grants the permission. -/
def PassesLocally (machine : World) : Prop :=
  directoryName = dot ∨ directoryName = dotdot ∨ checkLocally state directoryName machine = .granted

/-- On one machine `cd` succeeds as it should if and only if, for a directory that the server
finds, the check passes exactly where the credential may enter. -/
theorem succeeds_iff_mayEnter (hCwd : state.cwdNode.ftype = .nfDir) (machine : World) :
    (Succeeds (cd link state directoryName machine) ↔ MayEnter link state directoryName) ↔
      ∀ diropok, ((lookUpDirectory state directoryName).run link).1 = .ok diropok →
        diropok.attributes.nfsFtype = .nfDir →
        (PassesLocally state directoryName machine ↔
          ExecuteAllowed link state directoryName diropok) := by
  rw [cd_eq link state directoryName hCwd, succeeds_cdOutcome]
  constructor
  · intro h diropok hReply hDir
    constructor
    · intro hPasses
      obtain ⟨d, hReply', -, hAllowed⟩ := h.mp ⟨diropok, hReply, hDir, hPasses⟩
      -- there is one reply only, so `d` is the directory in question
      rw [hReply] at hReply'
      exact StubResult.ok.inj hReply' ▸ hAllowed
    · intro hAllowed
      obtain ⟨-, -, -, hPasses⟩ := h.mpr ⟨diropok, hReply, hDir, hAllowed⟩
      exact hPasses
  · intro h
    constructor
    · rintro ⟨diropok, hReply, hDir, hPasses⟩
      exact ⟨diropok, hReply, hDir, (h diropok hReply hDir).mp hPasses⟩
    · rintro ⟨diropok, hReply, hDir, hAllowed⟩
      exact ⟨diropok, hReply, hDir, (h diropok hReply hDir).mpr hAllowed⟩

end Machines

/-- **`cd` depends on the server only** if and only if, for a directory that the server finds,
the machines do not differ from it: the check passes on each of them exactly where the
credential may enter the directory of the server. -/
theorem cd_depends_on_server_iff (link : Link) (state : ReplState)
    (hCwd : state.cwdNode.ftype = .nfDir) (directoryName : Bytes) (machine machine' : World) :
    ((Succeeds (cd link state directoryName machine) ↔ MayEnter link state directoryName) ∧
      (Succeeds (cd link state directoryName machine') ↔ MayEnter link state directoryName) ∧
      (cd link state directoryName machine).2 = (cd link state directoryName machine').2) ↔
    ∀ diropok, ((lookUpDirectory state directoryName).run link).1 = .ok diropok →
      diropok.attributes.nfsFtype = .nfDir →
      (PassesLocally state directoryName machine ↔
          ExecuteAllowed link state directoryName diropok) ∧
        (PassesLocally state directoryName machine' ↔
          ExecuteAllowed link state directoryName diropok) := by
  have hSucceeds := succeeds_iff_mayEnter link state directoryName hCwd
  constructor
  · rintro ⟨h, h', -⟩ diropok hReply hDir
    exact ⟨(hSucceeds machine).mp h diropok hReply hDir,
      (hSucceeds machine').mp h' diropok hReply hDir⟩
  · intro h
    have hFirst := (hSucceeds machine).mpr fun diropok hReply hDir => (h diropok hReply hDir).1
    have hSecond := (hSucceeds machine').mpr fun diropok hReply hDir => (h diropok hReply hDir).2
    refine ⟨hFirst, hSecond, ?_⟩
    -- two commands that succeed alike leave the same state
    have hSame := hFirst.trans hSecond.symm
    rw [cd_eq link state directoryName hCwd, cd_eq link state directoryName hCwd] at hSame ⊢
    rw [cdOutcome_congr state directoryName _ hSame]

namespace Sample

/-- A client alone with the server. -/
def alone : Link := ⟨mounted, Server.Sample.root, 0, fun _ w => w, fun _ => .delivered⟩

/-- A machine with nothing but a root directory. -/
def bareMachine : World :=
  .boot (.rootOnly 1 (Server.Sample.attr 0o755)) Server.Sample.host none Server.Sample.env

end Sample

/-- Down and up again. -/
theorem directories_down_and_up :
    (cds [bytes "a", dotdot] (some Sample.atRoot)).Returns fun result =>
      ∃ state, result = some state ∧ state.cwdNode.Directories :=
  directories_cds (by exact rfl) _

/-- On two machines that have the directory as the server has it, `cd` enters it. -/
theorem cd_depends_on_server_sample :
    Succeeds (cd Sample.alone Sample.atRoot (bytes "a") Server.Sample.world) ↔
      MayEnter Sample.alone Sample.atRoot (bytes "a") := by
  refine ((cd_depends_on_server_iff Sample.alone Sample.atRoot rfl (bytes "a") Server.Sample.world
    Sample.mounted).mpr ?_).1
  intro diropok _ _
  have hFirst : checkLocally Sample.atRoot (bytes "a") Server.Sample.world = .granted := by
    decide +kernel
  have hSecond : checkLocally Sample.atRoot (bytes "a") Sample.mounted = .granted := by
    decide +kernel
  exact ⟨iff_of_true (.inr (.inr hFirst)) (Sample.allowed_root _ _ _),
    iff_of_true (.inr (.inr hSecond)) (Sample.allowed_root _ _ _)⟩

/-- **Another machine, another answer.** The server has a directory `/exp/a` that everyone may
enter. A client on a machine with a directory of this name enters it, and one on a machine
without it does not. -/
theorem cd_depends_on_machine :
    (cd Sample.alone Sample.atRoot (bytes "a") Server.Sample.world).2.map
        (·.cwdNode.absolutePath) = some (bytes "/exp/a") ∧
      cd Sample.alone Sample.atRoot (bytes "a") Sample.bareMachine =
        (.code 1, some Sample.atRoot) := by
  decide +kernel

end QuicNfs.Client

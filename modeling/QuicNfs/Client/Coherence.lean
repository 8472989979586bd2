import QuicNfs.Client.ChangeDirectory
import QuicNfs.Kernel.PathResolution
import QuicNfs.Lib.Runs
import QuicNfs.Server.Frame
import QuicNfs.Server.SymlinkRoundTrip

/-!
# QuicNfs — where `cd` has gone

`handle_cd` hands its argument to LOOKUP as it is, and the server takes it for a path from the
working directory. Only the arguments `.` and `..` are known to the client. For any other one it
makes a node right below the node of the working directory, however long the path is.

* `ServesTree` — a server on which no name has changed, whatever it was asked;
* `Coherent` — what should be true of the working directory after a command;
* `Handled` — the arguments that are handled right;
* `cwd_coherent_iff` — the working directory is coherent after each command of a run exactly if
  their arguments are handled right.
-/

namespace QuicNfs.Client

open Kernel Server Lib FileSystem

/-! ## An unchanged tree -/

/-- The server was started with the names of `fs`, and they are still the same. -/
inductive ServesTree (fs : FileSystem) : World → Prop where
  | start {w : World} (hFresh : w.Fresh) (hNames : fs.SameNames w.fs) : ServesTree fs w
  | step {w : World} (a : Action) (h : ServesTree fs w) (hNames : fs.SameNames (w.step a).fs) :
      ServesTree fs (w.step a)

/-- The path of each directory in the cache leads there. -/
def Truthful (fs : FileSystem) (cache : InodeCache) : Prop :=
  ∀ m ∈ cache, fs.isDir m.nfsFilehandle.inodeNumber →
    fs.lookup false m.absolutePath = .ok m.nfsFilehandle.inodeNumber

section Tree

variable {fs : FileSystem}

theorem Truthful.add {cache : InodeCache} (h : Truthful fs cache) {i : Ino} {p : Path}
    (hLookup : fs.lookup false p = .ok i) (timestamp : Nat) :
    Truthful fs (cache.addInodeMapping ⟨i, timestamp⟩ p) := by
  intro m hm hDir
  rcases List.mem_cons.mp hm with rfl | hm
  · exact hLookup
  · exact h m hm hDir

variable (hLinks : ∀ i target, fs.kind i ≠ some (.link target))
include hLinks

/-- A request that leaves the names as they are adds what is true. -/
theorem truthful_of_effect {w : World} {cred : Credential} {r : Request} {ok : Bool}
    {fs' : FileSystem} {cache : InodeCache} (h : Effect w cred r ok fs' cache)
    (hNames : fs.SameNames w.fs) (hNames' : fs.SameNames fs')
    (hTruthful : Truthful fs w.inodeCache) : Truthful fs cache := by
  cases h with
  | nothing | touched | symlinked | linked => exact hTruthful
  | mounted timestamp _ hStat _ =>
    exact hTruthful.add ((hNames.lookup _ _).symm.trans (lstat_ok hStat).1) timestamp
  | lookedUp timestamp _ _ hFile _ =>
    exact hTruthful.add ((hNames.lookup _ _).symm.trans (lstat_ok hFile).1) timestamp
  | forgotten | removed => exact fun m hm => hTruthful m (List.eraseP_sublist.subset hm)
  | created _ _ _ _ _ _ _ hCache =>
    rcases hCache with rfl | ⟨timestamp, hLookup, rfl⟩
    · exact hTruthful
    · exact hTruthful.add ((hNames'.lookup _ _).symm.trans hLookup) timestamp
  | @renamed _ _ _ _ _ _ _ _ _ _ _ d d' n n' j _ _ _ _ hSlot hSlot' hNamed hTarget _ _ hRenamed =>
    rcases hRenamed with ⟨hSame, rfl⟩ | ⟨hNew, hRenamed⟩
    · -- two names of one object; a directory has only one, which has been spelled in two ways
      have hLinks' : ∀ i target, w.fs.kind i ≠ some (.link target) :=
        fun i target => hNames.kind i ▸ hLinks i target
      intro m hm hDir
      rcases mem_modifyFirst hm with hm | ⟨m₀, hm₀, hPath, rfl⟩
      · exact hTruthful m hm hDir
      have hOld := hTruthful m₀ hm₀ hDir
      have hDir' := (hNames.isDir _).trans hDir
      rw [beq_iff_eq.mp hPath, ← hNames.lookup, lookup_slot hLinks' hSlot hDir'] at hOld
      rw [← hNames.lookup, lookup_slot hLinks' hSlot' hDir', hTarget, hSame, ← hNamed, hOld]
    · -- the old name would be gone
      have hEntry := hRenamed.entry d n
      rw [hNames'.entry, ← hNames.entry, hNamed] at hEntry
      split at hEntry
      · next hPlace =>
        obtain ⟨rfl, rfl⟩ := hPlace
        exact absurd (hTarget.symm.trans hNamed) hNew
      · simp at hEntry

theorem ServesTree.names_truthful {w : World} (h : ServesTree fs w) :
    fs.SameNames w.fs ∧ Truthful fs w.inodeCache := by
  induction h with
  | start hFresh hNames => exact ⟨hNames, by rw [hFresh.inodeCache]; simp [Truthful]⟩
  | @step w a _ hNames ih =>
    refine ⟨hNames, ?_⟩
    cases a with
    | cleanUp => rw [(effect_cleanUp w).2]; exact ih.2
    | request cred r =>
      exact truthful_of_effect hLinks (effect_serve w cred r) ih.1 hNames ih.2

end Tree

/-! ## The working directory -/

def DAGNode.inodeNumber (node : DAGNode) : Ino := node.fhandle.inodeNumber

/-- The node that `..` leads to. The mounted directory is its own parent. -/
def DAGNode.parent : DAGNode → DAGNode
  | root absolutePath ftype fhandle => root absolutePath ftype fhandle
  | child parent _ _ _ => parent

section Places

variable (fs : FileSystem) (mounted : Ino)

/-- What is below the mounted directory, with every permission granted. -/
def mountedNames : NameGraph Ino Name := namesBelow fs mounted fun _ => true

/-- The directory above one. -/
def parentDirectory (d : Ino) : Option Ino := (mountedNames fs mounted).entry d dotdot

/-- Where POSIX `cd` goes from the directory `d`. -/
def posixCd (d : Ino) (directoryName : Bytes) : Option Ino :=
  pathResolution (mountedNames fs mounted) d directoryName

/-- A command has led from the directory `d` to the right node. -/
structure Coherent (d : Ino) (directoryName : Bytes) (node : DAGNode) : Prop where
  handle : posixCd fs mounted d directoryName = some node.inodeNumber
  path : fs.lookup false node.absolutePath = .ok node.inodeNumber
  parent : parentDirectory fs mounted node.inodeNumber = some node.parent.inodeNumber

/-- The client knows the argument, or it leads to a directory right below: the same one on the
server, where the names go on above the mounted directory, as where they do not. -/
def Handled (d : Ino) (directoryName : Bytes) : Prop :=
  directoryName = dot ∨ directoryName = dotdot ∨
    (fs.directoryAt d (components directoryName) = posixCd fs mounted d directoryName ∧
      (posixCd fs mounted d directoryName).bind (parentDirectory fs mounted) = some d)

instance (d : Ino) (directoryName : Bytes) : Decidable (Handled fs mounted d directoryName) :=
  inferInstanceAs (Decidable (_ ∨ _ ∨ _ ∧ _))

/-- A node of a directory, with the right path and below the right node. -/
structure DAGNode.Stands (node : DAGNode) : Prop where
  ftype : node.ftype = .nfDir
  isDir : fs.isDir node.inodeNumber
  path : fs.lookup false node.absolutePath = .ok node.inodeNumber
  parent : parentDirectory fs mounted node.inodeNumber = some node.parent.inodeNumber

/-- So does each node on the way to the root. -/
def DAGNode.Placed : DAGNode → Prop
  | root absolutePath ftype fhandle => (root absolutePath ftype fhandle).Stands fs mounted
  | child parent absolutePath ftype fhandle =>
    (child parent absolutePath ftype fhandle).Stands fs mounted ∧ parent.Placed

end Places

/-! ## One command -/

variable {directoryName : Bytes}

section Command

variable {fs : FileSystem} {mounted : Ino}

theorem DAGNode.Placed.stands {node : DAGNode} (h : node.Placed fs mounted) :
    node.Stands fs mounted := by
  cases node with
  | root => exact h
  | child => exact h.1

theorem DAGNode.Placed.above {node : DAGNode} (h : node.Placed fs mounted) :
    node.parent.Placed fs mounted := by
  cases node with
  | root => exact h
  | child => exact h.2

theorem posixCd_known {d e : Ino} (hKnown : directoryName = dot ∨ directoryName = dotdot)
    (hDir : fs.isDir d) (hEnd : fs.isDir e)
    (hEntry : (mountedNames fs mounted).entry d directoryName = some e) :
    posixCd fs mounted d directoryName = some e := by
  have hWalk : (mountedNames fs mounted).walk d [directoryName] = .reached e :=
    NameGraph.walk_cons_some (kind_namesBelow_directory.mpr (Tree.isDir_iff_kind.mp hDir)) hEntry
      (kind_namesBelow_ne_link (Tree.kind_ne_link_of_isDir hEnd))
  unfold posixCd pathResolution
  rcases hKnown with rfl | rfl <;> exact NameGraph.resolve_reached hWalk

/-- Without an argument that it knows, the client makes a node below the working directory. -/
theorem entered_new {state : ReplState} (hDot : directoryName ≠ dot)
    (hDotdot : directoryName ≠ dotdot) (diropok : DirOpOk) :
    (entered state directoryName diropok).2.cwdNode = .child state.cwdNode
      (getFileAbsolutePath state.cwdNode.absolutePath directoryName) diropok.attributes.nfsFtype
      diropok.file := by
  rw [entered, if_neg hDot, if_neg hDotdot]

variable {state : ReplState} (hPlaced : state.cwdNode.Placed fs mounted)
include hPlaced

/-- The two arguments that the client knows are handled right. -/
theorem coherent_known (hKnown : directoryName = dot ∨ directoryName = dotdot) (diropok : DirOpOk) :
    Coherent fs mounted state.cwdNode.inodeNumber directoryName
        (entered state directoryName diropok).2.cwdNode ∧
      (entered state directoryName diropok).2.cwdNode.Placed fs mounted := by
  obtain ⟨hNode, hEntry⟩ : (entered state directoryName diropok).2.cwdNode.Placed fs mounted ∧
      (mountedNames fs mounted).entry state.cwdNode.inodeNumber directoryName =
        some (entered state directoryName diropok).2.cwdNode.inodeNumber := by
    rcases hKnown with rfl | rfl
    · exact ⟨hPlaced, rfl⟩
    · have hNode : (entered state dotdot diropok).2.cwdNode = state.cwdNode.parent := by
        rw [entered, if_neg (by decide), if_pos rfl]
        cases hCwd : state.cwdNode with
        | root => exact hCwd
        | child => rfl
      rw [hNode]
      exact ⟨hPlaced.above, hPlaced.stands.parent⟩
  have hStands := hNode.stands
  exact ⟨⟨posixCd_known hKnown hPlaced.stands.isDir hStands.isDir hEntry, hStands.path,
    hStands.parent⟩, hNode⟩

/-- Any other argument leads to a new node, with the right path but not always below the right
node. -/
theorem coherent_new (hLinks : ∀ i target, fs.kind i ≠ some (.link target))
    (hDot : directoryName ≠ dot) (hDotdot : directoryName ≠ dotdot) {diropok : DirOpOk}
    (hType : diropok.attributes.nfsFtype = .nfDir) (hDir : fs.isDir diropok.file.inodeNumber)
    (hLength : (getFileAbsolutePath state.cwdNode.absolutePath directoryName).length < pathMax)
    (hFound : fs.directoryAt state.cwdNode.inodeNumber (components directoryName) =
      some diropok.file.inodeNumber) :
    (Coherent fs mounted state.cwdNode.inodeNumber directoryName
        (entered state directoryName diropok).2.cwdNode ↔
      Handled fs mounted state.cwdNode.inodeNumber directoryName) ∧
    (Coherent fs mounted state.cwdNode.inodeNumber directoryName
        (entered state directoryName diropok).2.cwdNode →
      (entered state directoryName diropok).2.cwdNode.Placed fs mounted) := by
  have hStands := hPlaced.stands
  have hPath := (lookup_join hLinks hStands.path hStands.isDir hDir hLength).mpr hFound
  rw [entered_new hDot hDotdot]
  refine ⟨⟨fun h => .inr (.inr ?_), ?_⟩, fun h => ⟨⟨hType, hDir, hPath, h.parent⟩, hPlaced⟩⟩
  · rw [hFound, h.handle]
    exact ⟨rfl, h.parent⟩
  · rintro (hIs | hIs | ⟨hSame, hParent⟩)
    · exact absurd hIs hDot
    · exact absurd hIs hDotdot
    · rw [← hSame, hFound] at hParent
      exact ⟨hSame.symm.trans hFound, hPath, hParent⟩

end Command

/-! ## What the client sees of the server -/

def lookUpRequest (state : ReplState) (directoryName : Bytes) : Request :=
  .lookup ⟨some ⟨some state.cwdNode.fhandle⟩, some ⟨some directoryName⟩⟩

/-- The LOOKUP has been served or it has been lost, and only the server can say that there is
something. -/
theorem run_lookUpDirectory (link : Link) (state : ReplState) (directoryName : Bytes) :
    ∃ result world, (lookUpDirectory state directoryName).run link =
        (result, { link with world := world, calls := link.calls + 1 }) ∧
      (world = link.before ∨
        world = link.before.step (.request link.credential (lookUpRequest state directoryName))) ∧
      ∀ diropok, result = .ok diropok →
        link.before.answer link.credential (lookUpRequest state directoryName) =
          .dirOpRes (.ok diropok) := by
  unfold lookUpDirectory nfsProcedure4LookUpFileName
  rw [Prog.run_bind]
  -- the call itself, which may be lost on its way there or back
  obtain ⟨answer, world, hCall, hWorld, hAnswer⟩ : ∃ answer world,
      (Prog.call (Rpc.call (lookUpRequest state directoryName))).run link =
        (answer, { link with world := world, calls := link.calls + 1 }) ∧
      (world = link.before ∨
        world = link.before.step (.request link.credential (lookUpRequest state directoryName))) ∧
      ∀ a, answer = some a →
        link.before.answer link.credential (lookUpRequest state directoryName) = a := by
    show ∃ answer world, link.exec (.call (lookUpRequest state directoryName)) = _ ∧ _ ∧ _
    unfold Link.exec
    dsimp only
    cases link.fate link.calls with
    | callLost => exact ⟨none, _, rfl, .inl rfl, by simp⟩
    | replyLost => exact ⟨none, _, rfl, .inr rfl, by simp⟩
    | delivered => exact ⟨some _, _, rfl, .inr rfl, fun _ h => Option.some.inj h⟩
  rw [lookUpRequest] at hCall
  rw [hCall]
  cases answer with
  | none => exact ⟨_, _, rfl, hWorld, by simp⟩
  | some answer =>
    rw [hAnswer answer rfl]
    cases answer with
    | dirOpRes reply =>
      refine ⟨_, _, rfl, hWorld, fun diropok hResult => ?_⟩
      cases reply with
      | ok body => exact congrArg _ (congrArg _ (StubResult.ok.inj hResult))
      | _ => cases hResult
    | _ => exact ⟨_, _, rfl, hWorld, by simp⟩

/-- Where the check passes, the machine of the client has the path, so it is not too long. -/
theorem length_of_checkLocally {state : ReplState} {machine : World}
    (h : checkLocally state directoryName machine = .granted) :
    (getFileAbsolutePath state.cwdNode.absolutePath directoryName).length < pathMax := by
  have hSafe : Safe .none (fun verdict _ => verdict = .granted →
      (getFileAbsolutePath state.cwdNode.absolutePath directoryName).length < pathMax)
      (checkExecutePermission (getFileAbsolutePath state.cwdNode.absolutePath directoryName)
        state.authSys.uid state.authSys.gid) machine := by
    refine safe_checkPermission (fun _ => trivial) (fun v hNot _ hIs => absurd hIs hNot) ?_
    rintro ⟨st, hStat, -⟩ _ -
    rcases lookup_ok (lstat_ok hStat).1 with
      ⟨⟨last, hn⟩, -⟩ | ⟨-, -, _, _, hn, -⟩ <;> exact length_of_namei hn
  exact hSafe.run h

/-! ## A run -/

/-- What the user enters, on the machine of the client as it is then. -/
structure CdCommand where
  directoryName : Bytes
  machine : World

/-- The client between two commands. -/
structure CdSession where
  link : Link
  state : ReplState

namespace CdSession

def result (s : CdSession) (c : CdCommand) : Returned × Option ReplState :=
  cd s.link s.state c.directoryName c.machine

def step (s : CdSession) (c : CdCommand) : CdSession :=
  let ended := (handleCd (some s.state) c.directoryName).run (⟨s.link, c.machine⟩ : Shell)
  -- what is mounted stays mounted
  ⟨ended.2.link, ended.1.2.getD s.state⟩

variable (fs : FileSystem) (mounted : Ino)

/-- A command that reports success leads to the right node. -/
def GoesRight (s : CdSession) (c : CdCommand) : Prop :=
  Succeeds (s.result c) →
    Coherent fs mounted s.state.cwdNode.inodeNumber c.directoryName (s.step c).state.cwdNode

/-- A command that reports success has an argument that is handled right. -/
def IsHandled (s : CdSession) (c : CdCommand) : Prop :=
  Succeeds (s.result c) → Handled fs mounted s.state.cwdNode.inodeNumber c.directoryName

instance (s : CdSession) (c : CdCommand) : Decidable (s.IsHandled fs mounted c) :=
  inferInstanceAs (Decidable (Succeeds (s.result c) → Handled _ _ _ _))

/-- Nothing has changed on the server, nothing will, and the nodes are right. -/
structure Inv (s : CdSession) : Prop where
  serves : ServesTree fs s.link.world
  others (k : Nat) (w : World) : ServesTree fs w → ServesTree fs (s.link.others k w)
  placed : s.state.cwdNode.Placed fs mounted

variable {fs mounted} {s : CdSession} {c : CdCommand}

theorem step_eq (hCwd : s.state.cwdNode.ftype = .nfDir) :
    s.step c = ⟨((lookUpDirectory s.state c.directoryName).run s.link).2,
      (s.result c).2.getD s.state⟩ := by
  obtain ⟨machine, hRun⟩ := run_handleCd s.link s.state c.directoryName hCwd c.machine
  unfold step result cd
  rw [hRun]

/-- The server as the next call finds it. -/
theorem Inv.before (hInv : s.Inv fs mounted) : ServesTree fs s.link.before :=
  hInv.others s.link.calls s.link.world hInv.serves

variable (hLinks : ∀ i target, fs.kind i ≠ some (.link target)) (hInv : s.Inv fs mounted)
include hLinks hInv

/-- What LOOKUP finds is what the names of the argument lead to. -/
theorem Inv.found {diropok : DirOpOk}
    (hReply : ((lookUpDirectory s.state c.directoryName).run s.link).1 = .ok diropok)
    (hType : diropok.attributes.nfsFtype = .nfDir) :
    fs.isDir diropok.file.inodeNumber ∧
      fs.directoryAt s.state.cwdNode.inodeNumber (components c.directoryName) =
        some diropok.file.inodeNumber := by
  obtain ⟨hNames, hTruthful⟩ := hInv.before.names_truthful hLinks
  obtain ⟨result, world, hRun, -, hAnswer⟩ := run_lookUpDirectory s.link s.state c.directoryName
  rw [hRun] at hReply
  obtain ⟨i, n, p, hArgs, hView, hLookup, -, -, hKind⟩ := found_of_lookup (hAnswer diropok hReply)
  obtain ⟨rfl, rfl⟩ := Prod.mk.inj (Option.some.inj hArgs)
  have hStands := hInv.placed.stands
  have hDir : fs.isDir diropok.file.inodeNumber := (hNames.isDir _).symm.trans (hKind.mp hType)
  -- the path that the server has for the working directory may be another one, but leads there
  obtain ⟨m, hFind, rfl⟩ := Option.map_eq_some_iff.mp hView
  have hHas := List.find?_some hFind
  have hNumber : m.nfsFilehandle.inodeNumber = s.state.cwdNode.inodeNumber := beq_iff_eq.mp hHas
  have hCached := hTruthful m (List.mem_of_find?_eq_some hFind) (hNumber ▸ hStands.isDir)
  rw [hNumber] at hCached
  rw [hNames.lookup] at hLookup
  have hLength := ((lookup_eq_directory hLinks hDir).mp hLookup).2.1
  exact ⟨hDir, (lookup_join hLinks hCached hStands.isDir hDir hLength).mp hLookup⟩

/-- One command: it goes right exactly if its argument is handled right, and then the nodes stay
right. -/
theorem Inv.step :
    (s.GoesRight fs mounted c ↔ s.IsHandled fs mounted c) ∧
      (s.GoesRight fs mounted c → (s.step c).Inv fs mounted) := by
  have hCwd := hInv.placed.stands.ftype
  have hEntered : Succeeds (s.result c) →
      (Coherent fs mounted s.state.cwdNode.inodeNumber c.directoryName (s.step c).state.cwdNode ↔
        Handled fs mounted s.state.cwdNode.inodeNumber c.directoryName) ∧
      (Coherent fs mounted s.state.cwdNode.inodeNumber c.directoryName (s.step c).state.cwdNode →
        (s.step c).state.cwdNode.Placed fs mounted) := by
    intro hSucceeds
    rw [result, cd_eq _ _ _ hCwd, succeeds_cdOutcome] at hSucceeds
    obtain ⟨diropok, hReply, hType, hPasses⟩ := hSucceeds
    have hState : (s.step c).state = (entered s.state c.directoryName diropok).2 := by
      rw [step_eq hCwd, result, cd_eq _ _ _ hCwd, hReply, cdOutcome, if_pos ⟨hType, hPasses⟩]
      rfl
    rw [hState]
    by_cases hKnown : c.directoryName = dot ∨ c.directoryName = dotdot
    · have h := coherent_known hInv.placed hKnown diropok
      exact ⟨iff_of_true h.1 (hKnown.imp_right .inl), fun _ => h.2⟩
    · rw [not_or] at hKnown
      obtain ⟨hDir, hFound⟩ := hInv.found hLinks hReply hType
      have hGranted := (hPasses.resolve_left hKnown.1).resolve_left hKnown.2
      exact coherent_new hInv.placed hLinks hKnown.1 hKnown.2 hType hDir
        (length_of_checkLocally hGranted) hFound
  refine ⟨imp_congr_right fun hSucceeds => (hEntered hSucceeds).1, fun hRight => ?_⟩
  have hPlaced : (s.step c).state.cwdNode.Placed fs mounted := by
    by_cases hSucceeds : Succeeds (s.result c)
    · exact (hEntered hSucceeds).2 (hRight hSucceeds)
    · -- a command that fails goes nowhere
      have hState : (s.step c).state = s.state := by
        rw [result, cd_eq _ _ _ hCwd, succeeds_cdOutcome] at hSucceeds
        rw [step_eq hCwd, result, cd_eq _ _ _ hCwd]
        cases hReply : ((lookUpDirectory s.state c.directoryName).run s.link).1 with
        | failed | err stat => rfl
        | ok diropok =>
          rw [cdOutcome, if_neg fun h => hSucceeds ⟨diropok, hReply, h⟩]
          rfl
      rw [hState]
      exact hInv.placed
  obtain ⟨result, world, hRun, hWorld, -⟩ := run_lookUpDirectory s.link s.state c.directoryName
  have hLink : (s.step c).link = { s.link with world := world, calls := s.link.calls + 1 } := by
    rw [step_eq hCwd, hRun]
  refine ⟨?_, ?_, hPlaced⟩
  · rw [hLink]
    rcases hWorld with rfl | rfl
    · exact hInv.before
    · refine ServesTree.step (.request s.link.credential (lookUpRequest s.state c.directoryName))
        hInv.before ?_
      have hSame := ((effect_serve s.link.before s.link.credential
        (lookUpRequest s.state c.directoryName)).readOnly rfl).1
      show fs.SameNames (s.link.before.afterRequest _ _).fs
      rw [hSame]
      exact (hInv.before.names_truthful hLinks).1
  · rw [hLink]
    exact hInv.others

end CdSession

/-- **The working directory is coherent** after each command of a run that reports success, if
and only if the argument of each of these is handled right: it is `.` or `..`, or it leads to a
directory right below the working directory and not above the mounted one. The tree has no symbolic
links and its names do not change; the other clients may ask the server for anything else. -/
theorem cwd_coherent_iff {fs : FileSystem} (hLinks : ∀ i target, fs.kind i ≠ some (.link target))
    (s : CdSession) (hServes : ServesTree fs s.link.world)
    (hOthers : ∀ k w, ServesTree fs w → ServesTree fs (s.link.others k w)) {path : Path}
    {fhandle : NfsFileHandle} (hMounted : s.state.cwdNode = .root path .nfDir fhandle)
    (hDir : fs.isDir fhandle.inodeNumber) (hPath : fs.lookup false path = .ok fhandle.inodeNumber)
    (run : List CdCommand) :
    Obeys CdSession.step (CdSession.GoesRight fs fhandle.inodeNumber) s run ↔
      Obeys CdSession.step (CdSession.IsHandled fs fhandle.inodeNumber) s run := by
  have hPlaced : s.state.cwdNode.Placed fs fhandle.inodeNumber := by
    rw [hMounted]
    exact ⟨rfl, hDir, hPath, if_pos rfl⟩
  exact obeys_iff (I := CdSession.Inv fs fhandle.inodeNumber)
    (fun s c hInv hRight => (CdSession.Inv.step hLinks hInv).2 hRight)
    (fun s c hInv => (CdSession.Inv.step hLinks hInv).1) ⟨hServes, hOthers, hPlaced⟩ run

namespace Sample

/-- The directories `/exp`, `/exp/a` and `/exp/a/b`. -/
def directories : FileSystem :=
  (FileSystem.rootOnly 1 (Server.Sample.attr 0o755))
    |>.create 1 (bytes "exp") 2 ⟨.directory ∅, Server.Sample.attr 0o755⟩ default
    |>.create 2 (bytes "a") 3 ⟨.directory ∅, Server.Sample.attr 0o755⟩ default
    |>.create 3 (bytes "b") 4 ⟨.directory ∅, Server.Sample.attr 0o755⟩ default

/-- A machine with these directories, which exports `/exp`. -/
def exporting : World :=
  .boot directories Server.Sample.host (some (bytes "/exp *(rw)\n")) Server.Sample.env

/-- Root has mounted `/exp`, from a machine that has the same directories. -/
def session : CdSession :=
  ⟨⟨exporting.step (.request Server.Sample.root (.mnt ⟨some (bytes "/exp")⟩)), Server.Sample.root, 0,
    fun _ w => w, fun _ => .delivered⟩, atRoot⟩

def enter (directoryName : String) : CdCommand := ⟨bytes directoryName, exporting⟩

theorem no_links_directories (i : Ino) (target : Path) :
    directories.kind i ≠ some (.link target) := by
  intro hKind
  obtain ⟨x, hx, hLink⟩ := Option.map_eq_some_iff.mp hKind
  have hAll : ∀ e ∈ directories.inodes.entries, e.2.content.kind = .dir := by decide +kernel
  have hMem : (⟨i, x⟩ : Sigma fun _ : Ino => Inode) ∈ directories.inodes.entries :=
    AList.mem_lookup_iff.mp hx
  have hDir := hAll ⟨i, x⟩ hMem
  rw [hLink] at hDir
  cases hDir

theorem serves_session : ServesTree directories session.link.world := by
  have hStart : ServesTree directories exporting := .start ⟨rfl, rfl, rfl, rfl⟩ (.refl _)
  refine hStart.step (.request Server.Sample.root (.mnt ⟨some (bytes "/exp")⟩)) ?_
  have hSame := ((effect_serve exporting Server.Sample.root (.mnt ⟨some (bytes "/exp")⟩)).readOnly
    rfl).1
  show directories.SameNames (exporting.afterRequest _ _).fs
  rw [hSame]
  exact .refl _

end Sample

/-- Name by name, the user comes to the right places. -/
theorem cwd_coherent_name_by_name :
    Obeys CdSession.step (CdSession.GoesRight Sample.directories 2) Sample.session
      (["a", "./b", ".", "..", "..", "..", "a/"].map Sample.enter) :=
  (cwd_coherent_iff Sample.no_links_directories Sample.session Sample.serves_session
    (fun _ _ h => h) rfl (by decide +kernel) (by decide +kernel) _).mpr (by decide +kernel)

/-- **Two names at once.** From `/exp`, `cd a/b` leads to the directory `b`. The node of `b` is
below that of `/exp`, and `cd ..` leads back to `/exp` and not to `a`. -/
theorem cd_two_names_skips_parent :
    ServesTree Sample.directories Sample.session.link.world ∧
      Succeeds (Sample.session.result (Sample.enter "a/b")) ∧
      ¬Obeys CdSession.step (CdSession.GoesRight Sample.directories 2) Sample.session
        [Sample.enter "a/b"] ∧
      (let node := (Sample.session.step (Sample.enter "a/b")).state.cwdNode
      node.inodeNumber = 4 ∧ node.absolutePath = bytes "/exp/a/b" ∧
        parentDirectory Sample.directories 2 4 = some 3 ∧ node.parent.inodeNumber = 2) ∧
      posixCd Sample.directories 2 4 dotdot = some 3 ∧
      ((Sample.session.step (Sample.enter "a/b")).step
        (Sample.enter "..")).state.cwdNode.inodeNumber = 2 := by
  have hSucceeds : Succeeds (Sample.session.result (Sample.enter "a/b")) := by decide +kernel
  refine ⟨Sample.serves_session, hSucceeds, fun hRun => ?_, by decide +kernel, by decide +kernel,
    by decide +kernel⟩
  have hParent := (hRun.1 hSucceeds).parent
  revert hParent
  decide +kernel

end QuicNfs.Client

import QuicNfs.Client.Handlers

/-!
# QuicNfs — the REPL

The commands `ls` and `cd` of the REPL, and the two functions of `soft_links.c` behind its
other commands: `resolve_path` looks up a path, `follow_symbolic_links` goes from a symbolic
link to the file at the end of its chain. What a command prints on a failure is left out.

* `DAGNode`, `ReplState` — the directories entered so far, and where the user is;
* `ReplOp` — a command makes remote calls, and system calls on the machine of the client;
* `Shell` — a client on its machine, with a link to the server.
-/

namespace QuicNfs.Client

open Kernel Server Lib

/-! ## The state of the REPL -/

/-- A directory that has been entered, with the one it was entered from. -/
inductive DAGNode where
  | root (absolutePath : Path) (ftype : FType) (fhandle : NfsFileHandle)
  | child (parent : DAGNode) (absolutePath : Path) (ftype : FType) (fhandle : NfsFileHandle)
deriving DecidableEq, Repr

namespace DAGNode

def absolutePath : DAGNode → Path
  | root absolutePath _ _ => absolutePath
  | child _ absolutePath _ _ => absolutePath

def ftype : DAGNode → FType
  | root _ ftype _ => ftype
  | child _ _ ftype _ => ftype

def fhandle : DAGNode → NfsFileHandle
  | root _ _ fhandle => fhandle
  | child _ _ _ fhandle => fhandle

/-- A new node in the directory `parent`. -/
def addChild (parent : DAGNode) (absolutePath : Path) (ftype : FType) (fhandle : NfsFileHandle) :
    Option DAGNode :=
  if parent.ftype ≠ .nfDir then none else some (.child parent absolutePath ftype fhandle)

end DAGNode

/-- What `handle_mount` sets: the mounted directory, the working directory, and the
credential of the connection. Without a mounted file system there is none of them. -/
structure ReplState where
  filesystemDagRoot : DAGNode
  cwdNode : DAGNode
  authSys : AuthSysParams
deriving DecidableEq, Repr

/-! ## Paths -/

/-- The LOOKUP calls of `resolve_path` for the components that are left. -/
def resolveComponents (currFhandle : NfsFileHandle) (currFtype : FType) :
    List Bytes → Remote (Option (NfsFileHandle × FType))
  | [] => return some (currFhandle, currFtype)
  | pathnameComponent :: rest =>
    -- a symbolic link in the middle of a path is not followed: it is no directory
    if currFtype ≠ .nfDir then return none
    else do
      match ← nfsProcedure4LookUpFileName ⟨some ⟨some currFhandle⟩, some ⟨some pathnameComponent⟩⟩ with
      | .failed => return none
      | .err _ => return none
      | .ok diropok => resolveComponents diropok.file diropok.attributes.nfsFtype rest

def resolvePath (state : ReplState) (path : Bytes) : Remote (Option (NfsFileHandle × FType)) :=
  if path = [] then return none
  else
    -- a relative path begins in the working directory, also if it is the target of a link that
    -- lies somewhere else
    let currFhandle :=
      if path.head? = some slash then state.filesystemDagRoot.fhandle else state.cwdNode.fhandle
    resolveComponents currFhandle .nfDir (components path)

def SYMLINK_LEVELS_LIMIT : Nat := 40

/-- What `follow_symbolic_links` returns. -/
inductive Followed where
  | null
  | found (fhandle : NfsFileHandle)
  /-- A null pointer is dereferenced. -/
  | crashes
deriving DecidableEq, Repr

/-- The copy of the handle at the end of the chain. -/
def endFileFhandle : Option NfsFileHandle → Followed
  | none => .crashes
  | some fhandle => .found fhandle

/-- The loop of `follow_symbolic_links` with the levels that are left. If a target is not
resolved, the next handle is a null pointer, and the next file type is whatever its
variable holds: `unset`. -/
def followLevels (unset : Nat → FType) (state : ReplState) :
    Nat → Option NfsFileHandle → FType → Remote Followed
  | 0, currFhandle, currFileType =>
    -- all levels are used up: still at a link, the chain is given up
    if currFileType = .nfLnk then return .null else return endFileFhandle currFhandle
  | levelsLeft + 1, currFhandle, currFileType =>
    if currFileType = .nfLnk then
      match currFhandle with
      -- the call takes the handle by value
      | none => return .crashes
      | some fhandle => do
        match ← nfsProcedure5ReadFromSymbolicLink ⟨some fhandle⟩ with
        | .failed => return .null
        | .err _ => return .null
        | .ok targetPath =>
          match ← resolvePath state targetPath with
          -- the pointer is not tested for null, and the next round begins with it
          | none => followLevels unset state levelsLeft none (unset levelsLeft)
          | some (nextFileFhandle, nextFileType) =>
            followLevels unset state levelsLeft (some nextFileFhandle) nextFileType
    else return endFileFhandle currFhandle

def followSymbolicLinks (unset : Nat → FType) (state : ReplState)
    (startFileFhandle : NfsFileHandle) (startFileType : FType) : Remote Followed :=
  followLevels unset state SYMLINK_LEVELS_LIMIT (some startFileFhandle) startFileType

/-- The file at the end of the chain that begins at a path. -/
def resolveAndFollow (unset : Nat → FType) (state : ReplState) (path : Bytes) :
    Remote Followed := do
  match ← resolvePath state path with
  | none => return .null
  | some (fhandle, ftype) => followSymbolicLinks unset state fhandle ftype

/-! ## Listing -/

/-- The number of bytes that `ls` asks for in each READDIR. -/
def Repl.READDIR_BYTES_PER_RPC : Nat := 50

/-- The loop of `handle_ls`. -/
def readFileNames (bytesPerRpc : Nat) (dirFhandle : NfsFileHandle) :
    Nat → Nat → List Bytes → Remote (LoopEnd (List Bytes))
  | 0, _, _ => return .runsOn
  | fuel + 1, offsetCookie, filenamesList => do
    match ← nfsProcedure16ReadFromDirectory
        ⟨some ⟨some dirFhandle⟩, some offsetCookie, bytesPerRpc⟩ with
    | .failed => return .failed
    | .err stat => return .err stat
    | .ok readdirok =>
      let filenamesList := filenamesList ++ readdirok.entries.map (·.name)
      -- a page without entries leaves the cookie where it is
      let offsetCookie := (readdirok.entries.getLast?.map (·.cookie)).getD offsetCookie
      if readdirok.eof then return .done filenamesList
      else readFileNames bytesPerRpc dirFhandle fuel offsetCookie filenamesList

/-- The file names with a blank between them, and a newline. -/
def printedFileNames (filenamesList : List Bytes) : Bytes :=
  [32].intercalate filenamesList ++ [10]

/-- What `handle_ls` returns, and the listing it prints. -/
def handleLs (state : Option ReplState) (fuel : Nat) : Remote (Outcome × Bytes) :=
  match state with
  | none => return (.returns 1, [])
  | some state => do
    match ← readFileNames Repl.READDIR_BYTES_PER_RPC state.cwdNode.fhandle fuel 0 [] with
    | .runsOn => return (.runsOn, [])
    | .failed => return (.returns 1, [])
    | .err _ => return (.returns 1, [])
    | .done filenamesList => return (.returns 0, printedFileNames filenamesList)

/-! ## Changing the working directory -/

/-- What a command does: a remote call, or a system call where the REPL runs. -/
inductive ReplOp : Type → Type 1 where
  | remote {β : Type} (o : Rpc β) : ReplOp β
  | onMachine {β : Type} (o : Op β) : ReplOp β

/-- How `handle_cd` ends. -/
inductive Returned where
  | code (code : Int)
  /-- Control reaches the end of the function without a return statement. -/
  | nothing
deriving DecidableEq, Repr

/-- What `handle_cd` returns, and the state it leaves. The permission is checked with the
function that the server uses. -/
def handleCd (state : Option ReplState) (directoryName : Bytes) :
    Prog ReplOp (Returned × Option ReplState) :=
  match state with
  | none => return (.code 1, none)
  | some state => do
    match ← (nfsProcedure4LookUpFileName
        ⟨some ⟨some state.cwdNode.fhandle⟩, some ⟨some directoryName⟩⟩).hoist .remote with
    | .failed => return (.code 1, some state)
    | .err _ => return (.code 1, some state)
    | .ok diropok =>
      if diropok.attributes.nfsFtype ≠ .nfDir then return (.code 1, some state)
      else if directoryName = dot then return (.code 0, some state)
      else if directoryName = dotdot then
        -- the node is the one remembered from entering; the handle of the reply is not used
        match state.cwdNode with
        | .root .. => return (.code 0, some state)
        | .child parent .. => return (.code 0, some { state with cwdNode := parent })
      else
        let childAbsolutePath := getFileAbsolutePath state.cwdNode.absolutePath directoryName
        -- the path of the server, looked at in the file system of the client
        match ← (checkExecutePermission childAbsolutePath state.authSys.uid
            state.authSys.gid).hoist .onMachine with
        | .failed => return (.code 1, some state)
        | .refused => return (.code 1, some state)
        | .granted =>
          match state.cwdNode.addChild childAbsolutePath diropok.attributes.nfsFtype
              diropok.file with
          | none => return (.code 1, some state)
          | some childNode => return (.nothing, some { state with cwdNode := childNode })

/-- A client on its machine. -/
structure Shell where
  link : Link
  machine : World

def Shell.exec {β : Type} : ReplOp β → Shell → β × Shell
  | .remote o, s => ((s.link.exec o).1, { s with link := (s.link.exec o).2 })
  | .onMachine o, s => ((s.machine.exec o).1, { s with machine := (s.machine.exec o).2 })

instance : Handler ReplOp Shell := ⟨Shell.exec⟩

/-- Remote calls leave the machine alone. -/
theorem Shell.run_remote {α : Type} (p : Remote α) (link : Link) (machine : World) :
    (p.hoist ReplOp.remote).run (⟨link, machine⟩ : Shell) =
      ((p.run link).1, ⟨(p.run link).2, machine⟩) :=
  Prog.run_hoist (fun l => (⟨l, machine⟩ : Shell)) (fun _ _ => rfl) p link

/-- System calls of the client leave the server alone. -/
theorem Shell.run_onMachine {α : Type} (p : Proc α) (link : Link) (machine : World) :
    (p.hoist ReplOp.onMachine).run (⟨link, machine⟩ : Shell) =
      ((p.run machine).1, ⟨link, (p.run machine).2⟩) :=
  Prog.run_hoist (fun m => (⟨link, m⟩ : Shell)) (fun _ _ => rfl) p machine

namespace Sample

/-- Root has mounted `/exp` and has not gone anywhere. -/
def atRoot : ReplState :=
  let node := .root (bytes "/exp") .nfDir ⟨2, 0⟩
  ⟨node, node, ⟨0, bytes "client", 0, 0, []⟩⟩

end Sample

end QuicNfs.Client

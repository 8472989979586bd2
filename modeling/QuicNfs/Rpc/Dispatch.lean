import QuicNfs.Rpc.Results
import QuicNfs.Rpc.Gate

/-!
# QuicNfs — dispatch of a call to its procedure

`forward_rpc_call_to_program`, `call_mount`, `call_nfs` and the heads of the
procedures, up to where the arguments have been checked. Every `->` of the
source is a `deref`, and every test for NULL a `require`, in the order of the
source: a pointer that is read without having been tested ends the process. What
a procedure does with its arguments is the model of `Server/Procedures.lean`.
-/

namespace QuicNfs.Rpc

open Kernel Server Lib

/-- How the head of a procedure can end early. -/
inductive Stop where
  /-- A field of an absent submessage is read. -/
  | nullDereference
  /-- The text is printed, and the reply is GARBAGE_ARGS. -/
  | garbageArgs (text : String)
deriving DecidableEq, Repr

abbrev Checks := Except Stop

variable {α β : Type}

/-- The arrow operator. -/
def deref (pointer : Option α) : Checks α :=
  match pointer with
  | none => .error .nullDereference
  | some a => .ok a

/-- `if (pointer == NULL)`, print a text and give up. -/
def require (pointer : Option α) (text : String) : Checks Unit :=
  match pointer with
  | none => .error (.garbageArgs text)
  | some _ => .ok ()

/-! ## The checks of the arguments -/

/-- The texts of the checks of a DirOpArgs. -/
structure DirOpTexts where
  dir : String
  nfsFilehandle : String
  name : String
  filename : String

def checkFHandle (text : String) (fhandle : FHandle) : Checks Ino := do
  require fhandle.nfsFilehandle text
  let nfsFilehandle ← deref fhandle.nfsFilehandle
  return nfsFilehandle.inodeNumber

def checkDirOpArgs (texts : DirOpTexts) (diropargs : DirOpArgs) : Checks (Ino × Bytes) := do
  require diropargs.dir texts.dir
  let directoryFhandle ← deref diropargs.dir
  require directoryFhandle.nfsFilehandle texts.nfsFilehandle
  require diropargs.name texts.name
  let fileName ← deref diropargs.name
  require fileName.filename texts.filename
  let directoryNfsFilehandle ← deref directoryFhandle.nfsFilehandle
  let filename ← deref fileName.filename
  return (directoryNfsFilehandle.inodeNumber, filename)

def checkSAttr (atimeText mtimeText : String) (sattr : SAttr) : Checks Attributes := do
  require sattr.atime atimeText
  require sattr.mtime mtimeText
  let atime ← deref sattr.atime
  let mtime ← deref sattr.mtime
  return ⟨sattr.mode, sattr.uid, sattr.gid, sattr.size, atime, mtime⟩

/-- The prefix of a procedure's texts is its name. -/
def checkDirPath (name : String) (dirpath : MsgPath) : Checks Bytes := do
  require dirpath.path (name ++ ": DirPath->path is null\n")
  deref dirpath.path

def checkSAttrArgs (name : String) (sattrargs : SAttrArgs) : Checks (Ino × Attributes) := do
  require sattrargs.file (name ++ ": 'file' in SAttrArgs is null\n")
  let fhandle ← deref sattrargs.file
  require fhandle.nfsFilehandle (name ++ ": FHandle->nfs_filehandle is null\n")
  require sattrargs.attributes (name ++ ": 'attributes' in SAttrArgs is null\n")
  let sattr ← deref sattrargs.attributes
  let attributes ← checkSAttr (name ++ ": 'atime' in SAttrArgs is null\n")
    (name ++ ": 'mtime' in SAttrArgs is null\n") sattr
  let nfsFilehandle ← deref fhandle.nfsFilehandle
  return (nfsFilehandle.inodeNumber, attributes)

def checkReadArgs (name : String) (readargs : ReadArgs) : Checks Ino := do
  require readargs.file (name ++ ": 'file' in ReadArgs is null\n")
  let fileFhandle ← deref readargs.file
  checkFHandle (name ++ ": FHandle->nfs_filehandle is null\n") fileFhandle

def checkWriteArgs (name : String) (writeargs : WriteArgs) : Checks (Ino × Bytes) := do
  require writeargs.file (name ++ ": 'file' in WriteArgs is null\n")
  let fileFhandle ← deref writeargs.file
  require fileFhandle.nfsFilehandle (name ++ ": FHandle->nfs_filehandle is null\n")
  require writeargs.nfsdata (name ++ ": nfsdata.data is null\n")
  let fileNfsFilehandle ← deref fileFhandle.nfsFilehandle
  let nfsdata ← deref writeargs.nfsdata
  return (fileNfsFilehandle.inodeNumber, nfsdata)

/-- The texts of CREATE, MKDIR, SYMLINK and LINK. -/
def newNameTexts (name : String) : DirOpTexts where
  dir := name ++ ": DirOpArgs->dir is null\n"
  nfsFilehandle := name ++ ": FHandle->nfs_filehandle is null\n"
  name := name ++ ": DirOpArgs->name is null\n"
  filename := name ++ ": DirOpArgs->name->filename is null\n"

/-- The texts of REMOVE and RMDIR. -/
def oldNameTexts (name : String) : DirOpTexts where
  dir := name ++ ": 'dir' in DirOpArgs is null\n"
  nfsFilehandle := name ++ ": FHandle->nfs_filehandle is null\n"
  name := name ++ ": 'name' in DirOpArgs is null\n"
  filename := name ++ ": FileName->filename is null\n"

def lookupTexts (name : String) : DirOpTexts :=
  { oldNameTexts name with filename := name ++ ": 'filename' in DirOpArgs is null\n" }

/-- The texts of one end of a RENAME. -/
def renameTexts (name side : String) : DirOpTexts where
  dir := name ++ ": " ++ side ++ "->dir is null\n"
  nfsFilehandle := name ++ ": FHandle->nfs_filehandle is null\n"
  name := name ++ ": " ++ side ++ "->name is null\n"
  filename := name ++ ": FileName->filename is null\n"

def checkCreateArgs (name : String) (createargs : CreateArgs) :
    Checks (Ino × Bytes × Attributes) := do
  require createargs.location (name ++ ": 'where' in CreateArgs is null\n")
  let diropargs ← deref createargs.location
  let (inodeNumber, filename) ← checkDirOpArgs (newNameTexts name) diropargs
  require createargs.attributes (name ++ ": 'attributes' in CreateArgs is null\n")
  let sattr ← deref createargs.attributes
  let attributes ← checkSAttr (name ++ ": SAttr->atime is null\n")
    (name ++ ": SAttr->mtime is null\n") sattr
  return (inodeNumber, filename, attributes)

def checkRenameArgs (name : String) (renameargs : RenameArgs) :
    Checks ((Ino × Bytes) × (Ino × Bytes)) := do
  require renameargs.source (name ++ ": 'from' in RenameArgs is null\n")
  let source ← deref renameargs.source
  let old ← checkDirOpArgs (renameTexts name "from") source
  require renameargs.target (name ++ ": 'to' in RenameArgs is null\n")
  let target ← deref renameargs.target
  let new ← checkDirOpArgs (renameTexts name "to") target
  return (old, new)

def checkLinkArgs (name : String) (linkargs : LinkArgs) : Checks (Ino × Ino × Bytes) := do
  require linkargs.source (name ++ ": 'from' in LinkArgs is null\n")
  let targetFileFhandle ← deref linkargs.source
  let targetInodeNumber ← checkFHandle (name ++ ": FHandle->nfs_filehandle is null\n")
    targetFileFhandle
  require linkargs.target (name ++ ": 'to' in LinkArgs is null\n")
  let target ← deref linkargs.target
  let (inodeNumber, filename) ← checkDirOpArgs (newNameTexts name) target
  return (targetInodeNumber, inodeNumber, filename)

def checkSymLinkArgs (name : String) (symlinkargs : SymLinkArgs) :
    Checks (Ino × Bytes × Path) := do
  require symlinkargs.source (name ++ ": 'from' in SymLinkArgs is null\n")
  let source ← deref symlinkargs.source
  let (inodeNumber, filename) ← checkDirOpArgs (newNameTexts name) source
  require symlinkargs.target (name ++ ": 'to' in SymLinkArgs is null\n")
  let target ← deref symlinkargs.target
  require target.path (name ++ ": Path->path is null\n")
  require symlinkargs.attributes (name ++ ": 'attributes' in SymLinkArgs is null\n")
  let sattr ← deref symlinkargs.attributes
  let _ ← checkSAttr (name ++ ": SAttr->atime is null\n") (name ++ ": SAttr->mtime is null\n") sattr
  let path ← deref target.path
  return (inodeNumber, filename, path)

/-- The cookie is looked at before the handle inside `dir`. -/
def checkReadDirArgs (name : String) (readdirargs : ReadDirArgs) : Checks (Ino × Nat) := do
  require readdirargs.dir (name ++ ": 'dir' in ReadDirArgs is null\n")
  require readdirargs.cookie (name ++ ": 'cookie' in ReadDirArgs is null\n")
  let directoryFhandle ← deref readdirargs.dir
  require directoryFhandle.nfsFilehandle (name ++ ": FHandle->nfs_filehandle is null\n")
  let directoryNfsFilehandle ← deref directoryFhandle.nfsFilehandle
  let cookie ← deref readdirargs.cookie
  return (directoryNfsFilehandle.inodeNumber, cookie)

/-! ## The procedures -/

/-- `credential->auth_sys`, where the flavor is AUTH_SYS. The AUTH_SYS
parameters are read without a test: the gate has made it. -/
def readCredential (credential : Option OpaqueAuth) : Checks Credential := do
  let credential ← deref credential
  match credential.flavor, credential.body with
  | .authSys, .authSys authSys =>
    let authSys ← deref authSys
    let machinename ← deref authSys.machinename
    let gids ← deref authSys.gids
    return .authSys ⟨authSys.timestamp, machinename, authSys.uid, authSys.gid, gids⟩
  -- another member of the union is set
  | .authSys, _ => throw .nullDereference
  | _, _ => return .authNone

/-- What distinguishes the heads of the procedures: the type of the arguments,
the texts, and the checks of the unpacked arguments. -/
structure Head (α : Type) where
  argsType : String
  wrongType : String
  notUnpacked : String
  unpack : Bytes → Option α
  {checked : Type}
  checks : α → Checks checked

/-- The head of a procedure: the arguments, with the caller's credential. -/
def Head.run (head : Head α) (credential : Option OpaqueAuth) (parameters : Option Any) :
    Checks (Credential × α) := do
  -- no test for NULL comes before this arrow
  let parameters ← deref parameters
  if parameters.typeUrl ≠ some (bytes head.argsType) then throw (.garbageArgs head.wrongType)
  else
    match head.unpack parameters.value with
    | none => throw (.garbageArgs head.notUnpacked)
    | some args =>
      let _ ← head.checks args
      let credential ← readCredential credential
      return (credential, args)

variable (pb : Protobuf)

/-- A procedure: its head, then what `Server/Procedures.lean` says. `none` is the
death of the process. -/
def serveProcedure (head : Head α) (request : α → Request) (credential : Option OpaqueAuth)
    (parameters : Option Any) : Proc (Option AcceptedReply) :=
  match head.run credential parameters with
  | .error .nullDereference => pure none
  | .error (.garbageArgs _) => pure createGarbageArgsAcceptedReply
  | .ok (credential, args) => do
    let answer ← serve credential (request args)
    return acceptedReplyOf pb answer

/-- The NULL procedures look at nothing. -/
def serveNullProcedure (resultsType : String) : Proc (Option AcceptedReply) :=
  pure (some (wrapProcedureResultsInSuccessfulAcceptedReply [] (bytes resultsType)))

def mntHead : Head MsgPath where
  argsType := "mount/DirPath"
  wrongType := "serve_mnt_procedure_1_add_mount_entry: Expected mount/DirPath but received %s\n"
  notUnpacked := "serve_mnt_procedure_1_add_mount_entry: Failed to unpack DirPath\n"
  unpack := pb.dirPath.unpack
  checks := checkDirPath "serve_mnt_procedure_1_add_mount_entry"

/-- The texts that most of the procedures have, after their names. -/
def headOf (name argsType message : String) (unpack : Bytes → Option α)
    (checks : String → α → Checks β) : Head α where
  argsType := argsType
  wrongType := name ++ ": expected " ++ argsType ++ " but received %s\n"
  notUnpacked := name ++ ": failed to unpack " ++ message ++ "\n"
  unpack := unpack
  checks := checks name

def getattrHead : Head FHandle :=
  headOf "serve_nfs_procedure_1_get_file_attributes" "nfs/FHandle" "FHandle" pb.fhandle.unpack
    fun name => checkFHandle (name ++ ": FHandle->nfs_filehandle is null\n")

def setattrHead : Head SAttrArgs :=
  headOf "serve_nfs_procedure_2_set_file_attributes" "nfs/SAttrArgs" "SAttrArgs" pb.sattrArgs.unpack
    checkSAttrArgs

def lookupHead : Head DirOpArgs :=
  headOf "serve_nfs_procedure_4_look_up_file_name" "nfs/DirOpArgs" "DirOpArgs" pb.dirOpArgs.unpack
    (checkDirOpArgs ∘ lookupTexts)

def readlinkHead : Head FHandle :=
  headOf "serve_nfs_procedure_5_read_from_symbolic_link" "nfs/FHandle" "FHandle" pb.fhandle.unpack
    fun name => checkFHandle (name ++ ": 'nfs_filehandle' in FHandle is null\n")

def readHead : Head ReadArgs :=
  headOf "serve_nfs_procedure_6_read_from_file" "nfs/ReadArgs" "ReadArgs" pb.readArgs.unpack
    checkReadArgs

def writeHead : Head WriteArgs :=
  headOf "serve_nfs_procedure_8_write_to_file" "nfs/WriteArgs" "WriteArgs" pb.writeArgs.unpack
    checkWriteArgs

def createHead : Head CreateArgs :=
  headOf "serve_nfs_procedure_9_create_file" "nfs/CreateArgs" "CreateArgs" pb.createArgs.unpack
    checkCreateArgs

def removeHead : Head DirOpArgs :=
  headOf "serve_nfs_procedure_10_remove_file" "nfs/DirOpArgs" "DirOpArgs" pb.dirOpArgs.unpack
    (checkDirOpArgs ∘ oldNameTexts)

def renameHead : Head RenameArgs :=
  headOf "serve_nfs_procedure_11_rename_file" "nfs/RenameArgs" "RenameArgs" pb.renameArgs.unpack
    checkRenameArgs

def linkHead : Head LinkArgs :=
  headOf "serve_nfs_procedure_12_create_link_to_file" "nfs/LinkArgs" "LinkArgs" pb.linkArgs.unpack
    checkLinkArgs

def symlinkHead : Head SymLinkArgs :=
  headOf "serve_nfs_procedure_13_create_symbolic_link" "nfs/SymLinkArgs" "SymLinkArgs"
    pb.symLinkArgs.unpack checkSymLinkArgs

def mkdirHead : Head CreateArgs :=
  headOf "serve_nfs_procedure_14_create_directory" "nfs/CreateArgs" "CreateArgs" pb.createArgs.unpack
    checkCreateArgs

def rmdirHead : Head DirOpArgs :=
  headOf "serve_nfs_procedure_15_remove_directory" "nfs/DirOpArgs" "DirOpArgs" pb.dirOpArgs.unpack
    (checkDirOpArgs ∘ oldNameTexts)

def readdirHead : Head ReadDirArgs where
  argsType := "nfs/ReadDirArgs"
  wrongType := "serve_nfs_procedure_16_read_from_directory: Expected nfs/ReadDirArgs but received %s\n"
  notUnpacked := "serve_nfs_procedure_16_read_from_directory: Failed to unpack ReadDirArgs\n"
  unpack := pb.readDirArgs.unpack
  checks := checkReadDirArgs "serve_nfs_procedure_16_read_from_directory"

def statfsHead : Head FHandle :=
  headOf "serve_nfs_procedure_17_get_filesystem_attributes" "nfs/FHandle" "FHandle"
    pb.fhandle.unpack fun name => checkFHandle (name ++ ": FHandle->nfs_filehandle is null\n")

/-! ## Programs -/

def NFS_RPC_PROGRAM_NUMBER : Nat := 10003
def MOUNT_RPC_PROGRAM_NUMBER : Nat := 10005
def NFS_VERSION_LOW : Nat := 2
def NFS_VERSION_HIGH : Nat := 2

def callMount (credential : Option OpaqueAuth) (programVersion procedureNumber : Nat)
    (parameters : Option Any) : Proc (Option AcceptedReply) :=
  if programVersion ≠ 2 then
    pure (some (createProgMismatchAcceptedReply NFS_VERSION_LOW NFS_VERSION_HIGH))
  else
    match procedureNumber with
    | 0 => serveNullProcedure "mount/None"
    | 1 => serveProcedure pb (mntHead pb) .mnt credential parameters
    | _ => pure (createDefaultCaseAcceptedReply .procUnavail)

def callNfs (credential : Option OpaqueAuth) (programVersion procedureNumber : Nat)
    (parameters : Option Any) : Proc (Option AcceptedReply) :=
  if programVersion ≠ 2 then
    pure (some (createProgMismatchAcceptedReply NFS_VERSION_LOW NFS_VERSION_HIGH))
  else
    match procedureNumber with
    | 0 => serveNullProcedure "nfs/None"
    | 1 => serveProcedure pb (getattrHead pb) .getattr credential parameters
    | 2 => serveProcedure pb (setattrHead pb) .setattr credential parameters
    -- procedure 3 (NFSPROC_ROOT) is obsolete, and 7 (NFSPROC_WRITECACHE) is supported in NFSv3
    | 4 => serveProcedure pb (lookupHead pb) .lookup credential parameters
    | 5 => serveProcedure pb (readlinkHead pb) .readlink credential parameters
    | 6 => serveProcedure pb (readHead pb) .read credential parameters
    | 8 => serveProcedure pb (writeHead pb) .write credential parameters
    | 9 => serveProcedure pb (createHead pb) .create credential parameters
    | 10 => serveProcedure pb (removeHead pb) .remove credential parameters
    | 11 => serveProcedure pb (renameHead pb) .rename credential parameters
    | 12 => serveProcedure pb (linkHead pb) .link credential parameters
    | 13 => serveProcedure pb (symlinkHead pb) .symlink credential parameters
    | 14 => serveProcedure pb (mkdirHead pb) .mkdir credential parameters
    | 15 => serveProcedure pb (rmdirHead pb) .rmdir credential parameters
    | 16 => serveProcedure pb (readdirHead pb) .readdir credential parameters
    | 17 => serveProcedure pb (statfsHead pb) .statfs credential parameters
    | _ => pure (createDefaultCaseAcceptedReply .procUnavail)

/-- `forward_rpc_call_to_program`. No procedure reads the verifier. -/
def forwardToProgram (call : ForwardedCall) : Proc (Option AcceptedReply) :=
  if call.programNumber = MOUNT_RPC_PROGRAM_NUMBER then
    callMount pb call.credential call.programVersion call.procedureNumber call.parameters
  else if call.programNumber = NFS_RPC_PROGRAM_NUMBER then
    callNfs pb call.credential call.programVersion call.procedureNumber call.parameters
  else pure (createDefaultCaseAcceptedReply .progUnavail)

/-- The server: the gate in front of the two programs. -/
def services (sendRmRecord : Nat → Nat) : Services World where
  deserializeRpcMsg := pb.rpcMsg.unpack
  forwardRpcCallToProgram := fun call w => (forwardToProgram pb call).run w
  sendRmRecord := sendRmRecord

end QuicNfs.Rpc

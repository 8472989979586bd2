import QuicNfs.Rpc.Messages
import QuicNfs.Server.Server

/-!
# QuicNfs — the result messages

The messages of `nfs.proto` and `mount.proto` that carry the results of the
procedures, with a pointer for every submessage and string, and the functions
that fill them in: `nfs_messages.c`, `mount_messages.c` and the ends of the
procedures. `Protobuf` is the code that is generated from the protocol files;
a message is packed into bytes by it, and unpacked again. `Rpc/Codec.lean` has the
code itself.

* `StatusRes` — the shape that all results but `NfsStat` share: a status, and a
  `oneof` of a body and an empty default case;
* `…Reply` — the accepted reply for what a procedure of the server answers.
-/

namespace QuicNfs.Rpc

open Kernel Server

/-! ## Messages -/

/-- `ProtobufCBinaryData`. -/
structure BinaryData where
  len : Nat
  data : Option Bytes
deriving DecidableEq, Repr

/-- `Nfs__FAttr`; the file type and the times are submessages. -/
structure FAttrMsg where
  nfsFtype : Option FType
  mode : Nat
  nlink : Nat
  uid : Nat
  gid : Nat
  size : Nat
  blocksize : Nat
  rdev : Nat
  blocks : Nat
  fsid : Nat
  fileid : Nat
  atime : Option MsgTimeVal
  mtime : Option MsgTimeVal
  ctime : Option MsgTimeVal
deriving DecidableEq, Repr

inductive StatusResBody (β : Type) where
  | notSet
  | body (body : Option β)
  | defaultCase (empty : Option Unit)
deriving DecidableEq, Repr

/-- A status, and a body for the status that means success. -/
structure StatusRes (stat β : Type) where
  status : Option stat
  body : StatusResBody β
deriving DecidableEq, Repr

structure DirOpOkMsg where
  file : Option FHandle
  attributes : Option FAttrMsg
deriving DecidableEq, Repr

structure ReadResBodyMsg where
  attributes : Option FAttrMsg
  nfsdata : BinaryData
deriving DecidableEq, Repr

/-- One element of the linked list of entries. -/
structure DirectoryEntryMsg where
  fileid : Nat
  name : Option FileName
  cookie : Option Nat
deriving DecidableEq, Repr

/-- The list is empty where its head is NULL. -/
structure ReadDirOkMsg where
  entries : List DirectoryEntryMsg
  eof : Bool
deriving DecidableEq, Repr

abbrev FhStatus := StatusRes MntStat FHandle
abbrev AttrStat := StatusRes Server.Stat FAttrMsg
abbrev DirOpRes := StatusRes Server.Stat DirOpOkMsg
abbrev ReadLinkRes := StatusRes Server.Stat MsgPath
abbrev ReadRes := StatusRes Server.Stat ReadResBodyMsg
abbrev ReadDirRes := StatusRes Server.Stat ReadDirOkMsg
abbrev StatFsRes := StatusRes Server.Stat FsInfo

/-- `Nfs__NfsStat`. -/
structure NfsStat where
  stat : Server.Stat
deriving DecidableEq, Repr

/-! ## The generated code -/

/-- The functions generated for one message. -/
structure MessageCodec (α : Type) where
  pack : α → Bytes
  unpack : Bytes → Option α

structure Protobuf where
  rpcMsg : MessageCodec RpcMsg
  dirPath : MessageCodec MsgPath
  fhandle : MessageCodec FHandle
  sattrArgs : MessageCodec SAttrArgs
  dirOpArgs : MessageCodec DirOpArgs
  readArgs : MessageCodec ReadArgs
  writeArgs : MessageCodec WriteArgs
  createArgs : MessageCodec CreateArgs
  renameArgs : MessageCodec RenameArgs
  linkArgs : MessageCodec LinkArgs
  symLinkArgs : MessageCodec SymLinkArgs
  readDirArgs : MessageCodec ReadDirArgs
  fhStatus : MessageCodec FhStatus
  attrStat : MessageCodec AttrStat
  dirOpRes : MessageCodec DirOpRes
  readLinkRes : MessageCodec ReadLinkRes
  readRes : MessageCodec ReadRes
  nfsStat : MessageCodec NfsStat
  readDirRes : MessageCodec ReadDirRes
  statFsRes : MessageCodec StatFsRes

/-! ## Building the results -/

/-- `create_default_case_attr_stat` and its five siblings: none of them builds a
default case for NFS_OK. -/
def createDefaultCase {β : Type} (nonNfsOkStatus : Server.Stat) :
    Option (StatusRes Server.Stat β) :=
  if nonNfsOkStatus = .nfsOk then none
  else some ⟨some nonNfsOkStatus, .defaultCase (some ())⟩

def createDefaultCaseAttrStat : Server.Stat → Option AttrStat := createDefaultCase
def createDefaultCaseDirOpRes : Server.Stat → Option DirOpRes := createDefaultCase
def createDefaultCaseReadLinkRes : Server.Stat → Option ReadLinkRes := createDefaultCase
def createDefaultCaseReadRes : Server.Stat → Option ReadRes := createDefaultCase
def createDefaultCaseReadDirRes : Server.Stat → Option ReadDirRes := createDefaultCase
def createDefaultCaseStatFsRes : Server.Stat → Option StatFsRes := createDefaultCase

/-- The one of the Mount program takes any status. -/
def createDefaultCaseFhStatus (nonMntOkStatus : MntStat) : FhStatus :=
  ⟨some nonMntOkStatus, .defaultCase (some ())⟩

def createNfsStat (stat : Server.Stat) : NfsStat := ⟨stat⟩

def timeValMsg (time : MsgTimeVal) : MsgTimeVal :=
  ⟨time.seconds % 2 ^ 64, time.useconds % 2 ^ 64⟩

/-- The attributes as `get_attributes` fills them in: members of 32 and of 64 bits. -/
def fattrMsg (fattr : FAttr) : FAttrMsg where
  nfsFtype := some fattr.nfsFtype
  mode := fattr.mode % 2 ^ 32
  nlink := fattr.nlink % 2 ^ 64
  uid := fattr.uid % 2 ^ 32
  gid := fattr.gid % 2 ^ 32
  size := fattr.size % 2 ^ 64
  blocksize := fattr.blocksize % 2 ^ 64
  rdev := fattr.rdev % 2 ^ 64
  blocks := fattr.blocks % 2 ^ 64
  fsid := fattr.fsid % 2 ^ 64
  fileid := fattr.fileid % 2 ^ 64
  atime := some (timeValMsg fattr.atime)
  mtime := some (timeValMsg fattr.mtime)
  ctime := some (timeValMsg fattr.ctime)

def fhandleMsg (handle : NfsFileHandle) : FHandle :=
  ⟨some ⟨handle.inodeNumber % 2 ^ 64, handle.timestamp % 2 ^ 64⟩⟩

def dirOpOkMsg (ok : DirOpOk) : DirOpOkMsg :=
  ⟨some (fhandleMsg ok.file), some (fattrMsg ok.attributes)⟩

/-- The buffer is there also where nothing was read. -/
def readResBodyMsg (body : ReadResBody) : ReadResBodyMsg :=
  ⟨some (fattrMsg body.attributes), ⟨body.nfsdata.length, some body.nfsdata⟩⟩

def directoryEntryMsg (entry : DirectoryEntry) : DirectoryEntryMsg :=
  ⟨entry.fileid % 2 ^ 64, some ⟨some entry.name⟩, some (entry.cookie % 2 ^ 64)⟩

def readDirOkMsg (ok : ReadDirOk) : ReadDirOkMsg :=
  ⟨ok.entries.map directoryEntryMsg, ok.eof⟩

def fsInfoMsg (info : FsInfo) : FsInfo where
  tsize := info.tsize % 2 ^ 32
  bsize := info.bsize % 2 ^ 64
  blocks := info.blocks % 2 ^ 64
  bfree := info.bfree % 2 ^ 64
  bavail := info.bavail % 2 ^ 64

/-! ## Accepted replies

`none` is a crash: a message that could not be built is packed. -/

/-- The accepted reply of a procedure with results of the shape `StatusRes`.
`resultsType` names the type of the results. -/
def statusReply {stat α β : Type} (ok : stat) (createDefault : stat → Option (StatusRes stat β))
    (okBody : α → β) (pack : StatusRes stat β → Bytes) (resultsType : String) :
    Reply stat α → Option AcceptedReply
  | .garbageArgs => createGarbageArgsAcceptedReply
  | .systemErr => createSystemErrorAcceptedReply
  | .err stat => (createDefault stat).map fun res =>
      wrapProcedureResultsInSuccessfulAcceptedReply (pack res) (bytes resultsType)
  | .ok a => some (wrapProcedureResultsInSuccessfulAcceptedReply
      (pack ⟨some ok, .body (some (okBody a))⟩) (bytes resultsType))

variable (pb : Protobuf)

def fhStatusReply : Reply MntStat NfsFileHandle → Option AcceptedReply :=
  statusReply .mntOk (some ∘ createDefaultCaseFhStatus) fhandleMsg pb.fhStatus.pack
    "mount/FhStatus"

def attrStatReply : NfsReply FAttr → Option AcceptedReply :=
  statusReply .nfsOk createDefaultCaseAttrStat fattrMsg pb.attrStat.pack "nfs/AttrStat"

def dirOpResReply : NfsReply DirOpOk → Option AcceptedReply :=
  statusReply .nfsOk createDefaultCaseDirOpRes dirOpOkMsg pb.dirOpRes.pack "nfs/DirOpRes"

def readLinkResReply : NfsReply Bytes → Option AcceptedReply :=
  statusReply .nfsOk createDefaultCaseReadLinkRes (fun target => ⟨some target⟩) pb.readLinkRes.pack
    "nfs/ReadLinkRes"

def readResReply : NfsReply ReadResBody → Option AcceptedReply :=
  statusReply .nfsOk createDefaultCaseReadRes readResBodyMsg pb.readRes.pack "nfs/ReadRes"

def readDirResReply : NfsReply ReadDirOk → Option AcceptedReply :=
  statusReply .nfsOk createDefaultCaseReadDirRes readDirOkMsg pb.readDirRes.pack "nfs/ReadDirRes"

def statFsResReply : NfsReply FsInfo → Option AcceptedReply :=
  statusReply .nfsOk createDefaultCaseStatFsRes fsInfoMsg pb.statFsRes.pack "nfs/StatFsRes"

/-- The results that are a status alone. -/
def nfsStatReply : NfsReply Unit → Option AcceptedReply
  | .garbageArgs => createGarbageArgsAcceptedReply
  | .systemErr => createSystemErrorAcceptedReply
  | .err stat => some (wrapProcedureResultsInSuccessfulAcceptedReply
      (pb.nfsStat.pack (createNfsStat stat)) (bytes "nfs/NfsStat"))
  | .ok () => some (wrapProcedureResultsInSuccessfulAcceptedReply
      (pb.nfsStat.pack (createNfsStat .nfsOk)) (bytes "nfs/NfsStat"))

/-- The accepted reply for what a procedure answers. -/
def acceptedReplyOf : Answer → Option AcceptedReply
  | .fhStatus r => fhStatusReply pb r
  | .attrStat r => attrStatReply pb r
  | .dirOpRes r => dirOpResReply pb r
  | .readLinkRes r => readLinkResReply pb r
  | .readRes r => readResReply pb r
  | .nfsStat r => nfsStatReply pb r
  | .readDirRes r => readDirResReply pb r
  | .statFsRes r => statFsResReply pb r

end QuicNfs.Rpc

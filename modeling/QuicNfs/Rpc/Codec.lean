import QuicNfs.Lib.MessageFormat
import QuicNfs.Rpc.Results

/-!
# QuicNfs — the generated code

The functions that are generated for the messages of `rpc.proto`, `nfs.proto`,
`nfs_fh.proto` and `mount.proto`, from the members and tags of their descriptors. Strings
are without the NUL at their end. Of the closed enumerations a message with another number
cannot be read; the server sends none.

* `….format` — the functions for one message, member by member;
* `protobufC` — all that the client and the server call.
-/

namespace QuicNfs.Rpc

open Kernel Server Lib Lib.Wire

/-! ## Enumerations -/

def MsgType.numbers : Enumeration MsgType :=
  .extensible [(.call, 0), (.reply, 1)] .other (fun | .other n => n | _ => 0) .call rfl

def ReplyStat.numbers : Enumeration ReplyStat :=
  .extensible [(.msgAccepted, 0), (.msgDenied, 1)] .other (fun | .other n => n | _ => 0)
    .msgAccepted rfl

def AcceptStat.numbers : Enumeration AcceptStat :=
  .extensible [(.success, 0), (.progUnavail, 1), (.progMismatch, 2), (.procUnavail, 3),
    (.garbageArgs, 4), (.systemErr, 5)] .other (fun | .other n => n | _ => 0) .success rfl

def RejectStat.numbers : Enumeration RejectStat :=
  .extensible [(.rpcMismatch, 0), (.authError, 1)] .other (fun | .other n => n | _ => 0)
    .rpcMismatch rfl

def AuthStat.numbers : Enumeration AuthStat :=
  .extensible [(.authOk, 0), (.authBadcred, 1), (.authRejectedcred, 2), (.authBadverf, 3),
    (.authRejectedverf, 4), (.authTooweak, 5)] .other (fun | .other n => n | _ => 0) .authOk rfl

def AuthFlavor.numbers : Enumeration AuthFlavor :=
  .extensible [(.authNone, 0), (.authSys, 1), (.authShort, 2), (.authDh, 3), (.rpcsecGss, 6)]
    .other (fun | .other n => n | _ => 0) .authNone rfl

def statNumbers : Enumeration Server.Stat :=
  .closed [(.nfsOk, 0), (.nfserrPerm, 1), (.nfserrNoent, 2), (.nfserrIo, 5), (.nfserrNxio, 6),
    (.nfserrAcces, 13), (.nfserrExist, 17), (.nfserrNodev, 19), (.nfserrNotdir, 20),
    (.nfserrIsdir, 21), (.nfserrFbig, 27), (.nfserrNospc, 28), (.nfserrRofs, 30),
    (.nfserrNametoolong, 63), (.nfserrNotempty, 66), (.nfserrDquot, 69), (.nfserrStale, 70),
    (.nfserrWflush, 99)] .nfsOk rfl

def mntStatNumbers : Enumeration MntStat :=
  .closed [(.mntOk, 0), (.mnterrNoent, 2), (.mnterrNotexp, 3), (.mnterrIo, 5), (.mnterrAcces, 13),
    (.mnterrNotdir, 20)] .mntOk rfl

def ftypeNumbers : Enumeration FType :=
  .closed [(.nfNon, 0), (.nfReg, 1), (.nfDir, 2), (.nfBlk, 3), (.nfChr, 4), (.nfLnk, 5)] .nfNon rfl

/-! ## The messages of RPC -/

/-- `google.protobuf.Empty`. -/
def emptyFormat : Format Unit := Fields.empty.format (by decide)

def AuthSysParams.format : Format AuthSysParams :=
  ((field 1 uint64 <| field 2 string <| field 3 uint32 <| field 4 uint32 <| last 5 uint32s).iso
    (fun (timestamp, machinename, uid, gid, gids) => ⟨timestamp, machinename, uid, gid, gids⟩)
    (fun p => (p.timestamp, p.machinename, p.uid, p.gid, p.gids)) fun _ => rfl).format (by decide)

def OpaqueAuthBody.fields : Fields OpaqueAuthBody :=
  (choice 2 (nested emptyFormat) <| lastChoice 3 (nested AuthSysParams.format)).fields.iso
    (·.elim .notSet (Sum.elim .empty .authSys))
    (fun
      | .notSet => none
      | .empty e => some (.inl e)
      | .authSys params => some (.inr params))
    (by rintro (_ | _ | _) <;> rfl)

def OpaqueAuth.format : Format OpaqueAuth :=
  ((field 1 AuthFlavor.numbers.member OpaqueAuthBody.fields).iso (fun (flavor, body) => ⟨flavor, body⟩)
    (fun a => (a.flavor, a.body)) fun _ => rfl).format (by decide)

def Any.format : Format Any :=
  message2 string Wire.bytes .mk typeUrl value fun _ _ => rfl

def CallBody.format : Format CallBody :=
  ((field 1 uint32 <| field 2 uint32 <| field 3 uint32 <| field 4 uint32 <|
      field 5 (nested OpaqueAuth.format) <| field 6 (nested OpaqueAuth.format) <|
      last 7 (nested Any.format)).iso
    (fun (rpcvers, prog, vers, proc, credential, verifier, params) =>
      ⟨rpcvers, prog, vers, proc, credential, verifier, params⟩)
    (fun c => (c.rpcvers, c.prog, c.vers, c.proc, c.credential, c.verifier, c.params))
    fun _ => rfl).format (by decide)

def MismatchInfo.format : Format MismatchInfo :=
  message2 uint32 uint32 .mk low high fun _ _ => rfl

def AcceptedReplyData.fields : Fields AcceptedReplyData :=
  (choice 3 (nested Any.format) <| choice 4 (nested MismatchInfo.format) <|
      lastChoice 5 (nested emptyFormat)).fields.iso
    (·.elim .notSet (Sum.elim .results (Sum.elim .mismatchInfo .defaultCase)))
    (fun
      | .notSet => none
      | .results any => some (.inl any)
      | .mismatchInfo info => some (.inr (.inl info))
      | .defaultCase empty => some (.inr (.inr empty)))
    (by rintro (_ | _ | _ | _) <;> rfl)

def AcceptedReply.format : Format AcceptedReply :=
  ((field 1 (nested OpaqueAuth.format) <| field 2 AcceptStat.numbers.member AcceptedReplyData.fields).iso
    (fun (verifier, stat, replyData) => ⟨verifier, stat, replyData⟩)
    (fun r => (r.verifier, r.stat, r.replyData)) fun _ => rfl).format (by decide)

def RejectedReplyData.fields : Fields RejectedReplyData :=
  (choice 2 (nested MismatchInfo.format) <| lastChoice 3 AuthStat.numbers.inOneof).fields.iso
    (·.elim .notSet (Sum.elim .mismatchInfo .authStat))
    (fun
      | .notSet => none
      | .mismatchInfo info => some (.inl info)
      | .authStat stat => some (.inr stat))
    (by rintro (_ | _ | _) <;> rfl)

def RejectedReply.format : Format RejectedReply :=
  ((field 1 RejectStat.numbers.member RejectedReplyData.fields).iso
    (fun (stat, replyData) => ⟨stat, replyData⟩) (fun r => (r.stat, r.replyData))
    fun _ => rfl).format (by decide)

def ReplyBodyReply.fields : Fields ReplyBodyReply :=
  (choice 2 (nested AcceptedReply.format) <| lastChoice 3 (nested RejectedReply.format)).fields.iso
    (·.elim .notSet (Sum.elim .areply .rreply))
    (fun
      | .notSet => none
      | .areply reply => some (.inl reply)
      | .rreply reply => some (.inr reply))
    (by rintro (_ | _ | _) <;> rfl)

def ReplyBody.format : Format ReplyBody :=
  ((field 1 ReplyStat.numbers.member ReplyBodyReply.fields).iso (fun (stat, reply) => ⟨stat, reply⟩)
    (fun b => (b.stat, b.reply)) fun _ => rfl).format (by decide)

def RpcMsgBody.fields : Fields RpcMsgBody :=
  (choice 3 (nested CallBody.format) <| lastChoice 4 (nested ReplyBody.format)).fields.iso
    (·.elim .notSet (Sum.elim .cbody .rbody))
    (fun
      | .notSet => none
      | .cbody call => some (.inl call)
      | .rbody reply => some (.inr reply))
    (by rintro (_ | _ | _) <;> rfl)

def RpcMsg.format : Format RpcMsg :=
  ((field 1 uint32 <| field 2 MsgType.numbers.member RpcMsgBody.fields).iso
    (fun (xid, mtype, body) => ⟨xid, mtype, body⟩) (fun m => (m.xid, m.mtype, m.body))
    fun _ => rfl).format (by decide)

/-! ## The messages of the two programs -/

def nfsFileHandleFormat : Format NfsFileHandle :=
  message2 uint64 uint64 .mk (·.inodeNumber) (·.timestamp) fun _ _ => rfl

def fhandleFormat : Format FHandle :=
  message1 (nested nfsFileHandleFormat) .mk (·.nfsFilehandle) fun _ => rfl

def timeValFormat : Format MsgTimeVal :=
  message2 uint64 uint64 .mk (·.seconds) (·.useconds) fun _ _ => rfl

def fileNameFormat : Format FileName := message1 string .mk (·.filename) fun _ => rfl

/-- `Path` and `DirPath`. -/
def pathFormat : Format MsgPath := message1 string .mk (·.path) fun _ => rfl

def cookieFormat : Format Nat := message1 uint64 id id fun _ => rfl

def ftypeFormat : Format FType := message1 ftypeNumbers.member id id fun _ => rfl

def FAttrMsg.format : Format FAttrMsg :=
  ((field 1 (nested ftypeFormat) <| field 2 uint32 <|
      field 3 uint64 <| field 4 uint32 <| field 5 uint32 <| field 6 uint64 <| field 7 uint64 <|
      field 8 uint64 <| field 9 uint64 <| field 10 uint64 <| field 11 uint64 <|
      field 12 (nested timeValFormat) <| field 13 (nested timeValFormat) <|
      last 14 (nested timeValFormat)).iso
    (fun (nfsFtype, mode, nlink, uid, gid, size, blocksize, rdev, blocks, fsid, fileid, atime, mtime,
        ctime) =>
      ⟨nfsFtype, mode, nlink, uid, gid, size, blocksize, rdev, blocks, fsid, fileid, atime, mtime,
        ctime⟩)
    (fun a => (a.nfsFtype, a.mode, a.nlink, a.uid, a.gid, a.size, a.blocksize, a.rdev, a.blocks,
      a.fsid, a.fileid, a.atime, a.mtime, a.ctime)) fun _ => rfl).format (by decide)

def sattrFormat : Format SAttr :=
  ((field 1 uint32 <| field 2 uint32 <| field 3 uint32 <| field 4 uint64 <|
      field 5 (nested timeValFormat) <| last 6 (nested timeValFormat)).iso
    (fun (mode, uid, gid, size, atime, mtime) => ⟨mode, uid, gid, size, atime, mtime⟩)
    (fun a => (a.mode, a.uid, a.gid, a.size, a.atime, a.mtime)) fun _ => rfl).format (by decide)

def dirOpArgsFormat : Format DirOpArgs :=
  message2 (nested fhandleFormat) (nested fileNameFormat) .mk (·.dir) (·.name) fun _ _ => rfl

def sattrArgsFormat : Format SAttrArgs :=
  message2 (nested fhandleFormat) (nested sattrFormat) .mk (·.file) (·.attributes) fun _ _ => rfl

def readArgsFormat : Format ReadArgs :=
  ((field 1 (nested fhandleFormat) <| field 2 uint32 <| field 3 uint32 <| last 4 unread).iso
    (fun (file, offset, count, _) => ⟨file, offset, count⟩)
    (fun a => (a.file, a.offset, a.count, ())) fun _ => rfl).format (by decide)

def writeArgsFormat : Format WriteArgs :=
  ((field 1 (nested fhandleFormat) <| field 2 unread <| field 3 uint32 <| field 4 unread <|
      last 5 data).iso
    (fun (file, _, offset, _, nfsdata) => ⟨file, offset, nfsdata⟩)
    (fun a => (a.file, (), a.offset, (), a.nfsdata)) fun _ => rfl).format (by decide)

def createArgsFormat : Format CreateArgs :=
  message2 (nested dirOpArgsFormat) (nested sattrFormat) .mk (·.location) (·.attributes)
    fun _ _ => rfl

def renameArgsFormat : Format RenameArgs :=
  message2 (nested dirOpArgsFormat) (nested dirOpArgsFormat) .mk (·.source) (·.target)
    fun _ _ => rfl

def linkArgsFormat : Format LinkArgs :=
  message2 (nested fhandleFormat) (nested dirOpArgsFormat) .mk (·.source) (·.target) fun _ _ => rfl

def symLinkArgsFormat : Format SymLinkArgs :=
  ((field 1 (nested dirOpArgsFormat) <| field 2 (nested pathFormat) <|
      last 3 (nested sattrFormat)).iso
    (fun (source, target, attributes) => ⟨source, target, attributes⟩)
    (fun a => (a.source, a.target, a.attributes)) fun _ => rfl).format (by decide)

def readDirArgsFormat : Format ReadDirArgs :=
  ((field 1 (nested fhandleFormat) <| field 2 (nested cookieFormat) <| last 3 uint32).iso
    (fun (dir, cookie, count) => ⟨dir, cookie, count⟩) (fun a => (a.dir, a.cookie, a.count))
    fun _ => rfl).format (by decide)

def DirOpOkMsg.format : Format DirOpOkMsg :=
  message2 (nested fhandleFormat) (nested FAttrMsg.format) .mk file attributes fun _ _ => rfl

/-- A `bytes` member: without bytes the pointer is NULL. -/
def binaryData : Member BinaryData :=
  blob (·.data.getD []) (fun b => ⟨b.length, pointerTo b⟩) fun b => b.len = (b.data.getD []).length

def ReadResBodyMsg.format : Format ReadResBodyMsg :=
  message2 (nested FAttrMsg.format) binaryData .mk attributes nfsdata fun _ _ => rfl

def DirectoryEntryMsg.fields : Fields DirectoryEntryMsg :=
  (field 1 uint64 <| field 2 (nested fileNameFormat) <| last 3 (nested cookieFormat)).iso
    (fun (fileid, name, cookie) => ⟨fileid, name, cookie⟩) (fun e => (e.fileid, e.name, e.cookie))
    fun _ => rfl

/-- The entries are a list through `nextentry`. -/
def ReadDirOkMsg.format : Format ReadDirOkMsg :=
  message2 (chain DirectoryEntryMsg.fields 4 (by decide)) bool .mk entries eof fun _ _ => rfl

def fsInfoFormat : Format FsInfo :=
  ((field 1 uint32 <| field 2 uint64 <| field 3 uint64 <| field 4 uint64 <| last 5 uint64).iso
    (fun (tsize, bsize, blocks, bfree, bavail) => ⟨tsize, bsize, blocks, bfree, bavail⟩)
    (fun info => (info.tsize, info.bsize, info.blocks, info.bfree, info.bavail))
    fun _ => rfl).format (by decide)

def NfsStat.format : Format NfsStat := message1 statNumbers.member .mk stat fun _ => rfl

def StatusResBody.fields {β : Type} (body : Format β) : Fields (StatusResBody β) :=
  (choice 2 (nested body) <| lastChoice 3 (nested emptyFormat)).fields.iso
    (·.elim .notSet (Sum.elim .body .defaultCase))
    (fun
      | .notSet => none
      | .body body => some (.inl body)
      | .defaultCase empty => some (.inr empty))
    (by rintro (_ | _ | _) <;> rfl)

/-- The status is a message of its own, with one member. -/
def StatusRes.format {stat β : Type} (numbers : Enumeration stat) (body : Format β) :
    Format (StatusRes stat β) :=
  ((field 1 (nested (message1 numbers.member id id fun _ => rfl)) (StatusResBody.fields body)).iso
    (fun x => ⟨x.1, x.2⟩) (fun r => (r.status, r.body)) fun _ => rfl).format
      (by show ValidTags [1, 2, 3]; decide)

/-! ## All of it -/

def codecOf {α : Type} (format : Format α) : MessageCodec α := ⟨format.pack, format.unpack⟩

/-- What the client and the server call of the generated code. -/
def protobufC : Protobuf where
  rpcMsg := codecOf RpcMsg.format
  dirPath := codecOf pathFormat
  fhandle := codecOf fhandleFormat
  sattrArgs := codecOf sattrArgsFormat
  dirOpArgs := codecOf dirOpArgsFormat
  readArgs := codecOf readArgsFormat
  writeArgs := codecOf writeArgsFormat
  createArgs := codecOf createArgsFormat
  renameArgs := codecOf renameArgsFormat
  linkArgs := codecOf linkArgsFormat
  symLinkArgs := codecOf symLinkArgsFormat
  readDirArgs := codecOf readDirArgsFormat
  fhStatus := codecOf (StatusRes.format mntStatNumbers fhandleFormat)
  attrStat := codecOf (StatusRes.format statNumbers FAttrMsg.format)
  dirOpRes := codecOf (StatusRes.format statNumbers DirOpOkMsg.format)
  readLinkRes := codecOf (StatusRes.format statNumbers pathFormat)
  readRes := codecOf (StatusRes.format statNumbers ReadResBodyMsg.format)
  nfsStat := codecOf NfsStat.format
  readDirRes := codecOf (StatusRes.format statNumbers ReadDirOkMsg.format)
  statFsRes := codecOf (StatusRes.format statNumbers fsInfoFormat)

end QuicNfs.Rpc

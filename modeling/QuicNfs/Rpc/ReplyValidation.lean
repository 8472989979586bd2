import QuicNfs.Rpc.Dispatch

/-!
# QuicNfs — what the client accepts

`client_common_rpc.c`, the ends of the client stubs in `mount_client.c` and
`nfs_client.c`, and `message_validation.c`: the checks a reply has to pass before
the client uses it. A check that fails ends with its error code and the text that
is printed; a pointer that is read without having been tested, where it may be
NULL or of another member of a union, is an `undefinedRead`.
-/

namespace QuicNfs.Rpc

open Kernel Server

/-- How a check of the client can fail. -/
inductive ReplyFault where
  | undefinedRead
  | code (code : Int) (text : String)
deriving DecidableEq, Repr

abbrev Validation := Except ReplyFault

variable {α β : Type}

def reject (code : Int) (text : String) : Validation α := .error (.code code text)

/-! ## The structure of a reply -/

def validateRejectedReply (rejectedReply : RejectedReply) : Validation Unit :=
  match rejectedReply.stat with
  | .rpcMismatch =>
    match rejectedReply.replyData with
    | .mismatchInfo (some _) => return ()
    | .mismatchInfo none =>
      reject 7 "Something went wrong at server - NULL mismatch_info in received RPC reply.\n"
    | _ => reject 6 "Something went wrong at server - inconsistent RejectStat and reply_data_case in received RPC reply.\n"
  | .authError =>
    match rejectedReply.replyData with
    | .authStat _ => return ()
    | _ => reject 8 "Something went wrong at server - inconsistent RejectStat and reply_data_case in received RPC reply.\n"
  -- no case of the switch is entered, and the status is MSG_DENIED
  | .other _ => reject 9 "Something went wrong at server - inconsistent ReplyStat and reply_case.\n"

def validateReplyVerifier (verifier : Option OpaqueAuth) : Validation Unit :=
  match verifier with
  | none => reject 10 "Something went wrong at server - NULL verifier in received RPC reply.\n"
  | some verifier =>
    match verifier.flavor with
    | .authNone =>
      match verifier.body with
      | .empty (some _) => return ()
      | .empty none =>
        reject 12 "Something went wrong at server - OpaqueAuth flavor is AUTH_NONE, but NULL OpaqueAuth->empty, in received RPC reply.\n"
      | _ => reject 11 "Something went wrong at server - inconsistent OpaqueAuth->flavor and body_case.\n"
    | _ => reject 13 "Something went wrong at server - verifier flavor is %d which is not supported, in received RPC reply.\n"

def validateReplyData (acceptedReply : AcceptedReply) : Validation Unit :=
  let inconsistent (code : Int) : Validation Unit :=
    reject code "Something went wrong at server - inconsistent AcceptStat and reply_data_case in received RPC reply.\n"
  match acceptedReply.stat with
  | .success =>
    match acceptedReply.replyData with
    | .results (some _) => return ()
    | .results none =>
      reject 15 "Something went wrong at server - NULL results in received RPC reply.\n"
    | _ => inconsistent 14
  | .progMismatch =>
    match acceptedReply.replyData with
    | .mismatchInfo (some _) => return ()
    | .mismatchInfo none =>
      reject 17 "Something went wrong at server - NULL mismatch_info in received RPC reply.\n"
    | _ => inconsistent 16
  | _ =>
    match acceptedReply.replyData with
    | .defaultCase (some _) => return ()
    | .defaultCase none =>
      reject 19 "Something went wrong at server - NULL default_case in received RPC reply.\n"
    | _ => inconsistent 18

def validateReplyBody (replyBody : ReplyBody) : Validation Unit :=
  match replyBody.stat, replyBody.reply with
  | .msgDenied, .rreply (some rejectedReply) => validateRejectedReply rejectedReply
  | .msgDenied, .rreply none =>
    reject 5 "Something went wrong at server - NULL rejected_reply in received RPC reply.\n"
  | .msgDenied, _ =>
    reject 4 "Something went wrong at server - inconsistent ReplyStat and reply_case in received RPC reply.\n"
  | .msgAccepted, .areply (some acceptedReply) => do
    validateReplyVerifier acceptedReply.verifier
    validateReplyData acceptedReply
  -- `areply` is not tested
  | .msgAccepted, .areply none => .error .undefinedRead
  | _, _ => reject 9 "Something went wrong at server - inconsistent ReplyStat and reply_case.\n"

def validateRpcReplyStructure (rpcReply : Option RpcMsg) : Validation Unit :=
  match rpcReply with
  | none => reject 1 "Something went wrong at server - NULL rpc_reply in received RPC reply.\n"
  | some rpcReply =>
    match rpcReply.mtype, rpcReply.body with
    | .reply, .rbody (some replyBody) => validateReplyBody replyBody
    | .reply, .rbody none =>
      reject 3 "Something went wrong at server - NULL reply_body in received RPC reply.\n"
    -- receiving a RPC call at client means something went wrong
    | _, _ => reject 2 "Client received an RPC call but it should only be receiving RPC replies.\n"

/-- The status of a reply that has passed `validateRpcReplyStructure`. -/
def validateReplyStatus (replyBody : ReplyBody) : Validation Unit :=
  match replyBody.reply with
  | .rreply (some rejectedReply) =>
    match rejectedReply.stat with
    | .rpcMismatch =>
      reject 2 "Rejected RPC Reply: requested RPC version not supported, min version=%d, max version=%d\n"
    | _ => reject 3 "Rejected RPC Reply: authentication failed with AuthStat %s\n"
  | .areply (some acceptedReply) =>
    match acceptedReply.stat with
    | .success => return ()
    | .progMismatch =>
      reject 4 "Accepted RPC Reply: requested RPC program version not supported, min version=%d, max version=%d\n"
    | _ => reject 5 "Accepted RPC Reply with AcceptStat: %s\n"
  | _ => .error .undefinedRead

def validateSuccessfulAcceptedReply (rpcReply : Option RpcMsg) : Validation Unit :=
  match validateRpcReplyStructure rpcReply, rpcReply with
  | .error (.code _ text), _ => reject 1 text
  | .error .undefinedRead, _ => .error .undefinedRead
  | .ok (), some ⟨_, _, .rbody (some replyBody)⟩ => validateReplyStatus replyBody
  | .ok (), _ => .error .undefinedRead

/-! ## The client stubs -/

/-- `(rpc_reply->rbody)->areply->results`. The pointer is loaded also where another
member of the union is set; it is not used then. -/
def procedureResults : Option RpcMsg → Validation (Option Any)
  | some ⟨_, _, .rbody (some ⟨_, .areply (some acceptedReply)⟩)⟩ =>
    match acceptedReply.replyData with
    | .results results => return results
    | _ => return none
  | _ => .error .undefinedRead

/-- What a stub expects as its results, with its texts. -/
structure Stub (α : Type) where
  resultsType : String
  nullResults : String
  wrongType : String
  notUnpacked : String
  unpack : Bytes → Option α

/-- A stub, from the reply on. -/
def Stub.run (stub : Stub α) (rpcReply : Option RpcMsg) : Validation α := do
  validateSuccessfulAcceptedReply rpcReply
  match ← procedureResults rpcReply with
  | none => reject (-1) stub.nullResults
  | some results =>
    if results.typeUrl ≠ some (bytes stub.resultsType) then reject (-2) stub.wrongType
    else
      match stub.unpack results.value with
      | none => reject (-3) stub.notUnpacked
      | some result => return result

/-- The stubs of the NULL procedures read the results before they look at the
outcome of the validation, and unpack nothing. -/
def doNothing (resultsType nullResults wrongType : String) (rpcReply : Option RpcMsg) :
    Validation Unit := do
  let errorCode := validateSuccessfulAcceptedReply rpcReply
  let results ← procedureResults rpcReply
  errorCode
  match results with
  | none => reject (-1) nullResults
  | some results =>
    if results.typeUrl ≠ some (bytes resultsType) then reject (-2) wrongType else return ()

def mountProcedure0DoNothing : Option RpcMsg → Validation Unit :=
  doNothing "mount/None"
    "This shouldn't happen, 'validated_rpc_reply' checked that procedure_results is not NULL\n"
    "MOUNTPROC_NULL: Expected mount/None but received %s\n"

def nfsProcedure0DoNothing : Option RpcMsg → Validation Unit :=
  doNothing "nfs/None"
    "NFSPROC_NULL: procedure_results is NULL - This shouldn't happen, 'validated_rpc_reply' checked that procedure_results is not NULL\n"
    "NFSPROC_NULL: Expected nfs/None but received %s\n"

variable (pb : Protobuf)

def mountProcedure1AddMountEntry : Stub FhStatus where
  resultsType := "mount/FhStatus"
  nullResults := "MOUNTPROC_MNT: This shouldn't happen, 'validated_rpc_reply' checked that procedure_results is not NULL\n"
  wrongType := "MOUNTPROC_MNT: Expected mount/FhStatus but received %s\n"
  notUnpacked := "MOUNTPROC_MNT: Failed to unpack Mount__FhStatus\n"
  unpack := pb.fhStatus.unpack

/-- The texts of the stubs of the Nfs program. -/
def nfsStub {α : Type} (procedure resultsType message : String) (unpack : Bytes → Option α) :
    Stub α where
  resultsType := resultsType
  nullResults := procedure ++ ": procedure_results is NULL - This shouldn't happen, 'validated_rpc_reply' checked that procedure_results is not NULL\n"
  wrongType := procedure ++ ": Expected " ++ resultsType ++ " but received %s\n"
  notUnpacked := procedure ++ ": Failed to unpack " ++ message ++ "\n"
  unpack := unpack

def nfsProcedure1GetFileAttributes : Stub AttrStat :=
  nfsStub "NFSPROC_GETATTR" "nfs/AttrStat" "Nfs__AttrStat" pb.attrStat.unpack

def nfsProcedure2SetFileAttributes : Stub AttrStat :=
  nfsStub "NFSPROC_SETATTR" "nfs/AttrStat" "Nfs__AttrStat" pb.attrStat.unpack

def nfsProcedure4LookUpFileName : Stub DirOpRes :=
  nfsStub "NFSPROC_LOOKUP" "nfs/DirOpRes" "Nfs__DirOpRes" pb.dirOpRes.unpack

def nfsProcedure5ReadFromSymbolicLink : Stub ReadLinkRes :=
  nfsStub "NFSPROC_READLINK" "nfs/ReadLinkRes" "Nfs__ReadLinkRes" pb.readLinkRes.unpack

def nfsProcedure6ReadFromFile : Stub ReadRes :=
  nfsStub "NFSPROC_READ" "nfs/ReadRes" "Nfs__ReadRes" pb.readRes.unpack

/-- The text for results that cannot be unpacked is the one of READ. -/
def nfsProcedure8WriteToFile : Stub AttrStat :=
  { nfsStub "NFSPROC_WRITE" "nfs/AttrStat" "Nfs__AttrStat" pb.attrStat.unpack with
    notUnpacked := "NFSPROC_READ: Failed to unpack Nfs__AttrStat\n" }

def nfsProcedure9CreateFile : Stub DirOpRes :=
  nfsStub "NFSPROC_CREATE" "nfs/DirOpRes" "Nfs__DirOpRes" pb.dirOpRes.unpack

def nfsProcedure10RemoveFile : Stub NfsStat :=
  nfsStub "NFSPROC_REMOVE" "nfs/NfsStat" "Nfs__NfsStat" pb.nfsStat.unpack

def nfsProcedure11RenameFile : Stub NfsStat :=
  nfsStub "NFSPROC_RENAME" "nfs/NfsStat" "Nfs__NfsStat" pb.nfsStat.unpack

def nfsProcedure12CreateLinkToFile : Stub NfsStat :=
  nfsStub "NFSPROC_LINK" "nfs/NfsStat" "Nfs__NfsStat" pb.nfsStat.unpack

def nfsProcedure13CreateSymbolicLink : Stub NfsStat :=
  nfsStub "NFSPROC_SYMLINK" "nfs/NfsStat" "Nfs__NfsStat" pb.nfsStat.unpack

def nfsProcedure14CreateDirectory : Stub DirOpRes :=
  nfsStub "NFSPROC_MKDIR" "nfs/DirOpRes" "Nfs__DirOpRes" pb.dirOpRes.unpack

def nfsProcedure15RemoveDirectory : Stub NfsStat :=
  nfsStub "NFSPROC_RMDIR" "nfs/NfsStat" "Nfs__NfsStat" pb.nfsStat.unpack

def nfsProcedure16ReadFromDirectory : Stub ReadDirRes :=
  nfsStub "NFSPROC_READDIR" "nfs/ReadDirRes" "Nfs__ReadDirRes" pb.readDirRes.unpack

def nfsProcedure17GetFilesystemAttributes : Stub StatFsRes :=
  nfsStub "NFSPROC_STATFS" "nfs/StatFsRes" "Nfs__StatFsRes" pb.statFsRes.unpack

/-! ## The validators of the results

They print nothing; every failure is error code 1. -/

def invalid : Validation Unit := reject 1 ""

/-- `validate_mount_fhandle` and `validate_nfs_fhandle`. -/
def validateFhandle (fhandle : Option FHandle) : Validation Unit :=
  match fhandle with
  | some ⟨some _⟩ => return ()
  | _ => invalid

def validateMountFhandle := validateFhandle
def validateNfsFhandle := validateFhandle

def validateNfsFattr (fattr : Option FAttrMsg) : Validation Unit :=
  match fattr with
  | none => invalid
  | some fattr =>
    match fattr.nfsFtype, fattr.atime, fattr.mtime, fattr.ctime with
    | some _, some _, some _, some _ => return ()
    | _, _, _, _ => invalid

def validateNfsDirOpOk (diropok : Option DirOpOkMsg) : Validation Unit :=
  match diropok with
  | none => invalid
  | some diropok => do
    validateNfsFhandle diropok.file
    validateNfsFattr diropok.attributes

/-- The length and the pointer of the data have to agree. -/
def validateReadResBody (readresbody : Option ReadResBodyMsg) : Validation Unit :=
  match readresbody with
  | none => invalid
  | some readresbody => do
    validateNfsFattr readresbody.attributes
    if readresbody.nfsdata.len > 0 ∧ readresbody.nfsdata.data = none then invalid
    else if readresbody.nfsdata.len = 0 ∧ readresbody.nfsdata.data ≠ none then invalid
    else return ()

def validateReadLinkData (path : Option MsgPath) : Validation Unit :=
  match path with
  | some ⟨some _⟩ => return ()
  | _ => invalid

def validateEntries : List DirectoryEntryMsg → Validation Unit
  | [] => return ()
  | entry :: entries =>
    match entry.name, entry.cookie with
    | some ⟨some _⟩, some _ => validateEntries entries
    | _, _ => invalid

/-- The argument is not tested. -/
def validateNfsReadDirOk (readdirok : Option ReadDirOkMsg) : Validation Unit :=
  match readdirok with
  | none => .error .undefinedRead
  | some readdirok => validateEntries readdirok.entries

/-- The validators of results with a status differ in the status of success and in
the check of the body. -/
def validateStatusRes {stat : Type} [DecidableEq stat] (ok : stat)
    (validateBody : Option β → Validation Unit) (res : Option (StatusRes stat β)) :
    Validation Unit :=
  match res with
  | none => invalid
  | some res =>
    match res.status with
    | none => invalid
    | some status =>
      if status = ok then
        match res.body with
        | .body body => validateBody body
        | _ => invalid
      else
        match res.body with
        | .defaultCase (some _) => return ()
        | _ => invalid

def validateMountFhStatus : Option FhStatus → Validation Unit :=
  validateStatusRes .mntOk validateMountFhandle

def validateNfsNfsStat (nfsstat : Option NfsStat) : Validation Unit :=
  match nfsstat with
  | none => invalid
  | some _ => return ()

def validateNfsAttrStat : Option AttrStat → Validation Unit :=
  validateStatusRes .nfsOk validateNfsFattr

def validateNfsDirOpRes : Option DirOpRes → Validation Unit :=
  validateStatusRes .nfsOk validateNfsDirOpOk

def validateNfsReadRes : Option ReadRes → Validation Unit :=
  validateStatusRes .nfsOk validateReadResBody

def validateNfsReadLinkRes : Option ReadLinkRes → Validation Unit :=
  validateStatusRes .nfsOk validateReadLinkData

def validateNfsReadDirRes : Option ReadDirRes → Validation Unit :=
  validateStatusRes .nfsOk validateNfsReadDirOk

end QuicNfs.Rpc

import QuicNfs.Rpc.AbsentFields
import QuicNfs.Rpc.ReplyValidation

/-!
# QuicNfs — replies on their way to the client

A reply is packed by the server and unpacked by the client. On the way, default
values are left out: an empty bytes field comes back with a NULL pointer, a string
comes back non-NULL, and a member of a `oneof` that points nowhere is not set.
Submessages stay, also those that pack to no bytes at all.

* `Protobuf.RoundTrips` — what is assumed of the generated code, for messages that fit
  into the types of their members;
* `roundTrips_protobufC` — the formats of `Rpc/Codec.lean` are as assumed;
* `fits_…` — what the server puts into its replies fits;
* `Sends` — what a server function sends, and the rules for it;
* `server_replies_acceptable` — the client accepts whatever the server sends.
-/

namespace QuicNfs.Rpc

open Kernel Server Lib List

variable {α β σ : Type}

/-! ## The wire -/

/-- What fits into the message and has less than 2 GiB when it is packed can be unpacked, up to
the values that are not written. -/
def MessageCodec.RoundTrips (codec : MessageCodec α) (format : Wire.Format α) : Prop :=
  ∀ m, format.Fits m → (codec.pack m).length < 2 ^ 31 →
    codec.unpack (codec.pack m) = some (format.received m)

/-- The generated code for the messages that the server sends. -/
structure Protobuf.RoundTrips (pb : Protobuf) : Prop where
  rpcMsg : pb.rpcMsg.RoundTrips RpcMsg.format
  fhStatus : pb.fhStatus.RoundTrips (StatusRes.format mntStatNumbers fhandleFormat)
  attrStat : pb.attrStat.RoundTrips (StatusRes.format statNumbers FAttrMsg.format)
  dirOpRes : pb.dirOpRes.RoundTrips (StatusRes.format statNumbers DirOpOkMsg.format)
  readLinkRes : pb.readLinkRes.RoundTrips (StatusRes.format statNumbers pathFormat)
  readRes : pb.readRes.RoundTrips (StatusRes.format statNumbers ReadResBodyMsg.format)
  nfsStat : pb.nfsStat.RoundTrips NfsStat.format
  readDirRes : pb.readDirRes.RoundTrips (StatusRes.format statNumbers ReadDirOkMsg.format)
  statFsRes : pb.statFsRes.RoundTrips (StatusRes.format statNumbers fsInfoFormat)

/-- **The generated code round-trips.** -/
theorem roundTrips_protobufC : protobufC.RoundTrips where
  rpcMsg := RpcMsg.format.roundTrip
  fhStatus := (StatusRes.format mntStatNumbers fhandleFormat).roundTrip
  attrStat := (StatusRes.format statNumbers FAttrMsg.format).roundTrip
  dirOpRes := (StatusRes.format statNumbers DirOpOkMsg.format).roundTrip
  readLinkRes := (StatusRes.format statNumbers pathFormat).roundTrip
  readRes := (StatusRes.format statNumbers ReadResBodyMsg.format).roundTrip
  nfsStat := NfsStat.format.roundTrip
  readDirRes := (StatusRes.format statNumbers ReadDirOkMsg.format).roundTrip
  statFsRes := (StatusRes.format statNumbers fsInfoFormat).roundTrip

/-- A message as it arrives. -/
def RpcMsg.received (msg : RpcMsg) : RpcMsg := RpcMsg.format.received msg

/-! ## What the server sends fits -/

/-- Every status has a number. -/
theorem fits_stat (stat : Server.Stat) : statNumbers.Fits stat := by
  cases stat <;> decide

theorem fits_mntStat (stat : MntStat) : mntStatNumbers.Fits stat := by
  cases stat <;> decide

theorem fits_ftype (ftype : FType) : ftypeNumbers.Fits ftype := by
  cases ftype <;> decide

-- a member of 32 or 64 bits holds no more than these
theorem mod32_lt (n : Nat) : n % 2 ^ 32 < 2 ^ 32 := Nat.mod_lt n (by decide)

theorem mod64_lt (n : Nat) : n % 2 ^ 64 < 2 ^ 64 := Nat.mod_lt n (by decide)

theorem fits_timeValMsg (time : MsgTimeVal) : timeValFormat.Fits (timeValMsg time) :=
  ⟨mod64_lt _, mod64_lt _⟩

/-- `get_attributes` fills in members of 32 and 64 bits. -/
theorem fits_fattrMsg (fattr : FAttr) : FAttrMsg.format.Fits (fattrMsg fattr) :=
  ⟨fits_ftype _, mod32_lt _, mod64_lt _, mod32_lt _, mod32_lt _, mod64_lt _, mod64_lt _, mod64_lt _,
    mod64_lt _, mod64_lt _, mod64_lt _, fits_timeValMsg _, fits_timeValMsg _, fits_timeValMsg _⟩

theorem fits_fhandleMsg (handle : NfsFileHandle) : fhandleFormat.Fits (fhandleMsg handle) :=
  ⟨mod64_lt _, mod64_lt _⟩

/-- So it is along the list of entries. -/
theorem fits_readDirOkMsg (ok : ReadDirOk) : ReadDirOkMsg.format.Fits (readDirOkMsg ok) := by
  refine ⟨fun entry hEntry => ?_, trivial⟩
  obtain ⟨e, -, rfl⟩ := mem_map.mp hEntry
  exact ⟨mod64_lt _, trivial, mod64_lt _⟩

theorem fits_fsInfoMsg (info : FsInfo) : fsInfoFormat.Fits (fsInfoMsg info) :=
  ⟨mod32_lt _, mod64_lt _, mod64_lt _, mod64_lt _, mod64_lt _⟩

/-- A reply with a number of its own that fits. -/
theorem fits_reply {xid : Nat} {body : ReplyBody} (hXid : xid < 2 ^ 32)
    (hBody : ReplyBody.format.Fits body) : RpcMsg.format.Fits ⟨xid, .reply, .rbody (some body)⟩ :=
  ⟨hXid, by show MsgType.numbers.Fits .reply; decide, hBody⟩

/-! ## What the client makes of a message -/

variable (pb : Protobuf)

/-- The stub gets results out of the reply, and they pass the validator. -/
def Stub.Accepts (stub : Stub α) (validate : Option α → Validation Unit) (reply : RpcMsg) : Prop :=
  ∃ result, stub.run (some reply) = .ok result ∧ validate (some result) = .ok ()

/-- The stub of a procedure accepts the reply. There is no validator for the results
of STATFS. -/
def StubAccepts (prog proc : Nat) (reply : RpcMsg) : Prop :=
  if prog = MOUNT_RPC_PROGRAM_NUMBER then
    match proc with
    | 0 => mountProcedure0DoNothing (some reply) = .ok ()
    | 1 => (mountProcedure1AddMountEntry pb).Accepts validateMountFhStatus reply
    | _ => False
  else if prog = NFS_RPC_PROGRAM_NUMBER then
    match proc with
    | 0 => nfsProcedure0DoNothing (some reply) = .ok ()
    | 1 => (nfsProcedure1GetFileAttributes pb).Accepts validateNfsAttrStat reply
    | 2 => (nfsProcedure2SetFileAttributes pb).Accepts validateNfsAttrStat reply
    | 4 => (nfsProcedure4LookUpFileName pb).Accepts validateNfsDirOpRes reply
    | 5 => (nfsProcedure5ReadFromSymbolicLink pb).Accepts validateNfsReadLinkRes reply
    | 6 => (nfsProcedure6ReadFromFile pb).Accepts validateNfsReadRes reply
    | 8 => (nfsProcedure8WriteToFile pb).Accepts validateNfsAttrStat reply
    | 9 => (nfsProcedure9CreateFile pb).Accepts validateNfsDirOpRes reply
    | 10 => (nfsProcedure10RemoveFile pb).Accepts validateNfsNfsStat reply
    | 11 => (nfsProcedure11RenameFile pb).Accepts validateNfsNfsStat reply
    | 12 => (nfsProcedure12CreateLinkToFile pb).Accepts validateNfsNfsStat reply
    | 13 => (nfsProcedure13CreateSymbolicLink pb).Accepts validateNfsNfsStat reply
    | 14 => (nfsProcedure14CreateDirectory pb).Accepts validateNfsDirOpRes reply
    | 15 => (nfsProcedure15RemoveDirectory pb).Accepts validateNfsNfsStat reply
    | 16 => (nfsProcedure16ReadFromDirectory pb).Accepts validateNfsReadDirRes reply
    | 17 => (nfsProcedure17GetFilesystemAttributes pb).Accepts (fun _ => .ok ()) reply
    | _ => False
  else False

/-- Accepted with SUCCESS. -/
def RpcMsg.Successful (reply : RpcMsg) : Prop :=
  ∃ accepted stat, reply.body = .rbody (some ⟨stat, .areply (some accepted)⟩) ∧
    accepted.stat = .success

/-- The client can read the message, finds it well formed, and its stub for the
procedure accepts it if it is a success. -/
def Acceptable (call : CallBody) (msg : RpcMsg) : Prop :=
  ∃ reply, pb.rpcMsg.unpack (pb.rpcMsg.pack msg) = some reply ∧
    validateRpcReplyStructure (some reply) = .ok () ∧
    (reply.Successful → StubAccepts pb call.prog call.proc reply)

/-- The bytes of the results that a reply carries. -/
def RpcMsg.results : RpcMsg → Bytes
  | ⟨_, _, .rbody (some ⟨_, .areply (some ⟨_, _, .results (some results)⟩)⟩)⟩ => results.value
  | _ => []

/-- Neither the message nor the results in it have 2 GiB. -/
def Sendable (msg : RpcMsg) : Prop :=
  (pb.rpcMsg.pack msg).length < 2 ^ 31 ∧ msg.results.length < 2 ^ 31

/-- The message is acceptable, if it can be sent at all. -/
def Delivers (call : CallBody) (msg : RpcMsg) : Prop := Sendable pb msg → Acceptable pb call msg

variable {pb}

theorem delivers_of_received (hWire : pb.RoundTrips) {call : CallBody} {msg : RpcMsg}
    (hFits : RpcMsg.format.Fits msg)
    (hValid : validateRpcReplyStructure (some msg.received) = .ok ())
    (hStub : msg.results.length < 2 ^ 31 → msg.received.Successful →
      StubAccepts pb call.prog call.proc msg.received) : Delivers pb call msg :=
  fun ⟨hMsg, hResults⟩ => ⟨msg.received, hWire.rpcMsg msg hFits hMsg, hValid, hStub hResults⟩

/-! ## Accepted replies -/

/-- The message for an accepted reply. -/
def acceptedMsg (xid : Nat) (reply : AcceptedReply) : RpcMsg :=
  ⟨xid, .reply, .rbody (some (acceptedBody reply))⟩

/-- The reply fits into its message, the client finds it well formed, and `accepts` it if it is a
success. -/
structure Pleases (accepts : RpcMsg → Prop) (reply : AcceptedReply) : Prop where
  fits : AcceptedReply.format.Fits reply
  valid : ∀ xid, validateRpcReplyStructure (some (acceptedMsg xid reply).received) = .ok ()
  accepted : ∀ xid, (acceptedMsg xid reply).results.length < 2 ^ 31 →
    (acceptedMsg xid reply).received.Successful → accepts (acceptedMsg xid reply).received

variable {accepts : RpcMsg → Prop}
variable {reply : AcceptedReply} {w w' : World}

/-- Only a reply with SUCCESS has results. -/
theorem not_successful {xid : Nat} (hStat : reply.stat ≠ .success) :
    ¬ (acceptedMsg xid reply).received.Successful := by
  rintro ⟨accepted, stat, hBody, hSuccess⟩
  cases hBody
  exact hStat hSuccess

theorem fits_createAuthNoneOpaqueAuth : OpaqueAuth.format.Fits createAuthNoneOpaqueAuth :=
  ⟨by show AuthFlavor.numbers.Fits .authNone; decide, trivial⟩

/-- A status without data pleases whatever client. -/
theorem pleases_defaultReply {stat : AcceptStat} (hFits : AcceptStat.numbers.Fits stat)
    (hSuccess : stat ≠ .success) (hMismatch : stat ≠ .progMismatch) :
    Pleases accepts (defaultReply stat) := by
  refine ⟨⟨fits_createAuthNoneOpaqueAuth, hFits, trivial⟩, fun xid => ?_,
    fun _ _ h => absurd h (not_successful hSuccess)⟩
  cases stat with
  | success | progMismatch => contradiction
  | progUnavail | procUnavail | garbageArgs | systemErr | other => rfl

theorem pleases_garbageArgs : Pleases accepts (defaultReply .garbageArgs) :=
  pleases_defaultReply (by decide) (by decide) (by decide)

theorem pleases_systemErr : Pleases accepts (defaultReply .systemErr) :=
  pleases_defaultReply (by decide) (by decide) (by decide)

theorem pleases_progMismatch (low high : Nat) :
    Pleases accepts (createProgMismatchAcceptedReply low high) :=
  ⟨⟨fits_createAuthNoneOpaqueAuth, by show AcceptStat.numbers.Fits .progMismatch; decide,
    (by decide : 2 < 2 ^ 32), (by decide : 2 < 2 ^ 32)⟩, fun _ => rfl,
    fun _ _ h => absurd h (not_successful fun hStat => by cases hStat)⟩

theorem fits_success {results resultsType : Bytes} :
    AcceptedReply.format.Fits (wrapProcedureResultsInSuccessfulAcceptedReply results resultsType) :=
  ⟨fits_createAuthNoneOpaqueAuth, by show AcceptStat.numbers.Fits .success; decide, trivial, trivial⟩

/-- The wire leaves the type and the bytes of the results as they are. -/
theorem received_success (xid : Nat) (results resultsType : Bytes) :
    (acceptedMsg xid (wrapProcedureResultsInSuccessfulAcceptedReply results resultsType)).received =
      acceptedMsg xid (wrapProcedureResultsInSuccessfulAcceptedReply results resultsType) :=
  rfl

/-- A stub accepts the results it expects, if the validator does. -/
theorem pleases_results {stub : Stub α} {validate : Option α → Validation Unit}
    {codec : MessageCodec α} {format : Wire.Format α} (hUnpack : stub.unpack = codec.unpack)
    (hWire : codec.RoundTrips format) {res : α} (hFits : format.Fits res)
    (hValid : validate (some (format.received res)) = .ok ()) :
    Pleases (stub.Accepts validate)
      (wrapProcedureResultsInSuccessfulAcceptedReply (codec.pack res) (bytes stub.resultsType)) := by
  refine ⟨fits_success, fun _ => rfl, fun xid hSize _ => ⟨format.received res, ?_, hValid⟩⟩
  have hResults : stub.unpack (codec.pack res) = some (format.received res) := by
    rw [hUnpack]
    exact hWire res hFits hSize
  rw [received_success]
  show (if some (bytes stub.resultsType) ≠ some (bytes stub.resultsType) then _ else _) = _
  rw [if_neg (not_not.mpr rfl), hResults]
  rfl

/-- Results with a status please their stub: the default case has a status other than
that of success, the body belongs to that. -/
theorem pleases_statusReply {stat γ : Type} {ok : stat}
    {createDefault : stat → Option (StatusRes stat γ)} {okBody : β → γ}
    {codec : MessageCodec (StatusRes stat γ)} {numbers : Wire.Enumeration stat}
    {body : Wire.Format γ} {stub : Stub (StatusRes stat γ)}
    {validate : Option (StatusRes stat γ) → Validation Unit} {r : Reply stat β}
    {resultsType : String}
    (hReply : statusReply ok createDefault okBody codec.pack resultsType r = some reply)
    (hHonest : r ≠ .err ok) (hType : stub.resultsType = resultsType)
    (hUnpack : stub.unpack = codec.unpack) (hWire : codec.RoundTrips (StatusRes.format numbers body))
    (hStat : ∀ s, numbers.Fits s) (hBody : ∀ b, body.Fits (okBody b))
    (hDefault : ∀ s res, createDefault s = some res → res = ⟨some s, .defaultCase (some ())⟩)
    (hErr : ∀ s, s ≠ ok → validate (some ⟨some s, .defaultCase (some ())⟩) = .ok ())
    (hOk : ∀ b, validate (some ⟨some ok, .body (some (body.received (okBody b)))⟩) = .ok ()) :
    Pleases (stub.Accepts validate) reply := by
  subst hType
  cases r with
  | garbageArgs =>
    cases hReply
    exact pleases_garbageArgs
  | systemErr =>
    cases hReply
    exact pleases_systemErr
  | ok b =>
    cases hReply
    exact pleases_results hUnpack hWire ⟨hStat ok, hBody b⟩ (hOk b)
  | err s =>
    obtain ⟨res, hRes, rfl⟩ := Option.map_eq_some_iff.mp hReply
    cases hDefault s res hRes
    -- an honest procedure does not report success as an error
    refine pleases_results hUnpack hWire ⟨hStat s, trivial⟩ (hErr s ?_)
    rintro rfl
    exact hHonest rfl

/-- A default case has the status and nothing else. -/
theorem createDefaultCase_eq {s : Server.Stat} {res : StatusRes Server.Stat β}
    (h : createDefaultCase s = some res) : res = ⟨some s, .defaultCase (some ())⟩ := by
  unfold createDefaultCase at h
  split at h
  · cases h
  · exact (Option.some.inj h).symm

theorem validateStatusRes_err {stat : Type} [DecidableEq stat] {ok s : stat} (hs : s ≠ ok)
    (validateBody : Option β → Validation Unit) :
    validateStatusRes ok validateBody (some ⟨some s, .defaultCase (some ())⟩) = .ok () := by
  simp [validateStatusRes, hs]
  rfl

/-- The entries that the server lists have names and cookies. -/
theorem validateEntries_ok (entries : List DirectoryEntry) :
    validateEntries ((entries.map directoryEntryMsg).map DirectoryEntryMsg.fields.received) =
      .ok () := by
  induction entries with
  | nil => rfl
  | cons e entries ih => exact ih

/-- What was read passes as it arrives: without bytes there is no pointer. -/
theorem validateReadResBody_ok (body : ReadResBody) :
    validateReadResBody (some (ReadResBodyMsg.format.received (readResBodyMsg body))) = .ok () := by
  obtain ⟨attributes, nfsdata⟩ := body
  cases nfsdata with
  | nil | cons => rfl

/-! ## Procedures -/

/-- The results are of the type that the procedure of the request has. -/
def Fits (answer : Answer) : Request → Prop
  | .mnt _ => ∃ r, answer = .fhStatus r
  | .getattr _ | .setattr _ | .write _ => ∃ r, answer = .attrStat r
  | .lookup _ | .create _ | .mkdir _ => ∃ r, answer = .dirOpRes r
  | .readlink _ => ∃ r, answer = .readLinkRes r
  | .read _ => ∃ r, answer = .readRes r
  | .remove _ | .rename _ | .link _ | .symlink _ | .rmdir _ => ∃ r, answer = .nfsStat r
  | .readdir _ => ∃ r, answer = .readDirRes r
  | .statfs _ => ∃ r, answer = .statFsRes r

/-- A request gets the answer of its procedure. -/
theorem returns_fits (cred : Credential) (r : Request) :
    (serve cred r).Returns (Fits · r) := by
  cases r <;> exact Prog.returns_bind_any fun r => ⟨r, rfl⟩

variable {cred : Option OpaqueAuth}

/-- The reply of a procedure, if it gets that far: GARBAGE_ARGS, or results of its type. -/
theorem pleases_serveProcedure {γ : Type} {toAnswer : γ → Answer} {head : Head α}
    {request : α → Request} {parameters : Option Any}
    (hReply : (serveProcedure pb head request cred parameters).run w = (some reply, w'))
    (hFits : ∀ args answer, Fits answer (request args) → ∃ r, answer = toAnswer r)
    (hAnswer : ∀ r, (toAnswer r).Honest → acceptedReplyOf pb (toAnswer r) = some reply →
      Pleases accepts reply) : Pleases accepts reply := by
  unfold serveProcedure at hReply
  split at hReply
  · cases hReply
  · cases hReply
    exact pleases_garbageArgs
  · next cred args _ =>
    rw [Prog.run_bind] at hReply
    obtain ⟨r, hr⟩ := hFits args _ ((returns_fits cred (request args)).run w)
    have hHonest := (returns_serve cred (request args)).run w
    have hResults := congrArg Prod.fst hReply
    rw [hr] at hHonest hResults
    exact hAnswer r hHonest hResults

/-! ## Each type of results -/

/-- Results of a procedure of the NFS program that have a status. -/
theorem pleases_nfsRes {γ : Type} {okBody : β → γ} {codec : MessageCodec (StatusRes Server.Stat γ)}
    {body : Wire.Format γ} {stub : Stub (StatusRes Server.Stat γ)}
    {validateBody : Option γ → Validation Unit} {r : NfsReply β} {resultsType : String}
    (hReply : statusReply .nfsOk createDefaultCase okBody codec.pack resultsType r = some reply)
    (hHonest : r.Honest) (hType : stub.resultsType = resultsType)
    (hUnpack : stub.unpack = codec.unpack)
    (hWire : codec.RoundTrips (StatusRes.format statNumbers body))
    (hBody : ∀ b, body.Fits (okBody b))
    (hOk : ∀ b, validateBody (some (body.received (okBody b))) = .ok ()) :
    Pleases (stub.Accepts (validateStatusRes .nfsOk validateBody)) reply :=
  pleases_statusReply hReply hHonest hType hUnpack hWire fits_stat hBody
    (fun _ _ => createDefaultCase_eq) (fun _ hs => validateStatusRes_err hs _) hOk

section Types

variable (hWire : pb.RoundTrips)
include hWire

theorem pleases_attrStat {stub : Stub AttrStat} (hType : stub.resultsType = "nfs/AttrStat")
    (hUnpack : stub.unpack = pb.attrStat.unpack) (r : NfsReply FAttr)
    (hHonest : (Answer.attrStat r).Honest)
    (hReply : acceptedReplyOf pb (.attrStat r) = some reply) :
    Pleases (stub.Accepts validateNfsAttrStat) reply :=
  pleases_nfsRes hReply hHonest hType hUnpack hWire.attrStat fits_fattrMsg fun _ => rfl

theorem pleases_dirOpRes {stub : Stub DirOpRes} (hType : stub.resultsType = "nfs/DirOpRes")
    (hUnpack : stub.unpack = pb.dirOpRes.unpack) (r : NfsReply DirOpOk)
    (hHonest : (Answer.dirOpRes r).Honest)
    (hReply : acceptedReplyOf pb (.dirOpRes r) = some reply) :
    Pleases (stub.Accepts validateNfsDirOpRes) reply :=
  pleases_nfsRes hReply hHonest hType hUnpack hWire.dirOpRes
    (fun _ => ⟨fits_fhandleMsg _, fits_fattrMsg _⟩) fun _ => rfl

theorem pleases_nfsStat {stub : Stub NfsStat} (hType : stub.resultsType = "nfs/NfsStat")
    (hUnpack : stub.unpack = pb.nfsStat.unpack) (r : NfsReply Unit)
    (hReply : acceptedReplyOf pb (.nfsStat r) = some reply) :
    Pleases (stub.Accepts validateNfsNfsStat) reply := by
  have hResults : ∀ stat, Pleases (stub.Accepts validateNfsNfsStat)
      (wrapProcedureResultsInSuccessfulAcceptedReply (pb.nfsStat.pack (createNfsStat stat))
        (bytes "nfs/NfsStat")) := by
    intro stat
    rw [← hType]
    exact pleases_results hUnpack hWire.nfsStat (fits_stat stat) rfl
  cases r with
  | garbageArgs =>
    cases hReply
    exact pleases_garbageArgs
  | systemErr =>
    cases hReply
    exact pleases_systemErr
  | err stat =>
    cases hReply
    exact hResults stat
  | ok _ =>
    cases hReply
    exact hResults .nfsOk

/-- Mount program: MNT and NULL. -/
theorem pleases_callMount {proc : Nat} {params : Option Any}
    (hReply : (callMount pb cred 2 proc params).run w = (some reply, w')) :
    Pleases (StubAccepts pb MOUNT_RPC_PROGRAM_NUMBER proc) reply := by
  unfold callMount at hReply
  rw [if_neg (not_not.mpr rfl)] at hReply
  split at hReply
  · cases hReply
    exact ⟨fits_success, fun _ => rfl, fun _ _ _ => rfl⟩
  · exact pleases_serveProcedure hReply (fun _ _ => id) fun r hHonest hReply =>
      pleases_statusReply hReply hHonest rfl rfl hWire.fhStatus fits_mntStat fits_fhandleMsg
        (fun _ _ hRes => (Option.some.inj hRes).symm) (fun _ hs => validateStatusRes_err hs _)
        fun _ => rfl
  · cases hReply
    exact pleases_defaultReply (by decide) (by decide) (by decide)

/-- Nfs program: every procedure, each with a stub of its own. -/
theorem pleases_callNfs {proc : Nat} {params : Option Any}
    (hReply : (callNfs pb cred 2 proc params).run w = (some reply, w')) :
    Pleases (StubAccepts pb NFS_RPC_PROGRAM_NUMBER proc) reply := by
  unfold callNfs at hReply
  rw [if_neg (not_not.mpr rfl)] at hReply
  split at hReply
  case h_1 =>
    cases hReply
    exact ⟨fits_success, fun _ => rfl, fun _ _ _ => rfl⟩
  case h_16 =>
    show Pleases ((nfsProcedure17GetFilesystemAttributes pb).Accepts fun _ => .ok ()) reply
    exact pleases_serveProcedure hReply (fun _ _ => id) fun r hHonest hReply =>
      pleases_statusReply hReply hHonest rfl rfl hWire.statFsRes fits_stat fits_fsInfoMsg
        (fun _ _ => createDefaultCase_eq) (fun _ _ => rfl) fun _ => rfl
  -- there is no such procedure
  case h_17 =>
    cases hReply
    exact pleases_defaultReply (by decide) (by decide) (by decide)
  all_goals refine pleases_serveProcedure hReply (fun _ _ => id) ?_
  · exact pleases_attrStat hWire rfl rfl
  · exact pleases_attrStat hWire rfl rfl
  · exact pleases_dirOpRes hWire rfl rfl
  · exact fun r hHonest hReply =>
      pleases_nfsRes hReply hHonest rfl rfl hWire.readLinkRes (fun _ => trivial) fun _ => rfl
  · exact fun r hHonest hReply =>
      pleases_nfsRes hReply hHonest rfl rfl hWire.readRes (fun _ => ⟨fits_fattrMsg _, rfl⟩)
        validateReadResBody_ok
  · exact pleases_attrStat hWire rfl rfl
  · exact pleases_dirOpRes hWire rfl rfl
  · exact fun r _ => pleases_nfsStat hWire rfl rfl r
  · exact fun r _ => pleases_nfsStat hWire rfl rfl r
  · exact fun r _ => pleases_nfsStat hWire rfl rfl r
  · exact fun r _ => pleases_nfsStat hWire rfl rfl r
  · exact pleases_dirOpRes hWire rfl rfl
  · exact fun r _ => pleases_nfsStat hWire rfl rfl r
  · exact fun r hHonest hReply =>
      pleases_nfsRes hReply hHonest rfl rfl hWire.readDirRes fits_readDirOkMsg
        fun b => validateEntries_ok b.entries

/-- Whatever the program answers to a call pleases the stub that made it. -/
theorem pleases_forwardToProgram (call : CallBody)
    (hReply : (forwardToProgram pb call.forwardedCall).run w = (some reply, w')) :
    Pleases (StubAccepts pb call.prog call.proc) reply := by
  by_cases hProg : programKnown call.prog
  · by_cases hVers : call.vers = 2
    · obtain ⟨rpcvers, prog, vers, proc, cred, verifier, params⟩ := call
      obtain rfl : vers = 2 := hVers
      obtain rfl | rfl := hProg
      · exact pleases_callMount hWire hReply
      · exact pleases_callNfs hWire hReply
    · rw [forwardToProgram_version pb hProg hVers] at hReply
      cases hReply
      exact pleases_progMismatch 2 2
  · rw [forwardToProgram_unknown pb hProg] at hReply
    cases hReply
    exact pleases_defaultReply (by decide) (by decide) (by decide)

end Types

/-! ## Everything that is sent -/

/-- Whatever state it starts from, with a number of 32 bits for the next message, the function
sends only messages that meet `P`, and its answer meets `Q`. -/
def Sends (P : RpcMsg → Prop) (Q : α → Prop) (m : Serve σ α) : Prop :=
  ∀ s, s.xid < 2 ^ 32 → (∃ new, (m.run s).2.sent = s.sent ++ new ∧ ∀ x ∈ new, P x.2) ∧
    (m.run s).2.xid < 2 ^ 32 ∧ Q (m.run s).1

namespace Sends

variable {P : RpcMsg → Prop} {Q : α → Prop} {R : β → Prop}

theorem pure {a : α} (h : Q a) : Sends P Q (pure a : Serve σ α) :=
  fun s hXid => ⟨⟨[], (append_nil s.sent).symm, by simp⟩, hXid, h⟩

/-- What is sent first has to be right, and what is sent then. -/
theorem bind {m : Serve σ α} {f : α → Serve σ β} (hm : Sends P Q m)
    (hf : ∀ a, Q a → Sends P R (f a)) : Sends P R (m >>= f) := by
  intro s hXid
  obtain ⟨⟨new, hNew, hP⟩, hXid', hQ⟩ := hm s hXid
  obtain ⟨⟨new', hNew', hP'⟩, hR⟩ := hf _ hQ (m.run s).2 hXid'
  refine ⟨⟨new ++ new', ?_, ?_⟩, hR⟩
  · show ((f (m.run s).1).run (m.run s).2).2.sent = _
    rw [hNew', hNew, append_assoc]
  · intro x hx
    exact (mem_append.mp hx).elim (hP x) (hP' x)

theorem fprintf (text : String) : Sends P (fun _ => True) (fprintf text : Serve σ Unit) :=
  fun s hXid => ⟨⟨[], (append_nil s.sent).symm, by simp⟩, hXid, trivial⟩

theorem sendRpcReplyBody (env : Services σ) (client : Client) {body : ReplyBody}
    (h : ∀ xid, xid < 2 ^ 32 → P ⟨xid, .reply, .rbody (some body)⟩) :
    Sends P (fun _ => True) (sendRpcReplyBody env client body) :=
  fun s hXid => ⟨⟨[(client, ⟨s.xid, .reply, .rbody (some body)⟩)], rfl, by simpa using h s.xid hXid⟩,
    Nat.mod_lt _ (by decide), trivial⟩

end Sends

section Gate

variable (hWire : pb.RoundTrips) (env : Services σ) (client : Client) (call : CallBody)
include hWire

/-- A rejection is never a success. -/
theorem delivers_denied {reply : RejectedReply} (hFits : RejectedReply.format.Fits reply)
    (hReply : (∃ low high, reply = createRpcMismatchRejectedReply low high) ∨
      ∃ stat, reply = createAuthErrorRejectedReply stat) (xid : Nat) (hXid : xid < 2 ^ 32) :
    Delivers pb call ⟨xid, .reply, .rbody (some (deniedBody reply))⟩ := by
  have hBody : ReplyBody.format.Fits (deniedBody reply) :=
    ⟨by show ReplyStat.numbers.Fits .msgDenied; decide, hFits⟩
  have hMsg := fits_reply hXid hBody
  obtain ⟨low, high, rfl⟩ | ⟨stat, rfl⟩ := hReply
  · refine delivers_of_received hWire hMsg rfl ?_
    rintro - ⟨accepted, stat, hBody, -⟩
    cases hBody
  · refine delivers_of_received hWire hMsg rfl ?_
    rintro - ⟨accepted, stat, hBody, -⟩
    cases hBody

/-- A reply that denies the call is taken for one. -/
theorem sends_sendAuthErrorRejectedReply (errorMsg : String) {authStat : AuthStat}
    (hStat : AuthStat.numbers.Fits authStat) :
    Sends (Delivers pb call) (fun _ => True)
      (sendAuthErrorRejectedReply env client errorMsg authStat) := by
  have hFits : RejectedReply.format.Fits (createAuthErrorRejectedReply authStat) :=
    ⟨by show RejectStat.numbers.Fits .authError; decide, hStat⟩
  refine (Sends.fprintf _).bind fun _ _ => (Sends.sendRpcReplyBody env client
    (delivers_denied hWire call hFits (.inr ⟨authStat, rfl⟩))).bind fun errorCode _ => ?_
  split
  · exact (Sends.fprintf _).bind fun _ _ => .pure trivial
  · exact .pure trivial

theorem sends_rejectAuth {authStat : AuthStat} (hStat : AuthStat.numbers.Fits authStat)
    (errorMsg : String) :
    Sends (Delivers pb call) (fun _ => True) (rejectAuth env client authStat errorMsg) :=
  (sends_sendAuthErrorRejectedReply hWire env client call _ hStat).bind fun _ _ => .pure trivial

/-- The checks send one rejection, or nothing. -/
theorem sends_validateCredentialAndVerifier (cred verifier : Option OpaqueAuth) :
    Sends (Delivers pb call) (fun _ => True)
      (validateCredentialAndVerifier env client cred verifier) := by
  by_cases hCredential : ValidCredential cred
  · rw [validateCredentialAndVerifier_of_valid env hCredential]
    by_cases hVerifier : ValidVerifier verifier
    · rw [validateVerifier_of_valid env hVerifier]
      exact .pure trivial
    · obtain ⟨text, hText⟩ := validateVerifier_of_not_valid env hVerifier
      rw [hText]
      exact sends_rejectAuth hWire env client call (by decide) text
  · obtain ⟨text, hText⟩ := validateCredentialAndVerifier_of_not_valid env hCredential verifier
    rw [hText]
    exact sends_rejectAuth hWire env client call (by decide) text

/-- Every message that is sent for a call is acceptable. -/
theorem sends_processCallBody (sendRmRecord : Nat → Nat) :
    Sends (Delivers pb call) (fun _ => True)
      (processCallBody (services pb sendRmRecord) client call) := by
  unfold processCallBody
  split
  -- another RPC version: rejected with the versions the server has
  · have hFits : RejectedReply.format.Fits (createRpcMismatchRejectedReply 2 2) :=
      ⟨by show RejectStat.numbers.Fits .rpcMismatch; decide, (by decide : 2 < 2 ^ 32),
        (by decide : 2 < 2 ^ 32)⟩
    refine (Sends.fprintf _).bind fun _ _ => (Sends.sendRpcReplyBody _ client
      (delivers_denied hWire call hFits (.inl ⟨2, 2, rfl⟩))).bind fun errorCode _ => ?_
    split
    · exact (Sends.fprintf _).bind fun _ _ => .pure trivial
    · exact .pure trivial
  · refine (sends_validateCredentialAndVerifier hWire _ client call _ _).bind fun errorCode _ => ?_
    split
    · exact .pure trivial
    · split
      · exact (sends_sendAuthErrorRejectedReply hWire _ client call _ (by decide)).bind
          fun _ _ => .pure trivial
      · have hForward : Sends (Delivers pb call)
            (fun r => ∀ reply, r = some reply → Pleases (StubAccepts pb call.prog call.proc) reply)
            (forwardRpcCallToProgram (services pb sendRmRecord) call.forwardedCall) := by
          intro s hXid
          refine ⟨⟨[], (append_nil s.sent).symm, by simp⟩, hXid, fun reply hReply => ?_⟩
          exact pleases_forwardToProgram hWire call (Prod.ext hReply rfl)
        -- no reply is sent if the process has died
        refine hForward.bind fun r hr => ?_
        cases r with
        | none => exact .pure trivial
        | some reply =>
          have hReply := hr reply rfl
          have hBody : ReplyBody.format.Fits (acceptedBody reply) :=
            ⟨by show ReplyStat.numbers.Fits .msgAccepted; decide, hReply.fits⟩
          refine (Sends.sendRpcReplyBody _ client fun xid hXid => delivers_of_received hWire
            (fits_reply hXid hBody) (hReply.valid xid) (hReply.accepted xid)).bind
              fun errorCode _ => ?_
          split
          · exact (Sends.fprintf _).bind fun _ _ => .pure trivial
          · exact .pure trivial

end Gate

end QuicNfs.Rpc

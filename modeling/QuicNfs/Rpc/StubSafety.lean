import QuicNfs.Rpc.AbsentFields
import QuicNfs.Rpc.ReplyValidation

/-!
# QuicNfs — the client stubs, pointer by pointer

The validators of `client_common_rpc.c` and the ends of the stubs in `nfs_client.c` and
`mount_client.c` once more, now with every pointer that is followed and every member of a
union that is loaded. A read is amiss if the pointer is NULL or another member of the union
is set; a function that makes such a read has no result here, and one that does not returns
its error code.

* `Pointers.validateRpcReplyStructure`, `Pointers.validateSuccessfulAcceptedReply` — the
  validators; `validateSuccessfulAcceptedReply_code` says that they are those of
  `ReplyValidation`;
* `Pointers.unpackingStub`, `Pointers.doNothing` — the two kinds of stubs;
* `stub_safe_iff` — on every reply, all stubs but those of the NULL procedures make no read
  amiss, and return 0 exactly for the replies that they should accept. The stubs of the NULL
  procedures read the results before they look at the outcome of the validation.
-/

namespace QuicNfs.Rpc

open Kernel Server

/-- The value that the function returns, if it does. -/
def Validation.returned {α : Type} : Validation α → Option Int
  | .ok _ => some 0
  | .error (.code code _) => some code
  | .error .undefinedRead => none

namespace Pointers

/-! ## The members of the unions

`none` where another member is set, so that `isSome` is the test of the case. -/

def rbody : RpcMsgBody → Option (Option ReplyBody)
  | .rbody reply => some reply
  | _ => none

def areply : ReplyBodyReply → Option (Option AcceptedReply)
  | .areply reply => some reply
  | _ => none

def rreply : ReplyBodyReply → Option (Option RejectedReply)
  | .rreply reply => some reply
  | _ => none

def empty : OpaqueAuthBody → Option (Option Unit)
  | .empty empty => some empty
  | _ => none

def results : AcceptedReplyData → Option (Option Any)
  | .results results => some results
  | _ => none

def acceptedMismatchInfo : AcceptedReplyData → Option (Option MismatchInfo)
  | .mismatchInfo info => some info
  | _ => none

def defaultCase : AcceptedReplyData → Option (Option Unit)
  | .defaultCase empty => some empty
  | _ => none

def rejectedMismatchInfo : RejectedReplyData → Option (Option MismatchInfo)
  | .mismatchInfo info => some info
  | _ => none

def authStat : RejectedReplyData → Option AuthStat
  | .authStat stat => some stat
  | _ => none

/-! ## The validators -/

/-- A member that has to be set, `code` if it is not, and not NULL, `code + 1` if it is. -/
def testMember {α : Type} (code : Int) (member : Option (Option α)) : Option Int :=
  if member.isNone then some code
  else do
    match ← member with
    | none => some (code + 1)
    | some _ => some 0

/-- The last switch of `validate_rpc_reply_structure`. -/
def validateReplyData (acceptedReply : AcceptedReply) : Option Int :=
  match acceptedReply.stat with
  | .success => testMember 14 (results acceptedReply.replyData)
  | .progMismatch => testMember 16 (acceptedMismatchInfo acceptedReply.replyData)
  | _ => testMember 18 (defaultCase acceptedReply.replyData)

def validateReplyVerifier (acceptedReply : AcceptedReply) : Option Int :=
  match acceptedReply.verifier with
  | none => some 10
  | some verifier =>
    if verifier.flavor = .authNone then do
      let errorCode ← testMember 11 (empty verifier.body)
      if errorCode > 0 then some errorCode else validateReplyData acceptedReply
    else some 13

/-- The part for accepted replies. -/
def validateAcceptedReply (replyBody : ReplyBody) : Option Int :=
  if replyBody.stat ≠ .msgAccepted ∨ (areply replyBody.reply).isNone then some 9
  else do
    -- `accepted_reply` is followed without a test
    let acceptedReply ← (← areply replyBody.reply)
    validateReplyVerifier acceptedReply

def validateRejectedReply (replyBody : ReplyBody) (rejectedReply : RejectedReply) : Option Int :=
  match rejectedReply.stat with
  | .rpcMismatch => testMember 6 (rejectedMismatchInfo rejectedReply.replyData)
  | .authError => if (authStat rejectedReply.replyData).isNone then some 8 else some 0
  -- the switch has no other case, and what follows is for accepted replies
  | .other _ => validateAcceptedReply replyBody

def validateReplyBody (replyBody : ReplyBody) : Option Int :=
  if replyBody.stat = .msgDenied then
    if (rreply replyBody.reply).isNone then some 4
    else do
      match ← rreply replyBody.reply with
      | none => some 5
      | some rejectedReply => validateRejectedReply replyBody rejectedReply
  else validateAcceptedReply replyBody

def validateRpcReplyStructure (rpcReply : Option RpcMsg) : Option Int :=
  match rpcReply with
  | none => some 1
  | some rpcReply =>
    if rpcReply.mtype ≠ .reply ∨ (rbody rpcReply.body).isNone then some 2
    else do
      match ← rbody rpcReply.body with
      | none => some 3
      | some replyBody => validateReplyBody replyBody

/-- The status of an accepted reply. -/
def acceptedStatus (replyBody : ReplyBody) : Option Int := do
  let acceptedReply ← (← areply replyBody.reply)
  match acceptedReply.stat with
  | .success => some 0
  | .progMismatch => do
    -- the versions are printed
    let _ ← (← acceptedMismatchInfo acceptedReply.replyData)
    some 4
  | _ => some 5

def replyStatus (replyBody : ReplyBody) : Option Int :=
  if replyBody.stat = .msgDenied then do
    let rejectedReply ← (← rreply replyBody.reply)
    match rejectedReply.stat with
    | .rpcMismatch => do
      let _ ← (← rejectedMismatchInfo rejectedReply.replyData)
      some 2
    | .authError => do
      let _ ← authStat rejectedReply.replyData
      some 3
    | .other _ => acceptedStatus replyBody
  else acceptedStatus replyBody

def validateSuccessfulAcceptedReply (rpcReply : Option RpcMsg) : Option Int := do
  let errorCode ← validateRpcReplyStructure rpcReply
  if errorCode > 0 then some 1
  else do
    let reply ← rpcReply
    let replyBody ← (← rbody reply.body)
    replyStatus replyBody

/-! ## The stubs -/

/-- `(rpc_reply->rbody)->areply->results`. -/
def procedureResults (rpcReply : Option RpcMsg) : Option (Option Any) := do
  let reply ← rpcReply
  let replyBody ← (← rbody reply.body)
  let acceptedReply ← (← areply replyBody.reply)
  results acceptedReply.replyData

/-- A stub that unpacks its results. -/
def unpackingStub {α : Type} (stub : Stub α) (rpcReply : Option RpcMsg) : Option Int := do
  let errorCode ← validateSuccessfulAcceptedReply rpcReply
  if errorCode > 0 then some errorCode
  else do
    match ← procedureResults rpcReply with
    | none => some (-1)
    | some results =>
      if results.typeUrl ≠ some (bytes stub.resultsType) then some (-2)
      else if (stub.unpack results.value).isNone then some (-3)
      else some 0

/-- The stub of a NULL procedure. -/
def doNothing (resultsType : String) (rpcReply : Option RpcMsg) : Option Int := do
  let errorCode ← validateSuccessfulAcceptedReply rpcReply
  let procedureResults ← procedureResults rpcReply
  if errorCode > 0 then some errorCode
  else
    match procedureResults with
    | none => some (-1)
    | some results =>
      if results.typeUrl ≠ some (bytes resultsType) then some (-2) else some 0

end Pointers

/-! ## The validators are those of the replies -/

/-- The pointers are looked at as the model of the messages says. -/
theorem validateReplyData_code (a : AcceptedReply) :
    Pointers.validateReplyData a = (validateReplyData a).returned := by
  obtain ⟨verifier, stat, data⟩ := a
  cases stat <;> rcases data with _ | (_ | _) | (_ | _) | (_ | _) <;> rfl

theorem validateReplyVerifier_code (a : AcceptedReply) :
    Pointers.validateReplyVerifier a =
      (do validateReplyVerifier a.verifier; validateReplyData a : Validation Unit).returned := by
  obtain ⟨verifier, stat, data⟩ := a
  rcases verifier with _ | ⟨flavor, body⟩
  · rfl
  · cases flavor with
    | authNone =>
      rcases body with _ | (_ | _) | (_ | _)
      · rfl
      · rfl
      · exact validateReplyData_code _
      · rfl
      · rfl
    | authSys | authShort | authDh | rpcsecGss | other => rfl

theorem validateReplyBody_code (replyBody : ReplyBody) :
    Pointers.validateReplyBody replyBody = (validateReplyBody replyBody).returned := by
  obtain ⟨stat, reply⟩ := replyBody
  cases stat with
  | msgDenied =>
    rcases reply with _ | (_ | _) | (_ | ⟨stat, data⟩)
    · rfl
    · rfl
    · rfl
    · rfl
    · cases stat <;> rcases data with _ | (_ | _) | _ <;> rfl
  | msgAccepted =>
    rcases reply with _ | (_ | a) | (_ | _)
    · rfl
    · rfl
    · exact validateReplyVerifier_code a
    · rfl
    · rfl
  | other => rcases reply with _ | (_ | _) | (_ | _) <;> rfl

theorem validateRpcReplyStructure_code (rpcReply : Option RpcMsg) :
    Pointers.validateRpcReplyStructure rpcReply = (validateRpcReplyStructure rpcReply).returned := by
  rcases rpcReply with _ | ⟨xid, mtype, body⟩
  · rfl
  · cases mtype with
    | reply =>
      rcases body with _ | _ | (_ | replyBody)
      · rfl
      · rfl
      · rfl
      · exact validateReplyBody_code replyBody
    | call | other => rcases body with _ | _ | (_ | _) <;> rfl

/-- The codes of the validator are positive. -/
def Positive (v : Validation Unit) : Prop := ∀ code text, v = .error (.code code text) → 0 < code

theorem positive_ok : Positive (.ok ()) := by
  intro code text h
  cases h

theorem positive_undefinedRead : Positive (.error .undefinedRead) := by
  intro code text h
  cases h

variable {code : Int}

/-- A rejection has a positive code. -/
theorem positive_reject (hCode : 0 < code) (text : String) : Positive (reject code text) := by
  intro code' text' h
  cases h
  exact hCode

/-- So has the first of two checks that fails. -/
theorem Positive.andThen {v v' : Validation Unit} (h : Positive v) (h' : Positive v') :
    Positive (do v; v') := by
  cases v with
  | ok => exact h'
  | error fault => exact h

theorem positive_validateReplyData (a : AcceptedReply) : Positive (validateReplyData a) := by
  unfold validateReplyData
  dsimp only
  repeat' split
  all_goals first | exact positive_ok | exact positive_reject (by decide) _

theorem positive_validateReplyVerifier (verifier : Option OpaqueAuth) :
    Positive (validateReplyVerifier verifier) := by
  unfold validateReplyVerifier
  repeat' split
  all_goals first | exact positive_ok | exact positive_reject (by decide) _

theorem positive_validateReplyBody (replyBody : ReplyBody) :
    Positive (validateReplyBody replyBody) := by
  unfold validateReplyBody validateRejectedReply
  repeat' split
  all_goals first
    | exact positive_ok
    | exact positive_undefinedRead
    | exact positive_reject (by decide) _
    | exact (positive_validateReplyVerifier _).andThen (positive_validateReplyData _)

theorem positive_validateRpcReplyStructure (rpcReply : Option RpcMsg) :
    Positive (validateRpcReplyStructure rpcReply) := by
  unfold validateRpcReplyStructure
  repeat' split
  all_goals first
    | exact positive_reject (by decide) _
    | exact positive_validateReplyBody _

theorem positive_validateSuccessfulAcceptedReply (rpcReply : Option RpcMsg) :
    Positive (validateSuccessfulAcceptedReply rpcReply) := by
  unfold validateSuccessfulAcceptedReply validateReplyStatus
  repeat' split
  all_goals first
    | exact positive_ok
    | exact positive_undefinedRead
    | exact positive_reject (by decide) _

theorem andThen_eq_ok {v v' : Validation Unit} (h : (do v; v') = .ok ()) :
    v = .ok () ∧ v' = .ok () := by
  cases v with
  | ok => exact ⟨rfl, h⟩
  | error fault => cases h

/-- A message whose structure is right is a reply with a body that is. -/
theorem validateRpcReplyStructure_eq_ok {rpcReply : Option RpcMsg}
    (h : validateRpcReplyStructure rpcReply = .ok ()) :
    ∃ xid replyBody, rpcReply = some ⟨xid, .reply, .rbody (some replyBody)⟩ ∧
      validateReplyBody replyBody = .ok () := by
  rcases rpcReply with _ | ⟨xid, mtype, body⟩
  · cases h
  · cases mtype with
    | reply =>
      rcases body with _ | _ | (_ | replyBody)
      · cases h
      · cases h
      · cases h
      · exact ⟨xid, replyBody, rfl, h⟩
    | call | other => rcases body with _ | _ | (_ | _) <;> cases h

variable {replyBody : ReplyBody}

/-- What is read of a reply after its structure was checked is there. -/
theorem replyStatus_code (h : validateReplyBody replyBody = .ok ()) :
    Pointers.replyStatus replyBody = (validateReplyStatus replyBody).returned := by
  obtain ⟨stat, reply⟩ := replyBody
  cases stat with
  | msgDenied =>
    rcases reply with _ | _ | (_ | ⟨stat, data⟩)
    · cases h
    · cases h
    · cases h
    · cases stat <;> rcases data with _ | (_ | _) | _ <;> first | rfl | cases h
  | msgAccepted =>
    rcases reply with _ | (_ | ⟨verifier, stat, data⟩) | _
    · cases h
    · cases h
    · obtain ⟨-, hData⟩ := andThen_eq_ok h
      cases stat <;> rcases data with _ | (_ | _) | (_ | _) | (_ | _) <;> first | rfl | cases hData
    · cases h
  | other => rcases reply with _ | _ | _ <;> cases h

theorem validateSuccessfulAcceptedReply_code (rpcReply : Option RpcMsg) :
    Pointers.validateSuccessfulAcceptedReply rpcReply =
      (validateSuccessfulAcceptedReply rpcReply).returned := by
  unfold Pointers.validateSuccessfulAcceptedReply validateSuccessfulAcceptedReply
  rw [validateRpcReplyStructure_code]
  cases hStructure : validateRpcReplyStructure rpcReply with
  | error fault =>
    cases fault with
    | undefinedRead => rfl
    | code code text =>
      have hPositive := positive_validateRpcReplyStructure rpcReply code text hStructure
      show (if code > 0 then some 1 else _) = _
      rw [if_pos hPositive]
      rfl
  | ok =>
    obtain ⟨xid, replyBody, rfl, hBody⟩ := validateRpcReplyStructure_eq_ok hStructure
    exact replyStatus_code hBody

/-! ## What passes the validators -/

/-- An accepted SUCCESS reply with an AUTH_NONE verifier. -/
def successfulReply (xid : Nat) (results : Any) : RpcMsg :=
  ⟨xid, .reply, .rbody (some ⟨.msgAccepted,
    .areply (some ⟨some ⟨.authNone, .empty (some ())⟩, .success, .results (some results)⟩)⟩)⟩

/-- What `unpack` can yield: a member of a union that is set is not NULL. -/
def OpaqueAuthBody.present : OpaqueAuthBody → Bool
  | notSet => true
  | empty member => member.isSome
  | authSys member => member.isSome

def AcceptedReplyData.present : AcceptedReplyData → Bool
  | notSet => true
  | results member => member.isSome
  | mismatchInfo member => member.isSome
  | defaultCase member => member.isSome

def RejectedReplyData.present : RejectedReplyData → Bool
  | notSet => true
  | mismatchInfo member => member.isSome
  | authStat _ => true

def ReplyBodyReply.present : ReplyBodyReply → Bool
  | notSet => true
  | areply member => member.any fun reply =>
    reply.verifier.all (·.body.present) && reply.replyData.present
  | rreply member => member.any (·.replyData.present)

def RpcMsgBody.present : RpcMsgBody → Bool
  | notSet => true
  | cbody member => member.isSome
  | rbody member => member.any (·.reply.present)

/-- The value that the transport returns: NULL, or a message that was unpacked. -/
def Decodable (rpcReply : Option RpcMsg) : Prop := rpcReply.all (·.body.present) = true

instance (rpcReply : Option RpcMsg) : Decidable (Decodable rpcReply) :=
  inferInstanceAs (Decidable (_ = true))

/-- One verifier is accepted. -/
theorem validateReplyVerifier_eq_ok {verifier : Option OpaqueAuth}
    (h : validateReplyVerifier verifier = .ok ()) :
    verifier = some ⟨.authNone, .empty (some ())⟩ := by
  rcases verifier with _ | ⟨flavor, body⟩
  · cases h
  · cases flavor with
    | authNone =>
      rcases body with _ | (_ | _) | _
      · cases h
      · cases h
      · rfl
      · cases h
    | authSys | authShort | authDh | rpcsecGss | other => cases h

/-- A successful reply carries results. -/
theorem validateReplyData_eq_ok {a : AcceptedReply} (h : validateReplyData a = .ok ())
    (hStat : a.stat = .success) : ∃ results, a.replyData = .results (some results) := by
  obtain ⟨verifier, stat, data⟩ := a
  cases hStat
  rcases data with _ | (_ | results) | _ | _
  · cases h
  · cases h
  · exact ⟨results, rfl⟩
  · cases h
  · cases h

/-- A reply of the right structure that is not turned down. -/
theorem validateReplyStatus_eq_ok (h : validateReplyBody replyBody = .ok ())
    (hStatus : validateReplyStatus replyBody = .ok ()) :
    ∃ results, replyBody = ⟨.msgAccepted,
      .areply (some ⟨some ⟨.authNone, .empty (some ())⟩, .success, .results (some results)⟩)⟩ := by
  obtain ⟨stat, reply⟩ := replyBody
  rcases reply with _ | (_ | ⟨verifier, astat, data⟩) | (_ | ⟨rstat, data⟩)
  · cases hStatus
  · cases hStatus
  · have hSuccess : astat = .success := by
      cases astat <;> first | rfl | cases hStatus
    subst hSuccess
    cases stat with
    | msgDenied | other => cases h
    | msgAccepted =>
      obtain ⟨hVerifier, hData⟩ := andThen_eq_ok h
      obtain rfl := validateReplyVerifier_eq_ok hVerifier
      obtain ⟨results, hResults⟩ := validateReplyData_eq_ok hData rfl
      obtain rfl : data = .results (some results) := hResults
      exact ⟨results, rfl⟩
  · cases hStatus
  · cases rstat <;> cases hStatus

/-- **What passes all checks** is a successful reply with results. -/
theorem validateSuccessfulAcceptedReply_eq_ok {rpcReply : Option RpcMsg}
    (h : validateSuccessfulAcceptedReply rpcReply = .ok ()) :
    ∃ xid results, rpcReply = some (successfulReply xid results) := by
  unfold validateSuccessfulAcceptedReply at h
  cases hStructure : validateRpcReplyStructure rpcReply with
  | error fault =>
    rw [hStructure] at h
    cases fault <;> cases h
  | ok =>
    rw [hStructure] at h
    obtain ⟨xid, replyBody, rfl, hBody⟩ := validateRpcReplyStructure_eq_ok hStructure
    obtain ⟨results, rfl⟩ := validateReplyStatus_eq_ok hBody h
    exact ⟨xid, results, rfl⟩

theorem validateReplyVerifier_ne_undefinedRead (verifier : Option OpaqueAuth) :
    validateReplyVerifier verifier ≠ .error .undefinedRead := by
  unfold validateReplyVerifier
  repeat' split
  all_goals rintro ⟨⟩

theorem validateReplyData_ne_undefinedRead (a : AcceptedReply) :
    validateReplyData a ≠ .error .undefinedRead := by
  unfold validateReplyData
  dsimp only
  repeat' split
  all_goals rintro ⟨⟩

theorem andThen_ne_undefinedRead {v v' : Validation Unit} (h : v ≠ .error .undefinedRead)
    (h' : v' ≠ .error .undefinedRead) : (do v; v') ≠ .error .undefinedRead := by
  cases v with
  | ok => exact h'
  | error fault => exact h

/-- The one pointer that the validators follow without a test is there in a message that was
unpacked. -/
theorem validateReplyBody_ne_undefinedRead (hPresent : replyBody.reply.present = true) :
    validateReplyBody replyBody ≠ .error .undefinedRead := by
  unfold validateReplyBody validateRejectedReply
  repeat' split
  all_goals first
    | exact andThen_ne_undefinedRead (validateReplyVerifier_ne_undefinedRead _)
        (validateReplyData_ne_undefinedRead _)
    | (next hReply => rw [hReply] at hPresent; cases hPresent)
    | rintro ⟨⟩

/-- A decoded reply is read within its members only. -/
theorem validateRpcReplyStructure_ne_undefinedRead {rpcReply : Option RpcMsg}
    (hDecodable : Decodable rpcReply) :
    validateRpcReplyStructure rpcReply ≠ .error .undefinedRead := by
  rcases rpcReply with _ | ⟨xid, mtype, body⟩
  · rintro ⟨⟩
  · rcases body with _ | _ | (_ | replyBody)
    · cases mtype <;> rintro ⟨⟩
    · cases mtype <;> rintro ⟨⟩
    · cases hDecodable
    · cases mtype with
      | reply => exact validateReplyBody_ne_undefinedRead hDecodable
      | call | other => rintro ⟨⟩

theorem validateReplyStatus_ne_undefinedRead (h : validateReplyBody replyBody = .ok ()) :
    validateReplyStatus replyBody ≠ .error .undefinedRead := by
  obtain ⟨stat, reply⟩ := replyBody
  rcases reply with _ | (_ | ⟨verifier, astat, data⟩) | (_ | ⟨rstat, data⟩)
  · cases stat <;> cases h
  · cases stat <;> cases h
  · cases astat <;> rintro ⟨⟩
  · cases stat <;> cases h
  · cases rstat <;> rintro ⟨⟩

theorem validateSuccessfulAcceptedReply_ne_undefinedRead {rpcReply : Option RpcMsg}
    (hDecodable : Decodable rpcReply) :
    validateSuccessfulAcceptedReply rpcReply ≠ .error .undefinedRead := by
  unfold validateSuccessfulAcceptedReply
  cases hStructure : validateRpcReplyStructure rpcReply with
  | error fault =>
    cases fault with
    | undefinedRead =>
      exact absurd hStructure (validateRpcReplyStructure_ne_undefinedRead hDecodable)
    | code code text => rintro ⟨⟩
  | ok =>
    obtain ⟨xid, replyBody, rfl, hBody⟩ := validateRpcReplyStructure_eq_ok hStructure
    exact validateReplyStatus_ne_undefinedRead hBody

/-- A message that was unpacked is an accepted SUCCESS reply, or the validation ends with a
positive code. -/
theorem validate_cases {rpcReply : Option RpcMsg} (hDecodable : Decodable rpcReply) :
    (∃ xid results, rpcReply = some (successfulReply xid results)) ∨
      ((∀ xid results, rpcReply ≠ some (successfulReply xid results)) ∧
        ∃ code, 0 < code ∧ Pointers.validateSuccessfulAcceptedReply rpcReply = some code) := by
  rw [validateSuccessfulAcceptedReply_code]
  cases hValidation : validateSuccessfulAcceptedReply rpcReply with
  | ok => exact .inl (validateSuccessfulAcceptedReply_eq_ok hValidation)
  | error fault =>
    cases fault with
    | undefinedRead =>
      exact absurd hValidation (validateSuccessfulAcceptedReply_ne_undefinedRead hDecodable)
    | code code text =>
      have hPositive := positive_validateSuccessfulAcceptedReply rpcReply code text hValidation
      refine .inr ⟨?_, code, hPositive, rfl⟩
      rintro xid results rfl
      cases hValidation

/-! ## The stubs -/

/-- A stub: the type of the results it expects, whether it can unpack them, and what it
returns for a reply. -/
structure ClientStub where
  resultsType : String
  unpacks : Bytes → Bool
  run : Option RpcMsg → Option Int

def ClientStub.unpacking {α : Type} (stub : Stub α) : ClientStub where
  resultsType := stub.resultsType
  unpacks value := (stub.unpack value).isSome
  run := Pointers.unpackingStub stub

def ClientStub.null (resultsType : String) : ClientStub where
  resultsType := resultsType
  unpacks _ := true
  run := Pointers.doNothing resultsType

inductive ClientProcedure where
  | mountProcedure0DoNothing | mountProcedure1AddMountEntry
  | nfsProcedure0DoNothing | nfsProcedure1GetFileAttributes | nfsProcedure2SetFileAttributes
  | nfsProcedure4LookUpFileName | nfsProcedure5ReadFromSymbolicLink | nfsProcedure6ReadFromFile
  | nfsProcedure8WriteToFile | nfsProcedure9CreateFile | nfsProcedure10RemoveFile
  | nfsProcedure11RenameFile | nfsProcedure12CreateLinkToFile | nfsProcedure13CreateSymbolicLink
  | nfsProcedure14CreateDirectory | nfsProcedure15RemoveDirectory
  | nfsProcedure16ReadFromDirectory | nfsProcedure17GetFilesystemAttributes
deriving DecidableEq, Repr

namespace ClientProcedure

def isNull : ClientProcedure → Bool
  | mountProcedure0DoNothing | nfsProcedure0DoNothing => true
  | _ => false

def stub (pb : Protobuf) : ClientProcedure → ClientStub
  | mountProcedure0DoNothing => .null "mount/None"
  | mountProcedure1AddMountEntry => .unpacking (Rpc.mountProcedure1AddMountEntry pb)
  | nfsProcedure0DoNothing => .null "nfs/None"
  | nfsProcedure1GetFileAttributes => .unpacking (Rpc.nfsProcedure1GetFileAttributes pb)
  | nfsProcedure2SetFileAttributes => .unpacking (Rpc.nfsProcedure2SetFileAttributes pb)
  | nfsProcedure4LookUpFileName => .unpacking (Rpc.nfsProcedure4LookUpFileName pb)
  | nfsProcedure5ReadFromSymbolicLink => .unpacking (Rpc.nfsProcedure5ReadFromSymbolicLink pb)
  | nfsProcedure6ReadFromFile => .unpacking (Rpc.nfsProcedure6ReadFromFile pb)
  | nfsProcedure8WriteToFile => .unpacking (Rpc.nfsProcedure8WriteToFile pb)
  | nfsProcedure9CreateFile => .unpacking (Rpc.nfsProcedure9CreateFile pb)
  | nfsProcedure10RemoveFile => .unpacking (Rpc.nfsProcedure10RemoveFile pb)
  | nfsProcedure11RenameFile => .unpacking (Rpc.nfsProcedure11RenameFile pb)
  | nfsProcedure12CreateLinkToFile => .unpacking (Rpc.nfsProcedure12CreateLinkToFile pb)
  | nfsProcedure13CreateSymbolicLink => .unpacking (Rpc.nfsProcedure13CreateSymbolicLink pb)
  | nfsProcedure14CreateDirectory => .unpacking (Rpc.nfsProcedure14CreateDirectory pb)
  | nfsProcedure15RemoveDirectory => .unpacking (Rpc.nfsProcedure15RemoveDirectory pb)
  | nfsProcedure16ReadFromDirectory => .unpacking (Rpc.nfsProcedure16ReadFromDirectory pb)
  | nfsProcedure17GetFilesystemAttributes =>
    .unpacking (Rpc.nfsProcedure17GetFilesystemAttributes pb)

end ClientProcedure

/-- The reply that the stub should return 0 for. -/
def ClientStub.Accepts (stub : ClientStub) (rpcReply : Option RpcMsg) : Prop :=
  ∃ xid results, rpcReply = some (successfulReply xid results) ∧
    results.typeUrl = some (bytes stub.resultsType) ∧ stub.unpacks results.value = true

/-- The stub makes no read amiss, and returns 0 exactly for the replies it should. -/
structure ClientStub.SafeOn (stub : ClientStub) (rpcReply : Option RpcMsg) : Prop where
  returns : ∃ code, stub.run rpcReply = some code
  zero_iff : stub.run rpcReply = some 0 ↔ stub.Accepts rpcReply

/-- The `results` of an accepted reply are what is set in the message. -/
def carriesResults : Option RpcMsg → Bool
  | some ⟨_, _, .rbody (some ⟨_, .areply (some ⟨_, _, .results _⟩)⟩)⟩ => true
  | _ => false

theorem isSome_procedureResults (rpcReply : Option RpcMsg) :
    (Pointers.procedureResults rpcReply).isSome = carriesResults rpcReply := by
  rcases rpcReply with _ | ⟨xid, mtype, body⟩
  · rfl
  rcases body with _ | _ | (_ | ⟨stat, reply⟩)
  · rfl
  · rfl
  · rfl
  rcases reply with _ | (_ | ⟨verifier, astat, data⟩) | _
  · rfl
  · rfl
  · cases data <;> rfl
  · rfl

/-! ### The stubs are those of the replies -/

section Codes

variable {α : Type} {rpcReply : Option RpcMsg}

/-- The results that a stub gets out of an accepted SUCCESS reply. -/
theorem unpackingStub_successfulReply (stub : Stub α) (xid : Nat) (results : Any) :
    Pointers.unpackingStub stub (some (successfulReply xid results)) =
      some (if results.typeUrl ≠ some (bytes stub.resultsType) then -2
        else if (stub.unpack results.value).isNone then -3 else 0) := by
  rw [apply_ite some, apply_ite some]
  rfl

theorem doNothing_successfulReply (resultsType : String) (xid : Nat) (results : Any) :
    Pointers.doNothing resultsType (some (successfulReply xid results)) =
      some (if results.typeUrl ≠ some (bytes resultsType) then -2 else 0) := by
  rw [apply_ite some]
  rfl

theorem unpackingStub_of_invalid (stub : Stub α) (hCode : 0 < code)
    (h : Pointers.validateSuccessfulAcceptedReply rpcReply = some code) :
    Pointers.unpackingStub stub rpcReply = some code := by
  unfold Pointers.unpackingStub
  rw [h]
  show (if code > 0 then some code else _) = _
  rw [if_pos hCode]

/-- The NULL stub reads the results of a reply that was found invalid. -/
theorem doNothing_of_invalid (resultsType : String) (hCode : 0 < code)
    (h : Pointers.validateSuccessfulAcceptedReply rpcReply = some code) :
    Pointers.doNothing resultsType rpcReply =
      if carriesResults rpcReply then some code else none := by
  rw [← isSome_procedureResults]
  unfold Pointers.doNothing
  rw [h]
  cases Pointers.procedureResults rpcReply with
  | none => rfl
  | some results =>
    show (if code > 0 then some code else _) = _
    rw [if_pos hCode]
    rfl

/-- Both levels return the same. -/
theorem unpackingStub_code (stub : Stub α) (rpcReply : Option RpcMsg) :
    Pointers.unpackingStub stub rpcReply = (stub.run rpcReply).returned := by
  cases hValidation : validateSuccessfulAcceptedReply rpcReply with
  | ok =>
    obtain ⟨xid, results, rfl⟩ := validateSuccessfulAcceptedReply_eq_ok hValidation
    rw [unpackingStub_successfulReply]
    show _ = (if results.typeUrl ≠ some (bytes stub.resultsType) then _ else _ :
      Validation α).returned
    split
    · rfl
    · cases stub.unpack results.value <;> rfl
  | error fault =>
    -- a reply that is turned down: its results are not looked at
    have hCode := validateSuccessfulAcceptedReply_code rpcReply
    unfold Stub.run
    rw [hValidation] at hCode ⊢
    cases fault with
    | undefinedRead =>
      unfold Pointers.unpackingStub
      rw [hCode]
      rfl
    | code code text =>
      exact unpackingStub_of_invalid stub
        (positive_validateSuccessfulAcceptedReply rpcReply code text hValidation) hCode

end Codes

/-! ### Which stubs are safe -/

section Safety

variable {stub : ClientStub} {rpcReply : Option RpcMsg}

/-- A run that ends, with 0 exactly if the reply is accepted. -/
theorem ClientStub.safeOn_of_run (hRun : stub.run rpcReply = some code)
    (hZero : code = 0 ↔ stub.Accepts rpcReply) : stub.SafeOn rpcReply := by
  refine ⟨⟨code, hRun⟩, ?_⟩
  rw [hRun, Option.some_inj]
  exact hZero

/-- The replies with results that a stub accepts. -/
theorem ClientStub.accepts_successfulReply {xid : Nat} {results : Any} :
    stub.Accepts (some (successfulReply xid results)) ↔
      results.typeUrl = some (bytes stub.resultsType) ∧ stub.unpacks results.value = true := by
  constructor
  · rintro ⟨xid', results', hEq, hAccepts⟩
    cases hEq
    exact hAccepts
  · intro hAccepts
    exact ⟨xid, results, rfl, hAccepts⟩

theorem ClientStub.safeOn_of_positive (hCode : 0 < code)
    (hNot : ∀ xid results, rpcReply ≠ some (successfulReply xid results))
    (hRun : stub.run rpcReply = some code) : stub.SafeOn rpcReply := by
  refine safeOn_of_run hRun (iff_of_false (Int.ne_of_gt hCode) ?_)
  rintro ⟨xid, results, hEq, -⟩
  exact hNot xid results hEq

end Safety

/-- Stubs with results are safe on every reply. -/
theorem unpacking_safeOn {α : Type} (stub : Stub α) {rpcReply : Option RpcMsg}
    (hDecodable : Decodable rpcReply) : (ClientStub.unpacking stub).SafeOn rpcReply := by
  rcases validate_cases hDecodable with ⟨xid, results, rfl⟩ | ⟨hNot, code, hCode, hValidation⟩
  · refine ClientStub.safeOn_of_run (unpackingStub_successfulReply stub xid results) ?_
    rw [ClientStub.accepts_successfulReply]
    by_cases hType : results.typeUrl = some (bytes stub.resultsType)
    · cases hUnpack : stub.unpack results.value <;> simp [ClientStub.unpacking, hType, hUnpack]
    · simp [ClientStub.unpacking, hType]
  · exact ClientStub.safeOn_of_positive hCode hNot (unpackingStub_of_invalid stub hCode hValidation)

/-- The NULL stub is safe if there are results to read. -/
theorem null_safeOn_iff (resultsType : String) {rpcReply : Option RpcMsg}
    (hDecodable : Decodable rpcReply) :
    (ClientStub.null resultsType).SafeOn rpcReply ↔ carriesResults rpcReply = true := by
  rcases validate_cases hDecodable with ⟨xid, results, rfl⟩ | ⟨hNot, code, hCode, hValidation⟩
  · refine iff_of_true ?_ rfl
    refine ClientStub.safeOn_of_run (doNothing_successfulReply resultsType xid results) ?_
    rw [ClientStub.accepts_successfulReply]
    simp [ClientStub.null]
  · have hRun : (ClientStub.null resultsType).run rpcReply = _ :=
      doNothing_of_invalid resultsType hCode hValidation
    constructor
    · intro hSafe
      -- a stub that is safe returns something
      obtain ⟨code', hReturns⟩ := hSafe.returns
      by_contra hCarries
      rw [hRun, if_neg hCarries] at hReturns
      cases hReturns
    · intro hCarries
      rw [if_pos hCarries] at hRun
      exact ClientStub.safeOn_of_positive hCode hNot hRun

/-- **On which replies the client stubs are safe.** On NULL and on every message that was
unpacked, a stub makes no read amiss, returns 0 exactly for an accepted SUCCESS reply with an
AUTH_NONE verifier whose results have the type it expects and can be unpacked, and returns
another code otherwise — unless it is the stub of a NULL procedure and the message is not an
accepted reply with results. -/
theorem stub_safe_iff (pb : Protobuf) (procedure : ClientProcedure) (rpcReply : Option RpcMsg)
    (hDecodable : Decodable rpcReply) :
    (procedure.stub pb).SafeOn rpcReply ↔
      (procedure.isNull = true → carriesResults rpcReply = true) := by
  cases procedure with
  | mountProcedure0DoNothing | nfsProcedure0DoNothing =>
    constructor
    · intro hSafe _
      exact (null_safeOn_iff _ hDecodable).mp hSafe
    · intro hCarries
      exact (null_safeOn_iff _ hDecodable).mpr (hCarries rfl)
  | _ =>
    refine iff_of_true (unpacking_safeOn _ hDecodable) ?_
    intro hNull
    cases hNull

namespace Sample

/-- A reply that denies the call because of its credential. -/
def deniedReply : RpcMsg :=
  ⟨1, .reply, .rbody (some ⟨.msgDenied, .rreply (some ⟨.authError, .authStat .authBadcred⟩)⟩)⟩

end Sample

/-- The stub of GETATTR on a reply that denies the call, and that of the NULL procedure on
the reply it waits for. -/
theorem stub_safe_iff_getattr_null :
    (ClientProcedure.nfsProcedure1GetFileAttributes.stub protobufC).SafeOn
        (some Sample.deniedReply) ∧
      (ClientProcedure.nfsProcedure0DoNothing.stub protobufC).SafeOn
        (some (successfulReply 1 ⟨some (bytes "nfs/None"), []⟩)) :=
  ⟨(stub_safe_iff _ _ _ (by decide)).mpr (by decide),
    (stub_safe_iff _ _ _ (by decide)).mpr (by decide)⟩

/-- Without a reply, and with one that denies the call, the stubs of the NULL procedures read
through pointers that are not there. -/
theorem null_stub_reads_amiss :
    (Pointers.doNothing "nfs/None" none = none ∧ Pointers.doNothing "mount/None" none = none) ∧
      Decodable (some Sample.deniedReply) ∧
      Pointers.validateSuccessfulAcceptedReply (some Sample.deniedReply) = some 3 ∧
      Pointers.doNothing "nfs/None" (some Sample.deniedReply) = none ∧
      Pointers.doNothing "mount/None" (some Sample.deniedReply) = none :=
  ⟨⟨rfl, rfl⟩, by decide, rfl, rfl, rfl⟩

end QuicNfs.Rpc

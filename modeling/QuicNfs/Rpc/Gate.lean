import QuicNfs.Rpc.Codec

/-!
# QuicNfs — the gate in front of the programs

`tcp_rpc_server.c` and `quic_rpc_server.c` from a received record to the reply:
unpack the message, check that it is a call of RPC version 2, check its
credential and verifier, hand it to `forward_rpc_call_to_program` and send what
that answers. The two files do the same with two ways to send, so each function
is one definition over a `Client`, and the names of the sources are its
instances.

* `Admitted` / `Rejects` — which calls are to be forwarded, and what the others
  are answered;
* `rpc_gate` — the functions of both transports decide by them.
-/

namespace QuicNfs.Rpc

open Kernel

/-- Where a reply goes: a socket, or a stream of a connection. -/
inductive Client where
  | tcp (rpcClientSocketFd : Nat)
  | quic (conn streamId : Nat)
deriving DecidableEq, Repr

/-- The arguments of `forward_rpc_call_to_program`. -/
structure ForwardedCall where
  credential : Option OpaqueAuth
  verifier : Option OpaqueAuth
  programNumber : Nat
  programVersion : Nat
  procedureNumber : Nat
  parameters : Option Any
deriving DecidableEq, Repr

/-- The server process: the state of its programs, the next xid, and what it has
forwarded, sent and printed so far. -/
structure RpcServer (σ : Type) where
  programs : σ
  xid : Nat
  forwarded : List ForwardedCall
  sent : List (Client × RpcMsg)
  printed : List String

/-- What the gate calls. -/
structure Services (σ : Type) where
  deserializeRpcMsg : Bytes → Option RpcMsg
  /-- The programs; without a reply, the process has died in them. -/
  forwardRpcCallToProgram : ForwardedCall → σ → Option AcceptedReply × σ
  /-- The error code of the sending of the `k`-th record. -/
  sendRmRecord : Nat → Nat

abbrev Serve (σ : Type) := StateM (RpcServer σ)

variable {σ : Type} (env : Services σ)

/-! ## Sending -/

def fprintf (text : String) : Serve σ Unit :=
  modify fun s => { s with printed := s.printed ++ [text] }

/-- One counter for calls and replies; it ends up in a field of 32 bits. -/
def generateRpcXid : Serve σ Nat :=
  modifyGet fun s => (s.xid, { s with xid := (s.xid + 1) % 2 ^ 32 })

def sendRmRecord (client : Client) (rpcMsg : RpcMsg) : Serve σ Nat :=
  modifyGet fun s =>
    (env.sendRmRecord s.sent.length, { s with sent := s.sent ++ [(client, rpcMsg)] })

def sendRpcReplyBody (client : Client) (replyBody : ReplyBody) : Serve σ Nat := do
  let xid ← generateRpcXid
  let errorCode ← sendRmRecord env client ⟨xid, .reply, .rbody (some replyBody)⟩
  return if errorCode > 0 then 1 else 0

def sendRpcAcceptedReplyMessage (client : Client) (acceptedReply : AcceptedReply) : Serve σ Nat :=
  sendRpcReplyBody env client ⟨.msgAccepted, .areply (some acceptedReply)⟩

def sendRpcRejectedReplyMessage (client : Client) (rejectedReply : RejectedReply) : Serve σ Nat :=
  sendRpcReplyBody env client ⟨.msgDenied, .rreply (some rejectedReply)⟩

def sendAuthErrorRejectedReply (client : Client) (errorMsg : String) (authStat : AuthStat) :
    Serve σ Nat := do
  fprintf errorMsg
  let errorCode ← sendRpcRejectedReplyMessage env client (createAuthErrorRejectedReply authStat)
  if errorCode > 0 then
    fprintf "Server failed to send AUTH_ERROR RejectedReply\n"
    return 1
  return 0

/-! ## The checks -/

/-- A failed check: `-1` where the rejection could not be sent. -/
def rejectAuth (client : Client) (authStat : AuthStat) (errorMsg : String) : Serve σ Int := do
  let errorCode ← sendAuthErrorRejectedReply env client errorMsg authStat
  return if errorCode > 0 then -1 else 1

def validateVerifier (client : Client) (verifier : Option OpaqueAuth) : Serve σ Int :=
  let reject := rejectAuth env client .authBadverf
  match verifier with
  | none => reject "Server received an RPC call with 'verifier' being NULL.\n"
  | some verifier =>
    match verifier.flavor with
    | .authNone =>
      match verifier.body with
      | .empty (some _) => return 0
      | .empty none =>
        reject "Server received an RPC call with AUTH_NONE verifier, with verifier->empty being NULL.\n"
      | _ =>
        reject "Server received an RPC call with AUTH_NONE verifier, with inconsistent verifier->flavor and verifier->body_case.\n"
    -- in AUTH_NONE, AUTH_SYS, and AUTH_SHORT, verifier in CallBody always has AUTH_NONE flavor
    | _ => reject "Server received an RPC call with 'verifier' having unsupported flavor.\n"

def validateCredentialAndVerifier (client : Client) (credential verifier : Option OpaqueAuth) :
    Serve σ Int :=
  let reject := rejectAuth env client .authBadcred
  match credential with
  | none => reject "Server received an RPC call with 'credential' being NULL.\n"
  | some credential =>
    match credential.flavor with
    | .authNone =>
      match credential.body with
      | .empty (some _) => validateVerifier env client verifier
      | .empty none =>
        reject "Server received an RPC call with AUTH_NONE credential, with credential->empty being NULL.\n"
      | _ =>
        reject "Server received an RPC call with AUTH_NONE credential, with inconsistent credential->flavor and credential->body_case.\n"
    | .authSys =>
      match credential.body with
      | .authSys (some authsysparams) =>
        match authsysparams.machinename, authsysparams.gids with
        | none, _ =>
          reject "Server received an RPC call with AUTH_SYS credential, with credential->auth_sys->machinename being NULL.\n"
        | some _, none =>
          reject "Server received an RPC call with AUTH_SYS credential, with credential->auth_sys->gids being NULL.\n"
        | some _, some _ => validateVerifier env client verifier
      | .authSys none =>
        reject "Server received an RPC call with AUTH_SYS credential, with credential->auth_sys being NULL.\n"
      | _ =>
        reject "Server received an RPC call with AUTH_SYS credential, with inconsistent credential->flavor and credential->body_case.\n"
    -- the text is printed as it is, with its conversion specifier
    | _ => reject "Server received an RPC call with unsupported authentication flavor %d.\n"

/-! ## One message -/

/-- `forward_rpc_call_to_program`, with a note of the call. -/
def forwardRpcCallToProgram (call : ForwardedCall) : Serve σ (Option AcceptedReply) :=
  modifyGet fun s =>
    let r := env.forwardRpcCallToProgram call s.programs
    (r.1, { s with programs := r.2, forwarded := s.forwarded ++ [call] })

def CallBody.forwardedCall (call : CallBody) : ForwardedCall :=
  ⟨call.credential, call.verifier, call.prog, call.vers, call.proc, call.params⟩

def CallBody.flavorIs (call : CallBody) (flavor : AuthFlavor) : Bool :=
  call.credential.any (·.flavor == flavor)

/-- The error code of a call, `none` if the process has died in it. -/
def processCallBody (client : Client) (callBody : CallBody) : Serve σ (Option Nat) := do
  if callBody.rpcvers ≠ 2 then
    fprintf "Server received an RPC call with RPC version not equal to 2.\n"
    let errorCode ← sendRpcRejectedReplyMessage env client (createRpcMismatchRejectedReply 2 2)
    if errorCode > 0 then
      fprintf "Server failed to send RPC mismatch RejectedReply\n"
      return some 5
    return some 0
  else
    let errorCode ←
      validateCredentialAndVerifier env client callBody.credential callBody.verifier
    if errorCode ≠ 0 then return some 6
    -- only NULL procedure is allowed to use AUTH_NONE flavor
    else if callBody.flavorIs .authNone ∧ callBody.proc ≠ 0 then
      let errorCode ← sendAuthErrorRejectedReply env client
        "Server received an RPC call with authentication flavor AUTH_NONE for a non-NULL procedure.\n"
        .authTooweak
      return some errorCode
    else
      match ← forwardRpcCallToProgram env callBody.forwardedCall with
      | none => return none
      | some acceptedReply =>
        let errorCode ← sendRpcAcceptedReplyMessage env client acceptedReply
        if errorCode > 0 then
          fprintf "Server failed to send AcceptedReply\n"
          return some 7
        return some 0

def processRpcMsg (client : Client) (rpcCall : RpcMsg) : Serve σ (Option Nat) :=
  match rpcCall.mtype, rpcCall.body with
  | .call, .cbody (some callBody) => processCallBody env client callBody
  | .call, .cbody none => return some 4
  | _, _ => do
    fprintf "Server received an RPC reply but it should only be receiving RPC calls.\n"
    return some 3

/-- What is done with the bytes of a record. -/
def processRecord (client : Client) (buffer : Option Bytes) : Serve σ (Option Nat) :=
  match buffer with
  | none => return some 1
  | some buffer =>
    match env.deserializeRpcMsg buffer with
    | none => do
      fprintf "Error unpacking received message\n"
      return some 2
    | some rpcCall => processRpcMsg env client rpcCall

/-- `process_single_rpc_tcp`, from the record it receives from the socket. -/
def processSingleRpcTcp (rpcClientSocketFd : Nat) (received : Option Bytes) :
    Serve σ (Option Nat) :=
  processRecord env (.tcp rpcClientSocketFd) received

def handleClientQuic (rpcCallBuffer : Option Bytes) (conn streamId : Nat) : Serve σ (Option Nat) :=
  processRecord env (.quic conn streamId) rpcCallBuffer

/-! ## What the gate is for -/

/-- AUTH_NONE with an Empty body, or AUTH_SYS with parameters that have a
machine name and groups. -/
def ValidCredential (credential : Option OpaqueAuth) : Prop :=
  ∃ auth, credential = some auth ∧
    ((auth.flavor = .authNone ∧ auth.body = .empty (some ())) ∨
      (auth.flavor = .authSys ∧ ∃ params, auth.body = .authSys (some params) ∧
        params.machinename.isSome ∧ params.gids.isSome))

/-- AUTH_NONE with an Empty body. -/
def ValidVerifier (verifier : Option OpaqueAuth) : Prop :=
  verifier = some ⟨.authNone, .empty (some ())⟩

/-- The message is a call with a body. -/
def RpcMsg.IsCall (msg : RpcMsg) (call : CallBody) : Prop :=
  msg.mtype = .call ∧ msg.body = .cbody (some call)

/-- A call that is to be forwarded. -/
structure Admitted (call : CallBody) : Prop where
  version : call.rpcvers = 2
  credential : ValidCredential call.credential
  verifier : ValidVerifier call.verifier
  flavor : call.flavorIs .authSys ∨ call.proc = 0

/-- The rejection of a call: the first check that fails decides. -/
inductive Rejects (call : CallBody) : RejectedReply → Prop
  | version (hVersion : call.rpcvers ≠ 2) :
    Rejects call (createRpcMismatchRejectedReply 2 2)
  | credential (hVersion : call.rpcvers = 2) (hCredential : ¬ ValidCredential call.credential) :
    Rejects call (createAuthErrorRejectedReply .authBadcred)
  | verifier (hVersion : call.rpcvers = 2) (hCredential : ValidCredential call.credential)
      (hVerifier : ¬ ValidVerifier call.verifier) :
    Rejects call (createAuthErrorRejectedReply .authBadverf)
  | flavor (hVersion : call.rpcvers = 2) (hCredential : ValidCredential call.credential)
      (hVerifier : ValidVerifier call.verifier)
      (hFlavor : ¬ (call.flavorIs .authSys ∨ call.proc = 0)) :
    Rejects call (createAuthErrorRejectedReply .authTooweak)

/-- A call is admitted, or there is a reply that rejects it. -/
theorem admitted_or_rejects (call : CallBody) : Admitted call ∨ ∃ reply, Rejects call reply := by
  by_cases hVersion : call.rpcvers = 2
  · by_cases hCredential : ValidCredential call.credential
    · by_cases hVerifier : ValidVerifier call.verifier
      · by_cases hFlavor : call.flavorIs .authSys ∨ call.proc = 0
        · exact .inl ⟨hVersion, hCredential, hVerifier, hFlavor⟩
        · exact .inr ⟨_, .flavor hVersion hCredential hVerifier hFlavor⟩
      · exact .inr ⟨_, .verifier hVersion hCredential hVerifier⟩
    · exact .inr ⟨_, .credential hVersion hCredential⟩
  · exact .inr ⟨_, .version hVersion⟩

variable {call : CallBody}
variable {reply : RejectedReply}

/-- Never both. -/
theorem not_admitted_of_rejects (h : Rejects call reply) : ¬ Admitted call := by
  intro hAdmitted
  cases h with
  | version hVersion => exact hVersion hAdmitted.version
  | credential _ hCredential => exact hCredential hAdmitted.credential
  | verifier _ _ hVerifier => exact hVerifier hAdmitted.verifier
  | flavor _ _ _ hFlavor => exact hFlavor hAdmitted.flavor

/-! ## Acceptance

Whether the checks pass does not depend on what becomes of the rejections. -/

/-- A rejection returns an error. -/
theorem rejectAuth_ne_zero (client : Client) (stat : AuthStat) (errorMsg : String)
    (s : RpcServer σ) : ((rejectAuth env client stat errorMsg).run s).1 ≠ 0 := by
  rw [rejectAuth, StateT.run_bind]
  show (if _ then (-1 : Int) else 1) ≠ 0
  split <;> decide

theorem validateVerifier_of_valid {verifier : Option OpaqueAuth} (hValid : ValidVerifier verifier)
    (client : Client) : validateVerifier env client verifier = pure 0 := by
  rw [hValid]
  rfl

/-- An invalid verifier is rejected with AUTH_BADVERF, by whatever check fails. -/
theorem validateVerifier_of_not_valid {verifier : Option OpaqueAuth}
    (hValid : ¬ ValidVerifier verifier) :
    ∃ text, ∀ client,
      validateVerifier env client verifier = rejectAuth env client .authBadverf text := by
  unfold validateVerifier
  -- every branch but one is a rejection; that one is the valid verifier
  split
  · exact ⟨_, fun client => rfl⟩
  · next auth =>
    obtain ⟨flavor, body⟩ := auth
    split
    · split
      · next hFlavor _ _ hBody =>
        obtain rfl : flavor = .authNone := hFlavor
        obtain rfl : body = .empty (some ()) := hBody
        exact absurd rfl hValid
      · exact ⟨_, fun client => rfl⟩
      · exact ⟨_, fun client => rfl⟩
    · exact ⟨_, fun client => rfl⟩

theorem validateCredentialAndVerifier_of_valid {cred : Option OpaqueAuth}
    (hValid : ValidCredential cred) (client : Client) (verifier : Option OpaqueAuth) :
    validateCredentialAndVerifier env client cred verifier =
      validateVerifier env client verifier := by
  obtain ⟨⟨flavor, body⟩, rfl, ⟨rfl, rfl⟩ | ⟨rfl, params, rfl, hName, hGids⟩⟩ := hValid
  · rfl
  · obtain ⟨name, hName⟩ := Option.isSome_iff_exists.mp hName
    obtain ⟨gids, hGids⟩ := Option.isSome_iff_exists.mp hGids
    simp [validateCredentialAndVerifier, hName, hGids]

/-- An invalid credential is rejected with AUTH_BADCRED, whatever the verifier is. -/
theorem validateCredentialAndVerifier_of_not_valid {cred : Option OpaqueAuth}
    (hValid : ¬ ValidCredential cred) (verifier : Option OpaqueAuth) :
    ∃ text, ∀ client, validateCredentialAndVerifier env client cred verifier =
      rejectAuth env client .authBadcred text := by
  unfold validateCredentialAndVerifier
  split
  · exact ⟨_, fun client => rfl⟩
  · next auth =>
    obtain ⟨flavor, body⟩ := auth
    split
    · split
      -- the only way on for AUTH_NONE
      · next hFlavor _ _ hBody => exact absurd ⟨_, rfl, .inl ⟨hFlavor, hBody⟩⟩ hValid
      · exact ⟨_, fun client => rfl⟩
      · exact ⟨_, fun client => rfl⟩
    · split
      · next hFlavor _ params hBody =>
        split
        · exact ⟨_, fun client => rfl⟩
        · exact ⟨_, fun client => rfl⟩
        · next hName hGids =>
          -- the only way on for AUTH_SYS
          exact absurd ⟨_, rfl, .inr ⟨hFlavor, params, hBody, by simp [hName], by simp [hGids]⟩⟩
            hValid
      · exact ⟨_, fun client => rfl⟩
      · exact ⟨_, fun client => rfl⟩
    · exact ⟨_, fun client => rfl⟩

/-- **The code of the two checks.** -/
theorem validateCredentialAndVerifier_eq_zero_iff (client : Client)
    (cred verifier : Option OpaqueAuth) (s : RpcServer σ) :
    ((validateCredentialAndVerifier env client cred verifier).run s).1 = 0 ↔
      ValidCredential cred ∧ ValidVerifier verifier := by
  by_cases hCredential : ValidCredential cred
  · rw [validateCredentialAndVerifier_of_valid env hCredential]
    by_cases hVerifier : ValidVerifier verifier
    · rw [validateVerifier_of_valid env hVerifier]
      exact iff_of_true rfl ⟨hCredential, hVerifier⟩
    · obtain ⟨text, hText⟩ := validateVerifier_of_not_valid env hVerifier
      rw [hText]
      exact iff_of_false (rejectAuth_ne_zero env client _ _ s) fun h => hVerifier h.2
  · obtain ⟨text, hText⟩ := validateCredentialAndVerifier_of_not_valid env hCredential verifier
    rw [hText]
    exact iff_of_false (rejectAuth_ne_zero env client _ _ s) fun h => hCredential h.1

/-! ## What the functions do when the sends succeed -/

def deniedBody (reply : RejectedReply) : ReplyBody := ⟨.msgDenied, .rreply (some reply)⟩

def acceptedBody (reply : AcceptedReply) : ReplyBody := ⟨.msgAccepted, .areply (some reply)⟩

namespace RpcServer

/-- The server after one more reply, with what it printed on the way. -/
def replied (s : RpcServer σ) (client : Client) (body : ReplyBody) (texts : List String) :
    RpcServer σ :=
  { s with
    xid := (s.xid + 1) % 2 ^ 32
    sent := s.sent ++ [(client, ⟨s.xid, .reply, .rbody (some body)⟩)]
    printed := s.printed ++ texts }

/-- The server after the programs have worked on a call. -/
def afterForward (s : RpcServer σ) (call : ForwardedCall) : RpcServer σ :=
  { s with
    programs := (env.forwardRpcCallToProgram call s.programs).2
    forwarded := s.forwarded ++ [call] }

/-- The client a reply goes to is not part of the message. -/
theorem map_sent_replied (s : RpcServer σ) (client client' : Client) (body : ReplyBody)
    (texts : List String) :
    (s.replied client body texts).sent.map Prod.snd =
      (s.replied client' body texts).sent.map Prod.snd := by
  simp [replied]

end RpcServer

section Successful

variable {env : Services σ} (hSend : ∀ k, env.sendRmRecord k = 0)
include hSend

theorem run_sendRpcReplyBody (client : Client) (body : ReplyBody) (s : RpcServer σ) :
    (sendRpcReplyBody env client body).run s = pure (0, s.replied client body []) := by
  simp [sendRpcReplyBody, generateRpcXid, sendRmRecord, RpcServer.replied, hSend]

theorem run_sendAuthErrorRejectedReply (client : Client) (errorMsg : String) (stat : AuthStat)
    (s : RpcServer σ) :
    (sendAuthErrorRejectedReply env client errorMsg stat).run s =
      pure (0, s.replied client (deniedBody (createAuthErrorRejectedReply stat)) [errorMsg]) := by
  have hReply := run_sendRpcReplyBody hSend client
    (deniedBody (createAuthErrorRejectedReply stat)) { s with printed := s.printed ++ [errorMsg] }
  simp only [sendAuthErrorRejectedReply, fprintf, sendRpcRejectedReplyMessage, StateT.run_bind,
    deniedBody] at hReply ⊢
  simp [hReply, RpcServer.replied]

theorem run_rejectAuth (client : Client) (stat : AuthStat) (errorMsg : String) (s : RpcServer σ) :
    (rejectAuth env client stat errorMsg).run s =
      pure (1, s.replied client (deniedBody (createAuthErrorRejectedReply stat)) [errorMsg]) := by
  simp [rejectAuth, run_sendAuthErrorRejectedReply hSend]

omit hSend in
theorem run_forwardRpcCallToProgram (call : ForwardedCall) (s : RpcServer σ) :
    (forwardRpcCallToProgram env call).run s =
      pure ((env.forwardRpcCallToProgram call s.programs).1, s.afterForward env call) :=
  rfl

/-- An admitted call is forwarded, and the reply of the programs is sent. -/
theorem run_processCallBody_of_admitted {call : CallBody} (hCall : Admitted call)
    (client : Client) (s : RpcServer σ) :
    (processCallBody env client call).run s =
      match (env.forwardRpcCallToProgram call.forwardedCall s.programs).1 with
      | none => pure (none, s.afterForward env call.forwardedCall)
      | some reply =>
        pure (some 0, (s.afterForward env call.forwardedCall).replied client (acceptedBody reply) [])
    := by
  obtain ⟨hVersion, hCredential, hVerifier, hFlavor⟩ := hCall
  -- an AUTH_SYS credential is not AUTH_NONE
  have hStrong : ¬ (call.flavorIs .authNone ∧ call.proc ≠ 0) := by
    rintro ⟨hNone, hProc⟩
    rcases hFlavor with hSys | hProc'
    · obtain ⟨auth, hAuth, -⟩ := hCredential
      simp only [CallBody.flavorIs, hAuth, Option.any_some, beq_iff_eq] at hNone hSys
      rw [hNone] at hSys
      exact absurd hSys (by decide)
    · exact hProc hProc'
  unfold processCallBody
  rw [if_neg (by simpa using hVersion), StateT.run_bind,
    validateCredentialAndVerifier_of_valid env hCredential, validateVerifier_of_valid env hVerifier,
    StateT.run_pure, pure_bind]
  rw [if_neg (by simp), if_neg hStrong, StateT.run_bind, run_forwardRpcCallToProgram, pure_bind]
  cases (env.forwardRpcCallToProgram call.forwardedCall s.programs).1 with
  | none => rfl
  | some reply =>
    have hSent := run_sendRpcReplyBody hSend client (acceptedBody reply)
      (s.afterForward env call.forwardedCall)
    simp only [acceptedBody, sendRpcAcceptedReplyMessage] at hSent ⊢
    simp [hSent]

/-- A rejected call gets the rejection of the first check that fails, and the
programs are not run. -/
theorem run_processCallBody_of_rejects (hCall : Rejects call reply) (s : RpcServer σ) :
    ∃ code text, ∀ client, (processCallBody env client call).run s =
      pure (some code, s.replied client (deniedBody reply) [text]) := by
  cases hCall with
  | version hVersion =>
    refine ⟨0, "Server received an RPC call with RPC version not equal to 2.\n", fun client => ?_⟩
    have hReply := run_sendRpcReplyBody hSend client
      (deniedBody (createRpcMismatchRejectedReply 2 2))
      { s with printed := s.printed ++
        ["Server received an RPC call with RPC version not equal to 2.\n"] }
    unfold processCallBody
    rw [if_pos (by simpa using hVersion)]
    simp only [fprintf, sendRpcRejectedReplyMessage, StateT.run_bind, deniedBody] at hReply ⊢
    simp [hReply, RpcServer.replied]
  | credential hVersion hCredential =>
    obtain ⟨text, hText⟩ := validateCredentialAndVerifier_of_not_valid env hCredential call.verifier
    refine ⟨6, text, fun client => ?_⟩
    unfold processCallBody
    rw [if_neg (by simpa using hVersion), StateT.run_bind, hText client,
      run_rejectAuth hSend, pure_bind]
    rfl
  | verifier hVersion hCredential hVerifier =>
    obtain ⟨text, hText⟩ := validateVerifier_of_not_valid env hVerifier
    refine ⟨6, text, fun client => ?_⟩
    unfold processCallBody
    rw [if_neg (by simpa using hVersion), StateT.run_bind,
      validateCredentialAndVerifier_of_valid env hCredential, hText client, run_rejectAuth hSend,
      pure_bind]
    rfl
  | flavor hVersion hCredential hVerifier hFlavor =>
    -- a valid credential is one of two flavors
    have hWeak : call.flavorIs .authNone ∧ call.proc ≠ 0 := by
      refine ⟨?_, fun hProc => hFlavor (.inr hProc)⟩
      obtain ⟨auth, hAuth, ⟨hNone, -⟩ | ⟨hSys, -⟩⟩ := hCredential
      · simp [CallBody.flavorIs, hAuth, hNone]
      · exact absurd (.inl (by simp [CallBody.flavorIs, hAuth, hSys])) hFlavor
    refine ⟨0, "Server received an RPC call with authentication flavor AUTH_NONE for a non-NULL procedure.\n",
      fun client => ?_⟩
    unfold processCallBody
    rw [if_neg (by simpa using hVersion), StateT.run_bind,
      validateCredentialAndVerifier_of_valid env hCredential,
      validateVerifier_of_valid env hVerifier, StateT.run_pure, pure_bind, if_neg (by simp), if_pos hWeak]
    simp [run_sendAuthErrorRejectedReply hSend]

end Successful

/-! ## The decision on a message -/

/-- How a server gets from `s` to `s'` by a message of a client. -/
structure Gated (msg : RpcMsg) (client : Client) (s s' : RpcServer σ) : Prop where
  forwards_iff : s'.forwarded ≠ s.forwarded ↔ ∃ call, msg.IsCall call ∧ Admitted call
  /-- An admitted call is forwarded once, and the programs' reply is the one sent. -/
  admitted : ∀ call, msg.IsCall call → Admitted call →
    s'.forwarded = s.forwarded ++ [call.forwardedCall] ∧
    s'.programs = (env.forwardRpcCallToProgram call.forwardedCall s.programs).2 ∧
    s'.sent = s.sent ++
      (env.forwardRpcCallToProgram call.forwardedCall s.programs).1.toList.map fun reply =>
        (client, ⟨s.xid, .reply, .rbody (some (acceptedBody reply))⟩)
  /-- Another call changes nothing and gets one rejection. -/
  rejected : ∀ call, msg.IsCall call → ¬ Admitted call →
    s'.programs = s.programs ∧
    ∃ reply, Rejects call reply ∧
      s'.sent = s.sent ++ [(client, ⟨s.xid, .reply, .rbody (some (deniedBody reply))⟩)]
  /-- What is not a call changes nothing and gets no answer. -/
  ignored : (∀ call, ¬ msg.IsCall call) → s'.programs = s.programs ∧ s'.sent = s.sent

theorem RpcMsg.IsCall.unique {msg : RpcMsg} {call' : CallBody} (h : msg.IsCall call)
    (h' : msg.IsCall call') : call' = call := by
  have hBody := h'.2
  rw [h.2] at hBody
  simpa using hBody.symm

/-- A call is processed as such. -/
theorem processRpcMsg_of_isCall {msg : RpcMsg} (h : msg.IsCall call) (client : Client) :
    processRpcMsg env client msg = processCallBody env client call := by
  unfold processRpcMsg
  rw [h.1, h.2]

/-- What is not a call is noted and dropped. -/
theorem run_processRpcMsg_of_not_isCall {msg : RpcMsg} (h : ∀ call, ¬ msg.IsCall call)
    (s : RpcServer σ) :
    ∃ code texts, ∀ client, (processRpcMsg env client msg).run s =
      pure (some code, { s with printed := s.printed ++ texts }) := by
  obtain ⟨xid, mtype, body⟩ := msg
  unfold processRpcMsg
  split
  · next call hType hBody => exact absurd ⟨hType, hBody⟩ (h call)
  · exact ⟨4, [], fun client => by simp⟩
  · exact ⟨3, [_], fun client => rfl⟩

namespace Gated

variable {env} {msg : RpcMsg} {client : Client} {s : RpcServer σ}

/-- An admitted call is forwarded once. -/
theorem of_admitted (hCall : msg.IsCall call) (hAdmitted : Admitted call) {s' : RpcServer σ}
    (hForwarded : s'.forwarded = s.forwarded ++ [call.forwardedCall])
    (hPrograms : s'.programs = (env.forwardRpcCallToProgram call.forwardedCall s.programs).2)
    (hSent : s'.sent = s.sent ++
      (env.forwardRpcCallToProgram call.forwardedCall s.programs).1.toList.map fun reply =>
        (client, ⟨s.xid, .reply, .rbody (some (acceptedBody reply))⟩)) :
    Gated env msg client s s' where
  forwards_iff := by
    refine ⟨fun _ => ⟨call, hCall, hAdmitted⟩, fun _ hSame => ?_⟩
    -- the list of forwarded calls has grown by one
    have hLength := congrArg List.length (hForwarded.symm.trans hSame)
    simp at hLength
  admitted call' hCall' _ := by
    rw [hCall.unique hCall']
    exact ⟨hForwarded, hPrograms, hSent⟩
  rejected call' hCall' hNot := absurd (hCall.unique hCall' ▸ hAdmitted) hNot
  ignored hNot := absurd hCall (hNot call)

/-- A rejected one is answered and not forwarded. -/
theorem of_rejects (hCall : msg.IsCall call) (hRejects : Rejects call reply) (texts : List String) :
    Gated env msg client s (s.replied client (deniedBody reply) texts) where
  forwards_iff := by
    refine ⟨fun hGrown => absurd rfl hGrown, ?_⟩
    rintro ⟨call', hCall', hAdmitted⟩
    exact absurd (hCall.unique hCall' ▸ hAdmitted) (not_admitted_of_rejects hRejects)
  admitted call' hCall' hAdmitted :=
    absurd (hCall.unique hCall' ▸ hAdmitted) (not_admitted_of_rejects hRejects)
  rejected call' hCall' _ := by
    rw [hCall.unique hCall']
    exact ⟨rfl, reply, hRejects, rfl⟩
  ignored hNot := absurd hCall (hNot call)

/-- Anything else is dropped. -/
theorem of_not_isCall (hNot : ∀ call, ¬ msg.IsCall call) (texts : List String) :
    Gated env msg client s { s with printed := s.printed ++ texts } where
  forwards_iff := ⟨fun hGrown => absurd rfl hGrown, fun ⟨call, hCall, _⟩ => absurd hCall (hNot call)⟩
  admitted call hCall := absurd hCall (hNot call)
  rejected call hCall := absurd hCall (hNot call)
  ignored _ := ⟨rfl, rfl⟩

end Gated

/-- **The gate.** Where the sends succeed, the functions of both transports
forward a decoded message if and only if it is an admitted call; another call
leaves the programs as they are and is answered with the rejection of the first
check that fails, and what is not a call is not answered. The two transports
decide alike and send the same messages. -/
theorem rpc_gate (hSend : ∀ k, env.sendRmRecord k = 0) {buffer : Bytes} {msg : RpcMsg}
    (hMsg : env.deserializeRpcMsg buffer = some msg) (s : RpcServer σ)
    (rpcClientSocketFd conn streamId : Nat) :
    let tcp := (processSingleRpcTcp env rpcClientSocketFd (some buffer)).run s
    let quic := (handleClientQuic env (some buffer) conn streamId).run s
    Gated env msg (.tcp rpcClientSocketFd) s tcp.2 ∧ Gated env msg (.quic conn streamId) s quic.2 ∧
      quic.1 = tcp.1 ∧ quic.2.programs = tcp.2.programs ∧
      quic.2.forwarded = tcp.2.forwarded ∧
      quic.2.sent.map Prod.snd = tcp.2.sent.map Prod.snd := by
  intro tcp quic
  have hTcp : tcp = (processRpcMsg env (.tcp rpcClientSocketFd) msg).run s := by
    simp only [tcp, processSingleRpcTcp, processRecord, hMsg]
  have hQuic : quic = (processRpcMsg env (.quic conn streamId) msg).run s := by
    simp only [quic, handleClientQuic, processRecord, hMsg]
  rw [hTcp, hQuic]
  by_cases hCall : ∃ call, msg.IsCall call
  · obtain ⟨call, hCall⟩ := hCall
    simp only [processRpcMsg_of_isCall env hCall]
    rcases admitted_or_rejects call with hAdmitted | ⟨reply, hRejects⟩
    · simp only [run_processCallBody_of_admitted hSend hAdmitted]
      cases hReply : (env.forwardRpcCallToProgram call.forwardedCall s.programs).1 with
      | none =>
        -- the process died while it worked on the call: nothing is sent
        refine ⟨.of_admitted hCall hAdmitted rfl rfl ?_, .of_admitted hCall hAdmitted rfl rfl ?_,
          rfl, rfl, rfl, rfl⟩
        · rw [hReply]
          exact (List.append_nil _).symm
        · rw [hReply]
          exact (List.append_nil _).symm
      | some reply =>
        refine ⟨.of_admitted hCall hAdmitted rfl rfl ?_, .of_admitted hCall hAdmitted rfl rfl ?_,
          rfl, rfl, rfl, ?_⟩
        · rw [hReply]
          rfl
        · rw [hReply]
          rfl
        · exact RpcServer.map_sent_replied _ _ _ _ _
    · obtain ⟨code, text, hRun⟩ := run_processCallBody_of_rejects hSend hRejects s
      simp only [hRun]
      exact ⟨.of_rejects hCall hRejects _, .of_rejects hCall hRejects _, rfl, rfl, rfl,
        RpcServer.map_sent_replied _ _ _ _ _⟩
  · have hNot : ∀ call, ¬ msg.IsCall call := fun call h => hCall ⟨call, h⟩
    obtain ⟨code, texts, hRun⟩ := run_processRpcMsg_of_not_isCall env hNot s
    rw [hRun (.tcp rpcClientSocketFd), hRun (.quic conn streamId)]
    exact ⟨.of_not_isCall hNot texts, .of_not_isCall hNot texts, rfl, rfl, rfl, rfl⟩

/-! ## A server that has just been started -/

namespace Sample

/-- A call of the NULL procedure of the Nfs program, without any authentication. -/
def nullCall : RpcMsg where
  xid := 1
  mtype := .call
  body := .cbody (some {
    rpcvers := 2
    prog := 10003
    vers := 2
    proc := 0
    credential := some ⟨.authNone, .empty (some ())⟩
    verifier := some ⟨.authNone, .empty (some ())⟩
    params := none })

/-- A record with the NULL call. -/
def nullRecord : Bytes := RpcMsg.format.pack nullCall

/-- Programs that answer every call, and count them. -/
def services : Services Nat where
  deserializeRpcMsg := RpcMsg.format.unpack
  forwardRpcCallToProgram := fun _ n =>
    (some (wrapProcedureResultsInSuccessfulAcceptedReply [] (bytes "nfs/None")), n + 1)
  sendRmRecord := fun _ => 0

def start : RpcServer Nat := ⟨0, 1, [], [], []⟩

end Sample

/-- A NULL call is forwarded, and answered on both transports. -/
theorem rpc_gate_null_call :
    Gated Sample.services Sample.nullCall (.tcp 4) Sample.start
        ((processSingleRpcTcp Sample.services 4 (some Sample.nullRecord)).run Sample.start).2 ∧
      ((processSingleRpcTcp Sample.services 4 (some Sample.nullRecord)).run
        Sample.start).2.programs = 1 :=
  have hMsg : Sample.services.deserializeRpcMsg Sample.nullRecord = some Sample.nullCall := by
    decide +kernel
  ⟨(rpc_gate Sample.services (fun _ => rfl) hMsg Sample.start 4 0 0).1, by decide +kernel⟩

end QuicNfs.Rpc

import QuicNfs.Rpc.Gate

/-!
# QuicNfs — the client's own credentials

`authentication.c` builds the credential and the verifier of a call, and the server
checks what it unpacks from the wire. This module follows a credential all the way,
through the generated code of `rpc.proto`.

A repeated field without elements is not written, and its pointer is `NULL`
after unpacking. The server takes that `NULL` for a malformed credential.

Main results:

* `unpack_createAuthSysOpaqueAuth` — what arrives of the client's own credential;
* `own_credentials_accepted_iff` — it is accepted, with its name and groups, iff the
  client has a supplementary group.
-/

namespace QuicNfs.Rpc

open Kernel Lib List Option

def OpaqueAuth.pack (auth : OpaqueAuth) : Bytes := OpaqueAuth.format.pack auth

def OpaqueAuth.unpack (bytes : Bytes) : Option OpaqueAuth := OpaqueAuth.format.unpack bytes

/-! ## The credentials of a client -/

/-- The longest machine name. -/
def MAX_MACHINENAME_LEN : Nat := 255

/-- The most supplementary groups. -/
def MAX_N_GIDS : Nat := 32

/-- The clock is read for the time stamp. An array and its number of elements is a
list. -/
def createAuthSysOpaqueAuth (time : UInt64) (machineName : Bytes) (uid gid : UInt32)
    (gids : List UInt32) : OpaqueAuth where
  flavor := .authSys
  body := .authSys (some {
    timestamp := time.toNat
    machinename := some (
      if machineName.length ≤ MAX_MACHINENAME_LEN then machineName
      else machineName.take MAX_MACHINENAME_LEN)
    uid := uid.toNat
    gid := gid.toNat
    gids :=
      let nGids := if gids.length ≤ MAX_N_GIDS then gids.length else MAX_N_GIDS
      some ((gids.take nGids).map UInt32.toNat) })

section Checks

variable {σ : Type} (env : Services σ)

def validateCredentialAndVerifierTcp (rpcClientSocketFd : Nat)
    (credential verifier : Option OpaqueAuth) : Serve σ Int :=
  validateCredentialAndVerifier env (.tcp rpcClientSocketFd) credential verifier

def validateCredentialAndVerifierQuic (conn streamId : Nat)
    (credential verifier : Option OpaqueAuth) : Serve σ Int :=
  validateCredentialAndVerifier env (.quic conn streamId) credential verifier

/-- Both validators accept what the server unpacks of a credential and a verifier. -/
structure Passes (s : RpcServer σ) (credential verifier : Option OpaqueAuth) : Prop where
  tcp : ∀ rpcClientSocketFd,
    ((validateCredentialAndVerifierTcp env rpcClientSocketFd credential verifier).run s).1 = 0
  quic : ∀ conn streamId,
    ((validateCredentialAndVerifierQuic env conn streamId credential verifier).run s).1 = 0

/-- The gate lets through what is valid. -/
theorem passes_iff (s : RpcServer σ) (cred verifier : Option OpaqueAuth) :
    Passes env s cred verifier ↔ ValidCredential cred ∧ ValidVerifier verifier := by
  constructor
  · intro h
    exact (validateCredentialAndVerifier_eq_zero_iff env (.tcp 0) cred verifier s).mp
      (h.tcp 0)
  · intro h
    refine ⟨fun fd => ?_, fun conn streamId => ?_⟩
    · exact (validateCredentialAndVerifier_eq_zero_iff env _ cred verifier s).mpr h
    · exact (validateCredentialAndVerifier_eq_zero_iff env _ cred verifier s).mpr h

end Checks

/-- The credential has what the client was given, up to the limits. -/
structure Preserved (credential : OpaqueAuth) (machineName : Bytes) (uid gid : UInt32)
    (gids : List UInt32) : Prop where
  flavor : credential.flavor = .authSys
  params : ∃ params, credential.body = .authSys (some params) ∧
    params.machinename = some (machineName.take MAX_MACHINENAME_LEN) ∧
    params.uid = uid.toNat ∧ params.gid = gid.toNat ∧
    params.gids = some ((gids.take MAX_N_GIDS).map UInt32.toNat)

/-- A credential and a verifier go over the wire, and the server `s` accepts what
arrives. -/
def AcceptedOnArrival {σ : Type} (env : Services σ) (s : RpcServer σ)
    (credential verifier : OpaqueAuth) : Prop :=
  ∃ credential' verifier',
    OpaqueAuth.unpack credential.pack = some credential' ∧
    OpaqueAuth.unpack verifier.pack = some verifier' ∧
    Passes env s (some credential') (some verifier')

/-! ## On the way to the server -/

section Arrival

variable (time : UInt64) (machineName : Bytes) (uid gid : UInt32) (gids : List UInt32)

/-- The parameters the client fills in. -/
def ownParams : AuthSysParams where
  timestamp := time.toNat
  machinename := some (machineName.take MAX_MACHINENAME_LEN)
  uid := uid.toNat
  gid := gid.toNat
  gids := some ((gids.take MAX_N_GIDS).map UInt32.toNat)

/-- The constructor fills in every field. -/
theorem createAuthSysOpaqueAuth_eq :
    createAuthSysOpaqueAuth time machineName uid gid gids =
      ⟨.authSys, .authSys (some (ownParams time machineName uid gid gids))⟩ := by
  have hName : (if machineName.length ≤ MAX_MACHINENAME_LEN then machineName
      else machineName.take MAX_MACHINENAME_LEN) = machineName.take MAX_MACHINENAME_LEN := by
    split
    · next h => rw [take_of_length_le h]
    · rfl
  have hGids : gids.take (if gids.length ≤ MAX_N_GIDS then gids.length else MAX_N_GIDS) =
      gids.take MAX_N_GIDS := by
    split
    · next h => rw [take_length, take_of_length_le h]
    · rfl
  simp only [createAuthSysOpaqueAuth, hName, hGids]
  rfl

/-- What the client fills in fits the fields of the message. -/
theorem ownParams_fits : AuthSysParams.format.Fits (ownParams time machineName uid gid gids) := by
  refine ⟨time.toNat_lt, trivial, uid.toNat_lt, gid.toNat_lt, fun n hn => ?_⟩
  obtain ⟨g, -, rfl⟩ := mem_map.mp hn
  exact g.toNat_lt

/-- A name of 255 bytes and 32 groups are far below the limit. -/
theorem ownParams_pack_length :
    (AuthSysParams.format.pack (ownParams time machineName uid gid gids)).length < 2 ^ 20 := by
  have hName := length_take_le MAX_MACHINENAME_LEN machineName
  have hTaken := length_take_le MAX_N_GIDS gids
  have hPacked := Wire.packed_length_le ((gids.take MAX_N_GIDS).map UInt32.toNat)
  have h1 := Wire.length_encode_varintField_le 1 time.toNat
  have h2 := Wire.length_encode_delimitedField_le 2 (machineName.take MAX_MACHINENAME_LEN)
  have h3 := Wire.length_encode_varintField_le 3 uid.toNat
  have h4 := Wire.length_encode_varintField_le 4 gid.toNat
  have h5 := Wire.length_encode_delimitedField_le 5
    (Wire.packed ((gids.take MAX_N_GIDS).map UInt32.toNat))
  have hPack : AuthSysParams.format.pack (ownParams time machineName uid gid gids) =
      Wire.encode (Wire.varintField 1 time.toNat ++
        (Wire.delimitedField 2 (machineName.take MAX_MACHINENAME_LEN) ++
        (Wire.varintField 3 uid.toNat ++ (Wire.varintField 4 gid.toNat ++
        Wire.delimitedField 5 (Wire.packed ((gids.take MAX_N_GIDS).map UInt32.toNat)))))) := by
    simp only [Wire.varintField, Wire.delimitedField, ← Wire.fieldOf_unless]
    rfl
  simp only [hPack, Wire.length_encode_append, MAX_MACHINENAME_LEN, MAX_N_GIDS, length_map] at *
  omega

/-- The message is far below the limit of 2 GiB. -/
theorem ownCredential_pack_length :
    (OpaqueAuth.format.pack ⟨.authSys, .authSys (some (ownParams time machineName uid gid gids))⟩).length
      < 2 ^ 31 := by
  have hParams := ownParams_pack_length time machineName uid gid gids
  generalize hp : ownParams time machineName uid gid gids = params at hParams ⊢
  show (Wire.encode [⟨1, .varint 1⟩, ⟨3, .delimited (AuthSysParams.format.pack params)⟩]).length < _
  have hKey := Wire.varint_length_le (AuthSysParams.format.pack params).length
  have hKeys : (Wire.varint (8 * 3 + 2)).length = 1 ∧ (Wire.encode [⟨1, .varint 1⟩]).length = 2 := by
    decide
  simp only [Wire.encode, flatMap_cons, flatMap_nil, append_nil, length_append, Wire.Field.encode,
    Wire.Content.encode, Wire.Content.wireType] at hKeys ⊢
  omega

/-- The parameters as they arrive. -/
def arrivedParams : AuthSysParams :=
  AuthSysParams.format.received (ownParams time machineName uid gid gids)

/-- What arrives of the client's own credential. -/
theorem unpack_createAuthSysOpaqueAuth :
    OpaqueAuth.unpack (createAuthSysOpaqueAuth time machineName uid gid gids).pack =
      some ⟨.authSys, .authSys (some (arrivedParams time machineName uid gid gids))⟩ := by
  rw [createAuthSysOpaqueAuth_eq]
  have hFlavor : AuthFlavor.numbers.Fits .authSys := by decide
  exact OpaqueAuth.format.roundTrip _ ⟨hFlavor, ownParams_fits time machineName uid gid gids⟩
    (ownCredential_pack_length time machineName uid gid gids)

theorem unpack_createAuthNoneOpaqueAuth :
    OpaqueAuth.unpack createAuthNoneOpaqueAuth.pack = some createAuthNoneOpaqueAuth := by
  decide

/-- There is an array of groups on arrival iff the client has one to send. -/
theorem isSome_arrived_gids :
    (arrivedParams time machineName uid gid gids).gids.isSome ↔ gids ≠ [] := by
  cases gids with
  | nil => exact iff_of_false Bool.false_ne_true (by simp)
  | cons g gids => exact iff_of_true rfl (by simp)

variable {σ : Type} (env : Services σ) (s : RpcServer σ)

/-- The name never stands in the way: a missing one arrives as an empty one. -/
theorem acceptedOnArrival_iff :
    AcceptedOnArrival env s (createAuthSysOpaqueAuth time machineName uid gid gids)
      createAuthNoneOpaqueAuth ↔ gids ≠ [] := by
  rw [← isSome_arrived_gids time machineName uid gid gids]
  constructor
  · rintro ⟨credential, verifier, hCredential, -, hPasses⟩
    rw [unpack_createAuthSysOpaqueAuth] at hCredential
    obtain rfl := some.inj hCredential
    obtain ⟨⟨auth, hAuth, hKind⟩, -⟩ := (passes_iff env s _ _).mp hPasses
    obtain rfl := some.inj hAuth
    -- an AUTH_SYS credential passes if its parameters do
    rcases hKind with ⟨hNone, -⟩ | ⟨-, params, hParams, -, hGids⟩
    · cases hNone
    · obtain rfl : arrivedParams time machineName uid gid gids = params := by
        simpa using hParams
      exact hGids
  · intro hGids
    refine ⟨_, _, unpack_createAuthSysOpaqueAuth time machineName uid gid gids,
      unpack_createAuthNoneOpaqueAuth, (passes_iff env s _ _).mpr ⟨?_, rfl⟩⟩
    exact ⟨_, rfl, .inr ⟨rfl, _, rfl, rfl, hGids⟩⟩

/-- With a group in it the list arrives. -/
theorem preserved_of_ne_nil (hGids : gids ≠ []) :
    Preserved ⟨.authSys, .authSys (some (arrivedParams time machineName uid gid gids))⟩
      machineName uid gid gids := by
  refine ⟨rfl, _, rfl, rfl, rfl, rfl, ?_⟩
  cases gids with
  | nil => exact absurd rfl hGids
  | cons g gids => rfl

/-- **The client's own credentials.** What a client makes of a machine name, its
ids and its supplementary groups passes the checks of both transports after the
way over the wire, with the name and the groups up to the limits, exactly if the
client has a supplementary group at all. -/
theorem own_credentials_accepted_iff :
    (AcceptedOnArrival env s (createAuthSysOpaqueAuth time machineName uid gid gids)
        createAuthNoneOpaqueAuth ∧
      ∃ credential,
        OpaqueAuth.unpack (createAuthSysOpaqueAuth time machineName uid gid gids).pack =
          some credential ∧
        Preserved credential machineName uid gid gids) ↔
      gids ≠ [] := by
  constructor
  · rintro ⟨hAccepted, -⟩
    exact (acceptedOnArrival_iff time machineName uid gid gids env s).mp hAccepted
  · intro hGids
    exact ⟨(acceptedOnArrival_iff time machineName uid gid gids env s).mpr hGids, _,
      unpack_createAuthSysOpaqueAuth time machineName uid gid gids,
      preserved_of_ne_nil time machineName uid gid gids hGids⟩

end Arrival

namespace Sample

/-- A server without programs, whose replies are all sent. -/
def idle : Services Unit where
  deserializeRpcMsg := fun _ => none
  forwardRpcCallToProgram := fun _ programs => (none, programs)
  sendRmRecord := fun _ => 0

def idleServer : RpcServer Unit := ⟨(), 0, [], [], []⟩

/-- The credential of a client in no supplementary group, and what arrives of it. -/
def loneCredential : OpaqueAuth := createAuthSysOpaqueAuth 0 [104] 1000 1000 []

def loneArrived : Option OpaqueAuth := OpaqueAuth.unpack loneCredential.pack

end Sample

/-- A client in no supplementary group: both transports answer its credential
with a rejection. -/
theorem own_credentials_without_groups :
    OpaqueAuth.unpack createAuthNoneOpaqueAuth.pack = some createAuthNoneOpaqueAuth ∧
    Sample.loneArrived = some ⟨.authSys, .authSys (some ⟨0, some [104], 1000, 1000, none⟩)⟩ ∧
    ((validateCredentialAndVerifierTcp Sample.idle 4 Sample.loneArrived
      (some createAuthNoneOpaqueAuth)).run Sample.idleServer).1 = 1 ∧
    ((validateCredentialAndVerifierQuic Sample.idle 1 4 Sample.loneArrived
      (some createAuthNoneOpaqueAuth)).run Sample.idleServer).1 = 1 ∧
    ((validateCredentialAndVerifierTcp Sample.idle 4 Sample.loneArrived
      (some createAuthNoneOpaqueAuth)).run Sample.idleServer).2.sent =
        [(.tcp 4, ⟨0, .reply, .rbody (some (deniedBody
          (createAuthErrorRejectedReply .authBadcred)))⟩)] := by
  decide +kernel

end QuicNfs.Rpc

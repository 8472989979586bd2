import QuicNfs.Server.Protocol

/-!
# QuicNfs — the RPC messages

The messages of `rpc.proto` and `any.proto` as they are after unpacking. A
pointer of the unpacked structure is an `Option`: an absent submessage or
string is `none`. A `oneof` is an inductive type with a case for each of its
members and `notSet`; the member itself is a pointer again.

Enumerations of `proto3` are open, so each of them has a case for the numbers
that name none of its constants.
-/

namespace QuicNfs.Rpc

open Kernel

inductive MsgType where
  | call | reply
  | other (number : Nat)
deriving DecidableEq, Repr

inductive ReplyStat where
  | msgAccepted | msgDenied
  | other (number : Nat)
deriving DecidableEq, Repr

inductive AcceptStat where
  | success | progUnavail | progMismatch | procUnavail | garbageArgs | systemErr
  | other (number : Nat)
deriving DecidableEq, Repr

inductive RejectStat where
  | rpcMismatch | authError
  | other (number : Nat)
deriving DecidableEq, Repr

/-- The constants the server uses; the others fall under `other`. -/
inductive AuthStat where
  | authOk | authBadcred | authRejectedcred | authBadverf | authRejectedverf | authTooweak
  | other (number : Nat)
deriving DecidableEq, Repr

inductive AuthFlavor where
  | authNone | authSys | authShort | authDh | rpcsecGss
  | other (number : Nat)
deriving DecidableEq, Repr

/-- `Rpc__AuthSysParams`. -/
structure AuthSysParams where
  timestamp : Nat
  machinename : Option Bytes
  uid : Nat
  gid : Nat
  gids : Option (List Nat)
deriving DecidableEq, Repr

inductive OpaqueAuthBody where
  | notSet
  | empty (empty : Option Unit)
  | authSys (authSys : Option AuthSysParams)
deriving DecidableEq, Repr

structure OpaqueAuth where
  flavor : AuthFlavor
  body : OpaqueAuthBody
deriving DecidableEq, Repr

/-- `Google__Protobuf__Any`. -/
structure Any where
  typeUrl : Option Bytes
  value : Bytes
deriving DecidableEq, Repr

structure CallBody where
  rpcvers : Nat
  prog : Nat
  vers : Nat
  proc : Nat
  credential : Option OpaqueAuth
  verifier : Option OpaqueAuth
  params : Option Any
deriving DecidableEq, Repr

structure MismatchInfo where
  low : Nat
  high : Nat
deriving DecidableEq, Repr

inductive AcceptedReplyData where
  | notSet
  | results (results : Option Any)
  | mismatchInfo (info : Option MismatchInfo)
  | defaultCase (empty : Option Unit)
deriving DecidableEq, Repr

structure AcceptedReply where
  verifier : Option OpaqueAuth
  stat : AcceptStat
  replyData : AcceptedReplyData
deriving DecidableEq, Repr

inductive RejectedReplyData where
  | notSet
  | mismatchInfo (info : Option MismatchInfo)
  | authStat (stat : AuthStat)
deriving DecidableEq, Repr

structure RejectedReply where
  stat : RejectStat
  replyData : RejectedReplyData
deriving DecidableEq, Repr

inductive ReplyBodyReply where
  | notSet
  | areply (reply : Option AcceptedReply)
  | rreply (reply : Option RejectedReply)
deriving DecidableEq, Repr

structure ReplyBody where
  stat : ReplyStat
  reply : ReplyBodyReply
deriving DecidableEq, Repr

inductive RpcMsgBody where
  | notSet
  | cbody (call : Option CallBody)
  | rbody (reply : Option ReplyBody)
deriving DecidableEq, Repr

structure RpcMsg where
  xid : Nat
  mtype : MsgType
  body : RpcMsgBody
deriving DecidableEq, Repr

/-! ## The messages the server builds

`server_common_rpc.c`. -/

/-- `create_auth_none_opaque_auth`. -/
def createAuthNoneOpaqueAuth : OpaqueAuth := ⟨.authNone, .empty (some ())⟩

/-- Results of a procedure, with the name of their type. -/
def wrapProcedureResultsInSuccessfulAcceptedReply (results : Bytes) (resultsType : Bytes) :
    AcceptedReply where
  verifier := some createAuthNoneOpaqueAuth
  stat := .success
  replyData := .results (some ⟨some resultsType, results⟩)

/-- The versions are 2 and 2 whatever the caller passes. -/
def createProgMismatchAcceptedReply (_low _high : Nat) : AcceptedReply where
  verifier := some createAuthNoneOpaqueAuth
  stat := .progMismatch
  replyData := .mismatchInfo (some ⟨2, 2⟩)

/-- `none` for the two statuses that carry data of their own. -/
def createDefaultCaseAcceptedReply (stat : AcceptStat) : Option AcceptedReply :=
  match stat with
  | .success => none
  | .progMismatch => none
  | stat => some ⟨some createAuthNoneOpaqueAuth, stat, .defaultCase (some ())⟩

def createGarbageArgsAcceptedReply : Option AcceptedReply :=
  createDefaultCaseAcceptedReply .garbageArgs

def createSystemErrorAcceptedReply : Option AcceptedReply :=
  createDefaultCaseAcceptedReply .systemErr

def createRpcMismatchRejectedReply (low high : Nat) : RejectedReply where
  stat := .rpcMismatch
  replyData := .mismatchInfo (some ⟨low, high⟩)

def createAuthErrorRejectedReply (stat : AuthStat) : RejectedReply where
  stat := .authError
  replyData := .authStat stat

end QuicNfs.Rpc

import QuicNfs.Rpc.Dispatch
import QuicNfs.Server.Statuses

/-!
# QuicNfs — absent fields in calls

A call that passes the gate can still lack any submessage of its parameters, or
the parameters themselves. Every test of the procedures for a field is made
before the field is read (`Guards`), so that a call with parameters is answered
as it should be. The parameters themselves are read without a test: a call of a
procedure that takes parameters, without any, ends the process.

* `Expected` — what a call should be answered, and what it may change;
* `absent_fields_iff` — which calls are answered so;
* `null_params_crash` — one that is not.
-/

namespace QuicNfs.Rpc

open Kernel Server Lib Option

/-! ## What a call should be answered -/

/-- Every field that the procedure needs is there. -/
def fieldsPresent : Request → Bool
  | .mnt a => a.path.isSome
  | .getattr a => a.decode.isSome
  | .setattr a => a.decode.isSome
  | .lookup a => a.decode.isSome
  | .readlink a => a.decode.isSome
  | .read a => (a.file.bind FHandle.decode).isSome
  | .write a => a.decode.isSome
  | .create a => a.decode.isSome
  | .remove a => a.decode.isSome
  | .rename a => a.decode.isSome
  | .link a => a.decode.isSome
  | .symlink a => a.decode.isSome
  | .mkdir a => a.decode.isSome
  | .rmdir a => a.decode.isSome
  | .readdir a => a.decode.isSome
  | .statfs a => a.decode.isSome

/-- The parameters of a procedure: the name of their type, and the request that
their bytes are. -/
structure Parameters where
  argsType : String
  read : Bytes → Option Request

variable (pb : Protobuf)

/-- The procedures that take parameters. -/
def parametersOf (prog proc : Nat) : Option Parameters :=
  if prog = MOUNT_RPC_PROGRAM_NUMBER then
    match proc with
    | 1 => some ⟨"mount/DirPath", fun v => (pb.dirPath.unpack v).map .mnt⟩
    | _ => none
  else if prog = NFS_RPC_PROGRAM_NUMBER then
    match proc with
    | 1 => some ⟨"nfs/FHandle", fun v => (pb.fhandle.unpack v).map .getattr⟩
    | 2 => some ⟨"nfs/SAttrArgs", fun v => (pb.sattrArgs.unpack v).map .setattr⟩
    | 4 => some ⟨"nfs/DirOpArgs", fun v => (pb.dirOpArgs.unpack v).map .lookup⟩
    | 5 => some ⟨"nfs/FHandle", fun v => (pb.fhandle.unpack v).map .readlink⟩
    | 6 => some ⟨"nfs/ReadArgs", fun v => (pb.readArgs.unpack v).map .read⟩
    | 8 => some ⟨"nfs/WriteArgs", fun v => (pb.writeArgs.unpack v).map .write⟩
    | 9 => some ⟨"nfs/CreateArgs", fun v => (pb.createArgs.unpack v).map .create⟩
    | 10 => some ⟨"nfs/DirOpArgs", fun v => (pb.dirOpArgs.unpack v).map .remove⟩
    | 11 => some ⟨"nfs/RenameArgs", fun v => (pb.renameArgs.unpack v).map .rename⟩
    | 12 => some ⟨"nfs/LinkArgs", fun v => (pb.linkArgs.unpack v).map .link⟩
    | 13 => some ⟨"nfs/SymLinkArgs", fun v => (pb.symLinkArgs.unpack v).map .symlink⟩
    | 14 => some ⟨"nfs/CreateArgs", fun v => (pb.createArgs.unpack v).map .mkdir⟩
    | 15 => some ⟨"nfs/DirOpArgs", fun v => (pb.dirOpArgs.unpack v).map .rmdir⟩
    | 16 => some ⟨"nfs/ReadDirArgs", fun v => (pb.readDirArgs.unpack v).map .readdir⟩
    | 17 => some ⟨"nfs/FHandle", fun v => (pb.fhandle.unpack v).map .statfs⟩
    | _ => none
  else none

/-- The parameters of a call as a request: they are there, are of the right type,
can be unpacked, and lack no field that is needed. -/
def Parameters.request (p : Parameters) (params : Option Any) : Option Request := do
  let any ← params
  if any.typeUrl = some (bytes p.argsType) then
    let r ← p.read any.value
    if fieldsPresent r then some r else none
  else none

/-- The caller that an AUTH_SYS credential names. -/
structure Caller (credential : Option OpaqueAuth) (caller : Server.AuthSysParams) : Prop where
  names : ∃ params : AuthSysParams, credential = some ⟨.authSys, .authSys (some params)⟩ ∧
    params.timestamp = caller.timestamp ∧ params.machinename = some caller.machinename ∧
    params.uid = caller.uid ∧ params.gid = caller.gid ∧ params.gids = some caller.gids

def programKnown (prog : Nat) : Prop :=
  prog = MOUNT_RPC_PROGRAM_NUMBER ∨ prog = NFS_RPC_PROGRAM_NUMBER

/-- The reply a call should get in a world, and the world after it. -/
inductive Expected (call : CallBody) (w : World) : AcceptedReply → World → Prop
  | progUnavail {reply : AcceptedReply} (hProg : ¬ programKnown call.prog)
      (hReply : reply.stat = .progUnavail) : Expected call w reply w
  | progMismatch {reply : AcceptedReply} (hProg : programKnown call.prog) (hVers : call.vers ≠ 2)
      (hReply : reply.stat = .progMismatch) : Expected call w reply w
  | procUnavail {reply : AcceptedReply} (hProg : programKnown call.prog) (hVers : call.vers = 2)
      (hProc : call.proc ≠ 0) (hNone : parametersOf pb call.prog call.proc = none)
      (hReply : reply.stat = .procUnavail) : Expected call w reply w
  | null {reply : AcceptedReply} (hProg : programKnown call.prog) (hVers : call.vers = 2)
      (hProc : call.proc = 0) (hReply : reply.stat = .success) : Expected call w reply w
  | garbageArgs {reply : AcceptedReply} {p : Parameters} {w' : World} (hVers : call.vers = 2)
      (hProc : parametersOf pb call.prog call.proc = some p)
      (hParams : p.request call.params = none) (hReply : reply.stat = .garbageArgs)
      (hFs : w'.fs = w.fs) (hCache : w'.inodeCache = w.inodeCache) : Expected call w reply w'
  | result {reply : AcceptedReply} {p : Parameters} {r : Request} {caller : Server.AuthSysParams}
      (hVers : call.vers = 2) (hProc : parametersOf pb call.prog call.proc = some p)
      (hParams : p.request call.params = some r) (hCaller : Caller call.credential caller)
      (hReply : acceptedReplyOf pb (w.answer (.authSys caller) r) = some reply) :
      Expected call w reply (w.afterRequest (.authSys caller) r)

/-! ## Every field is tested before it is read -/

variable {α β : Type}

/-- The checks end in what `d` decodes, or in GARBAGE_ARGS where it decodes nothing. -/
def Guarded (checks : Checks α) (d : Option α) : Prop :=
  match d with
  | some a => checks = .ok a
  | none => ∃ text, checks = .error (.garbageArgs text)

/-- A file handle without its content is not read. -/
theorem guarded_checkFHandle (text : String) (fhandle : FHandle) :
    Guarded (checkFHandle text fhandle) fhandle.decode := by
  obtain ⟨_ | handle⟩ := fhandle
  · exact ⟨text, rfl⟩
  · rfl

/-- The checks of a directory handle and a name find every absent part. -/
theorem guarded_checkDirOpArgs (texts : DirOpTexts) (args : DirOpArgs) :
    Guarded (checkDirOpArgs texts args) args.decode := by
  obtain ⟨_ | ⟨_ | handle⟩, name⟩ := args
  · exact ⟨_, rfl⟩
  · exact ⟨_, rfl⟩
  · obtain _ | ⟨_ | filename⟩ := name
    · exact ⟨_, rfl⟩
    · exact ⟨_, rfl⟩
    · rfl

/-- So do those of the attributes, whose times are messages. -/
theorem guarded_checkSAttr (atimeText mtimeText : String) (sattr : SAttr) :
    Guarded (checkSAttr atimeText mtimeText sattr) sattr.decode := by
  obtain ⟨mode, uid, gid, size, _ | atime, mtime⟩ := sattr
  · exact ⟨_, rfl⟩
  · obtain _ | mtime := mtime
    · exact ⟨_, rfl⟩
    · rfl

/-- Checks in sequence are guarded as the decoding in sequence. -/
theorem Guarded.bind {checks : Checks α} {d : Option α} {f : α → Checks β} {g : α → Option β}
    (h : Guarded checks d) (hNext : ∀ a, Guarded (f a) (g a)) :
    Guarded (checks >>= f) (d.bind g) := by
  cases d with
  | none =>
    obtain ⟨text, rfl⟩ := h
    exact ⟨text, rfl⟩
  | some a =>
    obtain rfl : checks = .ok a := h
    exact hNext a

/-- A pointer that is tested, and then read. -/
theorem guarded_require {pointer : Option α} (text : String) {f : α → Checks β}
    {g : α → Option β} (hNext : ∀ a, Guarded (f a) (g a)) :
    Guarded (require pointer text >>= fun _ => deref pointer >>= f) (pointer.bind g) := by
  cases pointer with
  | none => exact ⟨text, rfl⟩
  | some a => exact hNext a

theorem guarded_checkDirPath (name : String) (dirpath : MsgPath) :
    Guarded (checkDirPath name dirpath) dirpath.path := by
  obtain ⟨_ | path⟩ := dirpath
  · exact ⟨_, rfl⟩
  · rfl

theorem guarded_checkCreateArgs (name : String) (args : CreateArgs) :
    Guarded (checkCreateArgs name args) args.decode :=
  guarded_require _ fun _ => (guarded_checkDirOpArgs _ _).bind fun _ =>
    guarded_require _ fun _ => (guarded_checkSAttr _ _ _).bind fun _ => rfl

theorem guarded_checkRenameArgs (name : String) (args : RenameArgs) :
    Guarded (checkRenameArgs name args) args.decode :=
  guarded_require _ fun _ => (guarded_checkDirOpArgs _ _).bind fun _ =>
    guarded_require _ fun _ => (guarded_checkDirOpArgs _ _).bind fun _ => rfl

theorem guarded_checkLinkArgs (name : String) (args : LinkArgs) :
    Guarded (checkLinkArgs name args) args.decode :=
  guarded_require _ fun _ => (guarded_checkFHandle _ _).bind fun _ =>
    guarded_require _ fun _ => (guarded_checkDirOpArgs _ _).bind fun _ => rfl

theorem guarded_checkSymLinkArgs (name : String) (args : SymLinkArgs) :
    Guarded (checkSymLinkArgs name args) args.decode := by
  refine guarded_require _ fun _ => (guarded_checkDirOpArgs _ _).bind fun _ =>
    guarded_require _ fun target => ?_
  -- the path is tested here and read at the end, after the attributes
  obtain ⟨_ | path⟩ := target
  · exact ⟨_, rfl⟩
  · exact guarded_require _ fun _ => (guarded_checkSAttr _ _ _).bind fun _ => rfl

theorem guarded_checkSAttrArgs (name : String) (args : SAttrArgs) :
    Guarded (checkSAttrArgs name args) args.decode := by
  refine guarded_require _ fun fhandle => ?_
  obtain ⟨_ | handle⟩ := fhandle
  · exact ⟨_, rfl⟩
  · exact guarded_require _ fun _ => (guarded_checkSAttr _ _ _).bind fun _ => rfl

theorem guarded_checkReadArgs (name : String) (args : ReadArgs) :
    Guarded (checkReadArgs name args) (args.file.bind FHandle.decode) :=
  guarded_require _ fun _ => guarded_checkFHandle _ _

theorem guarded_checkWriteArgs (name : String) (args : WriteArgs) :
    Guarded (checkWriteArgs name args) args.decode := by
  refine guarded_require _ fun fhandle => ?_
  obtain ⟨_ | handle⟩ := fhandle
  · exact ⟨_, rfl⟩
  · exact guarded_require _ fun _ => rfl

theorem guarded_checkReadDirArgs (name : String) (args : ReadDirArgs) :
    Guarded (checkReadDirArgs name args) args.decode := by
  obtain ⟨_ | ⟨_ | handle⟩, _ | cookie, count⟩ := args
  all_goals first | rfl | exact ⟨_, rfl⟩

/-- The checks of a head let through the arguments that lack nothing, and answer
the others with GARBAGE_ARGS. -/
structure Head.Guards (head : Head α) (request : α → Request) : Prop where
  passes : ∀ args, fieldsPresent (request args) = true → ∃ b, head.checks args = .ok b
  refuses : ∀ args, fieldsPresent (request args) = false →
    ∃ text, head.checks args = .error (.garbageArgs text)

variable {head : Head α} {cred : Option OpaqueAuth}

/-- Checks that find every absent field guard the procedure. -/
theorem Head.guards_of {request : α → Request} {d : α → Option head.checked}
    (hFields : ∀ args, fieldsPresent (request args) = (d args).isSome)
    (h : ∀ args, Guarded (head.checks args) (d args)) : head.Guards request where
  passes args hPresent := by
    rw [hFields] at hPresent
    obtain ⟨b, hb⟩ := isSome_iff_exists.mp hPresent
    have hArgs := h args
    rw [hb] at hArgs
    exact ⟨b, hArgs⟩
  refuses args hAbsent := by
    rw [hFields, isSome_eq_false_iff, isNone_iff_eq_none] at hAbsent
    have hArgs := h args
    rw [hAbsent] at hArgs
    exact hArgs

/-! ## Procedures with and without parameters -/

/-- A procedure gets the caller from the credential. -/
theorem readCredential_of_caller {caller : Server.AuthSysParams} (h : Caller cred caller) :
    readCredential cred = .ok (.authSys caller) := by
  obtain ⟨⟨timestamp, machinename, uid, gid, gids⟩, rfl, rfl, rfl, rfl, rfl, rfl⟩ := h
  rfl

/-- The request that the parameters `any` of a head are. -/
def Head.request (head : Head α) (request : α → Request) (any : Any) : Option Request :=
  (Parameters.mk head.argsType fun v => (head.unpack v).map request).request (some any)

/-- With parameters the head answers GARBAGE_ARGS, or hands on the request they are. -/
theorem Head.run_some {request : α → Request} (hGuards : head.Guards request)
    {caller : Server.AuthSysParams} (hCaller : Caller cred caller) (any : Any) :
    match head.request request any with
    | none => ∃ text, head.run cred (some any) = .error (.garbageArgs text)
    | some r => ∃ args, request args = r ∧
        head.run cred (some any) = .ok (.authSys caller, args) := by
  have hRequest : head.request request any =
      if any.typeUrl = some (bytes head.argsType) then
        ((head.unpack any.value).map request).bind fun r => if fieldsPresent r then some r else none
      else none := rfl
  rw [hRequest]
  -- in the order of the tests: the type, the bytes, the fields, the credential
  by_cases hType : any.typeUrl = some (bytes head.argsType)
  · rw [if_pos hType]
    cases hUnpack : head.unpack any.value with
    | none =>
      refine ⟨head.notUnpacked, (if_neg (not_not.mpr hType)).trans ?_⟩
      rw [hUnpack]
      rfl
    | some args =>
      have hRun : head.run cred (some any) = head.checks args >>= fun _ =>
          readCredential cred >>= fun c => .ok (c, args) := by
        refine (if_neg (not_not.mpr hType)).trans ?_
        rw [hUnpack]
        rfl
      dsimp only [Option.map, Option.bind]
      rw [hRun]
      cases hFields : fieldsPresent (request args) with
      | false =>
        obtain ⟨text, hText⟩ := hGuards.refuses args hFields
        rw [hText]
        exact ⟨text, rfl⟩
      | true =>
        obtain ⟨b, hb⟩ := hGuards.passes args hFields
        rw [hb, readCredential_of_caller hCaller]
        exact ⟨args, rfl, rfl⟩
  · rw [if_neg hType]
    exact ⟨head.wrongType, if_pos hType⟩

/-- With parameters it is the request they are that decides. -/
theorem run_serveProcedure {request : α → Request} (hGuards : head.Guards request)
    {caller : Server.AuthSysParams} (hCaller : Caller cred caller) (any : Any) (w : World) :
    (serveProcedure pb head request cred (some any)).run w =
      match head.request request any with
      | none => (createGarbageArgsAcceptedReply, w)
      | some r => (acceptedReplyOf pb (w.answer (.authSys caller) r),
          w.afterRequest (.authSys caller) r) := by
  have hHead := Head.run_some hGuards hCaller any
  unfold serveProcedure
  cases hRequest : head.request request any with
  | none =>
    rw [hRequest] at hHead
    obtain ⟨text, hText⟩ := hHead
    rw [hText]
    rfl
  | some r =>
    rw [hRequest] at hHead
    obtain ⟨args, rfl, hOk⟩ := hHead
    rw [hOk]
    show (serve _ _ >>= fun answer => pure (acceptedReplyOf pb answer)).run w = _
    rw [Prog.run_bind]
    rfl

/-! ## Dispatch -/

/-- A reply can be built for each status. -/
theorem statusReply_isSome {stat β γ : Type} {ok : stat}
    {createDefault : stat → Option (StatusRes stat γ)} {okBody : β → γ}
    {pack : StatusRes stat γ → Bytes} {resultsType : String} {r : Reply stat β}
    (hDefault : ∀ s, r = .err s → ∃ res, createDefault s = some res) :
    ∃ reply, statusReply ok createDefault okBody pack resultsType r = some reply := by
  cases r with
  | garbageArgs | systemErr | ok => exact ⟨_, rfl⟩
  | err s =>
    obtain ⟨res, hRes⟩ := hDefault s rfl
    simp [statusReply, hRes]

theorem createDefaultCase_isSome {β γ : Type} {r : NfsReply β} (h : NfsReply.Honest r)
    (s : Server.Stat) (hs : r = .err s) :
    ∃ res : StatusRes Server.Stat γ, createDefaultCase s = some res := by
  refine ⟨_, if_neg ?_⟩
  rintro rfl
  exact h hs

/-- The results of a procedure can always be packed. -/
theorem acceptedReplyOf_isSome {answer : Answer} (h : answer.Honest) :
    ∃ reply, acceptedReplyOf pb answer = some reply := by
  cases answer with
  | fhStatus r => exact statusReply_isSome fun s _ => ⟨_, rfl⟩
  | nfsStat r =>
    show ∃ reply, nfsStatReply pb r = some reply
    cases r <;> exact ⟨_, rfl⟩
  | attrStat r | dirOpRes r | readLinkRes r | readRes r | readDirRes r | statFsRes r =>
    exact statusReply_isSome (createDefaultCase_isSome h)

/-- The head of a procedure that takes parameters, and that dispatch hands the
call to it. -/
def Served (p : Parameters) (call : ForwardedCall) : Prop :=
  ∃ (α : Type) (head : Head α) (request : α → Request), head.Guards request ∧
    p = ⟨head.argsType, fun v => (head.unpack v).map request⟩ ∧
    forwardToProgram pb call = serveProcedure pb head request call.credential call.parameters

variable {call : CallBody}

/-- **Every procedure with parameters** has such a head. -/
theorem served_of_parametersOf {p : Parameters} (hVers : call.vers = 2)
    (hProc : parametersOf pb call.prog call.proc = some p) : Served pb p call.forwardedCall := by
  obtain ⟨rpcvers, prog, vers, proc, cred, verifier, params⟩ := call
  obtain rfl : vers = 2 := hVers
  dsimp only at hProc
  unfold parametersOf at hProc
  split at hProc
  · next hProg =>
    obtain rfl : prog = _ := hProg
    split at hProc <;> cases hProc
    exact ⟨_, mntHead pb, .mnt, Head.guards_of (fun _ => rfl) (guarded_checkDirPath _), rfl, rfl⟩
  · split at hProc
    · next hProg =>
      obtain rfl : prog = _ := hProg
      split at hProc <;> cases hProc
      · exact ⟨_, getattrHead pb, .getattr,
          Head.guards_of (fun _ => rfl) (guarded_checkFHandle _), rfl, rfl⟩
      · exact ⟨_, setattrHead pb, .setattr,
          Head.guards_of (fun _ => rfl) (guarded_checkSAttrArgs _), rfl, rfl⟩
      · exact ⟨_, lookupHead pb, .lookup,
          Head.guards_of (fun _ => rfl) (guarded_checkDirOpArgs _), rfl, rfl⟩
      · exact ⟨_, readlinkHead pb, .readlink,
          Head.guards_of (fun _ => rfl) (guarded_checkFHandle _), rfl, rfl⟩
      · exact ⟨_, readHead pb, .read,
          Head.guards_of (fun _ => rfl) (guarded_checkReadArgs _), rfl, rfl⟩
      · exact ⟨_, writeHead pb, .write,
          Head.guards_of (fun _ => rfl) (guarded_checkWriteArgs _), rfl, rfl⟩
      · exact ⟨_, createHead pb, .create,
          Head.guards_of (fun _ => rfl) (guarded_checkCreateArgs _), rfl, rfl⟩
      · exact ⟨_, removeHead pb, .remove,
          Head.guards_of (fun _ => rfl) (guarded_checkDirOpArgs _), rfl, rfl⟩
      · exact ⟨_, renameHead pb, .rename,
          Head.guards_of (fun _ => rfl) (guarded_checkRenameArgs _), rfl, rfl⟩
      · exact ⟨_, linkHead pb, .link,
          Head.guards_of (fun _ => rfl) (guarded_checkLinkArgs _), rfl, rfl⟩
      · exact ⟨_, symlinkHead pb, .symlink,
          Head.guards_of (fun _ => rfl) (guarded_checkSymLinkArgs _), rfl, rfl⟩
      · exact ⟨_, mkdirHead pb, .mkdir,
          Head.guards_of (fun _ => rfl) (guarded_checkCreateArgs _), rfl, rfl⟩
      · exact ⟨_, rmdirHead pb, .rmdir,
          Head.guards_of (fun _ => rfl) (guarded_checkDirOpArgs _), rfl, rfl⟩
      · exact ⟨_, readdirHead pb, .readdir,
          Head.guards_of (fun _ => rfl) (guarded_checkReadDirArgs _), rfl, rfl⟩
      · exact ⟨_, statfsHead pb, .statfs,
          Head.guards_of (fun _ => rfl) (guarded_checkFHandle _), rfl, rfl⟩
    · cases hProc

/-- A call that passed the gate and is not for a NULL procedure names its caller. -/
theorem Admitted.caller (h : Admitted call) (hProc : call.proc ≠ 0) :
    ∃ caller, Caller call.credential caller := by
  obtain ⟨⟨flavor, body⟩, hAuth, hBody⟩ := h.credential
  have hFlavor := h.flavor.resolve_right hProc
  rw [CallBody.flavorIs, hAuth] at hFlavor
  obtain rfl : flavor = .authSys := by simpa using hFlavor
  obtain ⟨hNone, -⟩ | ⟨-, params, rfl, hName, hGids⟩ := hBody
  · cases hNone
  · obtain ⟨name, hName⟩ := isSome_iff_exists.mp hName
    obtain ⟨gids, hGids⟩ := isSome_iff_exists.mp hGids
    exact ⟨⟨params.timestamp, name, params.uid, params.gid, gids⟩,
      ⟨params, hAuth, rfl, hName, rfl, rfl, hGids⟩⟩

/-- The NULL procedures take none. -/
theorem parametersOf_zero (prog : Nat) : parametersOf pb prog 0 = none := by
  unfold parametersOf
  split
  · rfl
  · split <;> rfl

/-- `create_default_case_accepted_reply` for a status other than the two it refuses. -/
def defaultReply (stat : AcceptStat) : AcceptedReply :=
  ⟨some createAuthNoneOpaqueAuth, stat, .defaultCase (some ())⟩

theorem forwardToProgram_unknown (hProg : ¬ programKnown call.prog) :
    forwardToProgram pb call.forwardedCall = pure (some (defaultReply .progUnavail)) := by
  obtain ⟨hMount, hNfs⟩ := not_or.mp hProg
  show (if call.prog = _ then _ else if call.prog = _ then _ else _ : Proc _) = _
  rw [if_neg hMount, if_neg hNfs]
  rfl

/-- A program of another version is not run. -/
theorem forwardToProgram_version (hProg : programKnown call.prog) (hVers : call.vers ≠ 2) :
    forwardToProgram pb call.forwardedCall = pure (some (createProgMismatchAcceptedReply 2 2)) := by
  obtain ⟨rpcvers, prog, vers, proc, cred, verifier, params⟩ := call
  obtain rfl | rfl := hProg
  · show callMount pb cred vers proc params = _
    exact if_pos hVers
  · show callNfs pb cred vers proc params = _
    exact if_pos hVers

theorem forwardToProgram_procUnavail (hProg : programKnown call.prog) (hVers : call.vers = 2)
    (hProc : call.proc ≠ 0) (hNone : parametersOf pb call.prog call.proc = none) :
    forwardToProgram pb call.forwardedCall = pure (some (defaultReply .procUnavail)) := by
  obtain ⟨rpcvers, prog, vers, proc, cred, verifier, params⟩ := call
  obtain rfl : vers = 2 := hVers
  dsimp only at hProc hNone
  obtain rfl | rfl := hProg
  · show callMount pb cred 2 proc params = _
    unfold callMount
    split
    · contradiction
    · split
      · contradiction
      · cases hNone
      · rfl
  · show callNfs pb cred 2 proc params = _
    unfold callNfs
    split
    · contradiction
    · split
      · contradiction
      all_goals first | cases hNone | rfl

/-- Calls that no procedure with parameters is for. -/
theorem expected_of_no_parameters (call : CallBody) (w : World)
    (h : call.vers ≠ 2 ∨ parametersOf pb call.prog call.proc = none) :
    ∃ reply, (forwardToProgram pb call.forwardedCall).run w = (some reply, w) ∧
      Expected pb call w reply w := by
  by_cases hProg : programKnown call.prog
  · by_cases hVers : call.vers = 2
    · have hNone := h.resolve_left (not_not.mpr hVers)
      by_cases hProc : call.proc = 0
      · obtain ⟨rpcvers, prog, vers, proc, cred, verifier, params⟩ := call
        obtain rfl : vers = 2 := hVers
        obtain rfl : proc = 0 := hProc
        obtain rfl | rfl := hProg
        · exact ⟨_, rfl, .null (.inl rfl) rfl rfl rfl⟩
        · exact ⟨_, rfl, .null (.inr rfl) rfl rfl rfl⟩
      · rw [forwardToProgram_procUnavail pb hProg hVers hProc hNone]
        exact ⟨_, rfl, .procUnavail hProg hVers hProc hNone rfl⟩
    · rw [forwardToProgram_version pb hProg hVers]
      exact ⟨_, rfl, .progMismatch hProg hVers rfl⟩
  · rw [forwardToProgram_unknown pb hProg]
    exact ⟨_, rfl, .progUnavail hProg rfl⟩

/-- **Absent fields.** Whatever submessages a call that passed the gate lacks, it
gets the reply it should get, unless it is a call of a procedure with parameters
and has none: then the process reads through NULL. -/
theorem absent_fields_iff {call : CallBody} (hCall : Admitted call) (w : World) :
    (∃ reply w', (forwardToProgram pb call.forwardedCall).run w = (some reply, w') ∧
        Expected pb call w reply w') ↔
      call.params.isSome ∨ call.vers ≠ 2 ∨ parametersOf pb call.prog call.proc = none := by
  by_cases hTarget : call.vers ≠ 2 ∨ parametersOf pb call.prog call.proc = none
  · obtain ⟨reply, hRun, hExpected⟩ := expected_of_no_parameters pb call w hTarget
    exact iff_of_true ⟨reply, w, hRun, hExpected⟩ (.inr hTarget)
  · obtain ⟨hVers, hSome⟩ := not_or.mp hTarget
    obtain ⟨p, hProc⟩ := ne_none_iff_exists'.mp hSome
    have hVers : call.vers = 2 := not_not.mp hVers
    obtain ⟨α, head, request, hGuards, rfl, hServed⟩ := served_of_parametersOf pb hVers hProc
    have hZero : call.proc ≠ 0 := by
      intro hZero
      rw [hZero, parametersOf_zero] at hProc
      cases hProc
    obtain ⟨caller, hCaller⟩ := hCall.caller hZero
    rw [hServed, or_iff_left hTarget]
    show (∃ reply w', (serveProcedure pb head request call.credential call.params).run w = _ ∧ _) ↔ _
    cases hParams : call.params with
    -- the type is read of parameters that are not there
    | none =>
      refine iff_of_false ?_ (by decide)
      rintro ⟨reply, w', hRun, -⟩
      cases hRun
    | some any =>
      refine iff_of_true ?_ rfl
      rw [run_serveProcedure pb hGuards hCaller any w]
      cases hRequest : head.request request any with
      | none =>
        exact ⟨defaultReply .garbageArgs, w, rfl,
          .garbageArgs hVers hProc (hParams ▸ hRequest) rfl rfl rfl⟩
      | some r =>
        obtain ⟨reply, hReply⟩ :=
          acceptedReplyOf_isSome pb ((returns_serve (.authSys caller) r).run w)
        exact ⟨reply, _, Prod.ext hReply rfl,
          .result hVers hProc (hParams ▸ hRequest) hCaller hReply⟩

/-! ## Two calls of GETATTR -/

namespace Sample

/-- A GETATTR call of the caller of the small server. -/
def getattrCall (params : Option Any) : CallBody where
  rpcvers := 2
  prog := 10003
  vers := 2
  proc := 1
  credential := some ⟨.authSys, .authSys (some ⟨0, some (bytes "client"), 1000, 1000, some [1000]⟩)⟩
  verifier := some ⟨.authNone, .empty (some ())⟩
  params := params

/-- The record of such a call. -/
def getattrRecord (params : Option Any) : Bytes :=
  protobufC.rpcMsg.pack ⟨1, .call, .cbody (some (getattrCall params))⟩

theorem admitted_getattrCall (params : Option Any) : Admitted (getattrCall params) where
  version := rfl
  credential := ⟨_, rfl, .inr ⟨rfl, _, rfl, rfl, rfl⟩⟩
  verifier := rfl
  flavor := .inl rfl

end Sample

/-- Parameters that cannot be read are answered: a first byte of zero is no key. -/
theorem absent_fields_iff_unreadable :
    protobufC.fhandle.unpack [0] = none ∧
    ∃ reply w', (forwardToProgram protobufC
        (Sample.getattrCall (some ⟨some (bytes "nfs/FHandle"), [0]⟩)).forwardedCall).run
          Server.Sample.world = (some reply, w') ∧
      Expected protobufC (Sample.getattrCall (some ⟨some (bytes "nfs/FHandle"), [0]⟩))
        Server.Sample.world reply w' :=
  ⟨by decide, (absent_fields_iff _ (Sample.admitted_getattrCall _) _).mpr (.inl rfl)⟩

/-- The record of a GETATTR call without parameters is read as that call, which passes the gate,
and the server does not survive it. -/
theorem null_params_crash :
    protobufC.rpcMsg.unpack (Sample.getattrRecord none) =
        some ⟨1, .call, .cbody (some (Sample.getattrCall none))⟩ ∧
      Admitted (Sample.getattrCall none) ∧
      ((processSingleRpcTcp (services protobufC fun _ => 0) 4
        (some (Sample.getattrRecord none))).run ⟨Server.Sample.world, 1, [], [], []⟩).1 = none :=
  ⟨by decide +kernel, Sample.admitted_getattrCall none, by decide +kernel⟩

end QuicNfs.Rpc

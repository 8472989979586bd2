import QuicNfs.Server.Outcomes
import QuicNfs.Server.Statuses

/-!
# QuicNfs — which permission bit counts

A credential names a user, a group and a list of further groups. The server gets all of them
and looks at the first two: a caller that is in the group of an object by way of the list is
treated like everybody else.

* `posixAllows` — the rule with the whole credential;
* `DecidedBy` — a program answers NFSERR_ACCES only where a condition does not hold, and with
  success only where it does;
* `decidedBy_serve` — so do the procedures that check a permission bit, with the rule that
  the server has;
* `follows_credential_iff` — the answer follows the rule with the whole credential if and only if
  the list makes no difference.
-/

namespace QuicNfs.Server

open Kernel Lib Prog Option

variable {α β : Type}

/-! ## The two rules -/

/-- Root may; of everybody else, the first class counts that the caller is in, and the group
is the caller's own one or one of the list. -/
def posixAllows (a : Access) (attr : Attr) (caller : AuthSysParams) : Bool :=
  if caller.uid = 0 then true
  else if caller.uid = attr.uid then attr.perm.testBit (6 + a.bit)
  else if caller.gid = attr.gid ∨ attr.gid ∈ caller.gids then attr.perm.testBit (3 + a.bit)
  else attr.perm.testBit a.bit

/-- The caller is in the group by the list alone, and the group may what others may not, or
the other way round. -/
structure Overlooked (a : Access) (attr : Attr) (caller : AuthSysParams) : Prop where
  root : caller.uid ≠ 0
  owner : caller.uid ≠ attr.uid
  group : caller.gid ≠ attr.gid
  listed : attr.gid ∈ caller.gids
  differ : attr.perm.testBit (3 + a.bit) ≠ attr.perm.testBit a.bit

/-- The server's own rule is the same but for the list. -/
theorem permitted_eq_iff {fs : FileSystem} {f : Ino} {x : Inode} (hInode : fs.inode f = some x)
    (a : Access) (caller : AuthSysParams) :
    permitted fs (.authSys caller) a f = posixAllows a x.attr caller ↔ ¬Overlooked a x.attr caller := by
  by_cases hRoot : caller.uid = 0
  · refine iff_of_true ?_ fun h => h.root hRoot
    simp [permitted, posixAllows, hRoot]
  -- class by class, in the order in which both rules try them
  rw [permitted_of_inode hRoot hInode]
  unfold allows posixAllows
  rw [if_neg hRoot]
  by_cases hOwner : caller.uid = x.attr.uid
  · rw [if_pos hOwner, if_pos hOwner]
    exact iff_of_true rfl fun h => h.owner hOwner
  rw [if_neg hOwner, if_neg hOwner]
  by_cases hGroup : caller.gid = x.attr.gid
  · rw [if_pos hGroup, if_pos (Or.inl hGroup)]
    exact iff_of_true rfl fun h => h.group hGroup
  rw [if_neg hGroup, if_congr (or_iff_right hGroup) rfl rfl]
  by_cases hListed : x.attr.gid ∈ caller.gids
  · -- the one case in which the two rules look at different bits
    rw [if_pos hListed]
    constructor
    · intro hSame hOverlooked
      exact hOverlooked.differ hSame.symm
    · intro hNot
      by_contra hDiffer
      exact hNot ⟨hRoot, hOwner, hGroup, hListed, fun h => hDiffer h.symm⟩
  · rw [if_neg hListed]
    exact iff_of_true rfl fun h => hListed h.listed

/-! ## Who decides -/

/-- From `w`, `p` answers NFSERR_ACCES only where `G` does not hold, and with success only
where it does. -/
structure DecidedBy (G : Prop) (p : Proc (NfsReply β)) (w : World) : Prop where
  refused : (p.run w).1 = .err .nfserrAcces → ¬G
  ok : (p.run w).1.isOk = true → G

section Blocks

variable {G : Prop} {w : World} {p : Path} {i d : Ino}

/-- An end that is neither. -/
theorem decidedBy_pure {reply : NfsReply β} (hAcces : reply ≠ .err .nfserrAcces)
    (hOk : reply.isOk = false) : DecidedBy G (pure reply) w := by
  constructor
  · exact fun h => absurd h hAcces
  · intro h
    exact absurd (hOk.symm.trans h) Bool.false_ne_true

theorem decidedBy_of_run {p q : Proc (NfsReply β)} {w' : World} (h : p.run w = q.run w')
    (hq : DecidedBy G q w') : DecidedBy G p w := by
  constructor
  · rw [h]
    exact hq.refused
  · rw [h]
    exact hq.ok

theorem decidedBy_orGarbageArgs {args : Option α} {k : α → Proc (NfsReply β)} {a : α}
    (hArgs : args = some a) (h : DecidedBy G (k a) w) : DecidedBy G (orGarbageArgs args k) w := by
  subst hArgs
  exact h

theorem decidedBy_withFile {k : Path → Proc (NfsReply β)} (hView : w.view i = some p)
    (h : DecidedBy G (k p) w) : DecidedBy G (withFile i k) w :=
  decidedBy_of_run (goesOn_withFile hView).run h

theorem decidedBy_withAttributes {k : FAttr → Proc (NfsReply β)}
    (h : ∀ fattr, DecidedBy G (k fattr) (w.wait 5)) : DecidedBy G (withAttributes p k) w := by
  by_cases hGot : (∃ st, w.fs.lstat w.host p = .ok st) ∧ w.Describes
  · obtain ⟨⟨st, hStat⟩, hDescribes⟩ := hGot
    exact decidedBy_of_run (goesOn_withAttributes hStat hDescribes).run (h _)
  · obtain ⟨t, ht⟩ := run_getAttributes_of_not hGot
    have hFails : (withAttributes p k).run w = (pure .systemErr : Proc (NfsReply β)).run (w.atTick t) :=
      (goesOn_bind (looks_getAttributes p) ht).run
    exact decidedBy_of_run hFails (decidedBy_pure (by simp) rfl)

theorem decidedBy_withDirectory {k : Path → Proc (NfsReply β)} (hView : w.view i = some p)
    (h : DecidedBy G (k p) (w.wait 5)) : DecidedBy G (withDirectory i k) w := by
  refine decidedBy_withFile hView (decidedBy_withAttributes fun fattr => ?_)
  split
  · exact h
  · exact decidedBy_pure (by simp) rfl

theorem decidedBy_withExisting {k : Kernel.Stat → Proc (NfsReply β)}
    (h : ∀ st, DecidedBy G (k st) (w.wait 1)) : DecidedBy G (withExisting p k) w := by
  refine decidedBy_of_run (goesOn_lstat p _ w).run ?_
  split
  · exact h _
  · exact decidedBy_pure (by simp) rfl
  · exact decidedBy_pure (by simp) rfl

theorem decidedBy_withFree {k : Proc (NfsReply β)} (h : DecidedBy G k (w.wait 1)) :
    DecidedBy G (withFree p k) w := by
  refine decidedBy_of_run (goesOn_lstat p _ w).run ?_
  split
  · exact decidedBy_pure (by simp) rfl
  · exact h
  · exact decidedBy_pure (by simp) rfl

/-- **The check decides**, if what comes after it does not answer NFSERR_ACCES. -/
theorem decidedBy_withPermission {fs : FileSystem} (hFs : w.fs = fs) {cred : Credential}
    {a : Access} {k : Proc (NfsReply β)} (hLookup : fs.lookup false p = .ok d)
    (hk : Avoids .nfserrAcces k) :
    DecidedBy (permitted fs cred a d = true) (withPermission cred (needs a p) k) w := by
  subst hFs
  constructor
  · intro hRefused hPermitted
    by_cases hPasses : Passes w cred a d
    · rw [(goesOn_withPermission hLookup hPasses).run] at hRefused
      exact hk.run _ hRefused
    · -- a check that cannot be made is a SYSTEM_ERR
      obtain ⟨caller, rfl, hRoot, hClear⟩ := fails_of_not_passes hPermitted hPasses
      have hRun := run_needs_of_not hRoot a (p := p) fun h => hClear h.1
      have hFails : (withPermission (.authSys caller) (needs a p) k).run w =
          (.systemErr, w.wait 1) := (goesOn_bind (looks_needs a p caller) hRun).run
      rw [hFails] at hRefused
      cases hRefused
  · intro hOk
    by_contra hNot
    have hStops := stops_withPermission (k := k) hLookup fun h : Passes w cred a d =>
      hNot h.permitted
    exact absurd (hStops.refused.symm.trans hOk) Bool.false_ne_true

end Blocks

/-! ## The procedures -/

/-- The handle whose object is checked by one of the procedures, and the permission that the
caller needs. -/
def Request.checked : Request → Option (Ino × Access)
  | .lookup args => args.decode.map fun a => (a.1, .execute)
  | .read args => (args.file.bind FHandle.decode).map fun i => (i, .read)
  | .write args => args.decode.map fun a => (a.1, .write)
  | .readdir args => args.decode.map fun a => (a.1, .read)
  | .create args => args.decode.map fun a => (a.1, .write)
  | .remove args => args.decode.map fun a => (a.1, .write)
  | _ => none

/-- The error of a reply. -/
def Reply.error {σ : Type} : Reply σ β → Option σ
  | err stat => some stat
  | _ => none

/-- The error of an answer of the Nfs program. -/
def Answer.error : Answer → Option Stat
  | fhStatus _ => none
  | attrStat r => r.error
  | dirOpRes r => r.error
  | readLinkRes r => r.error
  | readRes r => r.error
  | nfsStat r => r.error
  | readDirRes r => r.error
  | statFsRes r => r.error

section Procedures

variable {w : World} {cred : Credential} {i : Ino} {p : Path} {f : Ino}
variable {n : Bytes}

section Decided

variable (hView : w.view i = some p) (hLookup : w.fs.lookup false p = .ok f)
include hView hLookup

/-- Whether the caller has the permission decides on a request that needs it. -/
theorem decidedBy_lookup {args : DirOpArgs} (hArgs : args.decode = some (i, n)) :
    DecidedBy (permitted w.fs cred .execute f = true)
      (serveNfsProcedure4LookUpFileName cred args) w := by
  refine decidedBy_orGarbageArgs hArgs <| decidedBy_withDirectory hView <|
    decidedBy_withExisting fun st => decidedBy_withPermission (by rfl) hLookup ?_
  refine returns_call fun cache => ?_
  split
  · exact avoids_answerWithHandle _ _
  · exact avoids_withNewHandle _

theorem decidedBy_read {args : ReadArgs} (hArgs : args.file.bind FHandle.decode = some i) :
    DecidedBy (permitted w.fs cred .read f = true)
      (serveNfsProcedure6ReadFromFile cred args) w := by
  refine decidedBy_orGarbageArgs hArgs <| decidedBy_withFile hView <|
    decidedBy_withAttributes fun fattr => ?_
  split
  · exact decidedBy_pure (by simp) rfl
  · refine decidedBy_withPermission (by rfl) hLookup (returns_bind_any fun data => ?_)
    cases data with
    | none => exact (modular_avoids _).systemErr
    | some data => exact (modular_avoids _).withAttributes fun _ => (modular_avoids _).ok _

theorem decidedBy_write {args : WriteArgs} {data : Bytes} (hArgs : args.decode = some (i, data)) :
    DecidedBy (permitted w.fs cred .write f = true)
      (serveNfsProcedure8WriteToFile cred args) w := by
  refine decidedBy_orGarbageArgs hArgs <| decidedBy_withFile hView <|
    decidedBy_withAttributes fun fattr => ?_
  split
  · exact decidedBy_pure (by simp) rfl
  · split
    · exact decidedBy_pure (by simp) rfl
    · refine decidedBy_withPermission (by rfl) hLookup (returns_bind_any fun result => ?_)
      cases result with
      | written => exact (modular_avoids _).withAttributes fun _ => (modular_avoids _).ok _
      | notOpened | notSeekable | tooBig | ioError | noSpace | failed => rintro ⟨⟩

theorem decidedBy_readdir {args : ReadDirArgs} {cookie : Nat}
    (hArgs : args.decode = some (i, cookie)) :
    DecidedBy (permitted w.fs cred .read f = true)
      (serveNfsProcedure16ReadFromDirectory cred args) w := by
  refine decidedBy_orGarbageArgs hArgs <| decidedBy_withDirectory hView <|
    decidedBy_withPermission (by rfl) hLookup ?_
  cases cred with
  | authNone => exact (modular_avoids _).systemErr
  | authSys caller =>
    refine returns_bind_any fun entries => ?_
    cases entries with
    | none => exact (modular_avoids _).systemErr
    | some entries => exact (modular_avoids _).ok _

theorem decidedBy_create {args : CreateArgs} {a : Attributes}
    (hArgs : args.decode = some (i, n, a)) :
    DecidedBy (permitted w.fs cred .write f = true) (serveNfsProcedure9CreateFile cred args) w := by
  refine decidedBy_orGarbageArgs hArgs <| decidedBy_withDirectory hView ?_
  split
  · exact decidedBy_pure (by simp) rfl
  · exact decidedBy_withFree <| decidedBy_withPermission (by rfl) hLookup <|
      (modular_avoids _).orReport (fun e => by cases e <;> decide) fun _ =>
      (modular_avoids _).setOwner <| (modular_avoids _).setSize <| (modular_avoids _).setTimes <|
      avoids_withNewHandle _

theorem decidedBy_remove {args : DirOpArgs} (hArgs : args.decode = some (i, n)) :
    DecidedBy (permitted w.fs cred .write f = true)
      (serveNfsProcedure10RemoveFile cred args) w := by
  refine decidedBy_orGarbageArgs hArgs <| decidedBy_withDirectory hView <|
    decidedBy_withExisting fun st => decidedBy_withAttributes fun fattr => ?_
  dsimp only
  split
  · exact decidedBy_pure (by simp) rfl
  · exact decidedBy_withPermission (by rfl) hLookup <|
      (modular_avoids _).orReport (fun e => by cases e <;> decide) fun _ => returns_bind_any fun _ => (modular_avoids _).ok _

end Decided

theorem Reply.error_eq_some {σ : Type} {reply : Reply σ β} {stat : σ} :
    reply.error = some stat ↔ reply = .err stat := by
  cases reply <;> simp [Reply.error]

/-- The answer of a procedure is its reply under another name. -/
theorem DecidedBy.answer {G : Prop} {p : Proc (NfsReply β)} (h : DecidedBy G p w)
    {c : NfsReply β → Answer} (hError : ∀ reply, (c reply).error = reply.error)
    (hOk : ∀ reply, (c reply).isOk = reply.isOk) :
    (((do return c (← p) : Proc Answer).run w).1.error = some .nfserrAcces → ¬G) ∧
      (((do return c (← p) : Proc Answer).run w).1.isOk = true → G) := by
  rw [run_return, hError, hOk, Reply.error_eq_some]
  exact ⟨h.refused, h.ok⟩

/-- **The server's rule decides.** A request that needs a permission is refused only where the
caller does not have it, and carried out only where the caller has it. -/
theorem decidedBy_serve (cred : Credential) {r : Request} {a : Access}
    (hr : r.checked = some (i, a)) (hView : w.view i = some p) (hLookup : w.fs.lookup false p = .ok f) :
    ((w.answer cred r).error = some .nfserrAcces → ¬permitted w.fs cred a f = true) ∧
    ((w.answer cred r).isOk = true → permitted w.fs cred a f = true) := by
  cases r with
  | lookup args =>
    obtain ⟨⟨i, n⟩, hArgs, ⟨⟩⟩ := map_eq_some_iff.mp hr
    exact (decidedBy_lookup hView hLookup hArgs).answer (fun _ => rfl) fun _ => rfl
  | read args =>
    obtain ⟨i, hArgs, ⟨⟩⟩ := map_eq_some_iff.mp hr
    exact (decidedBy_read hView hLookup hArgs).answer (fun _ => rfl) fun _ => rfl
  | write args =>
    obtain ⟨⟨i, data⟩, hArgs, ⟨⟩⟩ := map_eq_some_iff.mp hr
    exact (decidedBy_write hView hLookup hArgs).answer (fun _ => rfl) fun _ => rfl
  | readdir args =>
    obtain ⟨⟨i, cookie⟩, hArgs, ⟨⟩⟩ := map_eq_some_iff.mp hr
    exact (decidedBy_readdir hView hLookup hArgs).answer (fun _ => rfl) fun _ => rfl
  | create args =>
    obtain ⟨⟨i, n, a⟩, hArgs, ⟨⟩⟩ := map_eq_some_iff.mp hr
    exact (decidedBy_create hView hLookup hArgs).answer (fun _ => rfl) fun _ => rfl
  | remove args =>
    obtain ⟨⟨i, n⟩, hArgs, ⟨⟩⟩ := map_eq_some_iff.mp hr
    exact (decidedBy_remove hView hLookup hArgs).answer (fun _ => rfl) fun _ => rfl
  | _ => cases hr

end Procedures

/-- **The answer follows the credential** if and only if its list of groups makes no difference.
Of a request that needs a permission and meets no other error: it is refused exactly where the
rule with the whole credential refuses it, unless the caller is in the group of the object by
the list alone, and the group and the others do not have the same permission. -/
theorem follows_credential_iff {w : World} {caller : AuthSysParams} {r : Request} {i : Ino}
    {a : Access} {p : Path} {f : Ino} {x : Inode} (hr : r.checked = some (i, a))
    (hView : w.view i = some p) (hLookup : w.fs.lookup false p = .ok f)
    (hInode : w.fs.inode f = some x) (hNoOther : (w.answer (.authSys caller) r).isOk = true ∨
      (w.answer (.authSys caller) r).error = some .nfserrAcces) :
    ((w.answer (.authSys caller) r).error = some .nfserrAcces ↔
        posixAllows a x.attr caller = false) ↔
      ¬Overlooked a x.attr caller := by
  obtain ⟨hRefused, hOk⟩ := decidedBy_serve (.authSys caller) hr hView hLookup
  -- with no other error, the answer tells what the server's own rule says
  have hServer : (w.answer (.authSys caller) r).error = some .nfserrAcces ↔
      permitted w.fs (.authSys caller) a f = false := by
    constructor
    · intro h
      exact Bool.eq_false_iff.mpr (hRefused h)
    · intro h
      refine hNoOther.resolve_left fun hIsOk => ?_
      rw [hOk hIsOk] at h
      cases h
  rw [hServer, ← permitted_eq_iff hInode]
  cases permitted w.fs (.authSys caller) a f <;> cases posixAllows a x.attr caller <;> simp

namespace Sample

/-- A caller in the group of `caller`, by the list. -/
def member : AuthSysParams := ⟨0, bytes "client", 2000, 2000, [1000]⟩

/-- After `caller` has made the file `/exp/new` with this mode. -/
def withNew (mode : Nat) : World :=
  (world.step mount).step (request (.create ⟨some (nameIn 2 "new"),
    some ⟨mode, 1000, 1000, unchanged64, some ⟨unchanged64, unchanged64⟩,
      some ⟨unchanged64, unchanged64⟩⟩⟩))

/-- The first bytes of the new file. -/
def readNew : Request := .read ⟨some (handle 26), 0, 100⟩

end Sample

/-- A file that everybody may read, and a caller in its group by the list. -/
theorem follows_credential_new :
    let w := Sample.withNew 0o644
    ∃ x, w.fs.inode 26 = some x ∧ x.attr.gid ∈ Sample.member.gids ∧
      ((w.answer (.authSys Sample.member) Sample.readNew).error = some .nfserrAcces ↔
        posixAllows .read x.attr Sample.member = false) := by
  intro w
  have hAttr : (w.fs.inode 26).map (fun x => (x.attr.perm, x.attr.gid)) = some (0o644, 1000) := by
    decide +kernel
  obtain ⟨x, hx, hAttr⟩ := map_eq_some_iff.mp hAttr
  have hPerm : x.attr.perm = 0o644 := congrArg Prod.fst hAttr
  have hGid : x.attr.gid = 1000 := congrArg Prod.snd hAttr
  refine ⟨x, hx, by rw [hGid]; decide, ?_⟩
  refine (follows_credential_iff (i := 26) (p := bytes "/exp/new") rfl (by decide +kernel)
    (by decide +kernel) hx (by decide +kernel)).mpr fun hOverlooked => ?_
  -- the group may read and so may the others
  have hDiffer := hOverlooked.differ
  rw [hPerm] at hDiffer
  exact hDiffer rfl

/-- **The list of groups is overlooked.** A caller is in the group of a file by the list of
its credential. Where the group may read and others may not, the caller is refused; where
others may read and the group may not, the caller is not refused. -/
theorem credential_not_followed :
    let posix (w : World) := (w.fs.inode 26).map fun x => posixAllows .read x.attr Sample.member
    posix (Sample.withNew 0o640) = some true ∧
      (Sample.withNew 0o640).answer (.authSys Sample.member) Sample.readNew =
        .readRes (.err .nfserrAcces) ∧
      posix (Sample.withNew 0o604) = some false ∧
      ((Sample.withNew 0o604).answer (.authSys Sample.member) Sample.readNew).isOk = true := by
  decide +kernel

end QuicNfs.Server

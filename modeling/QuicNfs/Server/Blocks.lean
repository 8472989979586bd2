import QuicNfs.Server.Server

/-!
# QuicNfs — what the blocks of the procedures keep

Some properties of a procedure follow from those of its blocks, whatever the machine answers: that
it does not end in a certain error, or that it removes from a list only what it has found there.

* `Prog.Issues` of the parts that only look;
* `Tame` — the programs that write neither the inode cache nor the list of sessions;
* `Modular` — a property of programs for which a tame beginning does not matter;
* `Modular.serve` — such a property holds of every request, if it holds where a list is written.
-/

namespace QuicNfs.Server

open Kernel Lib Prog

variable {α β : Type}

/-! ## The operations of a program -/

section Issues

variable {P : {β : Type} → Op β → Prop}

theorem issues_allocate (hMalloc : P (.sys .malloc)) (n : Nat) : (allocate n).Issues P := by
  induction n with
  | zero => trivial
  | succ n ih =>
    refine issues_call hMalloc fun b => ?_
    cases b with
    | true => exact ih
    | false => trivial

theorem issues_getAttributes {p : Path} (hMalloc : P (.sys .malloc)) (hLstat : P (.sys (.lstat p))) :
    (getAttributes p).Issues P := by
  refine issues_call hLstat fun r => ?_
  cases r with
  | error e => trivial
  | ok st => exact issues_bind (issues_allocate hMalloc 4) fun _ => trivial

theorem issues_checkPermission {p : Path} (hLstat : P (.sys (.lstat p))) (a : Access)
    (uid gid : Nat) : (checkPermission a p uid gid).Issues P := by
  refine issues_call hLstat fun r => ?_
  cases r <;> trivial

theorem issues_needs {p : Path} (hLstat : P (.sys (.lstat p))) (a : Access)
    (caller : AuthSysParams) : (needs a p caller).Issues P := by
  unfold needs unlessRoot
  split
  · trivial
  · exact issues_checkPermission hLstat a _ _

theorem issues_rename {p q : Path} (hFrom : P (.sys (.lstat p))) (hTo : P (.sys (.lstat q)))
    (caller : AuthSysParams) : (checkRenameProcPermissions p q caller).Issues P := by
  unfold checkRenameProcPermissions unlessRoot
  split
  · trivial
  · refine issues_bind (issues_checkPermission hFrom _ _ _) fun verdict => ?_
    cases verdict with
    | failed | refused => trivial
    | granted => exact issues_checkPermission hTo _ _ _

theorem issues_setattr {p : Path} (hLstat : P (.sys (.lstat p))) (a : Attributes)
    (caller : AuthSysParams) : (checkSetattrProcPermissions p a caller).Issues P := by
  unfold checkSetattrProcPermissions unlessRoot
  split
  · trivial
  · split
    · trivial
    · split
      · exact issues_checkPermission hLstat _ _ _
      · trivial

end Issues

def Op.tame {β : Type} : Op β → Bool
  | .setInodeCache _ => false
  | .setReaddirSessions _ => false
  | _ => true

/-- The program writes neither list. -/
abbrev Tame (p : Proc α) : Prop := p.Issues fun o => o.tame = true

theorem tame_sys (o : Sys α) : Tame (sys o) := ⟨rfl, fun _ => trivial⟩

theorem tame_needsNothing (p : Path) (caller : AuthSysParams) : Tame (needsNothing p caller) := by
  unfold needsNothing unlessRoot
  split <;> trivial

theorem tame_readFromFile (p : Path) (offset byteCount : Nat) :
    Tame (readFromFile p offset byteCount) := by
  refine issues_call rfl fun file => ?_
  cases file with
  | error e => trivial
  | ok file =>
    refine issues_call rfl fun r => ?_
    cases r with
    | error e => exact issues_call rfl fun _ => trivial
    | ok r =>
      refine issues_call rfl fun data => issues_call rfl fun _ => ?_
      cases data <;> trivial

theorem tame_writeToFile (p : Path) (offset : Nat) (source : Bytes) :
    Tame (writeToFile p offset source) := by
  refine issues_call rfl fun file => ?_
  cases file with
  | error e => trivial
  | ok file =>
    refine issues_call rfl fun r => ?_
    cases r with
    | error e => exact issues_call rfl fun _ => trivial
    | ok r =>
      refine issues_call rfl fun data => ?_
      cases data <;> exact issues_call rfl fun _ => trivial

/-! ## Blocks -/

/-- `K` holds of every answer but the error `stat`, and of a program with a tame beginning if it
holds of the rest. -/
structure Modular (stat : Stat) (K : {β : Type} → Proc (NfsReply β) → Prop) : Prop where
  answer {β : Type} {r : NfsReply β} : r ≠ .err stat → K (pure r)
  tame {α β : Type} {p : Proc α} {f : α → Proc (NfsReply β)} :
    Tame p → (∀ a, K (f a)) → K (p >>= f)

namespace Modular

variable {stat : Stat} {K : {β : Type} → Proc (NfsReply β) → Prop} {p : Path} {i : Ino}
  {k : Proc (NfsReply β)} {a : Attributes} {cred : Credential} (h : Modular stat K)
include h

theorem ok (b : β) : K (pure (.ok b)) := h.answer (by rintro ⟨⟩)

theorem systemErr : K (pure .systemErr : Proc (NfsReply β)) := h.answer (by rintro ⟨⟩)

theorem err {s : Stat} (hStat : s ≠ stat) : K (pure (.err s) : Proc (NfsReply β)) :=
  h.answer fun hEq => hStat (Reply.err.inj hEq)

omit h in
theorem either {c : Prop} [Decidable c] {q q' : Proc (NfsReply β)} (hq : K q) (hq' : K q') :
    K (if c then q else q') := by
  split
  · exact hq
  · exact hq'

theorem withAttributes {k : FAttr → Proc (NfsReply β)} (hk : ∀ fattr, K (k fattr)) :
    K (withAttributes p k) := by
  refine h.tame (issues_getAttributes rfl rfl) fun fattr => ?_
  cases fattr with
  | none => exact h.systemErr
  | some fattr => exact hk fattr

/-- The procedure's own report of an error is not the one in question. -/
theorem orReport {report : Errno → Option Stat} {o : Sys (Except Errno α)}
    {k : α → Proc (NfsReply β)} (hReport : ∀ e, report e ≠ some stat) (hk : ∀ a, K (k a)) :
    K (orReport report (sys o) k) := by
  refine h.tame (tame_sys o) fun r => ?_
  cases r with
  | ok a => exact hk a
  -- an error that is not reported is a failure of the whole call
  | error e =>
    dsimp only
    cases hStat : report e with
    | none => exact h.systemErr
    | some s =>
      refine h.err ?_
      rintro rfl
      exact hReport e hStat

theorem orSystemErr {o : Sys (Except Errno Unit)} (hk : K k) :
    K (orSystemErr (sys o) fun () => k) :=
  h.orReport (fun _ => by simp) fun _ => hk

theorem setOwner (hk : K k) : K (setOwner p a k) := h.orSystemErr hk

theorem setSize (hk : K k) : K (setSize p a k) := either (h.orSystemErr hk) hk

theorem setTimes (hk : K k) : K (setTimes p a k) := either (h.orSystemErr hk) hk

theorem setMode (hk : K k) : K (setMode p a k) := either (h.orSystemErr hk) hk

end Modular

/-! ## Blocks with an error of their own -/

namespace Modular

variable {K : {β : Type} → Proc (NfsReply β) → Prop} {p : Path} {k : Proc (NfsReply β)}
  {cred : Credential} (h : Modular .nfsOk K)
include h

theorem withPermission {check : AuthSysParams → Proc Verdict}
    (hCheck : ∀ caller, Tame (check caller)) (hk : K k) : K (withPermission cred check k) := by
  cases cred with
  -- without credentials nothing is checked
  | authNone => exact hk
  | authSys caller =>
    refine h.tame (hCheck caller) fun verdict => ?_
    cases verdict with
    | failed => exact h.systemErr
    | refused => exact h.err (by decide)
    | granted => exact hk

theorem withExisting {k : Kernel.Stat → Proc (NfsReply β)} (hk : ∀ st, K (k st)) :
    K (withExisting p k) := by
  refine h.tame (tame_sys _) fun r => ?_
  split
  · exact hk _
  · exact h.err (by decide)
  · exact h.systemErr

theorem withFree (hk : K k) : K (withFree p k) := by
  refine h.tame (tame_sys _) fun r => ?_
  split
  · exact h.err (by decide)
  · exact hk
  · exact h.systemErr

end Modular

/-! ## Procedures -/

/-- A reply that fails does not fail with NFS_OK. -/
def NfsReply.Honest (r : NfsReply β) : Prop := r ≠ .err .nfsOk

/-- An answer that fails names a failure. -/
def Answer.Honest : Answer → Prop
  | fhStatus r => r ≠ .err .mntOk
  | attrStat r => NfsReply.Honest r
  | dirOpRes r => NfsReply.Honest r
  | readLinkRes r => NfsReply.Honest r
  | readRes r => NfsReply.Honest r
  | nfsStat r => NfsReply.Honest r
  | readDirRes r => NfsReply.Honest r
  | statFsRes r => NfsReply.Honest r

/-- `K` holds also where a list is written, and `F` of a procedure as a whole: where it begins with
the path of a handle, `K` has to hold of the rest. -/
structure Procedural (K F : {β : Type} → Proc (NfsReply β) → Prop) : Prop
    extends Modular .nfsOk K where
  rest {β : Type} {p : Proc (NfsReply β)} : F p → K p
  garbageArgs {β : Type} : F (pure .garbageArgs : Proc (NfsReply β))
  withFile {β : Type} {i : Ino} {k : Path → Proc (NfsReply β)} : (∀ p, K (k p)) → F (withFile i k)
  forgetPath (p : Path) : K (do forgetPath p; pure (.ok ()) : Proc (NfsReply Unit))
  updatePath (p q : Path) : K (do
    let cache ← Prog.call .getInodeCache
    Prog.call (.setInodeCache (cache.updateInodeMappingAbsolutePathByAbsolutePath p q))
    pure (.ok ()) : Proc (NfsReply Unit))
  answerWithHandle (p : Path) (handle : NfsFileHandle) : K (answerWithHandle p handle)
  withNewHandle (p : Path) : K (withNewHandle p (Server.answerWithHandle p))
  readFromDirectory {client : AuthSysParams} {p : Path} {d : Ino} {cookie count : Nat}
    {f : Option (List DirectoryEntry × Bool) → Proc (NfsReply ReadDirOk)} :
    (∀ r, ∃ reply : NfsReply ReadDirOk, reply.Honest ∧ f r = pure reply) →
    K (readFromDirectory client p d cookie count >>= f)

namespace Procedural

variable {K F : {β : Type} → Proc (NfsReply β) → Prop} (h : Procedural K F)
include h

theorem orGarbageArgs {args : Option α} {k : α → Proc (NfsReply β)} (hk : ∀ a, F (k a)) :
    F (orGarbageArgs args k) := by
  cases args with
  | none => exact h.garbageArgs
  | some a => exact hk a

variable {i : Ino} {cred : Credential}

theorem withDirectory {k : Path → Proc (NfsReply β)} (hk : ∀ p, K (k p)) : F (withDirectory i k) :=
  h.withFile fun p => h.withAttributes fun _ => Modular.either (hk p) (h.err (by decide))

theorem withNewName {a : Access} {n : Bytes} {k : Path → Proc (NfsReply β)} (hk : ∀ p, K (k p)) :
    F (withNewName (needs a) cred i n k) :=
  h.withDirectory fun _ => Modular.either (h.err (by decide)) <|
    h.withFree <| h.withPermission (issues_needs rfl a) (hk _)

theorem withOldName {n : Bytes} {k : Path → Path → FAttr → Proc (NfsReply β)}
    (hk : ∀ p q fattr, K (k p q fattr)) : F (withOldName i n k) :=
  h.withDirectory fun p => h.withExisting fun _ => h.withAttributes fun _ => hk p _ _

theorem lookup (cred : Credential) (args : DirOpArgs) :
    F (serveNfsProcedure4LookUpFileName cred args) := by
  refine h.orGarbageArgs fun a => h.withDirectory fun p => h.withExisting fun st =>
    h.withPermission (issues_needs rfl _) (h.tame ⟨rfl, fun _ => trivial⟩ fun cache => ?_)
  split
  · exact h.answerWithHandle _ _
  · exact h.withNewHandle _

theorem read (cred : Credential) (args : ReadArgs) :
    F (serveNfsProcedure6ReadFromFile cred args) := by
  refine h.orGarbageArgs fun i => h.withFile fun p => h.withAttributes fun _ =>
    Modular.either (h.err (by decide)) <| h.withPermission (issues_needs rfl _) <|
    h.tame (tame_readFromFile _ _ _) fun data => ?_
  cases data with
  | none => exact h.systemErr
  | some data => exact h.withAttributes fun _ => h.ok _

theorem write (cred : Credential) (args : WriteArgs) :
    F (serveNfsProcedure8WriteToFile cred args) := by
  refine h.orGarbageArgs fun a => h.withFile fun p => h.withAttributes fun _ =>
    Modular.either (h.err (by decide)) <| Modular.either (h.err (by decide)) <|
    h.withPermission (issues_needs rfl _) <| h.tame (tame_writeToFile _ _ _) fun r => ?_
  cases r with
  | written => exact h.withAttributes fun _ => h.ok _
  | notOpened | notSeekable | failed => exact h.systemErr
  | tooBig | ioError | noSpace => exact h.err (by decide)

theorem readdir (cred : Credential) (args : ReadDirArgs) :
    F (serveNfsProcedure16ReadFromDirectory cred args) := by
  refine h.orGarbageArgs fun a => h.withDirectory fun p =>
    h.withPermission (issues_needs rfl _) ?_
  cases cred with
  | authNone => exact h.systemErr
  | authSys client =>
    refine h.readFromDirectory fun r => ?_
    cases r with
    | none | some => exact ⟨_, by rintro ⟨⟩, rfl⟩

/-- **Every request.** -/
theorem serve {W : Proc Answer → Prop}
    (hAnswer : ∀ {β : Type} {p : Proc (NfsReply β)} {f : NfsReply β → Answer}, F p →
      (∀ r : NfsReply β, r.Honest → (f r).Honest) → W (do return f (← p)))
    (hMnt : ∀ dirpath, W (do return .fhStatus (← serveMntProcedure1AddMountEntry cred dirpath)))
    (r : Request) : W (serve cred r) := by
  cases r
  case mnt a => exact hMnt a
  all_goals refine hAnswer ?_ fun _ hr => hr
  case lookup a => exact h.lookup cred a
  case read a => exact h.read cred a
  case write a => exact h.write cred a
  case readdir a => exact h.readdir cred a
  case getattr a =>
    exact h.orGarbageArgs fun i => h.withFile fun p => h.withPermission (tame_needsNothing p) <|
      h.withAttributes fun _ => h.ok _
  case statfs a =>
    exact h.orGarbageArgs fun i => h.withFile fun p => h.withPermission (tame_needsNothing p) <|
      h.orReport (fun e => by cases e <;> decide) fun _ => h.ok _
  case setattr a =>
    exact h.orGarbageArgs fun a => h.withFile fun p => h.withPermission (issues_setattr rfl _) <|
      h.setMode <| h.setOwner <| h.setSize <| h.setTimes <| h.withAttributes fun _ => h.ok _
  case readlink a =>
    exact h.orGarbageArgs fun i => h.withFile fun p => h.withAttributes fun _ =>
      Modular.either (h.err (by decide)) <| h.withPermission (issues_needs rfl _) <|
      h.orReport (fun e => by cases e <;> decide) fun _ => h.ok _
  case create a =>
    exact h.orGarbageArgs fun a => h.withNewName fun p =>
      h.orReport (fun e => by cases e <;> decide) fun _ =>
      h.setOwner <| h.setSize <| h.setTimes <| h.withNewHandle p
  case mkdir a =>
    exact h.orGarbageArgs fun a => h.withNewName fun p =>
      h.orReport (fun e => by cases e <;> decide) fun _ =>
      h.setOwner <| Modular.either (h.err (by decide)) <| h.setTimes <| h.withNewHandle p
  case remove a =>
    exact h.orGarbageArgs fun a => h.withOldName fun p q fattr => Modular.either (h.err (by decide)) <|
      h.withPermission (issues_needs rfl _) <| h.orReport (fun e => by cases e <;> decide) fun _ =>
      h.forgetPath q
  case rmdir a =>
    exact h.orGarbageArgs fun a => h.withOldName fun p q fattr => Modular.either (h.err (by decide)) <|
      h.withPermission (issues_needs rfl _) <| h.orReport (fun e => by cases e <;> decide) fun _ =>
      h.forgetPath q
  case rename a =>
    exact h.orGarbageArgs fun a => h.withDirectory fun p => h.withExisting fun _ =>
      h.rest <| h.withDirectory fun q => h.withPermission (issues_rename rfl rfl) <|
      h.orReport (fun e => by cases e <;> decide) fun _ => h.updatePath _ _
  case link a =>
    exact h.orGarbageArgs fun a => h.withFile fun p => h.withAttributes fun _ =>
      Modular.either (h.err (by decide)) <| h.rest <| h.withNewName fun _ =>
      h.orReport (fun e => by cases e <;> decide) fun _ => h.ok _
  case symlink a =>
    exact h.orGarbageArgs fun a => h.withNewName fun _ =>
      h.orReport (fun e => by cases e <;> decide) fun _ => h.ok _

end Procedural

end QuicNfs.Server

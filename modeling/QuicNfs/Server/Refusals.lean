import QuicNfs.Server.Service

/-!
# QuicNfs — what a quiet server looks at before it acts

The first blocks of a procedure only look: they find the path of a handle, the type of
the object there, whether a name exists, and whether the caller has a permission. On a
machine where no call fails for a reason of its own, what they see depends on the tree
and the inode cache alone, and so does the answer of a request that one of them refuses.

* `World.file`, `World.directory`, `World.existing`, `World.vacant`, `World.permitted` —
  what the blocks see;
* `Quiet.answer_withFile`, `Quiet.answer_withDirectory`, … — the blocks refuse or go on
  by what they see.
-/

namespace QuicNfs.Server

open Kernel Lib

variable {α β : Type}

/-- Why a request goes no further. -/
inductive Refusal where
  | status (stat : Stat)
  | systemErr
deriving DecidableEq, Repr

def Refusal.reply : Refusal → NfsReply β
  | status stat => .err stat
  | systemErr => .systemErr

/-- The reply of a block that refuses the request, or of what comes after it. -/
def orRefused (seen : Except Refusal α) (k : α → NfsReply β) : NfsReply β :=
  match seen with
  | .error refusal => refusal.reply
  | .ok a => k a

@[simp] theorem orRefused_error (refusal : Refusal) (k : α → NfsReply β) :
    orRefused (.error refusal) k = refusal.reply := rfl

@[simp] theorem orRefused_ok (a : α) (k : α → NfsReply β) : orRefused (.ok a) k = k a := rfl

theorem orRefused_congr {seen : Except Refusal α} {k k' : α → NfsReply β}
    (h : ∀ a, seen = .ok a → k a = k' a) : orRefused seen k = orRefused seen k' := by
  cases seen with
  | error refusal => rfl
  | ok a => exact h a rfl

namespace World

variable (w : World)

/-- The path of a handle. -/
def file (i : Ino) : Except Refusal Path :=
  match w.view i with
  | none => .error (.status .nfserrNoent)
  | some p => .ok p

/-- What `lstat` finds at a path whose attributes are read. -/
def attributes (p : Path) : Except Refusal Kernel.Stat :=
  match w.fs.lstat w.host p with
  | .error _ => .error .systemErr
  | .ok st => .ok st

/-- What it finds at a path that has to lead somewhere. -/
def existing (p : Path) : Except Refusal Kernel.Stat :=
  match w.fs.lstat w.host p with
  | .error .enoent => .error (.status .nfserrNoent)
  | .error _ => .error .systemErr
  | .ok st => .ok st

/-- A path that may not lead anywhere. -/
def vacant (p : Path) : Except Refusal Unit :=
  match w.fs.lstat w.host p with
  | .error .enoent => .ok ()
  | .error _ => .error .systemErr
  | .ok _ => .error (.status .nfserrExist)

/-- The path of a handle, and the directory there. -/
def directory (i : Ino) : Except Refusal (Path × Ino) := do
  let p ← w.file i
  let st ← w.attributes p
  if (fattrOfStat st).nfsFtype = .nfDir then .ok (p, st.ino) else .error (.status .nfserrNotdir)

end World

/-- Whether the caller has the permission on the object, as far as it needs one. -/
def permitted (fs : FileSystem) (cred : Credential) (a : Access) (i : Ino) : Bool :=
  match cred with
  | .authNone => true
  | .authSys caller =>
    caller.uid = 0 ||
      (fs.inode i).any fun x => allows a x.attr.perm x.attr.uid x.attr.gid caller.uid caller.gid

variable {fs : FileSystem} {a : Access} {i : Ino} {caller : AuthSysParams}

theorem allowed_of_permitted {cred : Credential} (h : permitted fs cred a i = true) :
    Allowed fs cred a i := by
  rintro caller rfl hCaller
  obtain ⟨x, hx, hAllows⟩ := (Option.any_eq_true _ _).mp
    ((Bool.or_eq_true_iff.mp h).resolve_left (by simpa using hCaller))
  exact ⟨x, hx, hAllows⟩

variable {w : World} {p : Path}

/-! ## The blocks -/

theorem answer_withFile (w : World) (i : Ino) (k : Path → Proc (NfsReply β)) :
    ((withFile i k).run w).1 = orRefused (w.file i) fun p => ((k p).run w).1 := by
  unfold withFile World.file
  rw [run_getInodeCache]
  show ((_ : Proc (NfsReply β)).run w).1 = _
  unfold World.view
  cases w.inodeCache.getAbsolutePathFromInodeNumber i <;> rfl

theorem Quiet.answer_withAttributes (hw : Quiet w) (p : Path) (k : FAttr → Proc (NfsReply β)) :
    ((withAttributes p k).run w).1 =
      orRefused (w.attributes p) fun st => ((k (fattrOfStat st)).run (w.wait 5)).1 := by
  unfold World.attributes
  cases hStat : w.fs.lstat w.host p with
  | error e =>
    unfold withAttributes getAttributes
    rw [Prog.run_bind, run_lstat, hw.sees, hStat]
    rfl
  | ok st =>
    rw [hw.run_withAttributes hStat]
    rfl

theorem Quiet.answer_withDirectory (hw : Quiet w) (i : Ino) (k : Path → Proc (NfsReply β)) :
    ((withDirectory i k).run w).1 =
      orRefused (w.directory i) fun x => ((k x.1).run (w.wait 5)).1 := by
  unfold withDirectory World.directory
  rw [answer_withFile]
  cases w.file i with
  | error refusal => rfl
  | ok p =>
    rw [orRefused_ok, hw.answer_withAttributes]
    show _ = orRefused (w.attributes p >>= _) _
    cases w.attributes p with
    | error refusal => rfl
    | ok st =>
      show ((if _ then _ else _ : Proc (NfsReply β)).run _).1 = orRefused (if _ then _ else _) _
      split <;> rfl

theorem Quiet.answer_withExisting (hw : Quiet w) (p : Path) (k : Kernel.Stat → Proc (NfsReply β)) :
    ((withExisting p k).run w).1 =
      orRefused (w.existing p) fun st => ((k st).run (w.wait 1)).1 := by
  unfold withExisting World.existing
  rw [run_lstat, hw.sees]
  cases w.fs.lstat w.host p with
  | error e => cases e <;> rfl
  | ok st => rfl

theorem Quiet.answer_withFree (hw : Quiet w) (p : Path) (k : Proc (NfsReply β)) :
    ((withFree p k).run w).1 = orRefused (w.vacant p) fun _ => (k.run (w.wait 1)).1 := by
  unfold withFree World.vacant
  rw [run_lstat, hw.sees]
  cases w.fs.lstat w.host p with
  | error e => cases e <;> rfl
  | ok st => rfl

/-- The directory that is found is what the path of the handle leads to. -/
theorem directory_eq_ok {d : Ino} (h : w.directory i = .ok (p, d)) :
    w.view i = some p ∧ w.fs.lookup false p = .ok d ∧ w.fs.isDir d = true := by
  -- the three tests of the handle, one after the other
  unfold World.directory World.file at h
  cases hView : w.view i with
  | none =>
    rw [hView] at h
    cases h
  | some q =>
    rw [hView] at h
    change (w.attributes q >>= _) = _ at h
    unfold World.attributes at h
    cases hStat : w.fs.lstat w.host q with
    | error e =>
      rw [hStat] at h
      cases h
    | ok st =>
      rw [hStat] at h
      change (if (fattrOfStat st).nfsFtype = .nfDir then _ else _) = _ at h
      by_cases hDir : (fattrOfStat st).nfsFtype = .nfDir
      · rw [if_pos hDir] at h
        obtain ⟨rfl, rfl⟩ := Prod.mk.inj (Except.ok.inj h)
        exact ⟨rfl, (FileSystem.lstat_ok hStat).1, (nfsFtype_eq_dir_iff hStat).mp hDir⟩
      · rw [if_neg hDir] at h
        cases h

theorem permitted_of_inode (hCaller : caller.uid ≠ 0) {x : Inode} (hx : fs.inode i = some x)
    (a : Access) :
    permitted fs (.authSys caller) a i =
      allows a x.attr.perm x.attr.uid x.attr.gid caller.uid caller.gid := by
  unfold permitted
  dsimp only
  rw [hx, decide_eq_false hCaller, Bool.false_or, Option.any_some]

/-- The check of one permission, of a caller that is not root. -/
theorem Quiet.run_checkPermission (hw : Quiet w) (hCaller : caller.uid ≠ 0)
    (hLookup : w.fs.lookup false p = .ok i) (a : Access) :
    (checkPermission a p caller.uid caller.gid).run w =
      (if permitted w.fs (.authSys caller) a i then .granted else .refused, w.wait 1) := by
  obtain ⟨st, hStat, rfl⟩ := FileSystem.lstat_of_lookup w.host hLookup
  obtain ⟨-, x, hx, -, hPerm, hUid, hGid⟩ := FileSystem.lstat_ok hStat
  unfold checkPermission
  rw [run_lstat, hw.sees, hStat, permitted_of_inode hCaller hx]
  dsimp only
  rw [hPerm, hUid, hGid]
  rfl

theorem uid_ne_zero_of_not_permitted (h : permitted fs (.authSys caller) a i = false) :
    caller.uid ≠ 0 := by
  simpa using (Bool.or_eq_false_iff.mp h).1

theorem Quiet.run_needs_of_not_permitted (hw : Quiet w) (hLookup : w.fs.lookup false p = .ok i)
    (hRefused : permitted w.fs (.authSys caller) a i = false) :
    (needs a p caller).run w = (.refused, w.wait 1) := by
  have hCaller := uid_ne_zero_of_not_permitted hRefused
  unfold needs unlessRoot
  rw [if_neg hCaller, hw.run_checkPermission hCaller hLookup, hRefused]
  rfl

theorem answer_withPermission_of_refused {check : AuthSysParams → Proc Verdict} {w' : World}
    (hCheck : (check caller).run w = (.refused, w')) (k : Proc (NfsReply β)) :
    ((withPermission (.authSys caller) check k).run w).1 = .err .nfserrAcces := by
  unfold withPermission
  rw [Prog.run_bind, hCheck]
  rfl

end QuicNfs.Server

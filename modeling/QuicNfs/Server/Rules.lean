import QuicNfs.Kernel.Effects
import QuicNfs.Server.Server

/-!
# QuicNfs — reasoning rules for the procedures

One rule for each building block of a procedure: what has to be shown of the
rest for the whole to be safe. `Safe J Q p w` says that `p`, run from `w`,
makes only calls that meet the demand `J` and ends with a reply and a world
that meet `Q`, whenever the run starts: what the circumstances of the single
calls are is left open. Blocks that only read leave the world as it is.
-/

namespace QuicNfs.Server

open Kernel Lib Prog

/-- The system calls that neither read nor change a file. -/
def silent {β : Type} : Sys β → Bool
  | .malloc => true
  | .time => true
  | .readExports => true
  | .fopen _ _ => true
  | .fseek _ _ => true
  | .opendir _ => true
  | .closedir _ => true
  | .seekdir _ _ => true
  | _ => false

/-- What is assumed and what is demanded of the system calls of a run. Silent
calls meet the demand anyway. -/
structure Demand where
  assumes {β : Type} : Sys β → World → Prop
  holds {β : Type} : Sys β → World → Prop
  silent {β : Type} (o : Sys β) (w : World) : silent o = true → holds o w

/-- Nothing is assumed and nothing demanded. -/
def Demand.none : Demand := ⟨fun _ _ => True, fun _ _ => True, fun _ _ _ => trivial⟩

/-- The demand on the operations of a procedure. -/
def Demand.contract (J : Demand) : Contract Op World where
  assumes := fun
    | .sys o, w => J.assumes o w
    | _, _ => True
  demands := fun
    | .sys o, w => J.holds o w
    | _, _ => True

/-- The attributes at `p` may be read in `w`. -/
abbrev Demand.Sees (J : Demand) (w : World) (p : Path) : Prop :=
  ∀ t, J.holds (.lstat p) (w.atTick t)

/-- `p`, run from `w` at any time, makes only calls that meet `J` and ends in `Q`. -/
def Safe {α : Type} (J : Demand) (Q : α → World → Prop) (p : Proc α) (w : World) : Prop :=
  ∀ t, p.Sat J.contract Q (w.atTick t)

variable {α β : Type} {J : Demand} {Q : β → World → Prop} {w : World}

/-- What a safe procedure does, if its calls meet what was assumed. -/
theorem Safe.trace {p : Proc β} (h : Safe J Q p w)
    (hAssumes : ∀ e ∈ p.trace w, J.contract.assumes e.op e.state) :
    (∀ e ∈ p.trace w, J.contract.demands e.op e.state) ∧ Q (p.run w).1 (p.run w).2 :=
  (h w.machine.tick).trace hAssumes

/-- Where nothing is assumed, the postcondition holds. -/
theorem Safe.run {p : Proc β} (h : Safe .none Q p w) : Q (p.run w).1 (p.run w).2 :=
  (h.trace fun ⟨o, _⟩ _ => by cases o <;> trivial).2

theorem Safe.mono {Q' : β → World → Prop} {p : Proc β} (h : Safe J Q p w)
    (hQ : ∀ b w, Q b w → Q' b w) : Safe J Q' p w :=
  fun t => (h t).mono hQ

/-- A run of `p` at any time, and then a run of `f`. -/
theorem safe_bind {p : Proc α} {f : α → Proc β}
    (h : Safe J (fun a w' => Safe J Q (f a) w') p w) : Safe J Q (p >>= f) w :=
  fun t => (sat_bind p f _).mpr ((h t).mono fun _ w' h => h w'.machine.tick)

/-- A procedure whose answer is wrapped. -/
theorem safe_return {p : Proc α} {f : α → β} (h : Safe J (fun a w' => Q (f a) w') p w) :
    Safe J Q (do return f (← p)) w :=
  fun t => (sat_bind p _ _).mpr (h t)

/-- What is assumed of a call is known once the call was made. -/
theorem safe_assume {o : Sys α} {k : α → Proc β} (hJ : ∀ t, J.holds o (w.atTick t))
    (h : (∃ t, J.assumes o (w.atTick t)) → Safe J Q (sys o >>= k) w) : Safe J Q (sys o >>= k) w :=
  fun t => ⟨hJ t, fun hA => (h ⟨t, hA⟩ t).2 hA⟩

/-! ## Single operations -/

theorem safe_pure {b : β} (h : ∀ t, Q b (w.atTick t)) : Safe J Q (pure b) w := h

theorem safe_getInodeCache {k : InodeCache → Proc β} (h : Safe J Q (k w.inodeCache) w) :
    Safe J Q (call .getInodeCache >>= k) w :=
  fun t => ⟨trivial, fun _ => h t⟩

theorem safe_setInodeCache {cache : InodeCache} {k : Unit → Proc β}
    (h : Safe J Q (k ()) { w with inodeCache := cache }) :
    Safe J Q (call (.setInodeCache cache) >>= k) w :=
  fun t => ⟨trivial, fun _ => h t⟩

theorem safe_getMountList {k : List MountListEntry → Proc β} (h : Safe J Q (k w.mountList) w) :
    Safe J Q (call .getMountList >>= k) w :=
  fun t => ⟨trivial, fun _ => h t⟩

theorem safe_setMountList {mounts : List MountListEntry} {k : Unit → Proc β}
    (h : Safe J Q (k ()) { w with mountList := mounts }) :
    Safe J Q (call (.setMountList mounts) >>= k) w :=
  fun t => ⟨trivial, fun _ => h t⟩

/-- A call that reads: it fails for a reason of its own, or answers `r`. -/
theorem safe_answer {o : Sys (Except Errno α)} {r : Except Errno α} {k : Except Errno α → Proc β}
    (hExec : ∀ t, (w.atTick t).machine.exec o = (w.atTick t).machine.answer r)
    (hJ : ∀ t, J.holds o (w.atTick t))
    (hFault : ∀ f : Fault, Safe J Q (k (.error f.errno)) w) (hAnswer : Safe J Q (k r) w) :
    Safe J Q (sys o >>= k) w := by
  refine fun t => ⟨hJ t, fun _ => ?_⟩
  show (k ((w.atTick t).machine.exec o).1).Sat J.contract Q
    { w with machine := ((w.atTick t).machine.exec o).2 }
  rw [hExec]
  unfold Machine.answer
  cases (w.atTick t).machine.here.fault with
  | none => exact hAnswer (t + 1)
  | some f => exact hFault f (t + 1)

/-- A call that changes the file system: it fails and changes nothing, or does
what `r` says; `r` depends on the circumstances of the call. -/
theorem safe_change {o : Sys (Except Errno Unit)} {r : Circumstance → Except Errno FileSystem}
    {k : Except Errno Unit → Proc β} (hExec : ∀ t, (w.atTick t).machine.exec o =
      (w.atTick t).machine.change (r (w.machine.env t))) (hJ : ∀ t, J.holds o (w.atTick t))
    (hError : ∀ e, Safe J Q (k (.error e)) w)
    (hOk : ∀ c fs', r c = .ok fs' → Safe J Q (k (.ok ())) (w.withFs fs')) :
    Safe J Q (sys o >>= k) w := by
  refine fun t => ⟨hJ t, fun _ => ?_⟩
  show (k ((w.atTick t).machine.exec o).1).Sat J.contract Q
    { w with machine := ((w.atTick t).machine.exec o).2 }
  rw [hExec]
  unfold Machine.change
  cases (w.atTick t).machine.here.fault with
  | some f => exact hError f.errno (t + 1)
  | none =>
    cases hr : r (w.machine.env t) with
    | error e => exact hError e (t + 1)
    | ok fs' => exact hOk _ fs' hr (t + 1)

theorem safe_malloc {k : Bool → Proc β} (h : ∀ b, Safe J Q (k b) w) :
    Safe J Q (sys .malloc >>= k) w :=
  fun t => ⟨J.silent .malloc _ rfl, fun _ => h _ (t + 1)⟩

theorem safe_time {k : Nat → Proc β} (h : ∀ now, Safe J Q (k now) w) :
    Safe J Q (sys .time >>= k) w :=
  fun t => ⟨J.silent .time _ rfl, fun _ => h _ (t + 1)⟩

theorem safe_lstat {p : Path} {k : Except Errno Kernel.Stat → Proc β} (hJ : J.Sees w p)
    (hFault : ∀ f : Fault, Safe J Q (k (.error f.errno)) w)
    (hAnswer : Safe J Q (k (w.fs.lstat w.host p)) w) : Safe J Q (sys (.lstat p) >>= k) w :=
  safe_answer (fun _ => rfl) hJ hFault hAnswer

/-- The exports file is read as it is, or cannot be opened. -/
theorem safe_isDirectoryExported {p : Path} {k : Bool → Proc β} (hNo : Safe J Q (k false) w)
    (hYes : isExported w.machine.exports p = true → Safe J Q (k true) w) :
    Safe J Q (isDirectoryExported p >>= k) w := by
  refine fun t => ⟨J.silent .readExports _ rfl, fun _ => ?_⟩
  show (k (isExported (w.atTick t).machine.readExportsFile.1 p)).Sat J.contract Q
    { w with machine := (w.atTick t).machine.readExportsFile.2 }
  unfold Machine.readExportsFile
  cases (w.atTick t).machine.here.fault with
  | some f => exact hNo (t + 1)
  | none =>
    cases he : isExported w.machine.exports p with
    | false =>
      have := hNo (t + 1)
      rwa [← he] at this
    | true =>
      have := hYes he (t + 1)
      rwa [← he] at this

theorem allocate_bind_succ (n : Nat) (k : Bool → Proc β) :
    (allocate (n + 1) >>= k) =
      (sys .malloc >>= fun b => if b then allocate n >>= k else k false) := by
  show op _ _ = op _ _
  congr 1
  funext b
  cases b <;> rfl

theorem safe_allocate {n : Nat} {k : Bool → Proc β} (h : ∀ b, Safe J Q (k b) w) :
    Safe J Q (allocate n >>= k) w := by
  induction n with
  | zero => exact h true
  | succ n ih =>
    rw [allocate_bind_succ]
    refine safe_malloc fun b => ?_
    cases b with
    | true => exact ih
    | false => exact h false

/-! ## The blocks of the procedures

`FailSafe Q w`: in `w`, ending with anything but success is fine. -/

def FailSafe {σ : Type} (Q : Reply σ β → World → Prop) (w : World) : Prop :=
  ∀ r : Reply σ β, r.isOk = false → ∀ t, Q r (w.atTick t)

variable {i : Ino} {cred : Credential}

section Blocks

variable {Q : NfsReply β → World → Prop}

theorem safe_err (hFail : FailSafe Q w) (s : Stat) : Safe J Q (pure (.err s)) w :=
  safe_pure (hFail _ rfl)

theorem safe_systemErr (hFail : FailSafe Q w) : Safe J Q (pure .systemErr) w :=
  safe_pure (hFail _ rfl)

theorem safe_orGarbageArgs {args : Option α} {k : α → Proc (NfsReply β)} (hFail : FailSafe Q w)
    (h : ∀ a, args = some a → Safe J Q (k a) w) : Safe J Q (orGarbageArgs args k) w := by
  cases args with
  | none => exact safe_pure (hFail _ rfl)
  | some a => exact h a rfl

theorem safe_withFile {k : Path → Proc (NfsReply β)} (hFail : FailSafe Q w)
    (h : ∀ p, w.inodeCache.getAbsolutePathFromInodeNumber i = some p → Safe J Q (k p) w) :
    Safe J Q (withFile i k) w := by
  refine safe_getInodeCache ?_
  cases hp : w.inodeCache.getAbsolutePathFromInodeNumber i with
  | none => exact safe_err hFail _
  | some p => exact h p hp

end Blocks

theorem safe_getAttributes {p : Path} {R : Option FAttr → World → Prop}
    (hJ : J.Sees w p) (hNone : ∀ t, R none (w.atTick t))
    (hSome : ∀ st, w.fs.lstat w.host p = .ok st → ∀ t, R (some (fattrOfStat st)) (w.atTick t)) :
    Safe J R (getAttributes p) w := by
  refine safe_lstat hJ (fun _ => safe_pure hNone) ?_
  cases hst : w.fs.lstat w.host p with
  | error e => exact safe_pure hNone
  | ok st =>
    refine safe_allocate fun b => ?_
    cases b with
    | true => exact safe_pure (hSome st hst)
    | false => exact safe_pure hNone

theorem decodeFileType_eq_dir {f : Format} : decodeFileType f = .nfDir ↔ f = .dir := by
  cases f <;> simp [decodeFileType]

/-! ### Permissions -/

/-- The caller is root or has the permission `a` on what `p` names. -/
def Granted (w : World) (a : Access) (p : Path) (caller : AuthSysParams) : Prop :=
  caller.uid = 0 ∨ ∃ st, w.fs.lstat w.host p = .ok st ∧
    allows a st.perm st.uid st.gid caller.uid caller.gid = true

/-- The owner, group and other rule for the object `i` itself. -/
def permits (fs : FileSystem) (a : Access) (i : Ino) (caller : AuthSysParams) : Bool :=
  (fs.inode i).any fun x => allows a x.attr.perm x.attr.uid x.attr.gid caller.uid caller.gid

/-- What a caller other than root was granted, they have on the object that the
path names without following it. -/
theorem permits_of_granted {a : Access} {p : Path} {caller : AuthSysParams}
    (h : Granted w a p caller) (hCaller : caller.uid ≠ 0) (hi : w.fs.lookup false p = .ok i) :
    permits w.fs a i caller = true := by
  rcases h with hRoot | ⟨st, hst, hAllows⟩
  · exact absurd hRoot hCaller
  · obtain ⟨hLookup, x, hx, _, hPerm, hUid, hGid⟩ := FileSystem.lstat_ok hst
    cases hi.symm.trans hLookup
    rw [hPerm, hUid, hGid] at hAllows
    simp [permits, hx, hAllows]

section Permissions

variable {R : Verdict → World → Prop} {a : Access} {p : Path} {caller : AuthSysParams}

theorem safe_checkPermission (hJ : J.Sees w p) (hNot : ∀ v, v ≠ .granted → ∀ t, R v (w.atTick t))
    (hGranted : (∃ st, w.fs.lstat w.host p = .ok st ∧
      allows a st.perm st.uid st.gid caller.uid caller.gid = true) →
      ∀ t, R .granted (w.atTick t)) : Safe J R (checkPermission a p caller.uid caller.gid) w := by
  refine safe_lstat hJ (fun _ => safe_pure (hNot _ (by simp))) ?_
  cases hst : w.fs.lstat w.host p with
  | error e => exact safe_pure (hNot _ (by simp))
  | ok st =>
    cases ha : allows a st.perm st.uid st.gid caller.uid caller.gid with
    | true => simpa [ha] using safe_pure (hGranted ⟨st, hst, ha⟩)
    | false => simpa [ha] using safe_pure (hNot .refused (by simp))

theorem safe_needs (hJ : J.Sees w p) (hNot : ∀ v, v ≠ .granted → ∀ t, R v (w.atTick t))
    (hGranted : Granted w a p caller → ∀ t, R .granted (w.atTick t)) :
    Safe J R (needs a p caller) w := by
  unfold needs unlessRoot
  split
  · next hRoot => exact safe_pure (hGranted (Or.inl hRoot))
  · exact safe_checkPermission hJ hNot fun h => hGranted (Or.inr h)

theorem safe_needsNothing (hGranted : ∀ t, R .granted (w.atTick t)) :
    Safe J R (needsNothing p caller) w := by
  unfold needsNothing unlessRoot
  split <;> exact safe_pure hGranted

end Permissions

/-- `check` lets a caller pass in `w` only if `G`. -/
def Checks (J : Demand) (w : World) (check : Proc Verdict) (G : Prop) : Prop :=
  ∀ R : Verdict → World → Prop, (∀ v, v ≠ .granted → ∀ t, R v (w.atTick t)) →
    (G → ∀ t, R .granted (w.atTick t)) → Safe J R check w

theorem checks_needs {a : Access} {p : Path} (hJ : J.Sees w p)
    (caller : AuthSysParams) : Checks J w (needs a p caller) (Granted w a p caller) :=
  fun _ hNot hGranted => safe_needs hJ hNot hGranted

theorem checks_needsNothing (p : Path) (caller : AuthSysParams) :
    Checks J w (needsNothing p caller) True :=
  fun _ _ hGranted => safe_needsNothing (hGranted trivial)

theorem checks_rename {p q : Path} (hJp : J.Sees w p) (hJq : J.Sees w q) (caller : AuthSysParams) :
    Checks J w (checkRenameProcPermissions p q caller)
      (Granted w .write p caller ∧ Granted w .write q caller) := by
  intro R hNot hGranted
  unfold checkRenameProcPermissions unlessRoot
  split
  · next hRoot => exact safe_pure (hGranted ⟨Or.inl hRoot, Or.inl hRoot⟩)
  · refine safe_bind (safe_checkPermission hJp ?_ ?_)
    · intro v hv t
      cases v with
      | granted => exact absurd rfl hv
      | failed | refused => exact safe_pure (hNot _ (by simp))
    · intro hp _
      exact safe_checkPermission hJq hNot fun hq => hGranted ⟨Or.inr hp, Or.inr hq⟩

/-- A caller who passes the check of SETATTR is root, or leaves the owner alone
and may write where anything else is set. -/
theorem checks_setattr {p : Path} (hJ : J.Sees w p) (a : Attributes) (caller : AuthSysParams) :
    Checks J w (checkSetattrProcPermissions p a caller)
      (caller.uid = 0 ∨ (a.uid = unchanged32 ∧ a.gid = unchanged32) ∧
        (a.setsOthers → Granted w .write p caller)) := by
  intro R hNot hGranted
  unfold checkSetattrProcPermissions unlessRoot
  split
  · next hRoot => exact safe_pure (hGranted (Or.inl hRoot))
  · split
    · exact safe_pure (hNot _ (by simp))
    · next hOwner =>
      have hOwner' : a.uid = unchanged32 ∧ a.gid = unchanged32 := by
        constructor <;> by_contra h
        · exact hOwner (Or.inl h)
        · exact hOwner (Or.inr h)
      split
      · exact safe_checkPermission hJ hNot fun h =>
          hGranted (Or.inr ⟨hOwner', fun _ => Or.inr h⟩)
      · next hOthers =>
        exact safe_pure (hGranted (Or.inr ⟨hOwner', fun h => absurd h hOthers⟩))

section Blocks

variable {Q : NfsReply β → World → Prop} {p : Path}

theorem safe_withPermission {check : AuthSysParams → Proc Verdict} {G : AuthSysParams → Prop}
    {k : Proc (NfsReply β)} (hFail : FailSafe Q w)
    (hCheck : ∀ caller, Checks J w (check caller) (G caller))
    (h : (∀ caller, cred = .authSys caller → G caller) → Safe J Q k w) :
    Safe J Q (withPermission cred check k) w := by
  cases cred with
  | authNone => exact h fun caller hc => by cases hc
  | authSys a =>
    refine safe_bind (hCheck a _ ?_ ?_)
    · intro v hv t
      cases v with
      | granted => exact absurd rfl hv
      | failed => exact safe_systemErr hFail
      | refused => exact safe_err hFail _
    · intro hG _
      exact h fun caller hc => by cases hc; exact hG

theorem safe_withAttributes {k : FAttr → Proc (NfsReply β)} (hJ : J.Sees w p) (hFail : FailSafe Q w)
    (h : ∀ st, w.fs.lstat w.host p = .ok st → Safe J Q (k (fattrOfStat st)) w) :
    Safe J Q (withAttributes p k) w :=
  safe_bind (safe_getAttributes hJ (fun _ => safe_systemErr hFail) fun st hst _ => h st hst)

theorem safe_withDirectory {k : Path → Proc (NfsReply β)}
    (hJ : ∀ p, w.inodeCache.getAbsolutePathFromInodeNumber i = some p → J.Sees w p) (hFail : FailSafe Q w)
    (h : ∀ p st, w.inodeCache.getAbsolutePathFromInodeNumber i = some p →
      w.fs.lstat w.host p = .ok st → w.fs.isDir st.ino → Safe J Q (k p) w) :
    Safe J Q (withDirectory i k) w := by
  refine safe_withFile hFail fun p hp => ?_
  refine safe_withAttributes (hJ p hp) hFail fun st hst => ?_
  split
  · next hDir =>
    exact h p st hp hst ((FileSystem.isDir_of_format hst).mp (decodeFileType_eq_dir.mp hDir))
  · exact safe_err hFail _

theorem safe_withExisting {k : Kernel.Stat → Proc (NfsReply β)}
    (hJ : J.Sees w p) (hFail : FailSafe Q w)
    (h : ∀ st, w.fs.lstat w.host p = .ok st → Safe J Q (k st) w) :
    Safe J Q (withExisting p k) w := by
  refine safe_lstat hJ (fun f => ?_) ?_
  · cases f <;> exact safe_systemErr hFail
  cases hst : w.fs.lstat w.host p with
  | ok st => exact h st hst
  | error e => cases e <;> first | exact safe_err hFail _ | exact safe_systemErr hFail

theorem safe_withFree {k : Proc (NfsReply β)} (hJ : J.Sees w p)
    (hFail : FailSafe Q w) (h : w.fs.lstat w.host p = .error .enoent → Safe J Q k w) :
    Safe J Q (withFree p k) w := by
  -- no failure of its own makes a call say that the name is free
  refine safe_lstat hJ (fun f => ?_) ?_
  · cases f <;> exact safe_systemErr hFail
  cases hst : w.fs.lstat w.host p with
  | ok st => exact safe_err hFail _
  | error e => cases e <;> first | exact h hst | exact safe_systemErr hFail

variable {report : Errno → Option Stat}

/-- A call whose failures are reported. -/
theorem safe_orReport {call : Proc (Except Errno α)} {k : α → Proc (NfsReply β)}
    (h : Safe J (fun r w' => (∀ a, r = .ok a → Safe J Q (k a) w') ∧
      ∀ e, r = .error e → FailSafe Q w') call w) : Safe J Q (orReport report call k) w := by
  refine safe_bind (h.mono fun r w' hr => ?_)
  cases r with
  | ok a => exact hr.1 a rfl
  | error e =>
    have hFail := hr.2 e rfl
    dsimp only
    cases report e with
    | some s => exact safe_err hFail s
    | none => exact safe_systemErr hFail

/-- A reported call that changes the file system. -/
theorem safe_orReport_change {o : Sys (Except Errno Unit)}
    {r : Circumstance → Except Errno FileSystem} {k : Unit → Proc (NfsReply β)}
    (hExec : ∀ t, (w.atTick t).machine.exec o =
      (w.atTick t).machine.change (r (w.machine.env t))) (hJ : ∀ t, J.holds o (w.atTick t))
    (hFail : FailSafe Q w) (h : ∀ c fs', r c = .ok fs' → Safe J Q (k ()) (w.withFs fs')) :
    Safe J Q (orReport report (sys o) k) w := by
  refine safe_orReport (safe_change (k := pure) hExec hJ (fun e => ?_) fun c fs' hr => ?_)
  · exact safe_pure fun t => ⟨fun a ha => (by cases ha), fun _ _ => hFail⟩
  · exact safe_pure fun t => ⟨fun _ _ => h c fs' hr, fun e he => (by cases he)⟩

/-- A reported call that reads. -/
theorem safe_orReport_answer {o : Sys (Except Errno α)} {r : Except Errno α}
    {k : α → Proc (NfsReply β)}
    (hExec : ∀ t, (w.atTick t).machine.exec o = (w.atTick t).machine.answer r)
    (hJ : ∀ t, J.holds o (w.atTick t)) (hFail : FailSafe Q w)
    (h : ∀ a, r = .ok a → Safe J Q (k a) w) : Safe J Q (orReport report (sys o) k) w := by
  refine safe_orReport (safe_answer (k := pure) hExec hJ (fun f => ?_) ?_)
  · exact safe_pure fun t => ⟨fun a ha => (by cases ha), fun _ _ => hFail⟩
  · exact safe_pure fun t => ⟨fun a ha => h a ha, fun _ _ => hFail⟩

end Blocks

/-! ### Setting attributes -/

section Attributes

variable {Q : NfsReply β → World → Prop} {p : Path} {a : Attributes} {k : Proc (NfsReply β)}

theorem safe_setOwner (hJ : ∀ t, J.holds (.chown p a.uid a.gid) (w.atTick t)) (hFail : FailSafe Q w)
    (h : ∀ now fs', w.fs.chown p a.uid a.gid now = .ok fs' → Safe J Q k (w.withFs fs')) :
    Safe J Q (setOwner p a k) w := by
  unfold setOwner
  exact safe_orReport_change (r := fun c => w.fs.chown p a.uid a.gid c.now) (fun _ => rfl) hJ
    hFail fun c fs' hr => h c.now fs' hr

/-- A call that is made only if the request sets something. -/
theorem safe_setting {c : Prop} [Decidable c] {o : Sys (Except Errno Unit)}
    {r : Circumstance → Except Errno FileSystem} (hExec : ∀ t, (w.atTick t).machine.exec o =
      (w.atTick t).machine.change (r (w.machine.env t))) (hJ : ∀ t, J.holds o (w.atTick t))
    (hFail : FailSafe Q w) (hSame : Safe J Q k w)
    (h : ∀ c fs', r c = .ok fs' → Safe J Q k (w.withFs fs')) :
    Safe J Q (if c then orSystemErr (sys o) fun () => k else k) w := by
  split
  · exact safe_orReport_change hExec hJ hFail h
  · exact hSame

theorem safe_setSize (hJ : ∀ t, J.holds (.truncate p a.size) (w.atTick t))
    (hFail : FailSafe Q w) (hSame : Safe J Q k w)
    (h : ∀ now fs', w.fs.truncate p a.size now = .ok fs' → Safe J Q k (w.withFs fs')) :
    Safe J Q (setSize p a k) w :=
  safe_setting (r := fun c => w.fs.truncate p a.size c.now) (fun _ => rfl) hJ hFail hSame
    fun c => h c.now

theorem safe_setTimes (hJ : ∀ atime mtime t, J.holds (.utimes p atime mtime) (w.atTick t))
    (hFail : FailSafe Q w) (hSame : Safe J Q k w)
    (h : ∀ atime mtime now fs', w.fs.utimes p atime mtime now = .ok fs' →
      Safe J Q k (w.withFs fs')) : Safe J Q (setTimes p a k) w :=
  safe_setting (r := fun c => w.fs.utimes p _ _ c.now) (fun _ => rfl) (hJ _ _) hFail hSame
    fun c => h _ _ c.now

end Attributes

/-! ### Handles -/

/-- The world with one more mapping. -/
def World.remember (w : World) (i : Ino) (timestamp : Nat) (p : Path) : World :=
  { w with inodeCache := w.inodeCache.addInodeMapping ⟨i, timestamp⟩ p }

theorem safe_createNfsFilehandle {p : Path} {R : Option NfsFileHandle → World → Prop}
    (hJ : J.Sees w p) (hNone : ∀ t, R none (w.atTick t))
    (hSome : ∀ st ts, w.fs.lstat w.host p = .ok st →
      ∀ t, R (some ⟨st.ino, ts⟩) ((w.remember st.ino ts p).atTick t)) :
    Safe J R (createNfsFilehandle p) w := by
  refine safe_lstat hJ (fun _ => safe_pure hNone) ?_
  cases hst : w.fs.lstat w.host p with
  | error e => exact safe_pure hNone
  | ok st =>
    refine safe_time fun ts => ?_
    refine safe_allocate fun b => ?_
    cases b with
    | false => exact safe_pure hNone
    | true =>
      refine safe_getInodeCache (safe_setInodeCache ?_)
      exact safe_pure (hSome st ts hst)

theorem safe_withNewHandle {p : Path} {Q : NfsReply β → World → Prop}
    {k : NfsFileHandle → Proc (NfsReply β)} (hJ : J.Sees w p) (hFail : FailSafe Q w)
    (h : ∀ st ts, w.fs.lstat w.host p = .ok st →
      Safe J Q (k ⟨st.ino, ts⟩) (w.remember st.ino ts p)) : Safe J Q (withNewHandle p k) w :=
  safe_bind (safe_createNfsFilehandle hJ (fun _ => safe_systemErr hFail)
    fun st ts hst _ => h st ts hst)

theorem safe_answerWithHandle {p : Path} {handle : NfsFileHandle}
    {Q : NfsReply DirOpOk → World → Prop} (hJ : J.Sees w p)
    (hForget : ∀ t, Q .systemErr ({ w with inodeCache :=
      w.inodeCache.removeInodeMappingByInodeNumber handle.inodeNumber }.atTick t))
    (h : ∀ st, w.fs.lstat w.host p = .ok st → ∀ t, Q (.ok ⟨handle, fattrOfStat st⟩) (w.atTick t)) :
    Safe J Q (answerWithHandle p handle) w :=
  safe_bind (safe_getAttributes hJ
    (fun _ => safe_getInodeCache (safe_setInodeCache (safe_pure hForget)))
    fun st hst _ => safe_pure (h st hst))

theorem removeInodeMapping_add (cache : InodeCache) (i : Ino) (ts : Nat) (p : Path) :
    (cache.addInodeMapping ⟨i, ts⟩ p).removeInodeMappingByInodeNumber i = cache := by
  simp [InodeCache.addInodeMapping, InodeCache.removeInodeMappingByInodeNumber, InodeCache.hasInode]

/-- The end of LOOKUP, CREATE and MKDIR: a new handle and its attributes, or
neither. -/
theorem safe_answerNew {p : Path} {Q : NfsReply DirOpOk → World → Prop}
    (hJ : ∀ cache, J.Sees { w with inodeCache := cache } p) (hFail : FailSafe Q w)
    (h : ∀ st ts, w.fs.lstat w.host p = .ok st →
      ∀ t, Q (.ok ⟨⟨st.ino, ts⟩, fattrOfStat st⟩) ((w.remember st.ino ts p).atTick t)) :
    Safe J Q (withNewHandle p (answerWithHandle p)) w := by
  refine safe_withNewHandle (hJ w.inodeCache) hFail fun st ts hst => ?_
  refine safe_answerWithHandle (hJ _) (fun t => ?_) fun st' hst' t => ?_
  · show Q .systemErr ({ w with inodeCache := (w.inodeCache.addInodeMapping ⟨st.ino, ts⟩
      p).removeInodeMappingByInodeNumber st.ino }.atTick t)
    rw [removeInodeMapping_add]
    exact hFail _ rfl t
  · cases hst.symm.trans hst'
    exact h st ts hst t

/-- A LOOKUP that gets as far as its end: the directory is known and the name is there. -/
structure LooksUp (w : World) (args : DirOpArgs) (d : Ino) (n : Bytes) (p : Path)
    (stDir st : Kernel.Stat) : Prop where
  args : args.decode = some (d, n)
  cached : w.inodeCache.getAbsolutePathFromInodeNumber d = some p
  directory : w.fs.lstat w.host p = .ok stDir
  isDir : w.fs.isDir stDir.ino
  file : w.fs.lstat w.host (getFileAbsolutePath p n) = .ok st

/-- LOOKUP answers with the handle that the cache has of the object, or with a new one. -/
theorem safe_lookUpFileName {cred : Credential} {args : DirOpArgs}
    {Q : NfsReply DirOpOk → World → Prop} (hFail : FailSafe Q w)
    (hJ : ∀ d n p, args.decode = some (d, n) →
      w.inodeCache.getAbsolutePathFromInodeNumber d = some p →
      J.Sees w p ∧ J.Sees w (getFileAbsolutePath p n))
    (hKnown : ∀ d n p stDir st handle, LooksUp w args d n p stDir st →
      w.inodeCache.getNfsFilehandleFromInodeNumber st.ino = some handle →
      Safe J Q (answerWithHandle (getFileAbsolutePath p n) handle) w)
    (hNew : ∀ d n p stDir st, LooksUp w args d n p stDir st →
      w.inodeCache.getNfsFilehandleFromInodeNumber st.ino = none →
      Safe J Q (withNewHandle (getFileAbsolutePath p n)
        (answerWithHandle (getFileAbsolutePath p n))) w) :
    Safe J Q (serveNfsProcedure4LookUpFileName cred args) w := by
  refine safe_orGarbageArgs hFail fun (d, n) hArgs => ?_
  refine safe_withDirectory (fun p hp => (hJ d n p hArgs hp).1) hFail
    fun p stDir hp hDirectory hIsDir => ?_
  refine safe_withExisting (hJ d n p hArgs hp).2 hFail fun st hFile => ?_
  refine safe_withPermission hFail (checks_needs (hJ d n p hArgs hp).1) fun _ => ?_
  refine safe_getInodeCache ?_
  have hLooksUp : LooksUp w args d n p stDir st := ⟨hArgs, hp, hDirectory, hIsDir, hFile⟩
  cases hHandle : w.inodeCache.getNfsFilehandleFromInodeNumber st.ino with
  | some handle => exact hKnown d n p stDir st handle hLooksUp hHandle
  | none => exact hNew d n p stDir st hLooksUp hHandle

theorem safe_forgetPath {p : Path} {k : Unit → Proc β}
    (h : Safe J Q (k ()) { w with inodeCache :=
      w.inodeCache.removeInodeMappingByAbsolutePath p }) :
    Safe J Q (forgetPath p >>= k) w :=
  safe_getInodeCache (safe_setInodeCache h)

def World.withMounts (w : World) (mounts : List MountListEntry) : World :=
  { w with mountList := mounts }

/-- MNT answers with a handle only for a directory that is exported. -/
theorem safe_mnt {p : Path} {Q : Reply MntStat NfsFileHandle → World → Prop}
    (hJ : J.Sees w p) (hFail : FailSafe Q w)
    (h : ∀ st ts mounts, isExported w.machine.exports p = true →
      w.fs.lstat w.host p = .ok st → w.fs.isDir st.ino →
      ∀ t, Q (.ok ⟨st.ino, ts⟩) (((w.remember st.ino ts p).withMounts mounts).atTick t)) :
    Safe J Q (serveMntProcedure1AddMountEntry cred ⟨some p⟩) w := by
  refine safe_lstat hJ (fun f => ?_) ?_
  · cases f <;> exact safe_pure (hFail _ rfl)
  cases hst : w.fs.lstat w.host p with
  | error e => cases e <;> exact safe_pure (hFail _ rfl)
  | ok st =>
    refine safe_bind (safe_getAttributes hJ (fun _ => safe_pure (hFail _ rfl)) fun st' hst' _ => ?_)
    cases hst.symm.trans hst'
    show Safe J _ (if (fattrOfStat st).nfsFtype ≠ .nfDir then _ else _) w
    split
    · exact safe_pure (hFail _ rfl)
    next hType =>
    refine safe_isDirectoryExported (safe_pure (hFail _ rfl)) fun hExported => ?_
    refine safe_bind (safe_createNfsFilehandle hJ (fun _ => safe_pure (hFail _ rfl))
      fun st' ts hst' _ => ?_)
    cases hst.symm.trans hst'
    refine safe_getMountList (safe_setMountList (safe_pure fun t => ?_))
    have hDir : w.fs.isDir st.ino :=
      (FileSystem.isDir_of_format hst).mp (decodeFileType_eq_dir.mp (not_not.mp hType))
    exact h st ts (_ :: w.mountList) hExported hst hDir t

/-! ### Names -/

section Names

variable {Q : NfsReply β → World → Prop}

/-- A directory's handle leads to `p`, and what `p` names is a directory. -/
structure DirectoryAt (w : World) (i : Ino) (p : Path) (st : Kernel.Stat) : Prop where
  cached : w.inodeCache.getAbsolutePathFromInodeNumber i = some p
  lstat : w.fs.lstat w.host p = .ok st
  isDir : w.fs.isDir st.ino

theorem safe_withNewName {n : Bytes} {k : Path → Proc (NfsReply β)}
    (hJ : ∀ p, w.inodeCache.getAbsolutePathFromInodeNumber i = some p →
      J.Sees w p ∧ J.Sees w (getFileAbsolutePath p n)) (hFail : FailSafe Q w)
    (h : ∀ p st, DirectoryAt w i p st →
      (∀ caller, cred = .authSys caller → Granted w .write p caller) →
      w.fs.lstat w.host (getFileAbsolutePath p n) = .error .enoent →
      Safe J Q (k (getFileAbsolutePath p n)) w) :
    Safe J Q (withNewName (needs .write) cred i n k) w := by
  refine safe_withDirectory (fun p hp => (hJ p hp).1) hFail fun p st hp hst hDir => ?_
  split
  · exact safe_err hFail _
  · refine safe_withFree (hJ p hp).2 hFail fun hFree => ?_
    refine safe_withPermission hFail (checks_needs (hJ p hp).1)
      fun hGranted => ?_
    exact h p st ⟨hp, hst, hDir⟩ hGranted hFree

theorem safe_withOldName {n : Bytes} {k : Path → Path → FAttr → Proc (NfsReply β)}
    (hJ : ∀ p, w.inodeCache.getAbsolutePathFromInodeNumber i = some p →
      J.Sees w p ∧ J.Sees w (getFileAbsolutePath p n)) (hFail : FailSafe Q w)
    (h : ∀ p st stFile, DirectoryAt w i p st →
      w.fs.lstat w.host (getFileAbsolutePath p n) = .ok stFile →
      Safe J Q (k p (getFileAbsolutePath p n) (fattrOfStat stFile)) w) :
    Safe J Q (withOldName i n k) w := by
  refine safe_withDirectory (fun p hp => (hJ p hp).1) hFail fun p st hp hst hDir => ?_
  refine safe_withExisting (hJ p hp).2 hFail fun _ _ => ?_
  refine safe_withAttributes (hJ p hp).2 hFail fun stFile hFile => ?_
  exact h p st stFile ⟨hp, hst, hDir⟩ hFile

end Names

end QuicNfs.Server

import QuicNfs.Server.Blocks
import QuicNfs.Server.Refusals

/-!
# QuicNfs — how far a request gets

Under any pattern of failures: each of the blocks that only look either goes on, in a world
that differs in the count of calls alone, or stops the request there and then.

* `changes` — the calls of a run that can change the file system;
* `GoesOn p w q w'` — from `w`, `p` does what `q` does from `w'`;
* `Stops p w` — from `w`, `p` ends without success, and nothing has changed;
* `goesOn_withDirectory`, `stops_withDirectory`, … — when a block does the one and when the
  other;
* `Leads P p w` — from `w`, `p` stops or goes on as a program that meets `P`.
-/

namespace QuicNfs.Server

open Kernel Lib FileSystem Prog

variable {α β σ : Type}

/-! ## The calls that change something -/

/-- The system calls that can change an object or a name. -/
def changing {β : Type} : Sys β → Bool
  | .openCreat _ _ => true
  | .mkdir _ _ => true
  | .symlink _ _ => true
  | .link _ _ => true
  | .unlink _ => true
  | .rmdir _ => true
  | .rename _ _ => true
  | .chmod _ _ => true
  | .chown _ _ _ => true
  | .truncate _ _ => true
  | .utimes _ _ _ => true
  | .fwrite _ _ _ => true
  | .fclose _ _ _ => true
  | _ => false

def Op.changing {β : Type} : Op β → Bool
  | .sys o => Server.changing o
  | _ => false

/-- The changing calls of a run, each with the world it was made in. -/
def changes (p : Proc α) (w : World) : List (Event Op World) :=
  (p.trace w).filter fun e => e.op.changing

theorem changes_bind (p : Proc α) (f : α → Proc β) (w : World) :
    changes (p >>= f) w = changes p w ++ changes (f (p.run w).1) (p.run w).2 := by
  unfold changes
  rw [trace_bind, List.filter_append]

/-- The program makes no changing call, whatever it gets to see. -/
abbrev Looks (p : Proc α) : Prop := p.Issues fun o => o.changing = false

theorem Looks.changes {p : Proc α} (h : Looks p) (w : World) : changes p w = [] := by
  refine List.filter_eq_nil_iff.mpr fun e he => ?_
  simp [Prog.Issues.trace h w e he]

theorem looks_getAttributes (p : Path) : Looks (getAttributes p) := issues_getAttributes rfl rfl

theorem looks_needs (a : Access) (p : Path) (caller : AuthSysParams) : Looks (needs a p caller) :=
  issues_needs rfl a caller

/-! ## Going on and stopping -/

/-- From `w`, `p` answers and does what `q` answers and does from `w'`. -/
structure GoesOn (p : Proc α) (w : World) (q : Proc α) (w' : World) : Prop where
  run : p.run w = q.run w'
  changes : Server.changes p w = Server.changes q w'

theorem GoesOn.refl (p : Proc α) (w : World) : GoesOn p w p w := ⟨rfl, rfl⟩

theorem GoesOn.trans {p q r : Proc α} {w w' w'' : World} (h : GoesOn p w q w')
    (h' : GoesOn q w' r w'') : GoesOn p w r w'' :=
  ⟨h.run.trans h'.run, h.changes.trans h'.changes⟩

/-- After a part that only looks. -/
theorem goesOn_bind {p : Proc α} {f : α → Proc β} {w w' : World} {a : α} (hp : Looks p)
    (hRun : p.run w = (a, w')) : GoesOn (p >>= f) w (f a) w' := by
  constructor
  · rw [run_bind, hRun]
  · rw [changes_bind, hp.changes, hRun]
    rfl

theorem goesOn_lstat (p : Path) (k : Except Errno Kernel.Stat → Proc β) (w : World) :
    GoesOn (sys (.lstat p) >>= k) w (k (w.sees (w.fs.lstat w.host p))) (w.wait 1) :=
  goesOn_bind ⟨rfl, fun _ => trivial⟩ (run_lstat p pure w)

theorem goesOn_getInodeCache (k : InodeCache → Proc β) (w : World) :
    GoesOn (call .getInodeCache >>= k) w (k w.inodeCache) w :=
  goesOn_bind ⟨rfl, fun _ => trivial⟩ rfl

/-- From `w`, `p` ends without success and has changed nothing. -/
structure Stops (p : Proc (Reply σ β)) (w : World) : Prop where
  refused : (p.run w).1.isOk = false
  still : ∃ t, (p.run w).2 = w.atTick t
  changes : Server.changes p w = []

theorem stops_pure {reply : Reply σ β} (h : reply.isOk = false) (w : World) :
    Stops (pure reply) w :=
  ⟨h, ⟨w.machine.tick, rfl⟩, rfl⟩

theorem Stops.run {p : Proc (Reply σ β)} {w : World} (h : Stops p w) :
    ∃ reply t, reply.isOk = false ∧ p.run w = (reply, w.atTick t) := by
  obtain ⟨t, ht⟩ := h.still
  exact ⟨(p.run w).1, t, h.refused, by rw [← ht]⟩

theorem GoesOn.stops {p q : Proc (Reply σ β)} {w : World} {t : Nat}
    (h : GoesOn p w q (w.atTick t)) (hq : Stops q (w.atTick t)) : Stops p w := by
  refine ⟨?_, ?_, h.changes.trans hq.changes⟩
  · rw [h.run]
    exact hq.refused
  · rw [h.run]
    exact hq.still

/-- A procedure whose answer is wrapped. -/
theorem run_return (p : Proc α) (f : α → β) (w : World) :
    (do return f (← p) : Proc β).run w = (f (p.run w).1, (p.run w).2) :=
  run_bind p _ w

/-! ## Calls that change something -/

section Changing

variable {w : World} {o : Sys (Except Errno Unit)} {r : Except Errno FileSystem}
  {report : Errno → Option Stat} {k : Unit → Proc (NfsReply β)}

/-- Such a call does what it does to the file system, and the request goes on. -/
theorem run_changed {fs' : FileSystem} (hExec : w.machine.exec o = w.machine.change r)
    (hClear : w.Clear) (hr : r = .ok fs') :
    (orReport report (sys o) k).run w = (k ()).run ((w.withFs fs').wait 1) := by
  have hClear : w.machine.here.fault = none := hClear
  have hCall : w.machine.exec o = (.ok (), { w.machine.next with fs := fs' }) := by
    rw [hExec, hr]
    unfold Machine.change
    rw [hClear]
  have hRun : (sys o).run w = (.ok (), (w.withFs fs').wait 1) := by
    show ((w.machine.exec o).1, { w with machine := (w.machine.exec o).2 }) = _
    rw [hCall]
    rfl
  unfold orReport
  rw [run_bind, hRun]

/-- Or it fails, and nothing is changed. -/
theorem run_not_changed (hExec : w.machine.exec o = w.machine.change r)
    (h : ¬(w.Clear ∧ ∃ fs', r = .ok fs')) :
    ∃ reply, reply.isOk = false ∧ (orReport report (sys o) k).run w = (reply, w.wait 1) := by
  obtain ⟨e, hCall⟩ : ∃ e, w.machine.exec o = (.error e, w.machine.next) := by
    rw [hExec]
    unfold Machine.change
    -- a failure of the call's own comes before what it would have found
    cases hFault : w.machine.here.fault with
    | some f => exact ⟨f.errno, rfl⟩
    | none =>
      cases r with
      | error e => exact ⟨e, rfl⟩
      | ok fs' => exact absurd ⟨hFault, fs', rfl⟩ h
  have hRun : (sys o).run w = (.error e, w.wait 1) := by
    show ((w.machine.exec o).1, { w with machine := (w.machine.exec o).2 }) = _
    rw [hCall]
    rfl
  unfold orReport
  rw [run_bind, hRun]
  dsimp only
  -- the procedure may have a status for the error or not
  cases report e with
  | none | some => exact ⟨_, rfl, rfl⟩

end Changing

/-- From `w`, `p` stops, or it goes on as a program that meets `P`. -/
def Leads (P : Proc (Reply σ β) → Prop) (p : Proc (Reply σ β)) (w : World) : Prop :=
  Stops p w ∨ ∃ q t, P q ∧ GoesOn p w q (w.atTick t)

theorem Leads.here {P : Proc (Reply σ β) → Prop} {p : Proc (Reply σ β)} (h : P p) (w : World) :
    Leads P p w :=
  Or.inr ⟨p, w.machine.tick, h, .refl _ _⟩

theorem GoesOn.leads {P : Proc (Reply σ β) → Prop} {p q : Proc (Reply σ β)} {w : World} {t : Nat}
    (h : GoesOn p w q (w.atTick t)) (hq : Leads P q (w.atTick t)) : Leads P p w := by
  rcases hq with hStops | ⟨q', t', hP, hq⟩
  · exact Or.inl (h.stops hStops)
  · exact Or.inr ⟨q', t', hP, h.trans hq⟩

/-! ## The blocks -/

variable {cred : Credential} {a : Access} {n : Bytes}

section Blocks

variable {w : World} {p : Path} {i d : Ino}

theorem stops_orGarbageArgs {k : α → Proc (NfsReply β)} : Stops (orGarbageArgs none k) w :=
  stops_pure rfl w

theorem goesOn_withFile {k : Path → Proc (NfsReply β)} (h : w.view i = some p) :
    GoesOn (withFile i k) w (k p) w := by
  have h : w.inodeCache.getAbsolutePathFromInodeNumber i = some p := h
  refine (goesOn_getInodeCache _ w).trans ?_
  rw [h]
  exact .refl _ _

theorem stops_withFile {k : Path → Proc (NfsReply β)} (h : w.view i = none) :
    Stops (withFile i k) w := by
  have h : w.inodeCache.getAbsolutePathFromInodeNumber i = none := h
  refine GoesOn.stops (t := w.machine.tick) (goesOn_getInodeCache _ w) ?_
  rw [h]
  exact stops_pure rfl _

variable {st : Kernel.Stat} {caller : AuthSysParams}

theorem goesOn_withAttributes {k : FAttr → Proc (NfsReply β)}
    (hStat : w.fs.lstat w.host p = .ok st) (h : w.Describes) :
    GoesOn (withAttributes p k) w (k (fattrOfStat st)) (w.wait 5) :=
  goesOn_bind (looks_getAttributes p) (run_getAttributes hStat h)

theorem stops_withAttributes {k : FAttr → Proc (NfsReply β)}
    (h : ¬((∃ st, w.fs.lstat w.host p = .ok st) ∧ w.Describes)) : Stops (withAttributes p k) w := by
  obtain ⟨t, ht⟩ := run_getAttributes_of_not h
  exact (goesOn_bind (looks_getAttributes p) ht).stops (stops_pure rfl _)

theorem goesOn_withDirectory {k : Path → Proc (NfsReply β)} (hFound : w.directory i = .ok (p, d))
    (h : w.Describes) : GoesOn (withDirectory i k) w (k p) (w.wait 5) := by
  obtain ⟨hView, hLookup, hDir⟩ := directory_eq_ok hFound
  obtain ⟨st, hStat, rfl⟩ := lstat_of_lookup w.host hLookup
  refine (goesOn_withFile hView).trans ((goesOn_withAttributes hStat h).trans ?_)
  rw [if_pos ((nfsFtype_eq_dir_iff hStat).mpr hDir)]
  exact .refl _ _

theorem directory_of_stat (hView : w.view i = some p) (hStat : w.fs.lstat w.host p = .ok st)
    (hDir : (fattrOfStat st).nfsFtype = .nfDir) : w.directory i = .ok (p, st.ino) := by
  unfold World.directory World.file World.attributes
  rw [hView]
  show (w.attributes p >>= _) = _
  unfold World.attributes
  rw [hStat]
  exact if_pos hDir

theorem stops_withDirectory {k : Path → Proc (NfsReply β)}
    (h : ¬((∃ x, w.directory i = .ok x) ∧ w.Describes)) : Stops (withDirectory i k) w := by
  cases hView : w.view i with
  | none => exact stops_withFile hView
  | some p =>
    refine (goesOn_withFile hView).stops (t := w.machine.tick) ?_
    by_cases hGot : (∃ st, w.fs.lstat w.host p = .ok st) ∧ w.Describes
    · obtain ⟨⟨st, hStat⟩, hDescribes⟩ := hGot
      have hNotDir : ¬(fattrOfStat st).nfsFtype = .nfDir := fun hDir =>
        h ⟨⟨_, directory_of_stat hView hStat hDir⟩, hDescribes⟩
      refine (goesOn_withAttributes hStat hDescribes).stops ?_
      rw [if_neg hNotDir]
      exact stops_pure rfl _
    · exact stops_withAttributes hGot

theorem goesOn_withExisting {k : Kernel.Stat → Proc (NfsReply β)}
    (hStat : w.fs.lstat w.host p = .ok st) (h : w.Clear) :
    GoesOn (withExisting p k) w (k st) (w.wait 1) := by
  refine (goesOn_lstat p _ w).trans ?_
  rw [h.sees, hStat]
  exact .refl _ _

theorem stops_withExisting {k : Kernel.Stat → Proc (NfsReply β)}
    (h : ¬((∃ st, w.fs.lstat w.host p = .ok st) ∧ w.Clear)) : Stops (withExisting p k) w := by
  refine (goesOn_lstat p _ w).stops ?_
  cases hSees : w.sees (w.fs.lstat w.host p) with
  | ok st => exact absurd ⟨⟨st, World.sees_eq_ok hSees⟩, World.clear_of_sees hSees⟩ h
  | error e => cases e <;> exact stops_pure rfl _

theorem goesOn_withFree {k : Proc (NfsReply β)} (hStat : w.fs.lstat w.host p = .error .enoent)
    (h : w.Clear) : GoesOn (withFree p k) w k (w.wait 1) := by
  refine (goesOn_lstat p _ w).trans ?_
  rw [h.sees, hStat]
  exact .refl _ _

theorem stops_withFree {k : Proc (NfsReply β)}
    (h : ¬(w.fs.lstat w.host p = .error .enoent ∧ w.Clear)) : Stops (withFree p k) w := by
  refine (goesOn_lstat p _ w).stops ?_
  by_cases hClear : w.Clear
  · rw [hClear.sees]
    cases hStat : w.fs.lstat w.host p with
    | ok st => exact stops_pure rfl _
    | error e =>
      have he : e ≠ .enoent := fun he => h ⟨he ▸ hStat, hClear⟩
      cases e <;> first | exact absurd rfl he | exact stops_pure rfl _
  · -- no failure of its own makes a call say that the name is free
    obtain ⟨f, hf⟩ := World.sees_of_not_clear hClear (w.fs.lstat w.host p)
    rw [hf]
    cases f <;> exact stops_pure rfl _

/-- The check of the permission `a` on the object `d` lets the caller pass. -/
structure Passes (w : World) (cred : Credential) (a : Access) (d : Ino) : Prop where
  permitted : permitted w.fs cred a d = true
  clear : ∀ k < permissionCalls cred, (w.wait k).Clear

instance (w : World) (cred : Credential) (a : Access) (d : Ino) : Decidable (Passes w cred a d) :=
  decidable_of_iff (permitted w.fs cred a d = true ∧ ∀ k < permissionCalls cred, (w.wait k).Clear)
    ⟨fun h => ⟨h.1, h.2⟩, fun h => ⟨h.permitted, h.clear⟩⟩

theorem run_needs_of_root (hRoot : caller.uid = 0) (a : Access) (p : Path) (w : World) :
    (needs a p caller).run w = (.granted, w) := by
  unfold needs unlessRoot
  rw [if_pos hRoot]
  rfl

/-- What the check finds, of a caller that is not root. -/
theorem run_needs (hCaller : caller.uid ≠ 0) (hLookup : w.fs.lookup false p = .ok d) (a : Access)
    (h : w.Clear) :
    (needs a p caller).run w =
      (if permitted w.fs (.authSys caller) a d then .granted else .refused, w.wait 1) := by
  obtain ⟨st, hStat, rfl⟩ := lstat_of_lookup w.host hLookup
  obtain ⟨-, x, hx, -, hPerm, hUid, hGid⟩ := lstat_ok hStat
  unfold needs unlessRoot checkPermission
  rw [if_neg hCaller, run_lstat, h.sees, hStat, permitted_of_inode hCaller hx]
  dsimp only
  rw [hPerm, hUid, hGid]
  rfl

/-- The check cannot be made: the call fails, or there is nothing at the path. -/
theorem run_needs_of_not (hCaller : caller.uid ≠ 0) (a : Access)
    (h : ¬(w.Clear ∧ ∃ d, w.fs.lookup false p = .ok d)) :
    (needs a p caller).run w = (.failed, w.wait 1) := by
  unfold needs unlessRoot checkPermission
  rw [if_neg hCaller, run_lstat]
  cases hSees : w.sees (w.fs.lstat w.host p) with
  | error e => rfl
  | ok st =>
    have hStat : w.fs.lstat w.host p = .ok st := World.sees_eq_ok hSees
    exact absurd ⟨World.clear_of_sees hSees, _, (lstat_ok hStat).1⟩ h

/-- A caller that has the permission and does not pass is not root, and the call fails. -/
theorem fails_of_not_passes (hPermitted : permitted w.fs cred a d = true) (h : ¬Passes w cred a d) :
    ∃ caller, cred = .authSys caller ∧ caller.uid ≠ 0 ∧ ¬w.Clear := by
  have hFails : ¬∀ k < permissionCalls cred, (w.wait k).Clear := fun hClear =>
    h ⟨hPermitted, hClear⟩
  cases cred with
  | authNone => exact absurd (fun k hk => absurd hk (Nat.not_lt_zero k)) hFails
  | authSys caller =>
    refine ⟨caller, rfl, ?_, ?_⟩
    · intro hRoot
      refine hFails fun k hk => ?_
      rw [show permissionCalls (.authSys caller) = 0 from if_pos hRoot] at hk
      exact absurd hk (Nat.not_lt_zero k)
    · intro hClear
      refine hFails fun k hk => ?_
      -- the check makes one call at most, and makes it here
      have hOne : permissionCalls (.authSys caller) ≤ 1 := by
        dsimp only [permissionCalls]
        split <;> omega
      obtain rfl : k = 0 := by omega
      exact hClear

theorem goesOn_withPermission {k : Proc (NfsReply β)} (hLookup : w.fs.lookup false p = .ok d)
    (h : Passes w cred a d) :
    GoesOn (withPermission cred (needs a p) k) w k (w.wait (permissionCalls cred)) := by
  cases cred with
  | authNone => exact .refl _ _
  | authSys caller =>
    by_cases hRoot : caller.uid = 0
    · have hCalls : permissionCalls (.authSys caller) = 0 := if_pos hRoot
      rw [hCalls]
      exact goesOn_bind (looks_needs a p caller) (run_needs_of_root hRoot a p w)
    · have hCalls : permissionCalls (.authSys caller) = 1 := if_neg hRoot
      have hClear : w.Clear := h.clear 0 (by rw [hCalls]; exact Nat.one_pos)
      have hRun := run_needs hRoot hLookup a hClear
      rw [h.permitted, if_pos rfl] at hRun
      rw [hCalls]
      exact goesOn_bind (looks_needs a p caller) hRun

theorem stops_withPermission {k : Proc (NfsReply β)} (hLookup : w.fs.lookup false p = .ok d)
    (h : ¬Passes w cred a d) : Stops (withPermission cred (needs a p) k) w := by
  by_cases hPermitted : permitted w.fs cred a d = true
  · -- the caller may, and does not get to know it
    obtain ⟨caller, rfl, hRoot, hClear⟩ := fails_of_not_passes hPermitted h
    have hRun := run_needs_of_not hRoot a (p := p) fun hMade => hClear hMade.1
    exact (goesOn_bind (looks_needs a p caller) hRun).stops (stops_pure rfl _)
  · cases cred with
    | authNone => exact absurd rfl hPermitted
    | authSys caller =>
      have hRoot : caller.uid ≠ 0 := uid_ne_zero_of_not_permitted (Bool.eq_false_iff.mpr hPermitted)
      by_cases hClear : w.Clear
      · have hRun := run_needs hRoot hLookup a hClear
        rw [if_neg hPermitted] at hRun
        exact (goesOn_bind (looks_needs a p caller) hRun).stops (stops_pure rfl _)
      · have hRun := run_needs_of_not hRoot a (p := p) fun hMade => hClear hMade.1
        exact (goesOn_bind (looks_needs a p caller) hRun).stops (stops_pure rfl _)

/-- The name is free in a directory in which the caller may write, and no call fails while
that is found out. `p` is the path of the directory. -/
structure FreeName (w : World) (cred : Credential) (i : Ino) (n : Bytes) (p : Path) : Prop where
  described : w.Describes
  length : n.length ≤ NFS_MAXNAMLEN
  free : w.fs.lstat w.host (getFileAbsolutePath p n) = .error .enoent
  clear : (w.wait 5).Clear
  passes : ∃ d, w.directory i = .ok (p, d) ∧ Passes (w.wait 6) cred .write d

/-- The calls that it takes. -/
def nameCalls (cred : Credential) : Nat := 6 + permissionCalls cred

theorem goesOn_withNewName {k : Path → Proc (NfsReply β)} (h : FreeName w cred i n p) :
    GoesOn (withNewName (needs .write) cred i n k) w (k (getFileAbsolutePath p n))
      (w.wait (nameCalls cred)) := by
  obtain ⟨d, hDir, hPasses⟩ := h.passes
  obtain ⟨-, hLookup, -⟩ := directory_eq_ok hDir
  refine (goesOn_withDirectory hDir h.described).trans ?_
  rw [if_neg (Nat.not_lt.mpr h.length)]
  refine (goesOn_withFree (w := w.wait 5) h.free h.clear).trans ?_
  have hCheck := goesOn_withPermission (w := w.wait 6) hLookup hPasses
    (k := k (getFileAbsolutePath p n))
  rwa [World.wait_wait] at hCheck

theorem stops_withNewName {k : Path → Proc (NfsReply β)} (h : ¬∃ p, FreeName w cred i n p) :
    Stops (withNewName (needs .write) cred i n k) w := by
  by_cases hFound : (∃ x, w.directory i = .ok x) ∧ w.Describes
  · obtain ⟨⟨⟨p, d⟩, hDir⟩, hDescribes⟩ := hFound
    obtain ⟨-, hLookup, -⟩ := directory_eq_ok hDir
    refine (goesOn_withDirectory hDir hDescribes).stops ?_
    split
    · exact stops_pure rfl _
    · next hLength =>
      by_cases hFree : w.fs.lstat w.host (getFileAbsolutePath p n) = .error .enoent ∧
          (w.wait 5).Clear
      · refine (goesOn_withFree (w := w.wait 5) hFree.1 hFree.2).stops ?_
        have hRefused : ¬Passes (w.wait 6) cred .write d := fun hPasses =>
          h ⟨p, hDescribes, Nat.not_lt.mp hLength, hFree.1, hFree.2, d, hDir, hPasses⟩
        exact stops_withPermission (w := w.wait 6) hLookup hRefused
      · exact stops_withFree (w := w.wait 5) hFree
  · exact stops_withDirectory hFound

end Blocks

/-! ## Where a block leads -/

section Leading

variable {w : World} {p : Path} {i d : Ino} {P : Proc (NfsReply β) → Prop}

theorem leads_orGarbageArgs {args : Option α} {k : α → Proc (NfsReply β)}
    (h : ∀ a, args = some a → Leads P (k a) w) : Leads P (orGarbageArgs args k) w := by
  cases args with
  | none => exact Or.inl stops_orGarbageArgs
  | some a => exact h a rfl

theorem leads_withFile {k : Path → Proc (NfsReply β)}
    (h : ∀ p, w.view i = some p → Leads P (k p) w) : Leads P (withFile i k) w := by
  cases hView : w.view i with
  | none => exact Or.inl (stops_withFile hView)
  | some p => exact GoesOn.leads (t := w.machine.tick) (goesOn_withFile hView) (h p hView)

theorem leads_withAttributes {k : FAttr → Proc (NfsReply β)}
    (h : ∀ st, w.fs.lstat w.host p = .ok st → Leads P (k (fattrOfStat st)) (w.wait 5)) :
    Leads P (withAttributes p k) w := by
  by_cases hGot : (∃ st, w.fs.lstat w.host p = .ok st) ∧ w.Describes
  · obtain ⟨⟨st, hStat⟩, hDescribes⟩ := hGot
    exact (goesOn_withAttributes hStat hDescribes).leads (h st hStat)
  · exact Or.inl (stops_withAttributes hGot)

theorem leads_withDirectory {k : Path → Proc (NfsReply β)}
    (h : ∀ p d, w.directory i = .ok (p, d) → Leads P (k p) (w.wait 5)) :
    Leads P (withDirectory i k) w := by
  by_cases hFound : (∃ x, w.directory i = .ok x) ∧ w.Describes
  · obtain ⟨⟨⟨p, d⟩, hDir⟩, hDescribes⟩ := hFound
    exact (goesOn_withDirectory hDir hDescribes).leads (h p d hDir)
  · exact Or.inl (stops_withDirectory hFound)

theorem leads_withExisting {k : Kernel.Stat → Proc (NfsReply β)}
    (h : ∀ st, w.fs.lstat w.host p = .ok st → Leads P (k st) (w.wait 1)) :
    Leads P (withExisting p k) w := by
  by_cases hExists : (∃ st, w.fs.lstat w.host p = .ok st) ∧ w.Clear
  · obtain ⟨⟨st, hStat⟩, hClear⟩ := hExists
    exact (goesOn_withExisting hStat hClear).leads (h st hStat)
  · exact Or.inl (stops_withExisting hExists)

theorem leads_withFree {k : Proc (NfsReply β)} (h : Leads P k (w.wait 1)) :
    Leads P (withFree p k) w := by
  by_cases hFree : w.fs.lstat w.host p = .error .enoent ∧ w.Clear
  · exact (goesOn_withFree hFree.1 hFree.2).leads h
  · exact Or.inl (stops_withFree hFree)

/-- Any check that only looks. -/
theorem leads_withPermission {check : AuthSysParams → Proc Verdict} {k : Proc (NfsReply β)}
    (hLooks : ∀ caller, Looks (check caller))
    (hStill : ∀ caller, ∃ t, ((check caller).run w).2 = w.atTick t)
    (h : ∀ t, Leads P k (w.atTick t)) : Leads P (withPermission cred check k) w := by
  cases cred with
  | authNone => exact h w.machine.tick
  | authSys caller =>
    obtain ⟨t, ht⟩ := hStill caller
    have hRun : (check caller).run w = (((check caller).run w).1, w.atTick t) := by rw [← ht]
    refine (goesOn_bind (hLooks caller) hRun).leads ?_
    cases ((check caller).run w).1 with
    | failed | refused => exact Or.inl (stops_pure rfl _)
    | granted => exact h t

theorem still_of_checks {check : Proc Verdict} {G : Prop} (h : Checks .none w check G) :
    ∃ t, (check.run w).2 = w.atTick t :=
  (h (fun _ w' => ∃ t, w' = w.atTick t) (fun _ _ t => ⟨t, rfl⟩) fun _ t => ⟨t, rfl⟩).run

theorem leads_needs {k : Proc (NfsReply β)} (h : ∀ t, Leads P k (w.atTick t)) :
    Leads P (withPermission cred (needs a p) k) w :=
  leads_withPermission (looks_needs a p)
    (fun caller => still_of_checks (checks_needs (fun _ => trivial) caller)) h

theorem leads_withNewName {k : Path → Proc (NfsReply β)}
    (h : ∀ p t, w.view i = some p → Leads P (k (getFileAbsolutePath p n)) (w.atTick t)) :
    Leads P (withNewName (needs a) cred i n k) w := by
  refine leads_withDirectory fun p d hDir => ?_
  split
  · exact Or.inl (stops_pure rfl _)
  · exact leads_withFree (leads_needs fun t => h p t (directory_eq_ok hDir).1)

theorem leads_withOldName {k : Path → Path → FAttr → Proc (NfsReply β)}
    (h : ∀ p fattr t, w.view i = some p →
      Leads P (k p (getFileAbsolutePath p n) fattr) (w.atTick t)) : Leads P (withOldName i n k) w :=
  leads_withDirectory fun p _ hDir => leads_withExisting fun _ _ => leads_withAttributes fun st _ =>
    h p (fattrOfStat st) _ (directory_eq_ok hDir).1

end Leading

end QuicNfs.Server

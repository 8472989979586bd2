import QuicNfs.Rpc.Dispatch
import QuicNfs.Server.HandleSoundness
import QuicNfs.Server.Outcomes

/-!
# QuicNfs — what a request leaves alone

NULL, MNT, GETATTR, LOOKUP, READLINK, READ, READDIR and STATFS leave the file system alone;
REMOVE, RMDIR, RENAME, LINK and SYMLINK make one system call that changes something, after
every test and before nothing that can fail.

* `World.oneCall` — that call;
* `IsCall` — the point of the procedure where it is made;
* `leads_remove`, `leads_rename`, … — a procedure stops before that point or comes to it;
* `request_frame` — what each request can change, under any pattern of failures.
-/

namespace QuicNfs.Server

open Kernel Lib

/-- NULL apart, the procedures that change no file. -/
def Request.readOnly : Request → Bool
  | .mnt _ => true
  | .getattr _ => true
  | .lookup _ => true
  | .readlink _ => true
  | .read _ => true
  | .readdir _ => true
  | .statfs _ => true
  | _ => false

/-- MNT and LOOKUP. -/
def Request.introduces : Request → Bool
  | .mnt _ => true
  | .lookup _ => true
  | _ => false

/-- REMOVE, RMDIR, RENAME, LINK and SYMLINK. -/
def Request.changesNames : Request → Bool
  | .remove _ => true
  | .rmdir _ => true
  | .rename _ => true
  | .link _ => true
  | .symlink _ => true
  | _ => false

/-- The one call of such a request, with the paths that the server builds for it. -/
def World.oneCall (w : World) : Request → Option (Sys (Except Errno Unit))
  | .remove args => (args.decode.bind w.built).map .unlink
  | .rmdir args => (args.decode.bind w.built).map .rmdir
  | .rename args => (w.renaming (.rename args)).map fun x => .rename x.1 x.2
  | .link args => args.decode.bind fun a => (w.view a.1).bind fun q => (w.built a.2).map (.link q)
  | .symlink args => args.decode.bind fun a => (w.built (a.1, a.2.1)).map (.symlink a.2.2)
  | _ => none

/-! ## The point of no return -/

/-- `k` succeeds, and touches nothing but what the server keeps for itself. -/
structure EndsWell (k : Proc (NfsReply Unit)) : Prop where
  answer (w : World) : (k.run w).1 = .ok ()
  fs (w : World) : (k.run w).2.fs = w.fs
  changes (w : World) : changes k w = []

/-- A call that can change something, and changes nothing if it fails. -/
structure AllOrNothing (o : Sys (Except Errno Unit)) : Prop where
  changing : changing o = true
  failed (m : Machine) {e : Errno} : (m.exec o).1 = .error e → (m.exec o).2 = m.next

theorem allOrNothing_of_change {o : Sys (Except Errno Unit)} (hChanging : changing o = true)
    {r : Machine → Except Errno FileSystem} (hExec : ∀ m : Machine, m.exec o = m.change (r m)) :
    AllOrNothing o := by
  refine ⟨hChanging, fun m e he => ?_⟩
  rw [hExec] at he ⊢
  unfold Machine.change at he ⊢
  cases hFault : m.here.fault with
  | some f => rfl
  | none =>
    cases hr : r m with
    | error e => rfl
    | ok fs =>
      rw [hFault, hr] at he
      cases he

/-- The request has come to its one call. -/
def IsCall (w : World) (r : Request) (q : Proc (NfsReply Unit)) : Prop :=
  ∃ report o k, w.oneCall r = some o ∧ AllOrNothing o ∧ EndsWell k ∧
    q = orReport report (sys o) fun () => k

/-- What the call makes of the request. -/
structure Decides (o : Sys (Except Errno Unit)) (q : Proc (NfsReply Unit)) (v : World) : Prop where
  changes : changes q v = [⟨.sys o, v⟩]
  isOk : (q.run v).1.isOk = true ↔ (v.machine.exec o).1 = .ok ()
  done : (q.run v).1.isOk = true → (q.run v).2.fs = (v.machine.exec o).2.fs
  undone : (q.run v).1.isOk = false → ∃ t, (q.run v).2 = v.atTick t

section Calls

variable {o : Sys (Except Errno Unit)} {k : Proc (NfsReply Unit)} {v : World}

theorem changes_call (hAll : AllOrNothing o) : Server.changes (sys o) v = [⟨.sys o, v⟩] := by
  show ([⟨.sys o, v⟩] : List (Event Op World)).filter _ = _
  simp [Op.changing, hAll.changing]

/-- The call succeeds, and from there on the request cannot fail. -/
theorem decides_of_ok (report : Errno → Option Stat) (hAll : AllOrNothing o) (hEnds : EndsWell k)
    (hExec : (v.machine.exec o).1 = .ok ()) :
    Decides o (orReport report (sys o) fun () => k) v := by
  have hRun : (sys o).run v = (.ok (), { v with machine := (v.machine.exec o).2 }) := by
    rw [← hExec]
    rfl
  have hAfter : (orReport report (sys o) fun () => k).run v =
      k.run { v with machine := (v.machine.exec o).2 } := by
    unfold orReport
    rw [Prog.run_bind, hRun]
  constructor
  · -- what follows the call is silent
    unfold orReport
    rw [changes_bind, changes_call hAll, hRun]
    dsimp only
    rw [hEnds.changes]
    rfl
  · rw [hAfter, hEnds.answer]
    exact iff_of_true rfl hExec
  · intro _
    rw [hAfter, hEnds.fs]
    rfl
  · intro hFailed
    rw [hAfter, hEnds.answer] at hFailed
    cases hFailed

/-- The call fails, and nothing has changed. -/
theorem decides_of_error (report : Errno → Option Stat) (hAll : AllOrNothing o) {e : Errno}
    (hExec : (v.machine.exec o).1 = .error e) :
    Decides o (orReport report (sys o) fun () => k) v := by
  have hRun : (sys o).run v = (.error e, v.wait 1) := by
    show ((v.machine.exec o).1, { v with machine := (v.machine.exec o).2 }) = _
    rw [hExec, hAll.failed v.machine hExec]
    rfl
  -- whatever the procedure reports, it is not a success
  obtain ⟨reply, hReply, hAfter, hChanges⟩ : ∃ reply : NfsReply Unit, reply.isOk = false ∧
      (orReport report (sys o) fun () => k).run v = (reply, v.wait 1) ∧
      Server.changes (orReport report (sys o) fun () => k) v = [⟨.sys o, v⟩] := by
    unfold orReport
    rw [Prog.run_bind, changes_bind, changes_call hAll, hRun]
    dsimp only
    cases report e with
    | none | some => exact ⟨_, rfl, rfl, rfl⟩
  constructor
  · exact hChanges
  · rw [hAfter, hReply, hExec]
    exact iff_of_false Bool.false_ne_true (by simp)
  · intro hOk
    rw [hAfter, hReply] at hOk
    cases hOk
  · intro _
    exact ⟨_, by rw [hAfter]; rfl⟩

theorem IsCall.decides {w : World} {r : Request} {q : Proc (NfsReply Unit)} (h : IsCall w r q)
    (v : World) : ∃ o, w.oneCall r = some o ∧ Decides o q v := by
  obtain ⟨report, o, k, hCall, hAll, hEnds, rfl⟩ := h
  refine ⟨o, hCall, ?_⟩
  cases hExec : (v.machine.exec o).1 with
  | ok u => exact decides_of_ok report hAll hEnds hExec
  | error e => exact decides_of_error report hAll hExec

end Calls

/-! ## The five procedures -/

section Procedures

variable {w : World} (cred : Credential)

theorem endsWell_ok : EndsWell (pure (.ok ())) := ⟨fun _ => rfl, fun _ => rfl, fun _ => rfl⟩

theorem endsWell_forgetPath (p : Path) : EndsWell (do forgetPath p; pure (.ok ())) :=
  ⟨fun _ => rfl, fun _ => rfl, fun _ => rfl⟩

theorem isCall_here {r : Request} {o : Sys (Except Errno Unit)} {report : Errno → Option Stat}
    {k : Proc (NfsReply Unit)} (hCall : w.oneCall r = some o) (hAll : AllOrNothing o)
    (hEnds : EndsWell k) (v : World) : Leads (IsCall w r) (orReport report (sys o) fun () => k) v :=
  Leads.here ⟨report, o, k, hCall, hAll, hEnds, rfl⟩ v

theorem built_of_view {i : Ino} {p : Path} (hView : w.view i = some p) (n : Bytes) :
    w.built (i, n) = some (getFileAbsolutePath p n) := by
  show (w.view i).map _ = _
  rw [hView]
  rfl

theorem leads_remove (args : DirOpArgs) :
    Leads (IsCall w (.remove args)) (serveNfsProcedure10RemoveFile cred args) w := by
  refine leads_orGarbageArgs fun (i, n) hArgs => leads_withOldName fun p fattr t hView => ?_
  split
  · exact Or.inl (stops_pure rfl _)
  · refine leads_needs fun t => isCall_here ?_ (allOrNothing_of_change rfl fun _ => rfl)
      (endsWell_forgetPath _) _
    simp [World.oneCall, hArgs, built_of_view hView]

theorem leads_rmdir (args : DirOpArgs) :
    Leads (IsCall w (.rmdir args)) (serveNfsProcedure15RemoveDirectory cred args) w := by
  refine leads_orGarbageArgs fun (i, n) hArgs => leads_withOldName fun p fattr t hView => ?_
  split
  · exact Or.inl (stops_pure rfl _)
  · refine leads_needs fun t => isCall_here ?_ (allOrNothing_of_change rfl fun _ => rfl)
      (endsWell_forgetPath _) _
    simp [World.oneCall, hArgs, built_of_view hView]

theorem leads_symlink (args : SymLinkArgs) :
    Leads (IsCall w (.symlink args)) (serveNfsProcedure13CreateSymbolicLink cred args) w := by
  refine leads_orGarbageArgs fun (i, n, target) hArgs => leads_withNewName fun p t hView => ?_
  refine isCall_here ?_ (allOrNothing_of_change rfl fun _ => rfl) endsWell_ok _
  simp [World.oneCall, hArgs, built_of_view hView]

theorem leads_link (args : LinkArgs) :
    Leads (IsCall w (.link args)) (serveNfsProcedure12CreateLinkToFile cred args) w := by
  refine leads_orGarbageArgs fun (k, i, n) hArgs => leads_withFile fun q hSource =>
    leads_withAttributes fun st _ => ?_
  split
  · exact Or.inl (stops_pure rfl _)
  · refine leads_withNewName fun p t hView => ?_
    refine isCall_here ?_ (allOrNothing_of_change rfl fun _ => rfl) endsWell_ok _
    have hView : w.view i = some p := hView
    simp [World.oneCall, hArgs, hSource, built_of_view hView]

theorem leads_rename (args : RenameArgs) :
    Leads (IsCall w (.rename args)) (serveNfsProcedure11RenameFile cred args) w := by
  refine leads_orGarbageArgs fun ((i, n), (i', n')) hArgs => leads_withDirectory fun p d hDir =>
    leads_withExisting fun _ _ => leads_withDirectory fun p' d' hDir' => ?_
  refine leads_withPermission (issues_rename rfl rfl)
    (fun caller => still_of_checks (checks_rename (fun _ => trivial) (fun _ => trivial) caller))
    fun t => ?_
  refine isCall_here ?_ (allOrNothing_of_change rfl fun _ => rfl)
    ⟨fun _ => rfl, fun _ => rfl, fun _ => rfl⟩ _
  have hView : w.view i = some p := (directory_eq_ok hDir).1
  have hView' : w.view i' = some p' := (directory_eq_ok hDir').1
  simp [World.oneCall, World.renaming, hArgs, built_of_view hView, built_of_view hView']

/-- Each of the five comes to its call, or stops before it. -/
theorem leads_serve {r : Request} (h : r.changesNames = true) :
    ∃ p, serve cred r = (do return .nfsStat (← p)) ∧ Leads (IsCall w r) p w := by
  cases r with
  | remove args => exact ⟨_, rfl, leads_remove cred args⟩
  | rmdir args => exact ⟨_, rfl, leads_rmdir cred args⟩
  | rename args => exact ⟨_, rfl, leads_rename cred args⟩
  | link args => exact ⟨_, rfl, leads_link cred args⟩
  | symlink args => exact ⟨_, rfl, leads_symlink cred args⟩
  | mnt | getattr | setattr | lookup | readlink | read | write | create | mkdir | readdir | statfs =>
    cases h

end Procedures

/-- The request made its one call, with the file system as the request found it, and no
other that could have changed something; the call succeeded, and the file system is what it
made of it. -/
def World.MadeItsCall (w : World) (cred : Credential) (r : Request) : Prop :=
  ∃ o v, w.oneCall r = some o ∧ changes (serve cred r) w = [⟨.sys o, v⟩] ∧
    v.fs = w.fs ∧ (v.machine.exec o).1 = .ok () ∧
    (w.afterRequest cred r).fs = (v.machine.exec o).2.fs

section Requests

variable {w : World} {cred : Credential} {r : Request}

theorem answer_of_serve {p : Proc (NfsReply Unit)}
    (hServe : serve cred r = (do return .nfsStat (← p))) :
    w.answer cred r = .nfsStat (p.run w).1 ∧ w.afterRequest cred r = (p.run w).2 := by
  unfold World.answer World.afterRequest
  rw [hServe, run_return]
  exact ⟨rfl, rfl⟩

theorem unchanged_of_refused (h : r.changesNames = true) (hNot : (w.answer cred r).isOk = false) :
    ∃ t, w.afterRequest cred r = w.atTick t := by
  obtain ⟨p, hServe, hLeads⟩ := leads_serve cred (w := w) h
  obtain ⟨hAnswer, hAfter⟩ := answer_of_serve (w := w) hServe
  rw [hAfter]
  rw [hAnswer] at hNot
  rcases hLeads with hStops | ⟨q, t, hCall, hGoesOn⟩
  · exact hStops.still
  · obtain ⟨o, -, hDecides⟩ := hCall.decides (w.atTick t)
    rw [hGoesOn.run] at hNot ⊢
    exact hDecides.undone hNot

theorem isOk_iff_madeItsCall (h : r.changesNames = true) :
    (w.answer cred r).isOk = true ↔ w.MadeItsCall cred r := by
  obtain ⟨p, hServe, hLeads⟩ := leads_serve cred (w := w) h
  obtain ⟨hAnswer, hAfter⟩ := answer_of_serve (w := w) hServe
  have hChanges : changes (serve cred r) w = changes p w := by
    rw [hServe, changes_bind]
    exact List.append_nil _
  unfold World.MadeItsCall
  rw [hAnswer, hAfter, hChanges]
  show (p.run w).1.isOk = true ↔ _
  rcases hLeads with hStops | ⟨q, t, hCall, hGoesOn⟩
  · rw [hStops.refused, hStops.changes]
    refine iff_of_false Bool.false_ne_true ?_
    rintro ⟨o, v, -, hNone, -⟩
    cases hNone
  · obtain ⟨o, hOne, hDecides⟩ := hCall.decides (w.atTick t)
    rw [hGoesOn.run, hGoesOn.changes, hDecides.changes]
    constructor
    · intro hOk
      exact ⟨o, w.atTick t, hOne, rfl, rfl, hDecides.isOk.mp hOk, hDecides.done hOk⟩
    · rintro ⟨o', v, hOne', hEvent, -, hDone, -⟩
      -- the call it made is the one that the procedure has come to
      have hv : w.atTick t = v := congrArg Event.state (List.cons.inj hEvent).1
      cases hOne.symm.trans hOne'
      rw [← hv] at hDone
      exact hDecides.isOk.mpr hDone

end Requests

/-- A request that changes no file adds a mapping at most, or fails. -/
theorem Effect.readOnly {w : World} {cred : Credential} {r : Request} {ok : Bool}
    {fs' : FileSystem} {cache : InodeCache} (h : Effect w cred r ok fs' cache)
    (hRead : r.readOnly = true) :
    fs' = w.fs ∧ (cache = w.inodeCache ∨
      r.introduces = true ∧ (ok = true → ∃ m, cache = m :: w.inodeCache)) := by
  cases h with
  | nothing => exact ⟨rfl, Or.inl rfl⟩
  | mounted | lookedUp => exact ⟨rfl, Or.inr ⟨rfl, fun _ => ⟨_, rfl⟩⟩⟩
  | forgotten => exact ⟨rfl, Or.inr ⟨rfl, fun hOk => absurd hOk Bool.false_ne_true⟩⟩
  -- the requests that remain change files
  | symlinked | linked | renamed => cases hRead
  | touched hRequest => cases r <;> simp_all [Request.readOnly, Request.altersFile]
  | created hRequest => cases r <;> simp_all [Request.readOnly, Request.creation]
  | removed hRequest => cases r <;> simp_all [Request.readOnly, Request.deletion]

theorem Effect.sameCache {w : World} {cred : Credential} {r : Request} {ok : Bool}
    {fs' : FileSystem} {cache : InodeCache} (h : Effect w cred r ok fs' cache)
    (hRead : r.readOnly = true) (hOther : r.introduces = false) : cache = w.inodeCache := by
  refine (h.readOnly hRead).2.resolve_right fun hAdded => ?_
  rw [hOther] at hAdded
  exact Bool.false_ne_true hAdded.1

/-- **The frame of the procedures.** -/
theorem request_frame (w : World) (cred : Credential) (r : Request) :
    (r.readOnly = true → (w.afterRequest cred r).fs = w.fs) ∧
    (r.introduces = true → (w.answer cred r).isOk = true →
      (w.afterRequest cred r).inodeCache = w.inodeCache ∨
      ∃ m, (w.afterRequest cred r).inodeCache = m :: w.inodeCache) ∧
    (r.readOnly = true → r.introduces = false → (w.afterRequest cred r).inodeCache = w.inodeCache) ∧
    (r.changesNames = true →
      ((w.answer cred r).isOk = false →
        (w.afterRequest cred r).fs = w.fs ∧
        (w.afterRequest cred r).inodeCache = w.inodeCache) ∧
      ((w.answer cred r).isOk = true ↔ w.MadeItsCall cred r)) ∧
    ∀ resultsType, ((Rpc.serveNullProcedure resultsType).run w).2 = w := by
  have hEffect := effect_serve w cred r
  refine ⟨fun h => (hEffect.readOnly h).1, fun h hOk => ?_, hEffect.sameCache,
    fun h => ⟨fun hNot => ?_, isOk_iff_madeItsCall h⟩, fun _ => rfl⟩
  · -- MNT and LOOKUP are among those that change no file
    have hRead : r.readOnly = true := by cases r <;> first | rfl | cases h
    exact (hEffect.readOnly hRead).2.imp_right fun hAdded => hAdded.2 hOk
  · obtain ⟨t, ht⟩ := unchanged_of_refused h hNot
    rw [ht]
    exact ⟨rfl, rfl⟩

end QuicNfs.Server

import QuicNfs.Server.Settings

/-!
# QuicNfs — SETATTR

The procedure checks the caller, makes up to four calls, one for each attribute or pair of
attributes, and reads the attributes of the result. Nothing is undone where a later step fails.

* `MaySet` — the check lets the caller pass;
* `SetsOn` — a request gets as far as its calls, on a certain object;
* `SetFinishes` — all calls succeed, and the attributes can be read;
* `setattr_of_setsOn`, `setattr_of_not_setsOn` — what becomes of a request that gets that far,
  and of one that does not;
* `setattr_all_or_nothing_iff` — a request that is not answered with success has changed
  nothing, if and only if it finishes or none of its calls has changed the object.
-/

namespace QuicNfs.Server

open Kernel Lib

variable {β : Type}

/-! ## The check -/

/-- The caller may set the attributes `a` of what is at `p`, and the check finds that out. -/
structure MaySet (w : World) (cred : Credential) (p : Path) (a : Attributes) : Prop where
  /-- Only root sets the owner. -/
  owner : ∀ caller, cred = .authSys caller → caller.uid ≠ 0 →
    a.uid = unchanged32 ∧ a.gid = unchanged32
  /-- Whoever sets anything else may write. -/
  others : ∀ caller, cred = .authSys caller → caller.uid ≠ 0 → a.setsOthers →
    w.Clear ∧ ∃ i, w.fs.lookup false p = .ok i ∧ permitted w.fs cred .write i = true

/-- The calls that it takes. -/
def settingCalls (cred : Credential) (a : Attributes) : Nat :=
  if a.setsOthers then permissionCalls cred else 0

section Check

variable {w : World} {cred : Credential} {p : Path} {a : Attributes}

/-- The check in terms of the one that WRITE makes. -/
theorem checkSetattr_eq (p : Path) (a : Attributes) (caller : AuthSysParams) :
    checkSetattrProcPermissions p a caller =
      if caller.uid ≠ 0 ∧ (a.uid ≠ unchanged32 ∨ a.gid ≠ unchanged32) then pure .refused
      else if a.setsOthers then needs .write p caller
      else pure .granted := by
  unfold checkSetattrProcPermissions needs unlessRoot checkWritePermission
  by_cases hRoot : caller.uid = 0
  · rw [if_pos hRoot, if_pos hRoot, if_neg fun h => h.1 hRoot, ite_self]
  · rw [if_neg hRoot, if_neg hRoot, if_congr (and_iff_right hRoot) rfl rfl]

theorem goesOn_maySet {k : Proc (NfsReply β)} (h : MaySet w cred p a) :
    GoesOn (withPermission cred (checkSetattrProcPermissions p a) k) w k
      (w.wait (settingCalls cred a)) := by
  unfold settingCalls
  cases cred with
  | authNone =>
    rw [show permissionCalls .authNone = 0 from rfl, ite_self]
    exact .refl _ _
  | authSys caller =>
    have hCheck := checkSetattr_eq p a caller
    -- nobody but root gets here with an owner
    have hOwner : ¬(caller.uid ≠ 0 ∧ (a.uid ≠ unchanged32 ∨ a.gid ≠ unchanged32)) := by
      rintro ⟨hCaller, hSets⟩
      obtain ⟨hUid, hGid⟩ := h.owner caller rfl hCaller
      exact hSets.elim (absurd hUid) (absurd hGid)
    rw [if_neg hOwner] at hCheck
    have hRun : (checkSetattrProcPermissions p a caller).run w =
        (.granted, w.wait (if a.setsOthers then permissionCalls (.authSys caller) else 0)) := by
      rw [hCheck]
      split
      · next hOthers =>
        -- root is let through without a look at the object
        by_cases hRoot : caller.uid = 0
        · rw [run_needs_of_root hRoot, show permissionCalls (.authSys caller) = 0 from if_pos hRoot]
          rfl
        · obtain ⟨hClear, i, hLookup, hPermitted⟩ := h.others caller rfl hRoot hOthers
          rw [run_needs hRoot hLookup .write hClear, if_pos hPermitted,
            show permissionCalls (.authSys caller) = 1 from if_neg hRoot]
      · rfl
    exact goesOn_bind (issues_setattr rfl a caller) hRun

/-- For a caller with an AUTH_SYS credential. -/
theorem maySet_authSys {caller : AuthSysParams}
    (h : caller.uid ≠ 0 → (a.uid = unchanged32 ∧ a.gid = unchanged32) ∧ (a.setsOthers →
      w.Clear ∧ ∃ i, w.fs.lookup false p = .ok i ∧
        permitted w.fs (.authSys caller) .write i = true)) : MaySet w (.authSys caller) p a := by
  constructor
  · rintro _ ⟨rfl⟩ hCaller
    exact (h hCaller).1
  · rintro _ ⟨rfl⟩ hCaller
    exact (h hCaller).2

/-- A check that is not passed ends with something else than a permission. -/
theorem run_checkSetattr_of_not {caller : AuthSysParams} (h : ¬MaySet w (.authSys caller) p a) :
    ∃ verdict t, verdict ≠ .granted ∧
      (checkSetattrProcPermissions p a caller).run w = (verdict, w.atTick t) := by
  have hRoot : caller.uid ≠ 0 := by
    intro hRoot
    exact h (maySet_authSys (absurd hRoot))
  rw [checkSetattr_eq, if_congr (and_iff_right hRoot) rfl rfl]
  -- the three ways out of the check: the owner, the permission to write, neither of them needed
  split
  · exact ⟨.refused, w.machine.tick, by simp, rfl⟩
  · next hOwner =>
    obtain ⟨hUid, hGid⟩ := not_or.mp hOwner
    have hOwner : a.uid = unchanged32 ∧ a.gid = unchanged32 := ⟨not_not.mp hUid, not_not.mp hGid⟩
    split
    · next hOthers =>
      by_cases hMade : w.Clear ∧ ∃ i, w.fs.lookup false p = .ok i
      · obtain ⟨hClear, i, hLookup⟩ := hMade
        have hRefused : ¬permitted w.fs (.authSys caller) .write i = true := by
          intro hPermitted
          exact h (maySet_authSys fun _ => ⟨hOwner, fun _ => ⟨hClear, i, hLookup, hPermitted⟩⟩)
        rw [run_needs hRoot hLookup .write hClear, if_neg hRefused]
        exact ⟨.refused, _, by simp, rfl⟩
      · rw [run_needs_of_not hRoot .write hMade]
        exact ⟨.failed, _, by simp, rfl⟩
    · next hOthers =>
      exact absurd (maySet_authSys fun _ => ⟨hOwner, fun hSets => absurd hSets hOthers⟩) h

theorem stops_maySet {k : Proc (NfsReply β)} (h : ¬MaySet w cred p a) :
    Stops (withPermission cred (checkSetattrProcPermissions p a) k) w := by
  cases cred with
  | authNone => exact absurd ⟨fun _ hc => (by cases hc), fun _ hc => (by cases hc)⟩ h
  | authSys caller =>
    obtain ⟨verdict, t, hVerdict, hRun⟩ := run_checkSetattr_of_not h
    refine (goesOn_bind (issues_setattr rfl a caller) hRun).stops ?_
    cases verdict with
    | granted => exact absurd rfl hVerdict
    | failed | refused => exact stops_pure rfl _

end Check

/-! ## The calls -/

/-- SETATTR gets as far as its calls, which set the attributes `a` by the path `p`, and so those
of the object `f`, which is `x`. -/
structure SetsOn (w : World) (cred : Credential) (args : SAttrArgs) (a : Attributes)
    (p : Path) (f : Ino) (x : Inode) : Prop where
  found : ∃ i, args.decode = some (i, a) ∧ w.view i = some p
  may : MaySet w cred p a
  lookup : w.fs.lookup true p = .ok f
  inode : w.fs.inode f = some x

/-- All calls succeed, and so do those that read the attributes for the reply. -/
structure SetFinishes (w : World) (cred : Credential) (a : Attributes) (p : Path) (x : Inode) :
    Prop where
  set : GoThrough x.content.format a.settings (w.wait (settingCalls cred a))
  there : ∃ i, w.fs.lookup false p = .ok i
  described : (w.wait (settingCalls cred a + a.settings.length)).Describes

/-- The object as the calls leave it. -/
def settled (w : World) (cred : Credential) (a : Attributes) (x : Inode) : Inode :=
  applied a.settings (w.wait (settingCalls cred a)) x

section Calls

variable {w : World} {cred : Credential} {args : SAttrArgs} {a : Attributes} {p : Path}
  {f : Ino} {x : Inode}

theorem SetsOn.unique {a' : Attributes} {p' : Path} {f' : Ino} {x' : Inode}
    (h : SetsOn w cred args a p f x) (h' : SetsOn w cred args a' p' f' x') :
    a' = a ∧ p' = p ∧ f' = f ∧ x' = x := by
  obtain ⟨i, hArgs, hView⟩ := h.found
  obtain ⟨i', hArgs', hView'⟩ := h'.found
  cases hArgs.symm.trans hArgs'
  cases hView.symm.trans hView'
  cases h.lookup.symm.trans h'.lookup
  cases h.inode.symm.trans h'.inode
  exact ⟨rfl, rfl, rfl, rfl⟩

theorem serve_setattr (cred : Credential) (args : SAttrArgs) :
    serve cred (.setattr args) = (do
      return .attrStat (← orGarbageArgs args.decode fun (i, a) =>
        withFile i fun p => withPermission cred (checkSetattrProcPermissions p a) <|
          inOrder p a.settings <| withAttributes p fun fattr => pure (.ok fattr))) := by
  simp only [← settings_eq]
  rfl

/-- The end of the procedure, which only looks. -/
theorem run_reply (w : World) (p : Path) :
    let after := (withAttributes p fun fattr => pure (.ok fattr) : Proc (NfsReply FAttr)).run w
    after.2.fs = w.fs ∧
      ((∃ i, w.fs.lookup false p = .ok i) ∧ w.Describes →
        ∃ st, w.fs.lstat w.host p = .ok st ∧ after.1 = .ok (fattrOfStat st)) ∧
      (¬((∃ i, w.fs.lookup false p = .ok i) ∧ w.Describes) → after.1.isOk = false) := by
  intro after
  by_cases hGot : (∃ i, w.fs.lookup false p = .ok i) ∧ w.Describes
  · obtain ⟨⟨i, hLookup⟩, hDescribes⟩ := hGot
    obtain ⟨st, hStat, -⟩ := FileSystem.lstat_of_lookup w.host hLookup
    have hRun : after = (.ok (fattrOfStat st), w.wait 5) :=
      (goesOn_withAttributes hStat hDescribes).run
    rw [hRun]
    exact ⟨rfl, fun _ => ⟨st, hStat, rfl⟩, fun hNot => absurd ⟨⟨i, hLookup⟩, hDescribes⟩ hNot⟩
  · -- what `lstat` finds, `lookup` finds
    have hStops : Stops (withAttributes p fun fattr => pure (.ok fattr) : Proc (NfsReply FAttr)) w := by
      refine stops_withAttributes fun hBoth => hGot ⟨?_, hBoth.2⟩
      obtain ⟨st, hStat⟩ := hBoth.1
      exact ⟨_, (FileSystem.lstat_ok hStat).1⟩
    obtain ⟨t, ht⟩ := hStops.still
    rw [show after.2 = _ from ht]
    exact ⟨rfl, fun h => absurd h hGot, fun _ => hStops.refused⟩

/-- **A request that gets as far as its calls.** Only its object is touched, and all that was
done to it stays, whatever the answer is. -/
theorem setattr_of_setsOn (h : SetsOn w cred args a p f x) :
    ∃ fs', (w.afterRequest cred (.setattr args)).fs = fs' ∧ w.fs.Touched fs' f ∧
      fs'.inode f = some (settled w cred a x) ∧
      (SetFinishes w cred a p x → ∃ st, fs'.lstat w.host p = .ok st ∧
        w.answer cred (.setattr args) = .attrStat (.ok (fattrOfStat st))) ∧
      (¬SetFinishes w cred a p x → (w.answer cred (.setattr args)).isOk = false) := by
  obtain ⟨i, hArgs, hView⟩ := h.found
  let v := w.wait (settingCalls cred a)
  let reply : Proc (NfsReply FAttr) := withAttributes p fun fattr => pure (.ok fattr)
  have hRun : (serve cred (.setattr args)).run w =
      (.attrStat ((inOrder p a.settings reply).run v).1, ((inOrder p a.settings reply).run v).2) := by
    rw [serve_setattr, run_return, hArgs]
    dsimp only [orGarbageArgs]
    rw [(goesOn_withFile hView).run, (goesOn_maySet h.may).run]
  unfold World.afterRequest World.answer
  rw [hRun]
  obtain ⟨fs', hTouched, hInode, hCalls⟩ := run_inOrder (w := v) a.settings reply h.lookup h.inode
  refine ⟨fs', ?_⟩
  split at hCalls
  · next hThrough =>
    rw [hCalls]
    obtain ⟨hFs, hOk, hFailed⟩ := run_reply ((v.withFs fs').wait a.settings.length) p
    -- the path leads where it led before, and only the count of the calls matters
    have hFinishes : SetFinishes w cred a p x ↔ (∃ i, fs'.lookup false p = .ok i) ∧
        ((v.withFs fs').wait a.settings.length).Describes := by
      rw [hTouched.names.lookup]
      have hWait := World.wait_wait w (settingCalls cred a) a.settings.length
      constructor
      · rintro ⟨-, hThere, hDescribed⟩
        rw [← hWait] at hDescribed
        exact ⟨hThere, hDescribed.clear, hDescribed.supplied⟩
      · rintro ⟨hThere, hDescribed⟩
        refine ⟨hThrough, hThere, ?_⟩
        rw [← hWait]
        exact ⟨hDescribed.clear, hDescribed.supplied⟩
    refine ⟨hFs, hTouched, hInode, fun h => ?_, fun h => hFailed (hFinishes.not.mp h)⟩
    obtain ⟨st, hStat, hReply⟩ := hOk (hFinishes.mp h)
    exact ⟨st, hStat, congrArg Answer.attrStat hReply⟩
  · next hNot =>
    obtain ⟨failed, t, hFailed, hCalls⟩ := hCalls
    rw [hCalls]
    exact ⟨rfl, hTouched, hInode, fun hFinishes => absurd hFinishes.set hNot, fun _ => hFailed⟩

theorem settings_ne_nil (a : Attributes) : a.settings ≠ [] := by
  unfold Attributes.settings Attributes.initial
  simp

/-- A request that does not get that far leaves everything as it was. -/
theorem setattr_of_not_setsOn (h : ¬∃ a p f x, SetsOn w cred args a p f x) :
    (w.answer cred (.setattr args)).isOk = false ∧
      (w.afterRequest cred (.setattr args)).fs = w.fs := by
  obtain ⟨reply, t, hReply, hRun⟩ : ∃ reply t, reply.isOk = false ∧
      (orGarbageArgs args.decode fun (i, a) =>
        withFile i fun p => withPermission cred (checkSetattrProcPermissions p a) <|
          inOrder p a.settings <| withAttributes p fun fattr => pure (.ok fattr)).run w =
      (reply, w.atTick t) := by
    cases hArgs : args.decode with
    | none => exact stops_orGarbageArgs.run
    | some x =>
      obtain ⟨i, a⟩ := x
      dsimp only [orGarbageArgs]
      cases hView : w.view i with
      | none => exact (stops_withFile hView).run
      | some p =>
        rw [(goesOn_withFile hView).run]
        by_cases hMay : MaySet w cred p a
        · -- the path leads nowhere, and the first call finds that out
          rw [(goesOn_maySet hMay).run]
          cases hLookup : w.fs.lookup true p with
          | ok f =>
            obtain ⟨x, hx⟩ := FileSystem.isSome_of_lookup hLookup
            exact absurd ⟨a, p, f, x, ⟨i, hArgs, hView⟩, hMay, hLookup, hx⟩ h
          | error e =>
            obtain ⟨reply, hReply, hRun⟩ := run_inOrder_of_error
              (w := w.wait (settingCalls cred a)) a.settings
              (withAttributes p fun fattr => pure (.ok fattr)) (settings_ne_nil a) hLookup
            exact ⟨reply, _, hReply, hRun⟩
        · exact (stops_maySet hMay).run
  unfold World.answer World.afterRequest
  rw [serve_setattr, run_return, hRun]
  exact ⟨hReply, rfl⟩

end Calls

/-! ## All or nothing -/

/-- **SETATTR is all or nothing** if and only if a request that gets as far as its calls
finishes, or leaves its object as it was: the first call failed, or those before the one that
failed have set what was there already. -/
theorem setattr_all_or_nothing_iff (w : World) (cred : Credential) (args : SAttrArgs) :
    ((w.answer cred (.setattr args)).isOk = false →
      ∀ i, (w.afterRequest cred (.setattr args)).fs.inode i = w.fs.inode i) ↔
    ∀ a p f x, SetsOn w cred args a p f x → SetFinishes w cred a p x ∨ settled w cred a x = x := by
  by_cases h : ∃ a p f x, SetsOn w cred args a p f x
  · obtain ⟨a, p, f, x, hSets⟩ := h
    obtain ⟨fs', hFs, hTouched, hInode, hOk, hFailed⟩ := setattr_of_setsOn hSets
    rw [hFs]
    constructor
    · intro hAll a' p' f' x' hSets'
      obtain ⟨rfl, rfl, rfl, rfl⟩ := hSets.unique hSets'
      -- of a request that fails, the object it has touched tells how far it came
      by_cases hFinishes : SetFinishes w cred a' p' x'
      · exact Or.inl hFinishes
      · have hSame := hAll (hFailed hFinishes) f'
        rw [hInode, hSets.inode] at hSame
        exact Or.inr (Option.some.inj hSame)
    · intro hEither hAnswer i
      rcases hEither a p f x hSets with hFinishes | hSame
      · obtain ⟨st, -, hReply⟩ := hOk hFinishes
        rw [hReply] at hAnswer
        cases hAnswer
      · by_cases hi : i = f
        · rw [hi, hInode, hSame, hSets.inode]
        · exact hTouched.other hi
  · obtain ⟨-, hFs⟩ := setattr_of_not_setsOn h
    rw [hFs]
    exact iff_of_true (fun _ _ => rfl) fun a p f x hSets => absurd ⟨a, p, f, x, hSets⟩ h

namespace Sample

/-- Attributes that leave everything as it is. -/
def unchanged : SAttr where
  mode := unchanged32
  uid := unchanged32
  gid := unchanged32
  size := unchanged64
  atime := some ⟨unchanged64, unchanged64⟩
  mtime := some ⟨unchanged64, unchanged64⟩

def setattr (i : Ino) (sattr : SAttr) : Request := .setattr ⟨some (handle i), some sattr⟩

end Sample

/-- **A request that failed has changed the mode.** The mode and the size of the directory
`/exp` are set: the directory gets its new mode, and then the size makes the request fail. No
call fails for a reason of its own. -/
theorem setattr_not_all_or_nothing :
    let w := Sample.world.step Sample.mount
    let r := Sample.setattr 2 { Sample.unchanged with mode := 0o700, size := 0 }
    w.answer (.authSys Sample.caller) r = .attrStat .systemErr ∧
      (w.fs.inode 2).map (·.attr.perm) = some 0o777 ∧
      ((w.afterRequest (.authSys Sample.caller) r).fs.inode 2).map (·.attr.perm) = some 0o700 := by
  decide +kernel

end QuicNfs.Server

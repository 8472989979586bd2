import QuicNfs.Server.SettingCalls
import QuicNfs.Server.StreamRules

/-!
# QuicNfs — permission on the object that is really accessed

READ, WRITE and SETATTR check the caller's permission with `lstat`, which does
not follow a final symbolic link, and then work through calls that do.

* `World.accessed` — the objects whose bytes a request reads or whose bytes or
  attributes it changes;
* `permitted_iff` — for a caller other than root and a request that is answered
  with NFS_OK, the caller has the permission on each of them if and only if the
  path of the handle is not that of a symbolic link, or is that of one to an
  object on which the caller has the permission;
* `read_through_link` — a symbolic link that anyone may read, to a file that
  only root may.
-/

namespace QuicNfs.Kernel

/-- The objects whose bytes a call reads, or whose bytes or attributes it
changes; for the calls that take a path, the one that it leads to when a final
symbolic link is followed. -/
def Sys.accessed {β : Type} (fs : FileSystem) : Sys β → List Ino
  | .fread f _ _ => [f]
  | .fwrite f _ _ => [f]
  | .fclose f _ _ => [f]
  | .chmod p _ => (fs.lookup true p).toOption.toList
  | .chown p _ _ => (fs.lookup true p).toOption.toList
  | .truncate p _ => (fs.lookup true p).toOption.toList
  | .utimes p _ _ => (fs.lookup true p).toOption.toList
  | _ => []

end QuicNfs.Kernel

namespace QuicNfs.Server

open Kernel Lib

def accessedBy : Event Op World → List Ino
  | ⟨.sys o, w⟩ => o.accessed w.fs
  | _ => []

/-- The objects a request accesses. -/
def World.accessed (w : World) (cred : Credential) (r : Request) : List Ino :=
  ((serve cred r).trace w).flatMap accessedBy

/-- READ, WRITE, and SETATTR of something other than the owner: the permission
they need, and the handle. -/
def Request.target : Request → Option (Access × Ino)
  | .read args => (args.file.bind FHandle.decode).map fun i => (.read, i)
  | .write args => args.decode.map fun a => (.write, a.1)
  | .setattr args =>
    args.decode.bind fun a => if a.2.setsOthers then some (.write, a.1) else none
  | _ => none

/-! ## The three procedures -/

/-- Of every object that is accessed, `A` is assumed and `P` demanded. -/
def onAccessed (A P : Ino → Prop) : Demand where
  assumes o w := ∀ i ∈ o.accessed w.fs, A i
  holds o w := ∀ i ∈ o.accessed w.fs, P i
  silent o w h i hi := by
    cases o <;> simp_all [silent, Sys.accessed]

section Procedures

variable {β : Type} {w : World} {caller : AuthSysParams} {A P : Ino → Prop} {i : Ino}

theorem onAccessed_lstat (p : Path) (w : World) : (onAccessed A P).holds (.lstat p) w :=
  fun _ hi => absurd hi (by simp [Sys.accessed])

/-- If the request is carried out, `A` holds of what the path of the handle leads to. -/
def Reaches (w : World) (i : Ino) (A : Ino → Prop) : Prop :=
  ∃ p f, w.inodeCache.getAbsolutePathFromInodeNumber i = some p ∧ w.fs.lookup true p = .ok f ∧ A f

def Accesses (w : World) (i : Ino) (A : Ino → Prop) (reply : NfsReply β) (_ : World) : Prop :=
  reply.isOk = true → Reaches w i A

theorem failSafe_accesses (w' : World) : FailSafe (Accesses w i A : NfsReply β → World → Prop) w' :=
  fun _ hReply _ hOk => absurd hOk (by simp [hReply])

/-- What a caller who is let through does to the object is done to one that meets `P`. -/
def Lets (w : World) (i : Ino) (a : Access) (caller : AuthSysParams) (P : Ino → Prop) : Prop :=
  ∀ p f, w.inodeCache.getAbsolutePathFromInodeNumber i = some p → w.fs.lookup true p = .ok f →
    Granted w a p caller → P f

theorem Lets.singleton {a : Access} {p : Path} {f : Ino} (h : Lets w i a caller P)
    (hp : w.inodeCache.getAbsolutePathFromInodeNumber i = some p) (hf : w.fs.lookup true p = .ok f)
    (hGranted : ∀ c, Credential.authSys caller = .authSys c → Granted w a p c) : ∀ j ∈ [f], P j := by
  intro j hj
  cases List.mem_singleton.mp hj
  exact h p f hp hf (hGranted caller rfl)

theorem safe_read {args : ReadArgs} (hArgs : args.file.bind FHandle.decode = some i)
    (hP : Lets w i .read caller P) :
    Safe (onAccessed A P) (Accesses w i A)
      (serveNfsProcedure6ReadFromFile (.authSys caller) args) w := by
  have hFail := failSafe_accesses (w := w) (i := i) (A := A) (β := ReadResBody) w
  refine safe_orGarbageArgs hFail fun i' hi' => ?_
  cases hArgs.symm.trans hi'
  refine safe_withFile hFail fun p hp => ?_
  refine safe_withAttributes (fun _ => onAccessed_lstat p _) hFail fun st _ => ?_
  split
  · exact safe_err hFail _
  refine safe_withPermission hFail (checks_needs fun _ => onAccessed_lstat p _)
    fun hGranted => ?_
  refine safe_bind (safe_readFromFile (fun f hf _ => ⟨hP.singleton hp hf hGranted,
    hP.singleton hp hf hGranted⟩) (fun _ => safe_systemErr hFail) ?_)
  intro f data device hf _ hA _
  -- the file was read, so what is assumed of accessed objects holds of it
  obtain ⟨t, hA⟩ := hA
  exact safe_withAttributes (fun _ => onAccessed_lstat p _) hFail fun _ _ =>
    safe_pure fun _ _ => ⟨p, f, hp, hf, hA f (by simp [Sys.accessed])⟩

theorem safe_write {args : WriteArgs} {data : Bytes} (hArgs : args.decode = some (i, data))
    (hP : Lets w i .write caller P) :
    Safe (onAccessed A P) (Accesses w i A)
      (serveNfsProcedure8WriteToFile (.authSys caller) args) w := by
  have hFail := failSafe_accesses (w := w) (i := i) (A := A) (β := FAttr)
  refine safe_orGarbageArgs (hFail w) fun a ha => ?_
  cases hArgs.symm.trans ha
  refine safe_withFile (hFail w) fun p hp => ?_
  refine safe_withAttributes (fun _ => onAccessed_lstat p _) (hFail w) fun st _ => ?_
  split
  · exact safe_err (hFail w) _
  split
  · exact safe_err (hFail w) _
  refine safe_withPermission (hFail w) (checks_needs fun _ => onAccessed_lstat p _)
    fun hGranted => ?_
  refine safe_bind (safe_writeToFile (fun f hf _ => hP.singleton hp hf hGranted)
    (fun f hf _ _ _ _ _ => hP.singleton hp hf hGranted) ?_ ?_)
  · intro r hr _
    cases r with
    | written => exact absurd rfl hr
    | notOpened | notSeekable | tooBig | ioError | noSpace | failed =>
      exact safe_pure (hFail w _ rfl)
  · intro r f fs' hf _ _ hA _
    cases r with
    | written =>
      obtain ⟨t, hA⟩ := hA rfl
      exact safe_withAttributes (fun _ => onAccessed_lstat p _) (hFail _) fun _ _ =>
        safe_pure fun _ _ => ⟨p, f, hp, hf, hA f (by simp [Sys.accessed])⟩
    | notOpened | notSeekable | tooBig | ioError | noSpace | failed =>
      exact safe_pure (hFail (w.withFs fs') _ rfl)

/-- The calls of SETATTR leave all names as they are, so they all work on the
object that the path led to at first. -/
theorem safe_setattr {args : SAttrArgs} {a : Attributes} (hArgs : args.decode = some (i, a))
    (hOthers : a.setsOthers) (hCaller : caller.uid ≠ 0) (hP : Lets w i .write caller P) :
    Safe (onAccessed A P) (Accesses w i A)
      (serveNfsProcedure2SetFileAttributes (.authSys caller) args) w := by
  have hFail := failSafe_accesses (w := w) (i := i) (A := A) (β := FAttr)
  refine safe_orGarbageArgs (hFail w) fun ia hia => ?_
  cases hArgs.symm.trans hia
  refine safe_withFile (hFail w) fun p hp => ?_
  refine safe_withPermission (hFail w) (checks_setattr (fun _ => onAccessed_lstat p _) a)
    fun hGranted => ?_
  have hWrite : Granted w .write p caller := by
    rcases hGranted caller rfl with hRoot | ⟨_, h⟩
    · exact absurd hRoot hCaller
    · exact h hOthers
  have hDemand : ∀ {fs'}, w.fs.SameNames fs' → ∀ j ∈ (fs'.lookup true p).toOption.toList, P j := by
    intro fs' hNames j hj
    rw [mem_toOption, hNames.lookup] at hj
    exact hP p j hp hj hWrite
  have hSetting : ∀ s : Setting, ∀ fs', w.fs.SameNames fs' → ∀ t,
      (onAccessed A P).holds (s.call p) ((w.withFs fs').atTick t) := by
    intro s fs' hNames t
    cases s <;> exact hDemand hNames
  have hStep : ∀ s : Setting, ∀ fs' fs'' now, w.fs.SameNames fs' → s.result fs' p now = .ok fs'' →
      w.fs.SameNames fs'' := by
    intro s fs' fs'' now hNames hResult
    obtain ⟨_, _, hTouched⟩ := Setting.touched_of_result hResult
    exact hNames.trans hTouched.names
  rw [setMode_eq, setTimes_eq, setSize_eq, ← inOrder_append]
  refine safe_inOrder (w := w) (I := w.fs.SameNames) (fun s _ => hSetting s) (fun _ _ => hFail _)
    (fun s _ => hStep s) (fun fs' hNames => ?_) (.refl _)
  -- the owner is set in any case, so that the object is accessed
  refine safe_assume (fun _ => hDemand hNames) fun hA => ?_
  refine safe_setOwner (fun _ => hDemand hNames) (hFail _) fun _ fs'' hr => ?_
  obtain ⟨f, hf, hTouched, _⟩ := FileSystem.chown_ok hr
  obtain ⟨t, hA⟩ := hA
  have hReaches : Reaches w i A :=
    ⟨p, f, hp, (hNames.lookup true p).symm.trans hf, hA f (mem_toOption.mpr hf)⟩
  exact safe_inOrder (w := w) (I := w.fs.SameNames) (fun s _ => hSetting s) (fun _ _ => hFail _)
    (fun s _ => hStep s) (fun fs₃ _ => safe_withAttributes (fun _ => onAccessed_lstat p _) (hFail _)
      fun _ _ => safe_pure fun _ _ => hReaches) (hNames.trans hTouched.names)

end Procedures

/-- The three procedures as one. -/
theorem safe_target {w : World} {caller : AuthSysParams} (hCaller : caller.uid ≠ 0) {r : Request}
    {a : Access} {i : Ino} (hTarget : r.target = some (a, i)) {A P : Ino → Prop}
    (hP : Lets w i a caller P) :
    Safe (onAccessed A P) (fun (answer : Answer) _ => answer.isOk = true → Reaches w i A)
      (serve (.authSys caller) r) w := by
  cases r with
  | read args =>
    obtain ⟨i', hArgs, hEq⟩ := Option.map_eq_some_iff.mp hTarget
    cases hEq
    exact safe_return (safe_read hArgs hP)
  | write args =>
    obtain ⟨⟨i', data⟩, hArgs, hEq⟩ := Option.map_eq_some_iff.mp hTarget
    cases hEq
    exact safe_return (safe_write hArgs hP)
  | setattr args =>
    obtain ⟨⟨i', a'⟩, hArgs, hEq⟩ := Option.bind_eq_some_iff.mp hTarget
    simp only at hEq
    split at hEq
    · next hOthers =>
      cases hEq
      exact safe_return (safe_setattr hArgs hOthers hCaller hP)
    · cases hEq
  | _ => cases hTarget

theorem forall_accessed_iff {w : World} {cred : Credential} {r : Request} {P : Ino → Prop} :
    (∀ i ∈ w.accessed cred r, P i) ↔ ∀ e ∈ (serve cred r).trace w, ∀ i ∈ accessedBy e, P i := by
  simp only [World.accessed, List.mem_flatMap]
  exact ⟨fun h e he i hi => h i ⟨e, he, hi⟩, fun h i ⟨e, he, hi⟩ => h e he i hi⟩

/-- **Permission on the object that is really accessed.** For every state and
every AUTH_SYS caller other than root, if READ, WRITE or SETATTR answers
NFS_OK, then the caller has the permission on every object that was read or
changed if and only if what the path of the handle leads to is the object
that it names without following it, or one on which the caller has the
permission. -/
theorem permitted_iff (w : World) (caller : AuthSysParams) (hCaller : caller.uid ≠ 0) (r : Request)
    (a : Access) (i : Ino) (hTarget : r.target = some (a, i))
    (hOk : (w.answer (.authSys caller) r).isOk = true) :
    (∀ j ∈ w.accessed (.authSys caller) r, permits w.fs a j caller = true) ↔
    ∀ p f, w.inodeCache.getAbsolutePathFromInodeNumber i = some p →
      w.fs.lookup true p = .ok f → w.fs.lookup false p ≠ .ok f →
      permits w.fs a f caller = true := by
  rw [forall_accessed_iff]
  constructor
  · -- the object that the path leads to was accessed
    intro hAll p f hp hf _
    have hSafe := safe_target (w := w) (A := fun j => permits w.fs a j caller = true)
      (P := fun _ => True) hCaller hTarget fun _ _ _ _ _ => trivial
    have hAssumes : ∀ e ∈ (serve (.authSys caller) r).trace w,
        (onAccessed (fun j => permits w.fs a j caller = true) fun _ => True).contract.assumes
          e.op e.state := by
      rintro ⟨o, w'⟩ he
      cases o with
      | sys o => exact hAll _ he
      | _ => trivial
    obtain ⟨p', f', hp', hf', hPermits⟩ := (hSafe.trace hAssumes).2 hOk
    cases hp.symm.trans hp'
    cases hf.symm.trans hf'
    exact hPermits
  · -- what was checked is the object that the path names
    intro hLink
    have hSafe := safe_target (w := w) (A := fun _ => True)
      (P := fun j => permits w.fs a j caller = true) hCaller hTarget fun p f hp hf hGranted => by
        by_cases hSame : w.fs.lookup false p = .ok f
        · exact permits_of_granted hGranted hCaller hSame
        · exact hLink p f hp hf hSame
    have hAssumes : ∀ e ∈ (serve (.authSys caller) r).trace w,
        (onAccessed (fun _ => True) fun j => permits w.fs a j caller = true).contract.assumes
          e.op e.state := by
      rintro ⟨o, w'⟩ _
      cases o with
      | sys o => exact fun _ _ => trivial
      | _ => trivial
    have hDemands := (hSafe.trace hAssumes).1
    rintro ⟨o, w'⟩ he
    cases o with
    | sys o => exact hDemands _ he
    | _ => exact fun _ hj => absurd hj (by simp [accessedBy])

/-- User 1000 reads the file `/exp/a/f`. -/
theorem permitted_iff_read :
    let w := Sample.world.steps [Sample.mount, Sample.request (.lookup (Sample.nameIn 2 "a")),
      Sample.request (.lookup (Sample.nameIn 3 "f"))]
    (∀ j ∈ w.accessed (.authSys Sample.caller) (.read ⟨some (Sample.handle 4), 0, 10⟩),
      permits w.fs .read j Sample.caller = true) ↔
    ∀ p f, w.inodeCache.getAbsolutePathFromInodeNumber 4 = some p →
      w.fs.lookup true p = .ok f → w.fs.lookup false p ≠ .ok f →
      permits w.fs .read f Sample.caller = true :=
  permitted_iff _ Sample.caller (by decide) (.read ⟨some (Sample.handle 4), 0, 10⟩) .read 4
    (by decide) (by decide)

/-- **A symbolic link is no permission.** Anyone may read the symbolic link
`/exp/l`, only root the file `/secret` it leads to; user 1000 reads the file
through the handle of the link. -/
theorem read_through_link :
    let w := Sample.world.steps [Sample.mount, Sample.request (.lookup (Sample.nameIn 2 "l"))]
    let r : Request := .read ⟨some (Sample.handle 6), 0, 10⟩
    Sample.caller.uid ≠ 0 ∧ (w.answer (.authSys Sample.caller) r).isOk = true ∧
      5 ∈ w.accessed (.authSys Sample.caller) r ∧ permits w.fs .read 5 Sample.caller = false := by
  decide

end QuicNfs.Server

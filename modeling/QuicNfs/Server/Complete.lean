import QuicNfs.Server.Effect
import QuicNfs.Server.SettingCalls

/-!
# QuicNfs — the lists are complete

Procedure by procedure: a request reads only what `Reached` lists and leaves
behind only what `Effect` lists (`complete_serve`).
-/

namespace QuicNfs.Server

open Kernel Lib FileSystem

/-! ## The procedures one by one -/

section Procedures

variable {w : World} {cred : Credential} {σ β : Type}

/-- The demand on the calls of a procedure: what they read is in the list. -/
def reads (w : World) (cred : Credential) (r : Request) : Demand where
  assumes _ _ := True
  holds o w' := ∀ i ∈ o.reads w'.fs, Reached w cred r w'.fs i
  silent o w' h i hi := by
    cases o <;> simp_all [Server.silent, Sys.reads]

variable {w' : World} {fs : FileSystem}

theorem reads_of_nil {r : Request} {α : Type} {o : Sys α} (h : o.reads w'.fs = []) :
    (reads w cred r).holds o w' :=
  fun _ hi => absurd hi (by simp [h])

theorem reads_lstat {r : Request} {p : Path} (hp : PathOf w r p) (hNames : w.fs.SameNames w'.fs) :
    (reads w cred r).holds (.lstat p) w' := by
  intro i hi
  have hLookup := mem_toOption.mp hi
  rw [hNames.lookup] at hLookup
  exact .named hp hNames hLookup

/-- A path of the request, before anything was changed. -/
theorem reads_here {r : Request} {p : Path} (hp : PathOf w r p) (t : Nat) :
    (reads w cred r).holds (.lstat p) (w.atTick t) :=
  reads_lstat hp (.refl _)

/-- The postcondition of a procedure: what it left behind is in the list. -/
def leaves (w : World) (cred : Credential) (r : Request) (reply : Reply σ β) (w' : World) : Prop :=
  Effect w cred r reply.isOk w'.fs w'.inodeCache

theorem failSafe_leaves (w : World) (cred : Credential) (r : Request) :
    FailSafe (leaves w cred r : Reply σ β → World → Prop) w :=
  fun _ _ _ => .nothing r _

/-- What the procedure reads and leaves behind is in the lists. -/
abbrev Complete (w : World) (cred : Credential) (r : Request) (p : Proc (Reply σ β)) : Prop :=
  Safe (reads w cred r) (leaves w cred r) p w

section Blocks

variable {α : Type} {r : Request} {p : Path} {i : Ino} {n : Bytes}

theorem complete_pure (reply : Reply σ β) : Complete w cred r (pure reply) :=
  safe_pure fun _ => .nothing r _

theorem complete_orGarbageArgs {args : Option α} {k : α → Proc (NfsReply β)}
    (h : ∀ a, args = some a → Complete w cred r (k a)) : Complete w cred r (orGarbageArgs args k) :=
  safe_orGarbageArgs (failSafe_leaves w cred r) h

theorem complete_withFile {k : Path → Proc (NfsReply β)} (hi : i ∈ r.handles)
    (h : ∀ p, w.inodeCache.getAbsolutePathFromInodeNumber i = some p → PathOf w r p →
      Complete w cred r (k p)) : Complete w cred r (withFile i k) :=
  safe_withFile (failSafe_leaves w cred r) fun p hp => h p hp (.handle hi hp)

theorem complete_withAttributes {k : FAttr → Proc (NfsReply β)} (hp : PathOf w r p)
    (h : ∀ fattr, Complete w cred r (k fattr)) : Complete w cred r (withAttributes p k) :=
  safe_withAttributes (reads_here hp) (failSafe_leaves w cred r) fun _ _ => h _

theorem complete_withPermission {a : Access} {k : Proc (NfsReply β)} (hp : PathOf w r p)
    (h : (∀ caller, cred = .authSys caller → Granted w a p caller) → Complete w cred r k) :
    Complete w cred r (withPermission cred (needs a p) k) :=
  safe_withPermission (failSafe_leaves w cred r) (checks_needs (reads_here hp)) h

theorem complete_withNewName {k : Path → Proc (NfsReply β)} (hName : (i, n) ∈ r.names)
    (h : ∀ p st, Authorised w cred i p st →
      w.fs.lstat w.host (getFileAbsolutePath p n) = .error .enoent →
      Complete w cred r (k (getFileAbsolutePath p n))) :
    Complete w cred r (withNewName (needs .write) cred i n k) :=
  safe_withNewName (fun _ hp => ⟨reads_here (.directory hName hp), reads_here (.name hName hp)⟩)
    (failSafe_leaves w cred r) fun p st hDir hGranted => h p st ⟨hDir, fun hc => hGranted _ hc⟩

theorem complete_withOldName {k : Path → Path → FAttr → Proc (NfsReply β)}
    (hName : (i, n) ∈ r.names) (h : ∀ p st fattr, DirectoryAt w i p st →
      Complete w cred r (k p (getFileAbsolutePath p n) fattr)) :
    Complete w cred r (withOldName i n k) :=
  safe_withOldName (fun _ hp => ⟨reads_here (.directory hName hp), reads_here (.name hName hp)⟩)
    (failSafe_leaves w cred r) fun p st _ hDir _ => h p st _ hDir

/-- A call that reads nothing and changes the file system. -/
theorem complete_change {report : Errno → Option Stat} {o : Sys (Except Errno Unit)}
    {c : Circumstance → Except Errno FileSystem} {k : Unit → Proc (NfsReply β)}
    (hExec : ∀ t, (w.atTick t).machine.exec o = (w.atTick t).machine.change (c (w.machine.env t)))
    (hNil : o.reads w.fs = []) (h : ∀ here fs', c here = .ok fs' →
      Safe (reads w cred r) (leaves w cred r) (k ()) (w.withFs fs')) :
    Complete w cred r (orReport report (sys o) k) :=
  safe_orReport_change hExec (fun _ => reads_of_nil hNil) (failSafe_leaves w cred r) h

end Blocks

theorem effect_mnt (dirpath : MsgPath) :
    Complete w cred (.mnt dirpath) (serveMntProcedure1AddMountEntry cred dirpath) := by
  obtain ⟨_ | p⟩ := dirpath
  · exact complete_pure _
  · have hJ : (reads w cred (.mnt ⟨some p⟩)).Sees w p :=
      fun t i hi => .mounted rfl (.refl _) (mem_toOption.mp hi)
    exact safe_mnt hJ (failSafe_leaves w cred _)
      fun st ts mounts hExported hst hDir _ => .mounted ts hExported hst hDir

theorem effect_getattr (fhandle : FHandle) :
    Complete w cred (.getattr fhandle) (serveNfsProcedure1GetFileAttributes cred fhandle) := by
  refine complete_orGarbageArgs fun i hArgs =>
    complete_withFile (by simp [Request.handles, hArgs]) fun p hp hPath => ?_
  refine safe_withPermission (failSafe_leaves w cred _) (checks_needsNothing p) fun _ => ?_
  exact complete_withAttributes hPath fun _ => complete_pure _

theorem effect_readlink (fhandle : FHandle) :
    Complete w cred (.readlink fhandle) (serveNfsProcedure5ReadFromSymbolicLink cred fhandle) := by
  refine complete_orGarbageArgs fun i hArgs =>
    complete_withFile (by simp [Request.handles, hArgs]) fun p hp hPath => ?_
  refine complete_withAttributes hPath fun _ => ?_
  split
  · exact complete_pure _
  · refine complete_withPermission hPath fun _ => ?_
    exact safe_orReport_answer (r := w.fs.readlink p NFS_MAXPATHLEN) (fun _ => rfl)
      (fun _ i hi => .named hPath (.refl _) (mem_toOption.mp hi)) (failSafe_leaves w cred _)
      fun _ _ => complete_pure _

theorem effect_statfs (fhandle : FHandle) :
    Complete w cred (.statfs fhandle)
      (serveNfsProcedure17GetFilesystemAttributes cred fhandle) := by
  refine complete_orGarbageArgs fun i hArgs =>
    complete_withFile (by simp [Request.handles, hArgs]) fun p hp hPath => ?_
  refine safe_withPermission (failSafe_leaves w cred _) (checks_needsNothing p) fun _ => ?_
  exact safe_orReport_answer (r := (w.fs.lookup true p).map fun _ => w.host.statvfs)
    (fun _ => rfl) (fun _ i hi => .followed rfl hPath (.refl _) (mem_toOption.mp hi))
    (failSafe_leaves w cred _) fun _ _ => complete_pure _

theorem effect_read (args : ReadArgs) :
    Complete w cred (.read args) (serveNfsProcedure6ReadFromFile cred args) := by
  refine complete_orGarbageArgs fun i hArgs =>
    complete_withFile (by simp [Request.handles, hArgs]) fun p hp hPath => ?_
  refine complete_withAttributes hPath fun _ => ?_
  split
  · exact complete_pure _
  · refine complete_withPermission hPath fun _ => ?_
    refine safe_bind (safe_readFromFile (fun f hf _ => ⟨fun i hi => ?_, reads_of_nil rfl⟩)
      (fun _ => complete_pure _) fun _ _ _ _ _ _ _ => ?_)
    · cases List.mem_singleton.mp hi
      exact .followed rfl hPath (.refl _) hf
    · exact complete_withAttributes hPath fun _ => complete_pure _

theorem effect_readdir (args : ReadDirArgs) :
    Complete w cred (.readdir args) (serveNfsProcedure16ReadFromDirectory cred args) := by
  refine complete_orGarbageArgs fun (i, cookie) hArgs => ?_
  have hPath : ∀ p, w.inodeCache.getAbsolutePathFromInodeNumber i = some p →
      PathOf w (.readdir args) p := fun p hp => .handle (by simp [Request.handles, hArgs]) hp
  refine safe_withDirectory (fun p hp => reads_here (hPath p hp)) (failSafe_leaves w cred _)
    fun p st hp hst hDir => ?_
  refine complete_withPermission (hPath p hp) fun _ => ?_
  cases cred with
  | authNone => exact complete_pure _
  | authSys caller =>
    refine safe_bind (safe_readFromDirectory (fun d hd position sessions dirs t j hj => ?_) ?_)
    · cases List.mem_singleton.mp hj
      rcases hd with ⟨s, hs, hBelongs, rfl⟩ | hd
      · exact .stream rfl hArgs rfl hp hs hBelongs (.refl _)
      · -- the path is that of a directory, which `opendir` does not have to follow
        have hLookup := (lstat_ok hst).1
        have hNotLink := Tree.kind_ne_link_of_isDir hDir
        cases hd.symm.trans (lookup_true_of_false hLookup hNotLink)
        exact .named (hPath p hp) (.refl _) hLookup
    intro r sessions dirs _ _
    -- sessions and streams are not part of what is left behind
    cases r with
    | none => exact safe_pure fun _ => .nothing _ _
    | some r => exact safe_pure fun _ => .nothing _ _

theorem effect_lookup (args : DirOpArgs) :
    Complete w cred (.lookup args) (serveNfsProcedure4LookUpFileName cred args) := by
  have hName : ∀ {d n}, args.decode = some (d, n) → (d, n) ∈ (Request.lookup args).names := by
    intro d n hArgs
    simp [Request.names, hArgs]
  refine safe_lookUpFileName (failSafe_leaves w cred _) ?_ ?_ ?_
  · intro d n p hArgs hp
    exact ⟨reads_here (.directory (hName hArgs) hp), reads_here (.name (hName hArgs) hp)⟩
  · intro d n p stDir st handle h _
    refine safe_answerWithHandle (reads_here (.name (hName h.args) h.cached)) (fun _ => ?_)
      fun _ _ _ => .nothing _ _
    exact .forgotten args handle.inodeNumber
  · intro d n p stDir st h hNew
    refine safe_answerNew (fun _ _ => reads_lstat (.name (hName h.args) h.cached) (.refl _))
      (failSafe_leaves w cred _) fun st' ts hst' _ => ?_
    cases h.file.symm.trans hst'
    exact .lookedUp ts h.args ⟨h.cached, h.directory, h.isDir⟩ h.file hNew

/-! ### SETATTR and WRITE -/

/-- Nothing but the object that `p` leads to was touched, and a caller who is
not root did not change its owner. -/
def Reworked (w : World) (cred : Credential) (p : Path) (fs' : FileSystem) : Prop :=
  fs' = w.fs ∨ ∃ f, w.fs.lookup true p = .ok f ∧ w.fs.Touched fs' f ∧
    ∀ caller, cred = .authSys caller → caller.uid ≠ 0 → w.fs.SameOwners fs'

/-- One more call on the same path. -/
theorem Reworked.step {p : Path} {fs₁ fs₂ : FileSystem} {f : Ino}
    (h : Reworked w cred p fs₁) (hf : fs₁.lookup true p = .ok f) (hTouched : fs₁.Touched fs₂ f)
    (hOwners : ∀ caller, cred = .authSys caller → caller.uid ≠ 0 → fs₁.SameOwners fs₂) :
    Reworked w cred p fs₂ := by
  rcases h with rfl | ⟨g, hg, hT, hO⟩
  · exact Or.inr ⟨f, hf, hTouched, hOwners⟩
  · -- the names are as before, so the path leads to the same object
    rw [hT.names.lookup, hg] at hf
    cases hf
    exact Or.inr ⟨f, hg, hT.trans hTouched,
      fun caller hc hu => (hO caller hc hu).trans (hOwners caller hc hu)⟩

theorem Reworked.sameNames {p : Path} {fs' : FileSystem} (h : Reworked w cred p fs') :
    w.fs.SameNames fs' := by
  rcases h with rfl | ⟨_, _, hT, _⟩
  · exact .refl _
  · exact hT.names

theorem Reworked.effect {p : Path} {fs' : FileSystem} {i : Ino} {r : Request} {ok : Bool}
    (h : Reworked w cred p fs') (hRequest : r.altersFile = true) (hHandle : i ∈ r.handles)
    (hp : w.inodeCache.getAbsolutePathFromInodeNumber i = some p) :
    Effect w cred r ok fs' w.inodeCache := by
  rcases h with rfl | ⟨f, hf, hT, hO⟩
  · exact .nothing r ok
  · exact .touched hRequest hHandle hp hf hT hO

/-- A `chown` that a caller other than root got through changes no owner. -/
theorem sameOwners_chown {fs' : FileSystem} {p : Path} {uid gid : Nat} {now : Timespec}
    (h : fs.chown p uid gid now = .ok fs') (hUid : uid = unchanged32) (hGid : gid = unchanged32) :
    fs.SameOwners fs' := by
  obtain ⟨i, _, _, hOwner⟩ := chown_ok h
  intro j
  rw [hOwner]
  split
  · cases fs.owner j with
    | none => rfl
    | some o => simp [newOwner, hUid, hGid]
  · rfl

theorem effect_setattr (args : SAttrArgs) :
    Complete w cred (.setattr args) (serveNfsProcedure2SetFileAttributes cred args) := by
  refine complete_orGarbageArgs fun (i, a) hArgs => ?_
  have hHandle : i ∈ (Request.setattr args).handles := by simp [Request.handles, hArgs]
  refine complete_withFile hHandle fun p hp hPath => ?_
  refine safe_withPermission (failSafe_leaves w cred _) (checks_setattr (reads_here hPath) a)
    fun hGranted => ?_
  -- from here on the request may stop after each call
  have hStop : ∀ fs', Reworked w cred p fs' →
      FailSafe (leaves w cred (.setattr args) : NfsReply FAttr → World → Prop) (w.withFs fs') := by
    intro fs' h _ _ _
    exact h.effect rfl hHandle hp
  rw [settings_eq]
  refine safe_inOrder (w := w) (I := Reworked w cred p) ?_ hStop ?_ ?_ (Or.inl rfl)
  · intro s _ fs' _ t
    cases s <;> exact reads_of_nil rfl
  · intro s hs fs' fs'' now h hResult
    obtain ⟨f, hf, hTouched⟩ := Setting.touched_of_result hResult
    refine h.step hf hTouched fun caller hc hu => Setting.sameOwners_of_result hResult ?_
    -- a caller other than root has not been let through with an owner
    rintro uid gid rfl
    obtain ⟨rfl, rfl⟩ := Attributes.owner_of_mem_settings hs
    rcases hGranted caller hc with hRoot | ⟨⟨hUid, hGid⟩, _⟩
    · exact absurd hRoot hu
    · exact sameOwners_chown hResult hUid hGid
  · intro fs' h
    exact safe_withAttributes (fun _ => reads_lstat hPath h.sameNames) (hStop fs' h)
      fun _ _ => safe_pure fun _ => h.effect rfl hHandle hp

theorem effect_write (args : WriteArgs) :
    Complete w cred (.write args) (serveNfsProcedure8WriteToFile cred args) := by
  refine complete_orGarbageArgs fun id hArgs => ?_
  have hHandle : id.1 ∈ (Request.write args).handles := by simp [Request.handles, hArgs]
  refine complete_withFile hHandle fun p hp hPath => ?_
  refine complete_withAttributes hPath fun _ => ?_
  split
  · exact complete_pure _
  split
  · exact complete_pure _
  refine complete_withPermission hPath fun _ => ?_
  refine safe_bind (safe_writeToFile (fun _ _ _ => reads_of_nil rfl)
    (fun _ _ _ _ _ _ _ => reads_of_nil rfl) ?_ ?_)
  · intro r hr t
    cases r with
    | written => exact absurd rfl hr
    | notOpened | notSeekable | tooBig | ioError | noSpace | failed => exact complete_pure _
  · intro r f fs' hf hT hO _ _
    have hEffect : ∀ ok, Effect w cred (.write args) ok fs' w.inodeCache :=
      fun _ => .touched rfl hHandle hp hf hT fun _ _ _ => hO
    cases r with
    | written =>
      exact safe_withAttributes (fun _ => reads_lstat hPath hT.names) (fun _ _ _ => hEffect _)
        fun _ _ => safe_pure fun _ => hEffect _
    | notOpened | notSeekable | tooBig | ioError | noSpace | failed =>
      exact safe_pure fun _ => hEffect _

/-! ### New objects -/

/-- CREATE or MKDIR has made object `j` in a directory the caller may write in,
and the path of the new name leads to it for every call. -/
structure Creation (w : World) (cred : Credential) (r : Request) (n : Bytes)
    (a : Attributes) (p : Path) (fs₁ : FileSystem) (j : Ino) (x : Inode) : Prop where
  request : ∃ args i st, r.creation = some args ∧ args.decode = some (i, n, a) ∧
    Authorised w cred i p st
  created : ∃ d m, w.fs.slot (getFileAbsolutePath p n) = some (d, m) ∧ w.fs.Created fs₁ d m j x
  leads (follow : Bool) : fs₁.lookup follow (getFileAbsolutePath p n) = .ok j

/-- The new object has the owner it was to get; nothing else was touched. -/
structure Dressed (fs₁ fs' : FileSystem) (j : Ino) (a : Attributes) (x : Inode) : Prop where
  touched : fs₁.Touched fs' j
  owner : fs'.owner j = some (FileSystem.newOwner a.uid a.gid (0, x.attr.gid))

namespace Creation

variable {r : Request} {n : Bytes} {a : Attributes} {p : Path} {fs₁ fs' : FileSystem} {j : Ino}
  {x : Inode}

theorem effect (h : Creation w cred r n a p fs₁ j x) (hTouched : fs₁.Touched fs' j)
    {ok : Bool} (hOwner : ok = true → fs'.owner j = some (newOwner a.uid a.gid (0, x.attr.gid)))
    {cache : InodeCache} (hCache : cache = w.inodeCache ∨ ∃ timestamp,
      fs'.lookup false (getFileAbsolutePath p n) = .ok j ∧
      cache = w.inodeCache.addInodeMapping ⟨j, timestamp⟩ (getFileAbsolutePath p n)) :
    Effect w cred r ok fs' cache := by
  obtain ⟨args, i, st, hRequest, hArgs, hDir⟩ := h.request
  obtain ⟨d, m, hSlot, hCreated⟩ := h.created
  exact .created hRequest hArgs hDir hSlot hCreated hTouched hOwner hCache

/-- The request may stop here. -/
theorem failSafe (h : Creation w cred r n a p fs₁ j x) (hTouched : fs₁.Touched fs' j) :
    FailSafe (leaves w cred r : NfsReply DirOpOk → World → Prop) (w.withFs fs') := by
  intro reply hReply _
  refine h.effect hTouched (fun hOk => ?_) (Or.inl rfl)
  rw [hReply] at hOk
  cases hOk

/-- What is read of the new object is the new object. -/
theorem reads_new (h : Creation w cred r n a p fs₁ j x) (hNames : fs₁.SameNames w'.fs) :
    (reads w cred r).holds (.lstat (getFileAbsolutePath p n)) w' := by
  intro i hi
  have hLookup := mem_toOption.mp hi
  rw [hNames.lookup, h.leads] at hLookup
  cases hLookup
  obtain ⟨args, i, st, hRequest, hArgs, hDir⟩ := h.request
  obtain ⟨d, m, hSlot, hCreated⟩ := h.created
  exact .new (names_of_creation hRequest hArgs) hDir.toDirectoryAt hSlot hCreated hNames

/-- The first call after the object was made gives it its owner. -/
theorem chown (h : Creation w cred r n a p fs₁ j x) {now : Timespec}
    (hr : fs₁.chown (getFileAbsolutePath p n) a.uid a.gid now = .ok fs') :
    Dressed fs₁ fs' j a x := by
  obtain ⟨f, hf, hT, hOwner⟩ := chown_ok hr
  rw [h.leads] at hf
  cases hf
  obtain ⟨d, m, _, hCreated⟩ := h.created
  refine ⟨hT, ?_⟩
  rw [hOwner, if_pos rfl, hCreated.owner, if_pos rfl]
  rfl

/-- A later call that sets no owner. -/
theorem dressed_step (h : Creation w cred r n a p fs₁ j x) {fs'' : FileSystem} {f : Ino}
    (hDressed : Dressed fs₁ fs' j a x) (hf : fs'.lookup true (getFileAbsolutePath p n) = .ok f)
    (hT : fs'.Touched fs'' f) (hO : fs'.SameOwners fs'') : Dressed fs₁ fs'' j a x := by
  rw [hDressed.touched.names.lookup, h.leads] at hf
  cases hf
  exact ⟨hDressed.touched.trans hT, (hO j).trans hDressed.owner⟩

/-- The end of CREATE and MKDIR: the times and the new handle. -/
theorem safe_finish (h : Creation w cred r n a p fs₁ j x) (hDressed : Dressed fs₁ fs' j a x) :
    Safe (reads w cred r) (leaves w cred r) (setTimes (getFileAbsolutePath p n) a <|
      withNewHandle (getFileAbsolutePath p n) (answerWithHandle (getFileAbsolutePath p n)))
      (w.withFs fs') := by
  have hAnswer : ∀ {fs'}, Dressed fs₁ fs' j a x → Safe (reads w cred r) (leaves w cred r)
      (withNewHandle (getFileAbsolutePath p n) (answerWithHandle (getFileAbsolutePath p n)))
      (w.withFs fs') := by
    intro fs' hD
    refine safe_answerNew (fun _ _ => h.reads_new hD.touched.names) (h.failSafe hD.touched)
      fun st ts hst _ => ?_
    have hLookup : fs'.lookup false (getFileAbsolutePath p n) = .ok j := by
      rw [hD.touched.names.lookup, h.leads]
    -- the handle is that of the new object
    have hIno : st.ino = j := by
      have hst' := (lstat_ok hst).1
      rw [show (w.withFs fs').fs = fs' from rfl, hLookup] at hst'
      exact (Except.ok.inj hst').symm
    refine h.effect hD.touched (fun _ => hD.owner) (Or.inr ⟨ts, hLookup, ?_⟩)
    rw [← hIno]
    rfl
  refine safe_setTimes (fun _ _ _ => reads_of_nil rfl) (h.failSafe hDressed.touched) (hAnswer hDressed) ?_
  intro _ _ _ fs'' hr
  obtain ⟨f, hf, hT, hO⟩ := utimes_ok hr
  exact hAnswer (h.dressed_step hDressed hf hT hO)

end Creation

theorem effect_create (args : CreateArgs) :
    Complete w cred (.create args) (serveNfsProcedure9CreateFile cred args) := by
  refine complete_orGarbageArgs fun (i, n, a) hArgs =>
    complete_withNewName (names_of_creation rfl hArgs) fun p st hDir hFree => ?_
  refine complete_change (c := fun c => w.fs.openCreat w.host w.machine.openDirs
    (getFileAbsolutePath p n)
    ((if a.mode ≠ unchanged32 then some a.mode else none).getD c.mode) c.ino c.now)
    (fun _ => rfl) rfl fun c fs₁ hr => ?_
  obtain ⟨hSlash, d, m, x, hx, hn, hCreated⟩ := openCreat_ok_of_free hFree hr
  have hKind : ∀ target, fs₁.kind c.ino ≠ some (.link target) := by
    intro target
    rw [hCreated.kind_new, hx]
    simp [Content.kind]
  have h : Creation w cred (.create args) n a p fs₁ c.ino x :=
    ⟨⟨args, i, st, rfl, hArgs, hDir⟩,
      ⟨d, m, slot_eq hn, hCreated⟩,
      hCreated.extends.lookup_new hKind (fun hs => absurd hs (by simp [hSlash])) hn⟩
  refine safe_setOwner (fun _ => reads_of_nil rfl) (h.failSafe (.refl _ _)) fun _ fs₂ hr₂ => ?_
  have hDressed := h.chown hr₂
  refine safe_setSize (fun _ => reads_of_nil rfl) (h.failSafe hDressed.touched) (h.safe_finish hDressed) ?_
  intro _ fs₃ hr₃
  obtain ⟨f, hf, hT, hO⟩ := truncate_ok hr₃
  exact h.safe_finish (h.dressed_step hDressed hf hT hO)

theorem effect_mkdir (args : CreateArgs) :
    Complete w cred (.mkdir args) (serveNfsProcedure14CreateDirectory cred args) := by
  refine complete_orGarbageArgs fun (i, n, a) hArgs =>
    complete_withNewName (names_of_creation rfl hArgs) fun p st hDir _ => ?_
  refine complete_change (c := fun c => w.fs.mkdir w.host w.machine.openDirs
    (getFileAbsolutePath p n) (if a.mode ≠ unchanged32 then a.mode else 0o700) c.ino c.now)
    (fun _ => rfl) rfl fun c fs₁ hr => ?_
  obtain ⟨d, m, x, hx, hn, hCreated⟩ := mkdir_ok hr
  have hKind : fs₁.kind c.ino = some .dir := by
    rw [hCreated.kind_new, hx]
    rfl
  have h : Creation w cred (.mkdir args) n a p fs₁ c.ino x :=
    ⟨⟨args, i, st, rfl, hArgs, hDir⟩,
      ⟨d, m, slot_eq hn, hCreated⟩,
      hCreated.extends.lookup_new (fun _ => by simp [hKind])
        (fun _ => Tree.isDir_iff_kind.mpr hKind) hn⟩
  refine safe_setOwner (fun _ => reads_of_nil rfl) (h.failSafe (.refl _ _)) fun _ fs₂ hr₂ => ?_
  have hDressed := h.chown hr₂
  split
  · exact safe_err (h.failSafe hDressed.touched) _
  · exact h.safe_finish hDressed

theorem effect_symlink (args : SymLinkArgs) :
    Complete w cred (.symlink args) (serveNfsProcedure13CreateSymbolicLink cred args) := by
  refine complete_orGarbageArgs fun (i, n, target) hArgs =>
    complete_withNewName (by simp [Request.names, hArgs]) fun p st hDir _ => ?_
  refine complete_change (c := fun c => w.fs.symlink w.machine.openDirs target
    (getFileAbsolutePath p n) c.ino c.now) (fun _ => rfl) rfl fun c fs' hr => ?_
  obtain ⟨_, d, m, x, _, hn, hCreated⟩ := symlink_ok hr
  exact safe_pure fun _ => .symlinked hArgs hDir (slot_eq hn) hCreated

theorem effect_link (args : LinkArgs) :
    Complete w cred (.link args) (serveNfsProcedure12CreateLinkToFile cred args) := by
  refine complete_orGarbageArgs fun (k, i, n) hArgs =>
    complete_withFile (by simp [Request.handles, hArgs]) fun q hq hPath => ?_
  refine complete_withAttributes hPath fun _ => ?_
  split
  · exact complete_pure _
  refine complete_withNewName (by simp [Request.names, hArgs]) fun p st hDir _ => ?_
  refine complete_change (c := fun c => w.fs.linkPath q (getFileAbsolutePath p n) c.now)
    (fun _ => rfl) rfl fun c fs' hr => ?_
  obtain ⟨j, d, m, hj, _, _, hn, hExtends, hOwners, hOnly⟩ := linkPath_ok hr
  exact safe_pure fun _ => .linked hArgs hq hj hDir (slot_eq hn) hExtends hOwners hOnly

/-! ### Names that go or change -/

theorem effect_remove (args : DirOpArgs) :
    Complete w cred (.remove args) (serveNfsProcedure10RemoveFile cred args) := by
  refine complete_orGarbageArgs fun (i, n) hArgs => ?_
  have hName : (i, n) ∈ (Request.remove args).names := by simp [Request.names, hArgs]
  refine complete_withOldName hName fun p st fattr hDir => ?_
  split
  · exact complete_pure _
  refine complete_withPermission (.directory hName hDir.cached) fun hGranted => ?_
  refine complete_change (c := fun c => w.fs.unlink (getFileAbsolutePath p n) c.now)
    (fun _ => rfl) rfl fun c fs' hr => ?_
  obtain ⟨d, m, j, _, hn, hNotDir, hRemoved⟩ := unlink_ok hr
  refine safe_forgetPath (safe_pure fun _ => ?_)
  exact .removed rfl hArgs ⟨hDir, fun hc => hGranted _ hc⟩ (slot_eq hn) hRemoved
    fun _ => hNotDir

theorem effect_rmdir (args : DirOpArgs) :
    Complete w cred (.rmdir args) (serveNfsProcedure15RemoveDirectory cred args) := by
  refine complete_orGarbageArgs fun (i, n) hArgs => ?_
  have hName : (i, n) ∈ (Request.rmdir args).names := by simp [Request.names, hArgs]
  refine complete_withOldName hName fun p st fattr hDir => ?_
  split
  · exact complete_pure _
  refine complete_withPermission (.directory hName hDir.cached) fun hGranted => ?_
  refine complete_change (c := fun c => w.fs.rmdir (getFileAbsolutePath p n) c.now)
    (fun _ => rfl) rfl fun c fs' hr => ?_
  obtain ⟨d, m, j, hn, _, hRemoved⟩ := rmdir_ok hr
  refine safe_forgetPath (safe_pure fun _ => ?_)
  exact .removed rfl hArgs ⟨hDir, fun hc => hGranted _ hc⟩ (slot_eq hn) hRemoved
    fun h => by cases h

/-- The places a rename works on are those its paths lead to. -/
theorem slot_of_source {q : Path} {d : Ino} {m : Name} {j : Ino}
    (h : (fs.namei false q).bind Found.source = .ok (d, m, j)) :
    fs.slot q = some (d, m) ∧ fs.entry d m = some j := by
  obtain ⟨hn | hn, he⟩ := source_ok h
  · exact ⟨slot_eq hn, he⟩
  · exact ⟨slot_eq hn, he⟩

theorem slot_of_place {q : Path} {d : Ino} {m : Name} {target : Option Ino}
    (h : (fs.namei false q).bind Found.place = .ok (d, m, target)) :
    fs.slot q = some (d, m) ∧ q.length < pathMax := by
  obtain ⟨⟨_, hn⟩ | ⟨j, _, hn | hn⟩, _⟩ := place_ok h
  · exact ⟨slot_eq hn, length_of_namei hn⟩
  · exact ⟨slot_eq hn, length_of_namei hn⟩
  · exact ⟨slot_eq hn, length_of_namei hn⟩

theorem effect_rename (args : RenameArgs) :
    Complete w cred (.rename args) (serveNfsProcedure11RenameFile cred args) := by
  have hFail := failSafe_leaves (σ := Stat) (β := Unit) w cred (.rename args)
  refine complete_orGarbageArgs fun ((i, n), (i', n')) hArgs => ?_
  have hOld : (i, n) ∈ (Request.rename args).names := by simp [Request.names, hArgs]
  have hNew : (i', n') ∈ (Request.rename args).names := by simp [Request.names, hArgs]
  refine safe_withDirectory (fun p hp => reads_here (.directory hOld hp)) hFail
    fun p st hp hst hDir => ?_
  refine safe_withExisting (reads_here (.name hOld hp)) hFail fun _ _ => ?_
  refine safe_withDirectory (fun p hp => reads_here (.directory hNew hp)) hFail
    fun p' st' hp' hst' hDir' => ?_
  refine safe_withPermission hFail (checks_rename (reads_here (.directory hOld hp))
    (reads_here (.directory hNew hp'))) fun hGranted => ?_
  refine complete_change (c := fun c => w.fs.rename (getFileAbsolutePath p n)
    (getFileAbsolutePath p' n') c.now) (fun _ => rfl) rfl fun c fs' hr => ?_
  obtain ⟨d, m, j, d', m', target, hSource, hPlace, _, hEntry⟩ := rename_ok hr
  obtain ⟨hSlot, hNamed⟩ := slot_of_source hSource
  obtain ⟨hSlot', hLength⟩ := slot_of_place hPlace
  obtain ⟨_, hToDir, hTarget, hName⟩ := place_ok hPlace
  obtain ⟨hAncestors, hRenamed⟩ := renameEntry_ok hNamed hToDir hName hTarget hEntry
  -- a directory is its own ancestor, so nothing goes into itself
  have hNotSelf : d' ≠ j := by
    rintro rfl
    exact hAncestors hToDir (Tree.mem_ancestors hToDir)
  refine safe_getInodeCache (safe_setInodeCache (safe_pure fun _ => ?_))
  exact .renamed hArgs ⟨⟨hp, hst, hDir⟩, fun hc => (hGranted _ hc).1⟩
    ⟨⟨hp', hst', hDir'⟩, fun hc => (hGranted _ hc).2⟩ hSlot hSlot' hNamed hTarget hLength
    hNotSelf hRenamed

end Procedures

theorem safe_serve (w : World) (cred : Credential) (r : Request) :
    Safe (reads w cred r) (fun (answer : Answer) w' =>
      Effect w cred r answer.isOk w'.fs w'.inodeCache) (serve cred r) w := by
  cases r with
  | mnt args => exact safe_return (effect_mnt args)
  | getattr args => exact safe_return (effect_getattr args)
  | setattr args => exact safe_return (effect_setattr args)
  | lookup args => exact safe_return (effect_lookup args)
  | readlink args => exact safe_return (effect_readlink args)
  | read args => exact safe_return (effect_read args)
  | write args => exact safe_return (effect_write args)
  | create args => exact safe_return (effect_create args)
  | remove args => exact safe_return (effect_remove args)
  | rename args => exact safe_return (effect_rename args)
  | link args => exact safe_return (effect_link args)
  | symlink args => exact safe_return (effect_symlink args)
  | mkdir args => exact safe_return (effect_mkdir args)
  | rmdir args => exact safe_return (effect_rmdir args)
  | readdir args => exact safe_return (effect_readdir args)
  | statfs args => exact safe_return (effect_statfs args)

/-- The objects that an operation of the server reads. -/
def readBy : Event Op World → List Ino
  | ⟨.sys o, w⟩ => o.reads w.fs
  | _ => []

/-- **The lists are complete**: whatever the world, the caller and the request,
the request reads what `Reached` says and leaves behind what `Effect` says. -/
theorem complete_serve (w : World) (cred : Credential) (r : Request) :
    (∀ e ∈ (serve cred r).trace w, ∀ i ∈ readBy e, Reached w cred r e.state.fs i) ∧
    Effect w cred r (w.answer cred r).isOk (w.afterRequest cred r).fs
      (w.afterRequest cred r).inodeCache := by
  have hAssumes : ∀ e ∈ (serve cred r).trace w, (reads w cred r).contract.assumes e.op e.state := by
    rintro ⟨o, _⟩ _
    cases o <;> trivial
  obtain ⟨hReads, hEffect⟩ := (safe_serve w cred r).trace hAssumes
  refine ⟨?_, hEffect⟩
  rintro ⟨o, w'⟩ he i hi
  have hDemand := hReads _ he
  cases o with
  | sys o => exact hDemand i hi
  | getInodeCache | setInodeCache | getMountList | setMountList | getReaddirSessions
  | setReaddirSessions => cases hi

theorem effect_serve (w : World) (cred : Credential) (r : Request) :
    Effect w cred r (w.answer cred r).isOk (w.afterRequest cred r).fs
      (w.afterRequest cred r).inodeCache :=
  (complete_serve w cred r).2

/-- The sweep of the sessions touches neither files nor handles. -/
theorem effect_cleanUp (w : World) :
    (w.step .cleanUp).fs = w.fs ∧ (w.step .cleanUp).inodeCache = w.inodeCache :=
  Safe.run (p := cleanUpExpiredReaddirSessions)
    (Q := fun _ w' => w'.fs = w.fs ∧ w'.inodeCache = w.inodeCache)
    (safe_cleanUp fun _ _ _ _ => ⟨rfl, rfl⟩)

end QuicNfs.Server

import QuicNfs.Kernel.NewFile
import QuicNfs.Server.Refusals

/-!
# QuicNfs — what a refusal reveals

LOOKUP, CREATE, MKDIR, SYMLINK, LINK, REMOVE, RMDIR and RENAME look whether a name exists
before they check the caller's permission on the directory, and REMOVE and RMDIR also what
type it has. A caller with no permission on the directory is refused either way, but the
status tells which test refused it.

* `World.nature` — what these tests see of a path: whether it leads somewhere, and whether
  to a directory;
* `Quiet.answer_lookup_refused`, `Quiet.answer_withNewName_refused`, … — the replies to a
  caller that has no permission, as functions of it;
* `no_leak_iff` — no request tells two states apart if and only if the same names exist in
  the directory and the same of them are directories.
-/

namespace QuicNfs.Server

open Kernel Lib FileSystem Prog

variable {β : Type}

/-! ## What the tests see -/

/-- Whether `lstat` has found a directory. -/
def isDirectory (st : Kernel.Stat) : Bool := (fattrOfStat st).nfsFtype = .nfDir

/-- Whether a path leads to a directory, to another object, or why it leads nowhere. -/
def World.nature (w : World) (p : Path) : Except Errno Bool :=
  (w.fs.lstat w.host p).map isDirectory

/-- Whether a name of a directory is free, that of a directory, or another object's. -/
def natureOf (fs : FileSystem) (d : Ino) (n : Name) : Option Bool := (fs.entry d n).map fs.isDir

variable {w w' : World} {p : Path} {d i : Ino} {n : Bytes}

theorem nature_of_lookup {e : Ino} (h : w.fs.lookup false p = .ok e) :
    w.nature p = .ok (w.fs.isDir e) := by
  obtain ⟨st, hStat, rfl⟩ := lstat_of_lookup w.host h
  unfold World.nature isDirectory
  rw [hStat]
  refine congrArg Except.ok ?_
  rw [Bool.eq_iff_iff, decide_eq_true_iff]
  exact nfsFtype_eq_dir_iff hStat

theorem nature_of_error {e : Errno} (h : w.fs.lookup false p = .error e) :
    w.nature p = .error e := by
  unfold World.nature lstat
  rw [h]
  rfl

/-- A name or a path that is too long leads nowhere, whatever the tree. -/
theorem nature_of_long (hLeads : w.fs.lookup false p = .ok d) (hDir : w.fs.isDir d)
    (hn : Plain n) (hLong : n.length > nameMax ∨ (getFileAbsolutePath p n).length ≥ pathMax) :
    w.nature (getFileAbsolutePath p n) = .error .enametoolong := by
  refine nature_of_error ?_
  have hNamei : w.fs.namei false (p ++ slash :: n) = .error .enametoolong := by
    by_cases hPath : (p ++ slash :: n).length ≥ pathMax
    · unfold Tree.namei
      rw [if_neg (by simp), if_pos hPath]
    · have hName : n.length > nameMax := hLong.resolve_right hPath
      have hWalk : w.fs.walk false d .root (components n) = .error .enametoolong := by
        rw [hn.components_eq, Tree.walk, if_neg (by simp [hDir]), if_pos hName]
      rw [namei_join hLeads hDir (by simp [hn.components_eq]) (by simp [hWalk])
        (Nat.lt_of_not_le hPath), hWalk]
      rfl
  unfold getFileAbsolutePath Tree.lookup
  rw [endsInSlash_join_plain p hn, Bool.or_false, hNamei]

/-- A name in the directory is what its entry says. -/
theorem nature_join (hLeads : w.fs.lookup false p = .ok d) (hDir : w.fs.isDir d) (hn : Plain n)
    (hName : n.length ≤ nameMax) (hPath : (getFileAbsolutePath p n).length < pathMax) :
    w.nature (getFileAbsolutePath p n) = (natureOf w.fs d n).elim (.error .enoent) .ok := by
  unfold natureOf
  cases hEntry : w.fs.entry d n with
  | none =>
    exact nature_of_error (lookup_join_free hLeads hDir ⟨hn, hName⟩ hPath hEntry)
  | some e =>
    exact nature_of_lookup (lookup_join_taken hLeads hDir ⟨hn, hName⟩ hPath hEntry)

/-- Two trees agree on a path in the directory if they agree on the name. -/
theorem nature_join_congr (hLeads : w.fs.lookup false p = .ok d) (hDir : w.fs.isDir d)
    (hLeads' : w'.fs.lookup false p = .ok d) (hDir' : w'.fs.isDir d) (hn : Plain n)
    (hSame : (getFileAbsolutePath p n).length < pathMax → natureOf w.fs d n = natureOf w'.fs d n) :
    w.nature (getFileAbsolutePath p n) = w'.nature (getFileAbsolutePath p n) := by
  by_cases hName : n.length ≤ nameMax
  · by_cases hPath : (getFileAbsolutePath p n).length < pathMax
    · rw [nature_join hLeads hDir hn hName hPath, nature_join hLeads' hDir' hn hName hPath,
        hSame hPath]
    · have hLong := Or.inr (a := n.length > nameMax) (Nat.le_of_not_lt hPath)
      rw [nature_of_long hLeads hDir hn hLong, nature_of_long hLeads' hDir' hn hLong]
  · have hLong := Or.inl (b := (getFileAbsolutePath p n).length ≥ pathMax) (Nat.lt_of_not_le hName)
    rw [nature_of_long hLeads hDir hn hLong, nature_of_long hLeads' hDir' hn hLong]

/-! ## The tests agree where they see the same -/

section Views

variable {γ : Type} {f : Kernel.Stat → γ}
  (h : (w.fs.lstat w.host p).map f = (w'.fs.lstat w'.host p).map f)
include h

theorem lstat_cases :
    (∃ e, w.fs.lstat w.host p = .error e ∧ w'.fs.lstat w'.host p = .error e) ∨
      ∃ st st', w.fs.lstat w.host p = .ok st ∧ w'.fs.lstat w'.host p = .ok st' ∧ f st = f st' := by
  cases hStat : w.fs.lstat w.host p with
  | error e =>
    cases hStat' : w'.fs.lstat w'.host p with
    | error e' =>
      rw [hStat, hStat'] at h
      exact .inl ⟨e, rfl, congrArg Except.error (Except.error.inj h).symm⟩
    | ok st' =>
      rw [hStat, hStat'] at h
      cases h
  | ok st =>
    cases hStat' : w'.fs.lstat w'.host p with
    | error e' =>
      rw [hStat, hStat'] at h
      cases h
    | ok st' =>
      rw [hStat, hStat'] at h
      exact .inr ⟨st, st', rfl, rfl, Except.ok.inj h⟩

theorem existing_congr (k : γ → NfsReply β) :
    orRefused (w.existing p) (fun st => k (f st)) =
      orRefused (w'.existing p) fun st => k (f st) := by
  unfold World.existing
  rcases lstat_cases h with ⟨e, hStat, hStat'⟩ | ⟨st, st', hStat, hStat', hView⟩
  · rw [hStat, hStat']
  · rw [hStat, hStat']
    exact congrArg k hView

theorem attributes_congr (k : γ → NfsReply β) :
    orRefused (w.attributes p) (fun st => k (f st)) =
      orRefused (w'.attributes p) fun st => k (f st) := by
  unfold World.attributes
  rcases lstat_cases h with ⟨e, hStat, hStat'⟩ | ⟨st, st', hStat, hStat', hView⟩
  · rw [hStat, hStat']
  · rw [hStat, hStat']
    exact congrArg k hView

theorem vacant_congr : w.vacant p = w'.vacant p := by
  unfold World.vacant
  rcases lstat_cases h with ⟨e, hStat, hStat'⟩ | ⟨st, st', hStat, hStat', -⟩ <;>
    rw [hStat, hStat']

end Views

/-! ## The replies to a caller without permissions -/

theorem Quiet.answer_withOldName (hw : Quiet w) (hFound : w.directory i = .ok (p, d)) (n : Bytes)
    (k : Path → Path → FAttr → Proc (NfsReply β)) :
    ((withOldName i n k).run w).1 =
      orRefused (w.existing (getFileAbsolutePath p n)) fun _ =>
        orRefused (w.attributes (getFileAbsolutePath p n)) fun st =>
          ((k p (getFileAbsolutePath p n) (fattrOfStat st)).run (w.wait 11)).1 := by
  unfold withOldName
  rw [hw.answer_withDirectory, hFound, orRefused_ok, (hw.wait 5).answer_withExisting]
  refine orRefused_congr fun _ _ => ?_
  rw [World.wait_wait, (hw.wait 6).answer_withAttributes]
  rfl

variable {j : Ino} {m : Bytes}

theorem Quiet.answer_rename (hw : Quiet w) (cred : Credential) {args : RenameArgs}
    (hArgs : args.decode = some ((i, n), (j, m))) :
    ∃ k : Path → Path → Proc (NfsReply Unit),
      ((serveNfsProcedure11RenameFile cred args).run w).1 =
      orRefused (w.directory i) fun x =>
        orRefused (w.existing (getFileAbsolutePath x.1 n)) fun _ =>
          orRefused (w.directory j) fun y =>
            ((withPermission cred (checkRenameProcPermissions x.1 y.1) (k x.1 y.1)).run
              (w.wait 11)).1 := by
  refine ⟨fun q q' => orReport reportRename
      (sys (.rename (getFileAbsolutePath q n) (getFileAbsolutePath q' m))) fun () => do
    let cache ← call .getInodeCache
    call (.setInodeCache (cache.updateInodeMappingAbsolutePathByAbsolutePath
      (getFileAbsolutePath q n) (getFileAbsolutePath q' m)))
    pure (.ok ()), ?_⟩
  unfold serveNfsProcedure11RenameFile
  rw [hArgs]
  show ((withDirectory i _).run w).1 = _
  rw [hw.answer_withDirectory]
  -- one refusal after the other, and the permissions at the end
  refine orRefused_congr fun x _ => ?_
  rw [(hw.wait 5).answer_withExisting]
  refine orRefused_congr fun _ _ => ?_
  rw [World.wait_wait, (hw.wait 6).answer_withDirectory]
  rfl

/-- RENAME out of or into a directory that the caller may not write. -/
theorem Quiet.answer_renaming_refused (hw : Quiet w) {caller : AuthSysParams} {q q' : Path} {o o' : Ino}
    (hLeads : w.fs.lookup false q = .ok o) (hLeads' : w.fs.lookup false q' = .ok o')
    (hNone : permitted w.fs (.authSys caller) .write o = false ∨
      permitted w.fs (.authSys caller) .write o' = false) (k : Proc (NfsReply β)) :
    ((withPermission (.authSys caller) (checkRenameProcPermissions q q') k).run w).1 =
      .err .nfserrAcces := by
  have hCaller : caller.uid ≠ 0 := hNone.elim uid_ne_zero_of_not_permitted
    uid_ne_zero_of_not_permitted
  have hCheck : ∃ v, (checkRenameProcPermissions q q' caller).run w = (.refused, v) := by
    unfold checkRenameProcPermissions unlessRoot checkWritePermission
    rw [if_neg hCaller, run_bind, hw.run_checkPermission hCaller hLeads]
    -- the second directory is asked about only if the first may be written
    cases hWrite : permitted w.fs (.authSys caller) .write o with
    | false => exact ⟨_, rfl⟩
    | true =>
      have hNone' := hNone.resolve_left (by simp [hWrite])
      refine ⟨(w.wait 1).wait 1, ?_⟩
      rw [if_pos rfl]
      dsimp only
      rw [(hw.wait 1).run_checkPermission hCaller hLeads']
      rw [World.fs_wait, hNone']
      rfl
  obtain ⟨v, hv⟩ := hCheck
  exact answer_withPermission_of_refused hv k

section Refused

variable {caller : AuthSysParams} (hw : Quiet w) (hFound : w.directory i = .ok (p, d))
  (hNone : ∀ a, permitted w.fs (.authSys caller) a d = false)
include hw hFound hNone

/-- The check of a permission on the directory refuses the caller. -/
theorem Quiet.answer_needs_refused (t : Nat) (a : Access) (k : Proc (NfsReply β)) :
    ((withPermission (.authSys caller) (needs a p) k).run (w.wait t)).1 = .err .nfserrAcces :=
  answer_withPermission_of_refused
    ((hw.wait t).run_needs_of_not_permitted (directory_eq_ok hFound).2.1 (hNone a)) k

variable {args : DirOpArgs}

theorem Quiet.answer_lookup_refused (hArgs : args.decode = some (i, n)) :
    ((serveNfsProcedure4LookUpFileName (.authSys caller) args).run w).1 =
      orRefused (w.existing (getFileAbsolutePath p n)) fun _ => .err .nfserrAcces := by
  unfold serveNfsProcedure4LookUpFileName
  rw [hArgs]
  show ((withDirectory i _).run w).1 = _
  rw [hw.answer_withDirectory, hFound, orRefused_ok, (hw.wait 5).answer_withExisting]
  refine orRefused_congr fun st _ => ?_
  exact hw.answer_needs_refused hFound hNone 6 .execute _

/-- CREATE, MKDIR, SYMLINK and LINK. -/
theorem Quiet.answer_withNewName_refused (t : Nat) (k : Path → Proc (NfsReply β)) :
    ((withNewName (needs .write) (.authSys caller) i n k).run (w.wait t)).1 =
      if n.length > NFS_MAXNAMLEN then .err .nfserrNametoolong
      else orRefused (w.vacant (getFileAbsolutePath p n)) fun _ => .err .nfserrAcces := by
  unfold withNewName
  rw [(hw.wait t).answer_withDirectory, show (w.wait t).directory i = _ from hFound, orRefused_ok]
  dsimp only
  split
  · rfl
  · rw [((hw.wait t).wait 5).answer_withFree]
    refine orRefused_congr fun _ _ => ?_
    rw [World.wait_wait, World.wait_wait]
    exact hw.answer_needs_refused hFound hNone _ .write _

theorem Quiet.answer_remove_refused (hArgs : args.decode = some (i, n)) :
    ((serveNfsProcedure10RemoveFile (.authSys caller) args).run w).1 =
      orRefused (w.existing (getFileAbsolutePath p n)) fun _ =>
        orRefused (w.attributes (getFileAbsolutePath p n)) fun st =>
          if isDirectory st then .err .nfserrIsdir else .err .nfserrAcces := by
  unfold serveNfsProcedure10RemoveFile
  rw [hArgs]
  dsimp only [orGarbageArgs]
  rw [hw.answer_withOldName hFound]
  refine orRefused_congr fun _ _ => orRefused_congr fun st _ => ?_
  unfold isDirectory
  by_cases hDir : (fattrOfStat st).nfsFtype = .nfDir
  · rw [if_pos hDir, if_pos (decide_eq_true hDir)]
    rfl
  · rw [if_neg hDir, if_neg (by simpa using hDir)]
    exact hw.answer_needs_refused hFound hNone 11 .write _

theorem Quiet.answer_rmdir_refused (hArgs : args.decode = some (i, n)) :
    ((serveNfsProcedure15RemoveDirectory (.authSys caller) args).run w).1 =
      orRefused (w.existing (getFileAbsolutePath p n)) fun _ =>
        orRefused (w.attributes (getFileAbsolutePath p n)) fun st =>
          if isDirectory st then .err .nfserrAcces else .err .nfserrNotdir := by
  unfold serveNfsProcedure15RemoveDirectory
  rw [hArgs]
  dsimp only [orGarbageArgs]
  rw [hw.answer_withOldName hFound]
  refine orRefused_congr fun _ _ => orRefused_congr fun st _ => ?_
  unfold isDirectory
  by_cases hDir : (fattrOfStat st).nfsFtype = .nfDir
  · rw [if_neg (not_not.mpr hDir), if_pos (decide_eq_true hDir)]
    exact hw.answer_needs_refused hFound hNone 11 .write _
  · rw [if_pos hDir, if_neg (by simpa using hDir)]
    rfl

theorem Quiet.answer_link_refused {args : LinkArgs} (hArgs : args.decode = some (j, i, n)) :
    ((serveNfsProcedure12CreateLinkToFile (.authSys caller) args).run w).1 =
      orRefused (w.file j) fun q =>
        orRefused (w.attributes q) fun st =>
          if (fattrOfStat st).nfsFtype ≠ .nfReg then .err .nfserrIsdir
          else if n.length > NFS_MAXNAMLEN then .err .nfserrNametoolong
          else orRefused (w.vacant (getFileAbsolutePath p n)) fun _ => .err .nfserrAcces := by
  unfold serveNfsProcedure12CreateLinkToFile
  rw [hArgs]
  show ((withFile j _).run w).1 = _
  rw [answer_withFile]
  refine orRefused_congr fun q _ => ?_
  rw [hw.answer_withAttributes]
  refine orRefused_congr fun st _ => ?_
  -- the file is tested before the name
  by_cases hReg : (fattrOfStat st).nfsFtype ≠ .nfReg
  · rw [if_pos hReg, if_pos hReg]
    rfl
  · rw [if_neg hReg, if_neg hReg]
    exact hw.answer_withNewName_refused hFound hNone 5 _

theorem Quiet.answer_rename_from_refused {args : RenameArgs}
    (hArgs : args.decode = some ((i, n), (j, m))) :
    ((serveNfsProcedure11RenameFile (.authSys caller) args).run w).1 =
      orRefused (w.existing (getFileAbsolutePath p n)) fun _ =>
        orRefused (w.directory j) fun _ => .err .nfserrAcces := by
  obtain ⟨k, hRun⟩ := hw.answer_rename (.authSys caller) hArgs
  rw [hRun, hFound, orRefused_ok]
  refine orRefused_congr fun _ _ => orRefused_congr fun y hy => ?_
  exact (hw.wait 11).answer_renaming_refused (directory_eq_ok hFound).2.1 (directory_eq_ok hy).2.1
    (.inl (hNone .write)) _

theorem Quiet.answer_rename_to_refused {args : RenameArgs}
    (hArgs : args.decode = some ((j, m), (i, n))) :
    ((serveNfsProcedure11RenameFile (.authSys caller) args).run w).1 =
      orRefused (w.directory j) fun x =>
        orRefused (w.existing (getFileAbsolutePath x.1 m)) fun _ => .err .nfserrAcces := by
  obtain ⟨k, hRun⟩ := hw.answer_rename (.authSys caller) hArgs
  rw [hRun, hFound]
  refine orRefused_congr fun x hx => orRefused_congr fun _ _ => ?_
  exact (hw.wait 11).answer_renaming_refused (directory_eq_ok hx).2.1 (directory_eq_ok hFound).2.1
    (.inr (hNone .write)) _

end Refused

/-! ## Two states -/

/-- The handle leads to the directory `d` in both states. -/
def LeadsTo (w w' : World) (d i : Ino) : Prop :=
  ∃ p, w.directory i = .ok (p, d) ∧ w'.directory i = .ok (p, d)

/-- The handle leads to a directory that is the same in both states, or to none in
either. -/
structure SameDirectory (w w' : World) (j : Ino) : Prop where
  found : w.directory j = w'.directory j
  entries {q : Path} {o : Ino} (n : Bytes) : w.directory j = .ok (q, o) →
    natureOf w.fs o n = natureOf w'.fs o n

/-- The handle leads to a file of the same type in both states, or to none in either. -/
def SameFile (w w' : World) (j : Ino) : Prop :=
  ∀ q, w.file j = .ok q → (w.fs.lstat w.host q).map (fun st => (fattrOfStat st).nfsFtype) =
    (w'.fs.lstat w'.host q).map fun st => (fattrOfStat st).nfsFtype

/-- The request names an entry of `d` by its plain name, and no other directory that
differs. -/
inductive NamesEntry (w w' : World) (d : Ino) : Request → Prop where
  | lookup {args : DirOpArgs} {i : Ino} {n : Bytes} (hArgs : args.decode = some (i, n))
      (hDir : LeadsTo w w' d i) (hn : Plain n) : NamesEntry w w' d (.lookup args)
  | create {args : CreateArgs} {i : Ino} {n : Bytes} {a : Attributes}
      (hArgs : args.decode = some (i, n, a)) (hDir : LeadsTo w w' d i) (hn : Plain n) :
      NamesEntry w w' d (.create args)
  | mkdir {args : CreateArgs} {i : Ino} {n : Bytes} {a : Attributes}
      (hArgs : args.decode = some (i, n, a)) (hDir : LeadsTo w w' d i) (hn : Plain n) :
      NamesEntry w w' d (.mkdir args)
  | symlink {args : SymLinkArgs} {i : Ino} {n : Bytes} {target : Path}
      (hArgs : args.decode = some (i, n, target)) (hDir : LeadsTo w w' d i) (hn : Plain n) :
      NamesEntry w w' d (.symlink args)
  | link {args : LinkArgs} {i j : Ino} {n : Bytes} (hArgs : args.decode = some (j, i, n))
      (hFile : SameFile w w' j) (hDir : LeadsTo w w' d i) (hn : Plain n) :
      NamesEntry w w' d (.link args)
  | remove {args : DirOpArgs} {i : Ino} {n : Bytes} (hArgs : args.decode = some (i, n))
      (hDir : LeadsTo w w' d i) (hn : Plain n) : NamesEntry w w' d (.remove args)
  | rmdir {args : DirOpArgs} {i : Ino} {n : Bytes} (hArgs : args.decode = some (i, n))
      (hDir : LeadsTo w w' d i) (hn : Plain n) : NamesEntry w w' d (.rmdir args)
  | renameFrom {args : RenameArgs} {i j : Ino} {n m : Bytes}
      (hArgs : args.decode = some ((i, n), (j, m))) (hDir : LeadsTo w w' d i) (hn : Plain n)
      (hOther : LeadsTo w w' d j ∨ SameDirectory w w' j) : NamesEntry w w' d (.rename args)
  | renameTo {args : RenameArgs} {i j : Ino} {n m : Bytes}
      (hArgs : args.decode = some ((j, m), (i, n))) (hDir : LeadsTo w w' d i)
      (hOther : SameDirectory w w' j) (hm : Plain m) : NamesEntry w w' d (.rename args)

/-- No such request of the caller tells the states apart. -/
def NoLeak (w w' : World) (caller : AuthSysParams) (d : Ino) : Prop :=
  ∀ r, NamesEntry w w' d r → w.answer (.authSys caller) r = w'.answer (.authSys caller) r

/-- A name that the server can be asked about: the path it builds is not too long. -/
def Askable (w w' : World) (d : Ino) (n : Bytes) : Prop :=
  ∃ i p, w.directory i = .ok (p, d) ∧ w'.directory i = .ok (p, d) ∧
    (getFileAbsolutePath p n).length < pathMax

theorem permitted_of_attr {fs fs' : FileSystem}
    (h : (fs.inode d).map (·.attr) = (fs'.inode d).map (·.attr)) (cred : Credential)
    (a : Access) : permitted fs cred a d = permitted fs' cred a d := by
  cases cred with
  | authNone => rfl
  | authSys caller =>
    have hAny := congrArg (Option.any fun x : Attr => allows a x.perm x.uid x.gid caller.uid caller.gid) h
    rw [Option.any_map, Option.any_map] at hAny
    exact congrArg (decide (caller.uid = 0) || ·) hAny

theorem answer_congr {α : Type} {f : α → Answer} {c c' : Proc α} (h : (c.run w).1 = (c'.run w').1) :
    ((do return f (← c) : Proc Answer).run w).1 = ((do return f (← c') : Proc Answer).run w').1 := by
  rw [run_bind, run_bind]
  exact congrArg f h

/-! ## The reply to REMOVE tells everything -/

/-- The reply to REMOVE, to a caller without permissions. -/
def removalRefused : Except Errno Bool → NfsReply Unit
  | .error .enoent => .err .nfserrNoent
  | .error _ => .systemErr
  | .ok true => .err .nfserrIsdir
  | .ok false => .err .nfserrAcces

theorem removalRefused_nature (w : World) (q : Path) :
    orRefused (w.existing q) (fun _ => orRefused (w.attributes q) fun st =>
      if isDirectory st then .err .nfserrIsdir else .err .nfserrAcces) =
    removalRefused (w.nature q) := by
  unfold World.existing World.attributes World.nature
  cases w.fs.lstat w.host q with
  | error e => cases e <;> rfl
  | ok st =>
    show (if isDirectory st then _ else _) = removalRefused (.ok (isDirectory st))
    cases isDirectory st <;> rfl

theorem removalRefused_injective {x y : Option Bool}
    (h : removalRefused (x.elim (.error .enoent) .ok) =
      removalRefused (y.elim (.error .enoent) .ok)) : x = y := by
  rcases x with _ | _ | _ <;> rcases y with _ | _ | _ <;> first | rfl | cases h

theorem natureOf_of_long {fs : FileSystem} (hLong : ¬n.length ≤ nameMax) : natureOf fs d n = none := by
  unfold natureOf
  cases hEntry : fs.entry d n with
  | none => rfl
  | some e => exact absurd (fs.wf.entry_valid hEntry).length_le hLong

section TwoStates

variable {caller : AuthSysParams} (hw : Quiet w) (hw' : Quiet w')
  (hNone : ∀ a, permitted w.fs (.authSys caller) a d = false)
  (hNone' : ∀ a, permitted w'.fs (.authSys caller) a d = false)
include hw hw' hNone hNone'

theorem natureOf_of_noLeak (h : NoLeak w w' caller d) (hn : Plain n) (hAskable : Askable w w' d n) :
    natureOf w.fs d n = natureOf w'.fs d n := by
  obtain ⟨i, p, hFound, hFound', hPath⟩ := hAskable
  by_cases hName : n.length ≤ nameMax
  · obtain ⟨-, hLeads, hDir⟩ := directory_eq_ok hFound
    obtain ⟨-, hLeads', hDir'⟩ := directory_eq_ok hFound'
    let args : DirOpArgs := ⟨some ⟨some ⟨i, 0⟩⟩, some ⟨some n⟩⟩
    have hArgs : args.decode = some (i, n) := rfl
    have hAnswer := h (.remove args) (.remove hArgs ⟨p, hFound, hFound'⟩ hn)
    have hReply : ((serveNfsProcedure10RemoveFile (.authSys caller) args).run w).1 =
        ((serveNfsProcedure10RemoveFile (.authSys caller) args).run w').1 := by
      unfold World.answer serve at hAnswer
      rw [run_bind, run_bind] at hAnswer
      exact Answer.nfsStat.inj hAnswer
    rw [hw.answer_remove_refused hFound hNone hArgs, hw'.answer_remove_refused hFound' hNone' hArgs,
      removalRefused_nature, removalRefused_nature, nature_join hLeads hDir hn hName hPath,
      nature_join hLeads' hDir' hn hName hPath] at hReply
    exact removalRefused_injective hReply
  · rw [natureOf_of_long hName, natureOf_of_long hName]

variable (hSame : ∀ n, Plain n → Askable w w' d n → natureOf w.fs d n = natureOf w'.fs d n)
include hSame

omit hw hw' hNone hNone' in
/-- The path of a name in the directory looks the same in both states. -/
theorem nature_of_leadsTo (hFound : w.directory i = .ok (p, d)) (hFound' : w'.directory i = .ok (p, d))
    (hn : Plain n) : w.nature (getFileAbsolutePath p n) = w'.nature (getFileAbsolutePath p n) := by
  obtain ⟨-, hLeads, hDir⟩ := directory_eq_ok hFound
  obtain ⟨-, hLeads', hDir'⟩ := directory_eq_ok hFound'
  exact nature_join_congr hLeads hDir hLeads' hDir' hn fun hPath =>
    hSame n hn ⟨i, p, hFound, hFound', hPath⟩

theorem withNewName_agrees (hDir : LeadsTo w w' d i) (hn : Plain n)
    (k k' : Path → Proc (NfsReply β)) :
    ((withNewName (needs .write) (.authSys caller) i n k).run w).1 =
      ((withNewName (needs .write) (.authSys caller) i n k').run w').1 := by
  obtain ⟨p, hFound, hFound'⟩ := hDir
  have hReply := hw.answer_withNewName_refused hFound hNone (n := n) 0 k
  have hReply' := hw'.answer_withNewName_refused hFound' hNone' (n := n) 0 k'
  rw [vacant_congr (nature_of_leadsTo hSame hFound hFound' hn)] at hReply
  exact hReply.trans hReply'.symm

theorem noLeak_of_natureOf (hFile : ∀ j, w.file j = w'.file j) : NoLeak w w' caller d := by
  -- each procedure by its closed form: it sees the name only through `natureOf`
  intro r hr
  cases hr with
  | lookup hArgs hDir hn =>
    obtain ⟨p, hFound, hFound'⟩ := hDir
    refine answer_congr ?_
    rw [hw.answer_lookup_refused hFound hNone hArgs, hw'.answer_lookup_refused hFound' hNone' hArgs]
    exact existing_congr (nature_of_leadsTo hSame hFound hFound' hn) fun _ => _
  | create hArgs hDir hn =>
    refine answer_congr ?_
    unfold serveNfsProcedure9CreateFile
    rw [hArgs]
    dsimp only [orGarbageArgs, checkCreateProcPermissions]
    exact withNewName_agrees hw hw' hNone hNone' hSame hDir hn _ _
  | mkdir hArgs hDir hn =>
    refine answer_congr ?_
    unfold serveNfsProcedure14CreateDirectory
    rw [hArgs]
    dsimp only [orGarbageArgs, checkMkdirProcPermissions]
    exact withNewName_agrees hw hw' hNone hNone' hSame hDir hn _ _
  | symlink hArgs hDir hn =>
    refine answer_congr ?_
    unfold serveNfsProcedure13CreateSymbolicLink
    rw [hArgs]
    dsimp only [orGarbageArgs, checkSymlinkProcPermissions]
    exact withNewName_agrees hw hw' hNone hNone' hSame hDir hn _ _
  | link hArgs hSameFile hDir hn =>
    obtain ⟨p, hFound, hFound'⟩ := hDir
    refine answer_congr ?_
    rw [hw.answer_link_refused hFound hNone hArgs, hw'.answer_link_refused hFound' hNone' hArgs,
      vacant_congr (nature_of_leadsTo hSame hFound hFound' hn), ← hFile]
    cases hSource : w.file _ with
    | error refusal => rfl
    | ok q => exact attributes_congr (hSameFile q hSource) fun ftype => if ftype ≠ .nfReg then _ else _
  | remove hArgs hDir hn =>
    obtain ⟨p, hFound, hFound'⟩ := hDir
    refine answer_congr ?_
    rw [hw.answer_remove_refused hFound hNone hArgs, hw'.answer_remove_refused hFound' hNone' hArgs,
      removalRefused_nature, removalRefused_nature, nature_of_leadsTo hSame hFound hFound' hn]
  | rmdir hArgs hDir hn =>
    obtain ⟨p, hFound, hFound'⟩ := hDir
    have hNature := nature_of_leadsTo hSame hFound hFound' hn
    refine answer_congr ?_
    rw [hw.answer_rmdir_refused hFound hNone hArgs, hw'.answer_rmdir_refused hFound' hNone' hArgs,
      attributes_congr hNature fun dir => if dir then _ else _]
    exact existing_congr hNature fun _ => _
  | @renameFrom args i j n m hArgs hDir hn hOther =>
    obtain ⟨p, hFound, hFound'⟩ := hDir
    have hSameFound : w.directory j = w'.directory j := by
      rcases hOther with ⟨q, hq, hq'⟩ | hOther
      · rw [hq, hq']
      · exact hOther.found
    refine answer_congr ?_
    rw [hw.answer_rename_from_refused hFound hNone hArgs,
      hw'.answer_rename_from_refused hFound' hNone' hArgs, hSameFound]
    exact existing_congr (nature_of_leadsTo hSame hFound hFound' hn) fun _ => _
  | @renameTo args i j n m hArgs hDir hOther hm =>
    obtain ⟨p, hFound, hFound'⟩ := hDir
    refine answer_congr ?_
    rw [hw.answer_rename_to_refused hFound hNone hArgs,
      hw'.answer_rename_to_refused hFound' hNone' hArgs, ← hOther.found]
    refine orRefused_congr fun x hx => ?_
    obtain ⟨-, hLeads, hIsDir⟩ := directory_eq_ok hx
    obtain ⟨-, hLeads', hIsDir'⟩ := directory_eq_ok (hOther.found.symm.trans hx)
    exact existing_congr (nature_join_congr hLeads hIsDir hLeads' hIsDir' hm
      fun _ => hOther.entries m hx) fun _ => _

end TwoStates

/-- **A caller without any permission learns the names and which of them are directories,
and nothing else.** Two states that have the same inode cache, and differ in the entries of
a directory on which the caller has no permission, answer every request of the caller that
names an entry of it alike, if and only if the same names exist in it and the same of them
are directories. -/
theorem no_leak_iff (w w' : World) (caller : AuthSysParams) (d : Ino) (hw : Quiet w)
    (hw' : Quiet w') (hCache : w.inodeCache = w'.inodeCache)
    (hAttr : (w.fs.inode d).map (·.attr) = (w'.fs.inode d).map (·.attr))
    (hNone : ∀ a, permitted w.fs (.authSys caller) a d = false) :
    NoLeak w w' caller d ↔
      ∀ n, Plain n → Askable w w' d n → natureOf w.fs d n = natureOf w'.fs d n := by
  have hNone' : ∀ a, permitted w'.fs (.authSys caller) a d = false := by
    intro a
    rw [← permitted_of_attr hAttr]
    exact hNone a
  have hFile : ∀ j, w.file j = w'.file j := by
    intro j
    unfold World.file World.view
    rw [hCache]
  exact ⟨fun h n hn hAskable => natureOf_of_noLeak hw hw' hNone hNone' h hn hAskable,
    fun h => noLeak_of_natureOf hw hw' hNone hNone' h hFile⟩

namespace Sample

/-- The directory `/exp/p`, which only root may use. -/
def withPrivate : FileSystem :=
  files.create 2 (bytes "p") 90 ⟨.directory ∅, attr 0o700⟩ default

/-- The same with a file `f` in it. -/
def withPrivateFile : FileSystem :=
  withPrivate.create 90 (bytes "f") 91 ⟨.regular (bytes "data"), attr 0o600⟩ default

/-- A user has mounted `/exp` and got handles for `p` and for the file `f` of `a`. -/
def visited (fs : FileSystem) : World :=
  (World.boot fs host (some (bytes "/exp *(rw)\n")) env).steps
    [mount, request (.lookup (nameIn 2 "p")), request (.lookup (nameIn 2 "a")),
      request (.lookup (nameIn 3 "f"))]

theorem quiet_visited (fs : FileSystem) : Quiet (visited fs) :=
  Quiet.steps ⟨fun _ => rfl, fun _ => rfl⟩ _

/-- Every procedure that names an entry, with the name `f` of `p`. -/
def prying : List Request :=
  [.lookup (nameIn 90 "f"), .create (newFile 90 "f" 1000), .mkdir (newFile 90 "f" 1000),
    .symlink ⟨some (nameIn 90 "f"), some ⟨some (bytes "/exp")⟩, (newFile 90 "f" 1000).attributes⟩,
    .link ⟨some (handle 4), some (nameIn 90 "f")⟩, .remove (nameIn 90 "f"), .rmdir (nameIn 90 "f"),
    .rename ⟨some (nameIn 90 "f"), some (nameIn 2 "g")⟩]

theorem not_permitted_private (a : Access) :
    permitted (visited withPrivateFile).fs (.authSys caller) a 90 = false := by
  cases a <;> decide +kernel

end Sample

/-- The user, who has no permission on `/exp/p`, is refused by all eight procedures, and
each of them says whether there is an `f` in it. -/
theorem refusals_reveal_names :
    (Sample.visited Sample.withPrivateFile).inodeCache =
      (Sample.visited Sample.withPrivate).inodeCache ∧
    [Access.read, .write, .execute].map
      (permitted (Sample.visited Sample.withPrivateFile).fs (.authSys Sample.caller) · 90) =
      [false, false, false] ∧
    Sample.prying.map ((Sample.visited Sample.withPrivateFile).answer (.authSys Sample.caller)) =
      [.dirOpRes (.err .nfserrAcces), .dirOpRes (.err .nfserrExist), .dirOpRes (.err .nfserrExist),
        .nfsStat (.err .nfserrExist), .nfsStat (.err .nfserrExist), .nfsStat (.err .nfserrAcces),
        .nfsStat (.err .nfserrNotdir), .nfsStat (.err .nfserrAcces)] ∧
    Sample.prying.map ((Sample.visited Sample.withPrivate).answer (.authSys Sample.caller)) =
      [.dirOpRes (.err .nfserrNoent), .dirOpRes (.err .nfserrAcces), .dirOpRes (.err .nfserrAcces),
        .nfsStat (.err .nfserrAcces), .nfsStat (.err .nfserrAcces), .nfsStat (.err .nfserrNoent),
        .nfsStat (.err .nfserrNoent), .nfsStat (.err .nfserrNoent)] := by
  decide +kernel

/-- The two states are told apart because of the name `f`. -/
theorem no_leak_iff_private :
    ¬NoLeak (Sample.visited Sample.withPrivateFile) (Sample.visited Sample.withPrivate)
      Sample.caller 90 := by
  intro hNoLeak
  have hSame := (no_leak_iff _ _ Sample.caller 90 (Sample.quiet_visited _) (Sample.quiet_visited _)
    (by decide +kernel) (by decide +kernel) Sample.not_permitted_private).mp hNoLeak
  have hNames := hSame (bytes "f") (by decide)
    ⟨90, bytes "/exp/p", by decide +kernel, by decide +kernel, by decide⟩
  exact absurd hNames (by decide +kernel)

end QuicNfs.Server

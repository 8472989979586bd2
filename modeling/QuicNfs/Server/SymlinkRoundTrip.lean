import QuicNfs.Server.Outcomes
import QuicNfs.Server.Rules
import QuicNfs.Server.Service

/-!
# QuicNfs — the target of a symbolic link

SYMLINK takes a target of up to 4095 bytes, which is what the kernel takes. READLINK reads
into a buffer of 1024 bytes, and answers with what there is in it.

* `Links` — a path names a symbolic link with this target;
* `safe_symlink`, `safe_lookup`, `safe_readlink` — what a success of each procedure means;
* `symlink_target_returned_iff` — the target comes back if it fits into the buffer.
-/

namespace QuicNfs.Server

open Kernel Lib Option FileSystem

/-- `p` names the symbolic link `j` with this target. -/
structure Links (fs : FileSystem) (p : Path) (j : Ino) (target : Bytes) : Prop where
  lookup : fs.lookup false p = .ok j
  content : fs.content j = some (.symlink target)

theorem links_of_symlink {fs fs' : FileSystem} {busy : List Ino} {target p : Path} {j : Ino}
    {now : Timespec} (h : fs.symlink busy target p j now = .ok fs') : Links fs' p j target := by
  obtain ⟨hSlash, d, n, x, hContent, hFree, hCreated⟩ := symlink_ok h
  constructor
  -- nothing had the name before, so its path leads to what has been made
  · refine hCreated.extends.lookup_missing ?_ ?_ ?_
    · rw [hSlash]
      rintro (h | h) <;> cases h
    · rw [hSlash]
      exact fun h => by cases h
    · rw [hSlash]
      exact hFree
  · rw [Tree.content, hCreated.inode_new, ← hContent]
    rfl

/-- What `readlink` gives is the beginning of the target. -/
theorem readlink_eq_ok {fs : FileSystem} {p : Path} {size : Nat} {data : Bytes}
    (h : fs.readlink p size = .ok data) :
    ∃ j target, Links fs p j target ∧ data = target.take size := by
  unfold readlink at h
  split at h
  · cases h
  · next j hLookup =>
    split at h
    · next target hContent => exact ⟨j, target, ⟨hLookup, hContent⟩, (Except.ok.inj h).symm⟩
    · cases h

section Procedures

variable {w : World} {cred : Credential}

/-- Nothing is claimed of a request that has not been carried out. -/
theorem failSafe_ok {β : Type} {P : β → World → Prop} :
    FailSafe (fun (reply : NfsReply β) w' => ∀ b, reply = .ok b → P b w') w := by
  intro reply hReply t b hOk
  rw [hOk] at hReply
  cases hReply

/-- A success of SYMLINK: the path of the name is that of the link, and what the server knows
is as before. -/
theorem safe_symlink (args : SymLinkArgs) :
    Safe .none (fun reply w' => ∀ b : Unit, reply = .ok b → ∃ i n target p j,
        args.decode = some (i, n, target) ∧ w.view i = some p ∧
        Links w'.fs (getFileAbsolutePath p n) j target ∧ w'.view = w.view)
      (serveNfsProcedure13CreateSymbolicLink cred args) w := by
  refine safe_orGarbageArgs failSafe_ok fun ⟨i, n, target⟩ hArgs => ?_
  refine safe_withNewName (fun _ _ => ⟨fun _ => trivial, fun _ => trivial⟩) failSafe_ok fun p st hAt _ _ => ?_
  -- the one call that makes the link; the attributes of the request are only checked
  refine safe_orReport_change (r := fun c => w.fs.symlink w.machine.openDirs target
    (getFileAbsolutePath p n) c.ino c.now) (fun _ => rfl) (fun _ => trivial) failSafe_ok
    fun c fs' hMade => ?_
  exact safe_pure fun t b _ =>
    ⟨i, n, target, p, c.ino, hArgs, hAt.cached, links_of_symlink hMade, rfl⟩

/-- A success of LOOKUP: the handle is one for what the path of the name leads to, and the
server knows a path for it. -/
theorem safe_lookup (args : DirOpArgs) :
    Safe .none (fun reply w' => ∀ diropok : DirOpOk, reply = .ok diropok → ∃ i n p,
        args.decode = some (i, n) ∧ w.view i = some p ∧
        w.fs.lookup false (getFileAbsolutePath p n) = .ok diropok.file.inodeNumber ∧
        w'.fs = w.fs ∧ w'.view diropok.file.inodeNumber =
          some ((w.view diropok.file.inodeNumber).getD (getFileAbsolutePath p n)) ∧
        (diropok.attributes.nfsFtype = .nfDir ↔ w.fs.isDir diropok.file.inodeNumber))
      (serveNfsProcedure4LookUpFileName cred args) w := by
  refine safe_lookUpFileName failSafe_ok (fun _ _ _ _ _ => ⟨fun _ => trivial, fun _ => trivial⟩) ?_ ?_
  · -- the server knows the object under a path of its own
    intro i n p stDir st handle h hHandle
    obtain ⟨hIno, path, hKnown⟩ := InodeCache.of_getNfsFilehandle hHandle
    refine safe_answerWithHandle (fun _ => trivial) (fun _ d hOk => by cases hOk) ?_
    intro st' hst' t d hOk
    obtain rfl := Except.ok.inj (h.file.symm.trans hst')
    obtain rfl := Reply.ok.inj hOk
    dsimp only
    rw [hIno]
    have hView : w.view st.ino = some path := hKnown
    refine ⟨i, n, p, h.args, h.cached, (lstat_ok h.file).1, rfl, ?_, nfsFtype_eq_dir_iff h.file⟩
    show w.view st.ino = _
    rw [hView]
    rfl
  -- the object is new to the server, which remembers the path it was looked up by
  · intro i n p stDir st h hHandle
    have hNew : w.view st.ino = none := InodeCache.getAbsolutePath_of_no_handle hHandle
    refine safe_answerNew (fun _ _ => trivial) failSafe_ok fun st' ts hst' t d hOk => ?_
    obtain rfl := Except.ok.inj (h.file.symm.trans hst')
    obtain rfl := Reply.ok.inj hOk
    refine ⟨i, n, p, h.args, h.cached, (lstat_ok h.file).1, rfl, ?_, nfsFtype_eq_dir_iff h.file⟩
    have hLearned : (w.remember st.ino ts (getFileAbsolutePath p n)).view =
        learn w.view st.ino (getFileAbsolutePath p n) := view_add hNew w.machine.tick
    show (w.remember st.ino ts (getFileAbsolutePath p n)).view st.ino = _
    rw [hLearned, learn, if_pos rfl]

/-- A success of READLINK: the answer is the beginning of a target. -/
theorem safe_readlink (handle : NfsFileHandle) :
    Safe .none (fun reply _ => ∀ data : Bytes, reply = .ok data → ∃ p j target,
        w.view handle.inodeNumber = some p ∧ Links w.fs p j target ∧
        data = target.take NFS_MAXPATHLEN)
      (serveNfsProcedure5ReadFromSymbolicLink cred ⟨some handle⟩) w := by
  refine safe_orGarbageArgs failSafe_ok fun i hHandle => ?_
  obtain rfl := some.inj hHandle
  refine safe_withFile failSafe_ok fun p hView => ?_
  refine safe_withAttributes (fun _ => trivial) failSafe_ok fun st _ => ?_
  -- what is not a link is refused
  split
  · exact safe_err failSafe_ok _
  refine safe_withPermission failSafe_ok (checks_needs fun _ => trivial) fun _ => ?_
  refine safe_orReport_answer (r := w.fs.readlink p NFS_MAXPATHLEN) (fun _ => rfl)
    (fun _ => trivial) failSafe_ok fun target hRead => ?_
  refine safe_pure fun _ data hOk => ?_
  obtain rfl := Reply.ok.inj hOk
  obtain ⟨j, whole, hLinks, hData⟩ := readlink_eq_ok hRead
  exact ⟨p, j, whole, hView, hLinks, hData⟩

theorem made_of_symlink {name : DirOpArgs} {target : Bytes} {attributes : Option SAttr}
    {request : Request} (hRequest : request = .symlink ⟨some name, some ⟨some target⟩, attributes⟩)
    (h : (w.answer cred request).isOk = true) :
    ∃ i n p j, name.decode = some (i, n) ∧ w.view i = some p ∧
      Links (w.afterRequest cred request).fs (getFileAbsolutePath p n) j target ∧
      (w.afterRequest cred request).view = w.view := by
  subst hRequest
  rw [World.answer, serve, run_return] at h
  rw [World.afterRequest, serve, run_return]
  have hOk : ((serveNfsProcedure13CreateSymbolicLink cred
      ⟨some name, some ⟨some target⟩, attributes⟩).run w).1 = .ok () := by
    revert h
    generalize ((serveNfsProcedure13CreateSymbolicLink cred _).run w).1 = reply
    intro h
    cases reply with
    | ok b => rfl
    | _ => cases h
  obtain ⟨i, n, target', p, j, hArgs, hView, hLinks, hSame⟩ := (safe_symlink _).run _ hOk
  simp only [SymLinkArgs.decode, bind_eq_bind, bind_some, bind_eq_some_iff,
    Prod.exists, pure_def, some.injEq, Prod.mk.injEq] at hArgs
  obtain ⟨_, _, hName, _, _, _, _, rfl, rfl, rfl⟩ := hArgs
  exact ⟨_, _, p, j, hName, hView, hLinks, hSame⟩

theorem found_of_lookup {args : DirOpArgs} {diropok : DirOpOk}
    (h : w.answer cred (.lookup args) = .dirOpRes (.ok diropok)) :
    ∃ i n p, args.decode = some (i, n) ∧ w.view i = some p ∧
      w.fs.lookup false (getFileAbsolutePath p n) = .ok diropok.file.inodeNumber ∧
      (w.afterRequest cred (.lookup args)).fs = w.fs ∧
      (w.afterRequest cred (.lookup args)).view diropok.file.inodeNumber =
        some ((w.view diropok.file.inodeNumber).getD (getFileAbsolutePath p n)) ∧
      (diropok.attributes.nfsFtype = .nfDir ↔ w.fs.isDir diropok.file.inodeNumber) := by
  rw [World.answer, serve, run_return] at h
  rw [World.afterRequest, serve, run_return]
  exact (safe_lookup args).run diropok (Answer.dirOpRes.inj h)

theorem read_of_readlink {handle : NfsFileHandle} {data : Bytes}
    (h : w.answer cred (.readlink ⟨some handle⟩) = .readLinkRes (.ok data)) :
    ∃ p j target, w.view handle.inodeNumber = some p ∧ Links w.fs p j target ∧
      data = target.take NFS_MAXPATHLEN := by
  rw [World.answer, serve, run_return] at h
  exact (safe_readlink handle).run data (Answer.readLinkRes.inj h)

end Procedures

/-- **The target comes back** if and only if it has at most 1024 bytes. SYMLINK, LOOKUP of the
name and READLINK of the handle succeed, and between them neither the file system nor the
paths that the server knows change. If the server has a path for the number of the link
already, then it leads to the link. -/
theorem symlink_target_returned_iff (w w₁ w₂ : World) (c c₁ c₂ : Credential)
    (name : DirOpArgs) (target : Bytes) (attributes : Option SAttr)
    (hSymlink : (w.answer c (.symlink ⟨some name, some ⟨some target⟩, attributes⟩)).isOk = true)
    (hFs : w₁.fs = (w.afterRequest c (.symlink ⟨some name, some ⟨some target⟩, attributes⟩)).fs)
    (hView : w₁.view =
      (w.afterRequest c (.symlink ⟨some name, some ⟨some target⟩, attributes⟩)).view)
    (diropok : DirOpOk) (hLookup : w₁.answer c₁ (.lookup name) = .dirOpRes (.ok diropok))
    (hFs' : w₂.fs = (w₁.afterRequest c₁ (.lookup name)).fs)
    (hView' : w₂.view = (w₁.afterRequest c₁ (.lookup name)).view) (data : Bytes)
    (hReadlink : w₂.answer c₂ (.readlink ⟨some diropok.file⟩) = .readLinkRes (.ok data))
    (hKnown : ∀ q, w.view diropok.file.inodeNumber = some q →
      w₁.fs.lookup false q = .ok diropok.file.inodeNumber) :
    data = target ↔ target.length ≤ NFS_MAXPATHLEN := by
  -- the name of the link, and the link under its path
  obtain ⟨i, n, p, j, hName, hDir, hLink, hSame⟩ := made_of_symlink rfl hSymlink
  rw [← hFs] at hLink
  rw [← hView] at hSame
  -- LOOKUP of the name finds the link, and the server has a path for it afterwards
  obtain ⟨i', n', p', hName', hDir', hFound, hStill, hPath, -⟩ := found_of_lookup hLookup
  obtain ⟨rfl, rfl⟩ := Prod.mk.inj (some.inj (hName.symm.trans hName'))
  rw [hSame, hDir] at hDir'
  obtain rfl := some.inj hDir'
  obtain rfl := Except.ok.inj (hLink.lookup.symm.trans hFound)
  rw [← hFs'] at hStill
  rw [← hView', hSame] at hPath
  -- READLINK goes to that path, which leads to the link
  obtain ⟨q, j', target', hPath', hLink', hData⟩ := read_of_readlink hReadlink
  rw [hStill] at hLink'
  have hLeads : w₁.fs.lookup false q = .ok diropok.file.inodeNumber := by
    obtain rfl := some.inj (hPath.symm.trans hPath')
    -- the path just looked up, or one that the server has had for the number before
    cases hOld : w.view diropok.file.inodeNumber with
    | none => exact hFound
    | some old => exact hKnown old hOld
  obtain rfl := Except.ok.inj (hLink'.lookup.symm.trans hLeads)
  have hTarget : target' = target := by
    have hContent := hLink'.content.symm.trans hLink.content
    exact Content.symlink.inj (some.inj hContent)
  rw [hData, hTarget]
  exact List.take_eq_self_iff target

/-- A link `s` in `/exp`. -/
def Sample.linkTo (target : Bytes) : Request :=
  .symlink ⟨some (nameIn 2 "s"), some ⟨some target⟩, (newFile 2 "s" 1000).attributes⟩

/-- What LOOKUP of `s` gives: the size is the length of the target. -/
def Sample.foundLink (size blocks : Nat) : DirOpOk where
  file := ⟨26, 0⟩
  attributes := ⟨.nfLnk, 0o120777, 1, 0, 0, size, 4096, 0, blocks, 1, 26, ⟨0, 0⟩, ⟨0, 0⟩, ⟨0, 0⟩⟩

/-- The small server before SYMLINK, after it, and after LOOKUP of the name. -/
def Sample.beforeLink : World := world.step mount

def Sample.afterLink (target : Bytes) : World :=
  beforeLink.afterRequest (.authSys caller) (linkTo target)

def Sample.afterFound (target : Bytes) : World :=
  (afterLink target).afterRequest (.authSys caller) (.lookup (nameIn 2 "s"))

/-- A link to `/exp/a` is one to `/exp/a` for those who read it. -/
theorem symlink_target_returned_short :
    (Sample.beforeLink.answer (.authSys Sample.caller) (Sample.linkTo (bytes "/exp/a"))).isOk = true ∧
      (Sample.afterFound (bytes "/exp/a")).answer (.authSys Sample.caller)
        (.readlink (Sample.handle 26)) = .readLinkRes (.ok (bytes "/exp/a")) ∧
      (bytes "/exp/a" = bytes "/exp/a" ↔ (bytes "/exp/a").length ≤ NFS_MAXPATHLEN) :=
  ⟨by decide +kernel, by decide +kernel,
    symlink_target_returned_iff Sample.beforeLink (Sample.afterLink (bytes "/exp/a"))
      (Sample.afterFound (bytes "/exp/a")) (.authSys Sample.caller) (.authSys Sample.caller)
      (.authSys Sample.caller) (Sample.nameIn 2 "s") (bytes "/exp/a")
      (Sample.newFile 2 "s" 1000).attributes (by decide +kernel) rfl rfl (Sample.foundLink 6 1)
      (by decide +kernel) rfl rfl (bytes "/exp/a") (by decide +kernel) (by
        intro q hKnown
        have hUnknown : Sample.beforeLink.view 26 = none := by decide +kernel
        exact absurd (hKnown.symm.trans hUnknown) (by simp))⟩

/-- **A longer target comes back cut.** A link to a path of 1025 bytes is made, and what
READLINK answers with NFS_OK is the path without its last byte. -/
theorem symlink_target_cut :
    (Sample.beforeLink.answer (.authSys Sample.caller)
        (Sample.linkTo (List.replicate 1025 120))).isOk = true ∧
      (Sample.afterLink (List.replicate 1025 120)).answer (.authSys Sample.caller)
        (.lookup (Sample.nameIn 2 "s")) = .dirOpRes (.ok (Sample.foundLink 1025 3)) ∧
      (Sample.afterFound (List.replicate 1025 120)).answer (.authSys Sample.caller)
        (.readlink ⟨some (Sample.foundLink 1025 3).file⟩) =
          .readLinkRes (.ok (List.replicate 1024 120)) :=
  ⟨by decide +kernel, by decide +kernel, by decide +kernel⟩

end QuicNfs.Server

import QuicNfs.Kernel.BuiltPaths
import QuicNfs.Server.SetAttributes

/-!
# QuicNfs — what SETATTR makes of an object

A request gives some of the attributes and leaves out others. Two things stand between what it
asks for and what becomes of the object: `chown` is called in any case, and takes the set-id
bits of a file away even where neither the owner nor the group is given; and the two times are
set together or not at all.

* `SetTo` — the object after all calls have succeeded, attribute by attribute;
* `DoesAsked` — what was given is there, what was not given is as before;
* `setattr_does_asked_iff` — which of the requests answered with success do what they ask for.
-/

namespace QuicNfs.Kernel

/-- The bits that `chown` takes away from the mode of a file. -/
def losesSetId (perm : Nat) : Prop := perm.testBit 11 ∨ perm.testBit 10 ∧ perm.testBit 3

theorem dropSetId_eq_self_iff {perm : Nat} : dropSetId false perm = perm ↔ ¬losesSetId perm := by
  unfold dropSetId losesSetId
  rw [if_neg Bool.false_ne_true]
  dsimp only
  by_cases hUid : perm.testBit 11
  · -- a bit that is taken away is not there afterwards
    have hGe : perm ≥ 2 ^ 11 := Nat.ge_two_pow_of_testBit hUid
    rw [if_pos hUid]
    refine iff_of_false ?_ fun h => h (Or.inl hUid)
    split <;> omega
  · rw [if_neg hUid]
    by_cases hGid : perm.testBit 10 ∧ perm.testBit 3
    · have hGe : perm ≥ 2 ^ 10 := Nat.ge_two_pow_of_testBit hGid.1
      rw [if_pos hGid]
      refine iff_of_false ?_ fun h => h (Or.inr hGid)
      omega
    · rw [if_neg hGid]
      exact iff_of_true rfl fun h => h.elim hUid hGid

theorem format_of_link {content : Content} {target : Path} (h : content.kind = .link target) :
    content.format = .lnk := by
  cases content with
  | symlink => rfl
  | regular | directory | special => cases h

/-- What is at a path, unless it is a symbolic link, is there for every call. -/
theorem lookup_of_format {fs : FileSystem} {p : Path} {f : Ino} {x : Inode}
    (hLookup : fs.lookup false p = .ok f) (hInode : fs.inode f = some x)
    (hLink : x.content.format ≠ .lnk) : fs.lookup true p = .ok f := by
  refine FileSystem.lookup_true_of_false hLookup fun target hKind => ?_
  have hKind : (fs.inode f).map (·.content.kind) = some (.link target) := hKind
  rw [hInode] at hKind
  exact hLink (format_of_link (Option.some.inj hKind))

end QuicNfs.Kernel

namespace QuicNfs.Server

open Kernel Lib

/-! ## What a request asks for -/

/-- The time is given by a request: neither of its fields is all ones. -/
def MsgTimeVal.Given (t : MsgTimeVal) : Prop := t.seconds ≠ unchanged64 ∧ t.useconds ≠ unchanged64

instance (t : MsgTimeVal) : Decidable t.Given := by unfold MsgTimeVal.Given; infer_instance

def MsgTimeVal.time (t : MsgTimeVal) : Timespec := TimeVal.toTimespec ⟨t.seconds, t.useconds⟩

namespace Attributes

theorem setsTimes_iff (a : Attributes) : a.setsTimes ↔ a.atime.Given ∧ a.mtime.Given :=
  and_assoc.symm

def modeFor (a : Attributes) (x : Inode) : Nat :=
  if a.mode = unchanged32 then x.attr.perm else a.mode % 4096

/-- The size is not given, or it is what it was. -/
def KeepsSize (a : Attributes) (x : Inode) : Prop := a.size = unchanged64 ∨ x.content.size = a.size

instance (a : Attributes) (x : Inode) : Decidable (a.KeepsSize x) := by
  unfold KeepsSize; infer_instance

/-- The modification time after `truncate`, called at `now` or not at all. -/
def mtimeFor (a : Attributes) (now : Timespec) (x : Inode) : Timespec :=
  if a.KeepsSize x then x.attr.mtime else now

/-- The time at which `truncate` is called. -/
def truncatedAt (a : Attributes) (w : World) : Timespec :=
  (w.wait (a.modeSetting.length + 1)).machine.here.now

end Attributes

/-- The object `y` has the attributes that are given, and for the rest those of `x`. The
modification time may be another one where the size is. -/
structure DoesAsked (a : Attributes) (x y : Inode) : Prop where
  mode : y.attr.perm = a.modeFor x
  uid : y.attr.uid = if a.uid = unchanged32 then x.attr.uid else a.uid
  gid : y.attr.gid = if a.gid = unchanged32 then x.attr.gid else a.gid
  size : y.content.size = if a.size = unchanged64 then x.content.size else a.size
  atime : y.attr.atime = if a.atime.Given then a.atime.time else x.attr.atime
  mtime : a.mtime.Given → y.attr.mtime = a.mtime.time
  mtime_kept : ¬a.mtime.Given → a.KeepsSize x → y.attr.mtime = x.attr.mtime

/-! ## What the calls do -/

/-- The object `y` is what the calls make of `x`. -/
structure SetTo (a : Attributes) (now : Timespec) (x y : Inode) : Prop where
  mode : y.attr.perm = dropSetId x.content.isDir (a.modeFor x)
  uid : y.attr.uid = if a.uid = unchanged32 then x.attr.uid else a.uid
  gid : y.attr.gid = if a.gid = unchanged32 then x.attr.gid else a.gid
  size : y.content.size = if a.size = unchanged64 then x.content.size else a.size
  atime : y.attr.atime = if a.setsTimes then a.atime.time else x.attr.atime
  mtime : y.attr.mtime = if a.setsTimes then a.mtime.time else a.mtimeFor now x

section Calls

variable {a : Attributes} {w : World} {x : Inode}

theorem applied_modeSetting (h : GoThrough x.content.format a.modeSetting w) :
    ∃ ctime, applied a.modeSetting w x =
      { x with attr := { x.attr with perm := a.modeFor x, ctime := ctime } } := by
  rw [show applied a.modeSetting w x = _ from applied_ite h]
  unfold Attributes.modeFor
  by_cases hGiven : a.mode ≠ unchanged32
  · rw [if_pos hGiven, if_neg hGiven]
    exact ⟨w.machine.here.now, rfl⟩
  · rw [if_neg hGiven, if_pos (not_not.mp hGiven)]
    exact ⟨x.attr.ctime, rfl⟩

theorem length_resize (n : Nat) (data : Bytes) : (resize n data).length = n := by
  unfold resize
  rw [List.length_append, List.length_take, List.length_replicate]
  omega

/-- The size of a regular file can be set. -/
theorem size_apply {n : Nat} (t : Timespec) (h : (Setting.size n).Accepts x.content.format) :
    ((Setting.size n).apply t x).content.size = n := by
  obtain ⟨content, attr⟩ := x
  cases content with
  | regular data => exact length_resize n data
  | directory | symlink => cases h.1
  | special kind => cases kind <;> cases h.1

theorem applied_sizeSetting (h : GoThrough x.content.format a.sizeSetting w) :
    ∃ ctime, (applied a.sizeSetting w x).attr =
        { x.attr with mtime := a.mtimeFor w.machine.here.now x, ctime := ctime } ∧
      (applied a.sizeSetting w x).content.size =
        if a.size = unchanged64 then x.content.size else a.size := by
  rw [show applied a.sizeSetting w x = _ from applied_ite h]
  unfold Attributes.mtimeFor
  unfold Attributes.sizeSetting at h
  by_cases hGiven : a.size ≠ unchanged64
  · rw [if_pos hGiven] at h
    rw [if_pos hGiven, if_neg hGiven, size_apply _ h.1.1]
    -- a size that stays the same leaves the times alone
    by_cases hSame : x.content.size = a.size
    · rw [if_pos (show a.KeepsSize x from Or.inr hSame)]
      exact ⟨x.attr.ctime, if_pos hSame, rfl⟩
    · rw [if_neg fun hKeeps => hKeeps.elim hGiven hSame]
      exact ⟨w.machine.here.now, if_neg hSame, rfl⟩
  · rw [if_neg hGiven, if_pos (not_not.mp hGiven),
      if_pos (show a.KeepsSize x from Or.inl (not_not.mp hGiven))]
    exact ⟨x.attr.ctime, rfl, rfl⟩

theorem applied_timesSetting (h : GoThrough x.content.format a.timesSetting w) :
    ∃ ctime, applied a.timesSetting w x = { x with attr := { x.attr with
      atime := if a.setsTimes then a.atime.time else x.attr.atime
      mtime := if a.setsTimes then a.mtime.time else x.attr.mtime
      ctime := ctime } } := by
  rw [show applied a.timesSetting w x = _ from applied_ite h]
  split
  · exact ⟨w.machine.here.now, rfl⟩
  · exact ⟨x.attr.ctime, rfl⟩

/-- **All calls together.** The first two and the last leave the bytes alone. -/
theorem setTo_applied (h : GoThrough x.content.format a.settings w) :
    SetTo a (a.truncatedAt w) x (applied a.settings w x) := by
  unfold Attributes.settings Attributes.initial at h ⊢
  obtain ⟨hMode, hOwner, hRest⟩ := goThrough_append.mp h
  obtain ⟨hSize, hTimes⟩ := goThrough_append.mp hRest
  -- `x₁`, `x₂` and `x₃` are the object after the first, the second and the third call
  obtain ⟨t₁, hx₁⟩ := applied_modeSetting hMode
  let v := w.wait a.modeSetting.length
  let x₁ : Inode := { x with attr := { x.attr with perm := a.modeFor x, ctime := t₁ } }
  let x₂ : Inode := (Setting.owner a.uid a.gid).apply v.machine.here.now x₁
  have hSize : GoThrough x₂.content.format a.sizeSetting (v.wait 1) := hSize
  obtain ⟨t₃, hAttr₃, hSize₃⟩ := applied_sizeSetting hSize
  have hTimes : GoThrough (applied a.sizeSetting (v.wait 1) x₂).content.format a.timesSetting
      ((v.wait 1).wait a.sizeSetting.length) := by
    rw [format_applied]
    exact hTimes
  obtain ⟨t₄, hx₄⟩ := applied_timesSetting hTimes
  have hAll : applied (a.modeSetting ++ Setting.owner a.uid a.gid ::
      (a.sizeSetting ++ a.timesSetting)) w x =
      applied a.timesSetting ((v.wait 1).wait a.sizeSetting.length)
        (applied a.sizeSetting (v.wait 1) x₂) := by
    rw [applied_append hMode, hx₁]
    exact (applied_cons (x := x₁) hOwner).trans (applied_append hSize)
  rw [hAll, hx₄]
  -- of `x₃` only the attributes and the size are known, which is all that counts
  generalize applied a.sizeSetting (v.wait 1) x₂ = x₃ at hAttr₃ hSize₃
  obtain ⟨content, attr⟩ := x₃
  obtain rfl : attr = _ := hAttr₃
  exact ⟨rfl, rfl, rfl, hSize₃, rfl, rfl⟩

end Calls

/-! ## Asking and getting -/

/-- What the request asks for is not lost on the way. -/
structure AskedStays (a : Attributes) (now : Timespec) (x : Inode) : Prop where
  /-- The new mode of a file, or the old one that should stay, has no bits for `chown` to take. -/
  setId : x.content.isDir = false → ¬losesSetId (a.modeFor x)
  /-- A time that is given alone is there already. -/
  atime : a.atime.Given → ¬a.mtime.Given → x.attr.atime = a.atime.time
  mtime : a.mtime.Given → ¬a.atime.Given → a.mtimeFor now x = a.mtime.time

theorem dropSetId_eq_iff {isDir : Bool} {perm : Nat} :
    dropSetId isDir perm = perm ↔ (isDir = false → ¬losesSetId perm) := by
  cases isDir with
  | true => exact iff_of_true rfl fun h => by cases h
  | false => rw [dropSetId_eq_self_iff, imp_iff_right rfl]

theorem doesAsked_iff {a : Attributes} {now : Timespec} {x y : Inode} (h : SetTo a now x y) :
    DoesAsked a x y ↔ AskedStays a now x := by
  have hTimes := a.setsTimes_iff
  constructor
  · intro hAsked
    -- a time that is given alone is not set, so it must have been there
    refine ⟨dropSetId_eq_iff.mp (h.mode.symm.trans hAsked.mode), ?_, ?_⟩
    · intro hGiven hNot
      have hGot := hAsked.atime
      rwa [h.atime, if_neg fun hSets => hNot (hTimes.mp hSets).2, if_pos hGiven] at hGot
    · intro hGiven hNot
      have hGot := hAsked.mtime hGiven
      rwa [h.mtime, if_neg fun hSets => hNot (hTimes.mp hSets).1] at hGot
  · intro hStays
    -- the mode and the times are what can go wrong
    refine ⟨h.mode.trans (dropSetId_eq_iff.mpr hStays.setId), h.uid, h.gid, h.size, ?_, ?_, ?_⟩
    · rw [h.atime]
      by_cases hAtime : a.atime.Given
      · rw [if_pos hAtime]
        split
        · rfl
        · next hNot => exact hStays.atime hAtime fun hMtime => hNot (hTimes.mpr ⟨hAtime, hMtime⟩)
      · rw [if_neg hAtime, if_neg fun hSets => hAtime (hTimes.mp hSets).1]
    · intro hMtime
      rw [h.mtime]
      split
      · rfl
      · next hNot => exact hStays.mtime hMtime fun hAtime => hNot (hTimes.mpr ⟨hAtime, hMtime⟩)
    · intro hMtime hKeeps
      rw [h.mtime, if_neg fun hSets => hMtime (hTimes.mp hSets).2]
      exact if_pos hKeeps

section Request

variable {w : World} {cred : Credential} {args : SAttrArgs} {i : Ino} {a : Attributes}
  {p : Path} {f : Ino} {x : Inode}

/-- A request answered with success has set the attributes of the object that its handle is
for, and replies with those that the object has now. -/
theorem setTo_of_isOk (hArgs : args.decode = some (i, a)) (hView : w.view i = some p)
    (hLookup : w.fs.lookup false p = .ok f) (hInode : w.fs.inode f = some x)
    (hLink : x.content.format ≠ .lnk) (hOk : (w.answer cred (.setattr args)).isOk = true) :
    ∃ y st, (w.afterRequest cred (.setattr args)).fs.inode f = some y ∧
      SetTo a (a.truncatedAt (w.wait (settingCalls cred a))) x y ∧
      (w.afterRequest cred (.setattr args)).fs.lstat w.host p = .ok st ∧ st.ino = f ∧
      w.answer cred (.setattr args) = .attrStat (.ok (fattrOfStat st)) := by
  -- the request has come as far as its calls, or it would have been refused
  have hReached : ∃ a p f x, SetsOn w cred args a p f x := by
    by_contra hNot
    rw [(setattr_of_not_setsOn hNot).1] at hOk
    cases hOk
  obtain ⟨a', p', f', x', hSets⟩ := hReached
  obtain ⟨i', hArgs', hView'⟩ := hSets.found
  cases hArgs.symm.trans hArgs'
  cases hView.symm.trans hView'
  cases (lookup_of_format hLookup hInode hLink).symm.trans hSets.lookup
  cases hInode.symm.trans hSets.inode
  obtain ⟨fs', hFs, hTouched, hAfter, hReply, hFailed⟩ := setattr_of_setsOn hSets
  have hFinishes : SetFinishes w cred a p x := by
    by_contra hNot
    rw [hFailed hNot] at hOk
    cases hOk
  obtain ⟨st, hStat, hAnswer⟩ := hReply hFinishes
  have hIno : st.ino = f := by
    have hFound := (FileSystem.lstat_ok hStat).1
    rw [hTouched.names.lookup, hLookup] at hFound
    exact (Except.ok.inj hFound).symm
  rw [hFs]
  exact ⟨_, st, hAfter, setTo_applied hFinishes.set, hStat, hIno, hAnswer⟩

/-- **SETATTR does what was asked** if and only if what was asked for is not lost on the way:
the set-id bits, of a request that is answered with success, to `chown`, and a time that is given
without the other to the rule that the two are set together. -/
theorem setattr_does_asked_iff (hArgs : args.decode = some (i, a)) (hView : w.view i = some p)
    (hLookup : w.fs.lookup false p = .ok f) (hInode : w.fs.inode f = some x)
    (hLink : x.content.format ≠ .lnk) :
    ((w.answer cred (.setattr args)).isOk = true →
      ∃ y, (w.afterRequest cred (.setattr args)).fs.inode f = some y ∧ DoesAsked a x y) ↔
    ((w.answer cred (.setattr args)).isOk = true →
      AskedStays a (a.truncatedAt (w.wait (settingCalls cred a))) x) := by
  refine forall_congr' fun hOk => ?_
  obtain ⟨y, st, hAfter, hSetTo, -⟩ := setTo_of_isOk hArgs hView hLookup hInode hLink hOk
  rw [← doesAsked_iff hSetTo]
  constructor
  · rintro ⟨y', hAfter', hAsked⟩
    cases hAfter.symm.trans hAfter'
    exact hAsked
  · intro hAsked
    exact ⟨y, hAfter, hAsked⟩

end Request

/-- A new mode for the directory `/exp`. -/
theorem setattr_does_asked_exp :
    let w := Sample.world.step Sample.mount
    let r := Sample.setattr 2 { Sample.unchanged with mode := 0o755 }
    ∃ x y a, w.fs.inode 2 = some x ∧ a.mode = 0o755 ∧
      (w.afterRequest (.authSys Sample.caller) r).fs.inode 2 = some y ∧ DoesAsked a x y := by
  intro w r
  let a : Attributes :=
    ⟨0o755, unchanged32, unchanged32, unchanged64, ⟨unchanged64, unchanged64⟩,
      ⟨unchanged64, unchanged64⟩⟩
  have hDir : (w.fs.inode 2).map (·.content.isDir) = some true := by decide +kernel
  have hFormat : (w.fs.inode 2).map (·.content.format) = some .dir := by decide +kernel
  obtain ⟨x, hx, hIsDir⟩ := Option.map_eq_some_iff.mp hDir
  rw [hx] at hFormat
  -- a directory keeps its bits, and no time is given
  have hStays : AskedStays a (a.truncatedAt (w.wait (settingCalls (.authSys Sample.caller) a))) x :=
    ⟨fun h => absurd (hIsDir.symm.trans h) (by simp), fun h => absurd rfl h.1,
      fun h => absurd rfl h.1⟩
  obtain ⟨y, hy, hAsked⟩ : ∃ y, (w.afterRequest (.authSys Sample.caller) r).fs.inode 2 = some y ∧
      DoesAsked a x y :=
    (setattr_does_asked_iff (i := 2) (p := bytes "/exp") rfl (by decide +kernel) (by decide +kernel)
      hx (by simp [Option.some.inj hFormat])).mpr (fun _ => hStays) (by decide +kernel)
  exact ⟨x, y, a, hx, rfl, hy, hAsked⟩

/-- **Two requests that are answered with success and do not do what they ask for.** A client
has made a file of its own. The set-user-id bit of a new mode is not set, and an access
time that is given alone is not set either. -/
theorem setattr_not_asked :
    let w := (Sample.world.step Sample.mount).step
      (Sample.request (.create (Sample.newFile 2 "new" 1000)))
    let setUid := Sample.setattr 26 { Sample.unchanged with mode := 0o4755 }
    let setAtime := Sample.setattr 26 { Sample.unchanged with atime := some ⟨5, 0⟩ }
    let after (r : Request) := (w.afterRequest (.authSys Sample.caller) r).fs
    (w.answer (.authSys Sample.caller) setUid).isOk = true ∧
      ((after setUid).inode 26).map (·.attr.perm) = some 0o755 ∧
      (w.answer (.authSys Sample.caller) setAtime).isOk = true ∧
      ((after setAtime).inode 26).map (·.attr.atime) = some ⟨0, 0⟩ := by
  decide +kernel

end QuicNfs.Server

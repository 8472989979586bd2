import QuicNfs.Server.AskedAttributes
import QuicNfs.Server.Service

/-!
# QuicNfs — times that are sent back

GETATTR and SETATTR do not agree on the second field of a time: the one puts nanoseconds
there, the other takes what is there for microseconds. A time that a client sends back as it
got it lies a thousand times as far into its second as before, or is refused.

* `World.TimesReturn` — the times that GETATTR reports can be sent back, and nothing changes;
* `timesReturn_iff` — that is so for whole seconds only;
* `reported_eq_sent_iff` — and so it is the other way round, for times that are sent and then
  reported;
* `times_round_trip_iff` — both together.
-/

namespace QuicNfs.Kernel

/-- The same time, as far as microseconds can tell. -/
structure Timespec.SameMicros (s t : Timespec) : Prop where
  sec : s.sec = t.sec
  micros : s.nsec / 1000 = t.nsec / 1000

theorem Timespec.SameMicros.refl (t : Timespec) : t.SameMicros t := ⟨rfl, rfl⟩

theorem FileSystem.times_of_lstat {fs : FileSystem} {host : Host} {p : Path} {st : Stat} {x : Inode}
    (h : fs.lstat host p = .ok st) (hx : fs.inode st.ino = some x) :
    st.atime = x.attr.atime ∧ st.mtime = x.attr.mtime := by
  have hStat : fs.stat host st.ino = .ok st := by
    unfold lstat at h
    rwa [(lstat_ok h).1] at h
  unfold stat at hStat
  rw [hx] at hStat
  have hEq := Except.ok.inj hStat
  exact ⟨(congrArg Stat.atime hEq).symm, (congrArg Stat.mtime hEq).symm⟩

end QuicNfs.Kernel

namespace QuicNfs.Server

open Kernel Lib

/-- Attributes that set nothing but the times. -/
def timesOnly (atime mtime : MsgTimeVal) : SAttr where
  mode := unchanged32
  uid := unchanged32
  gid := unchanged32
  size := unchanged64
  atime := some atime
  mtime := some mtime

/-- GETATTR succeeds, and so does SETATTR with the two times of its reply. The object, `x` before,
has the same times afterwards, to the microsecond. -/
def World.TimesReturn (w : World) (cred : Credential) (handle : NfsFileHandle) (f : Ino)
    (x : Inode) : Prop :=
  ∃ fattr, w.answer cred (.getattr ⟨some handle⟩) = .attrStat (.ok fattr) ∧
    let w' := w.afterRequest cred (.getattr ⟨some handle⟩)
    let r := Request.setattr ⟨some ⟨some handle⟩, some (timesOnly fattr.atime fattr.mtime)⟩
    (w'.answer cred r).isOk = true ∧ ∃ y, (w'.afterRequest cred r).fs.inode f = some y ∧
      y.attr.atime.SameMicros x.attr.atime ∧ y.attr.mtime.SameMicros x.attr.mtime

/-! ## In a quiet world -/

/-- Nothing but the values that are set can make a call fail. -/
theorem Quiet.goThrough_iff {w : World} (hw : Quiet w) {format : Format} {ss : List Setting} :
    GoThrough format ss w ↔ ∀ s ∈ ss, s.Accepts format := by
  induction ss generalizing w with
  | nil => simp [GoThrough]
  | cons s ss ih =>
    unfold GoThrough
    rw [ih (hw.wait 1), List.forall_mem_cons, and_iff_left hw.clear]

section Times

variable {w : World} {cred : Credential} {i : Ino} {p : Path} {f : Ino} {x : Inode}
  {a : Attributes}

/-- The request gives no attribute but the times. -/
structure Attributes.OnlyTimes (a : Attributes) : Prop where
  mode : a.mode = unchanged32
  uid : a.uid = unchanged32
  gid : a.gid = unchanged32
  size : a.size = unchanged64

/-- `utimes` refuses a million microseconds. -/
theorem Attributes.OnlyTimes.accepts_iff (ha : a.OnlyTimes) {format : Format} :
    (∀ s ∈ a.settings, s.Accepts format) ↔
      (a.setsTimes → a.atime.useconds < 1000000 ∧ a.mtime.useconds < 1000000) := by
  have hMode : a.modeSetting = [] := if_neg (not_not.mpr ha.mode)
  have hSize : a.sizeSetting = [] := if_neg (not_not.mpr ha.size)
  unfold Attributes.settings Attributes.initial Attributes.timesSetting
  rw [hMode, hSize, List.nil_append, List.nil_append, List.forall_mem_cons,
    and_iff_right (show (Setting.owner a.uid a.gid).Accepts format from trivial)]
  split
  · next hSets =>
    rw [List.forall_mem_singleton, imp_iff_right hSets]
    exact Iff.rfl
  · next hNot => exact iff_of_true (by simp) fun hSets => absurd hSets hNot

/-- **SETATTR with the times alone**, of an object that the caller may write to. -/
theorem setattr_onlyTimes (hw : Quiet w) (hView : w.view i = some p)
    (hLookup : w.fs.lookup false p = .ok f) (hInode : w.fs.inode f = some x)
    (hLink : x.content.format ≠ .lnk) (hPermitted : permitted w.fs cred .write f = true)
    {args : SAttrArgs} (hArgs : args.decode = some (i, a)) (ha : a.OnlyTimes) :
    ((w.answer cred (.setattr args)).isOk = true ↔
      (a.setsTimes → a.atime.useconds < 1000000 ∧ a.mtime.useconds < 1000000)) := by
  have hMay : MaySet w cred p a :=
    ⟨fun _ _ _ => ⟨ha.uid, ha.gid⟩, fun _ _ _ _ => ⟨hw.clear, f, hLookup, hPermitted⟩⟩
  have hSets : SetsOn w cred args a p f x :=
    ⟨⟨i, hArgs, hView⟩, hMay, lookup_of_format hLookup hInode hLink, hInode⟩
  -- where no call fails for a reason of its own, the values decide
  have hFinishes : SetFinishes w cred a p x ↔
      (a.setsTimes → a.atime.useconds < 1000000 ∧ a.mtime.useconds < 1000000) := by
    rw [← ha.accepts_iff, ← (hw.wait _).goThrough_iff]
    exact ⟨fun h => h.set, fun h => ⟨h, ⟨f, hLookup⟩, (hw.wait _).describes⟩⟩
  obtain ⟨fs', -, -, -, hOk, hFailed⟩ := setattr_of_setsOn hSets
  rw [← hFinishes]
  constructor
  · intro hAnswer
    by_contra hNot
    rw [hFailed hNot] at hAnswer
    cases hAnswer
  · intro h
    obtain ⟨st, -, hAnswer⟩ := hOk h
    rw [hAnswer]
    rfl

/-! ## There and back -/

/-- A time that was reported in nanoseconds and set in microseconds. -/
theorem sameMicros_time_iff {t : Timespec} : (toMsgTimeVal t).time.SameMicros t ↔ t.nsec = 0 := by
  constructor
  · intro h
    have hMicros : t.nsec * 1000 / 1000 = t.nsec / 1000 := h.micros
    omega
  · intro h
    have hMicros : t.nsec * 1000 / 1000 = t.nsec / 1000 := by omega
    exact ⟨rfl, hMicros⟩

/-- The times that GETATTR reports, as a request to set them. -/
def sentBack (x : Inode) : Attributes where
  mode := unchanged32
  uid := unchanged32
  gid := unchanged32
  size := unchanged64
  atime := toMsgTimeVal x.attr.atime
  mtime := toMsgTimeVal x.attr.mtime

/-- What becomes of an object whose times are sent back. -/
theorem setTo_sentBack {now : Timespec} {y : Inode} (h : SetTo (sentBack x) now x y) :
    y.attr.atime.SameMicros x.attr.atime ∧ y.attr.mtime.SameMicros x.attr.mtime ↔
      ((sentBack x).setsTimes → x.attr.atime.nsec = 0 ∧ x.attr.mtime.nsec = 0) := by
  have hKeeps : (sentBack x).mtimeFor now x = x.attr.mtime := if_pos (Or.inl rfl)
  rw [h.atime, h.mtime, hKeeps]
  by_cases hSets : (sentBack x).setsTimes
  · rw [if_pos hSets, if_pos hSets, imp_iff_right hSets]
    exact and_congr sameMicros_time_iff sameMicros_time_iff
  · rw [if_neg hSets, if_neg hSets]
    exact iff_of_true ⟨.refl _, .refl _⟩ fun h => absurd h hSets

/-- **Times that are reported and then sent** are the same afterwards if they are whole
seconds, or if they look to SETATTR as if they were not given. -/
theorem timesReturn_iff {handle : NfsFileHandle} (hw : Quiet w)
    (hView : w.view handle.inodeNumber = some p)
    (hLookup : w.fs.lookup false p = .ok f) (hInode : w.fs.inode f = some x)
    (hLink : x.content.format ≠ .lnk) (hPermitted : permitted w.fs cred .write f = true) :
    w.TimesReturn cred handle f x ↔
      ((sentBack x).setsTimes → x.attr.atime.nsec = 0 ∧ x.attr.mtime.nsec = 0) := by
  obtain ⟨st, hStat, rfl⟩ := FileSystem.lstat_of_lookup w.host hLookup
  obtain ⟨hAtime, hMtime⟩ := FileSystem.times_of_lstat hStat hInode
  have hGetattr : (serve cred (.getattr ⟨some handle⟩)).run w =
      (.attrStat (.ok (fattrOfStat st)), w.wait 5) := by
    show (do return Answer.attrStat (← serveNfsProcedure1GetFileAttributes cred
      ⟨some handle⟩) : Proc Answer).run w = _
    rw [run_return, hw.run_getattr cred hView hStat handle.timestamp]
  have hArgs : SAttrArgs.decode ⟨some ⟨some handle⟩, some (timesOnly (fattrOfStat st).atime
      (fattrOfStat st).mtime)⟩ = some (handle.inodeNumber, sentBack x) := by
    unfold sentBack
    rw [← hAtime, ← hMtime]
    rfl
  unfold World.TimesReturn
  rw [show w.answer cred (.getattr ⟨some handle⟩) = _ from congrArg Prod.fst hGetattr,
    show w.afterRequest cred (.getattr ⟨some handle⟩) = _ from congrArg Prod.snd hGetattr]
  constructor
  · rintro ⟨fattr, hReply, hOk, y, hy, hSame⟩
    cases hReply
    obtain ⟨y', -, hy', hSetTo, -⟩ :=
      setTo_of_isOk (w := w.wait 5) hArgs hView hLookup hInode hLink hOk
    cases hy'.symm.trans hy
    exact (setTo_sentBack hSetTo).mp hSame
  · intro hZero
    -- a whole second is not refused
    have hUsec : (sentBack x).setsTimes →
        (sentBack x).atime.useconds < 1000000 ∧ (sentBack x).mtime.useconds < 1000000 := by
      intro hSets
      obtain ⟨hAtime, hMtime⟩ := hZero hSets
      dsimp only [sentBack, toMsgTimeVal]
      omega
    have hOk := (setattr_onlyTimes (w := w.wait 5) (hw.wait 5) hView hLookup hInode hLink hPermitted
      hArgs ⟨rfl, rfl, rfl, rfl⟩).mpr hUsec
    obtain ⟨y, -, hy, hSetTo, -⟩ :=
      setTo_of_isOk (w := w.wait 5) hArgs hView hLookup hInode hLink hOk
    exact ⟨_, rfl, hOk, y, hy, (setTo_sentBack hSetTo).mpr hZero⟩

theorem toMsgTimeVal_time_iff {t : MsgTimeVal} : toMsgTimeVal t.time = t ↔ t.useconds = 0 := by
  constructor
  · intro h
    have hUseconds : t.useconds * 1000 = t.useconds := congrArg MsgTimeVal.useconds h
    omega
  · intro h
    obtain ⟨seconds, useconds⟩ := t
    obtain rfl : useconds = 0 := h
    exact congrArg (MsgTimeVal.mk seconds) (Nat.zero_mul 1000)

/-- **Times that are sent and then reported** are what was sent if they are whole seconds. -/
theorem reported_eq_sent_iff {args : SAttrArgs} {fattr : FAttr} (hView : w.view i = some p)
    (hLookup : w.fs.lookup false p = .ok f) (hInode : w.fs.inode f = some x)
    (hLink : x.content.format ≠ .lnk) (hArgs : args.decode = some (i, a)) (hSets : a.setsTimes)
    (hAnswer : w.answer cred (.setattr args) = .attrStat (.ok fattr)) :
    fattr.atime = a.atime ∧ fattr.mtime = a.mtime ↔
      a.atime.useconds = 0 ∧ a.mtime.useconds = 0 := by
  have hOk : (w.answer cred (.setattr args)).isOk = true := by
    rw [hAnswer]
    rfl
  obtain ⟨y, st, hy, hSetTo, hStat, rfl, hReply⟩ :=
    setTo_of_isOk hArgs hView hLookup hInode hLink hOk
  obtain ⟨hAtime, hMtime⟩ := FileSystem.times_of_lstat hStat hy
  cases hAnswer.symm.trans hReply
  show toMsgTimeVal st.atime = _ ∧ toMsgTimeVal st.mtime = _ ↔ _
  rw [hAtime, hMtime, hSetTo.atime, hSetTo.mtime, if_pos hSets, if_pos hSets]
  exact and_congr toMsgTimeVal_time_iff toMsgTimeVal_time_iff

/-- **Only whole seconds survive a round trip.** Of every object but a symbolic link: where no
call fails and the caller may write to it, the times that GETATTR reports can be sent back
without a change if and only if they are whole seconds (or one of them looks like none). And the
times reported by a successful SETATTR are those that were given if and only if these
are whole seconds. -/
theorem times_round_trip_iff (cred : Credential) (handle : NfsFileHandle)
    (hView : w.view handle.inodeNumber = some p) (hLookup : w.fs.lookup false p = .ok f)
    (hInode : w.fs.inode f = some x) (hLink : x.content.format ≠ .lnk) :
    (Quiet w → permitted w.fs cred .write f = true →
      (w.TimesReturn cred handle f x ↔
        ((sentBack x).setsTimes → x.attr.atime.nsec = 0 ∧ x.attr.mtime.nsec = 0))) ∧
    ∀ args a fattr, args.decode = some (handle.inodeNumber, a) → a.setsTimes →
      w.answer cred (.setattr args) = .attrStat (.ok fattr) →
      (fattr.atime = a.atime ∧ fattr.mtime = a.mtime ↔
        a.atime.useconds = 0 ∧ a.mtime.useconds = 0) := by
  constructor
  · intro hw hPermitted
    exact timesReturn_iff hw hView hLookup hInode hLink hPermitted
  · intro args a fattr hArgs hSets hAnswer
    exact reported_eq_sent_iff hView hLookup hInode hLink hArgs hSets hAnswer

end Times

/-- The times of the directory `/exp`, which are whole seconds. -/
theorem times_round_trip_exp :
    let w := Sample.world.step Sample.mount
    ∃ x, w.fs.inode 2 = some x ∧ w.TimesReturn (.authSys Sample.caller) ⟨2, 0⟩ 2 x := by
  intro w
  have hTimes : (w.fs.inode 2).map (fun x => (x.content.format, x.attr.atime, x.attr.mtime)) =
      some (.dir, ⟨0, 0⟩, ⟨0, 0⟩) := by decide +kernel
  obtain ⟨x, hx, hTimes⟩ := Option.map_eq_some_iff.mp hTimes
  have hFormat : x.content.format = .dir := congrArg Prod.fst hTimes
  have hAtime : x.attr.atime = ⟨0, 0⟩ := congrArg (·.2.1) hTimes
  have hMtime : x.attr.mtime = ⟨0, 0⟩ := congrArg (·.2.2) hTimes
  have hQuiet : Quiet w := Quiet.step ⟨fun _ => rfl, fun _ => rfl⟩ _
  have hRoundTrip := times_round_trip_iff (w := w) (p := bytes "/exp") (.authSys Sample.caller)
    ⟨2, 0⟩ (by decide +kernel) (by decide +kernel) hx (by rw [hFormat]; simp)
  refine ⟨x, hx, (hRoundTrip.1 hQuiet (by decide +kernel)).mpr fun _ => ?_⟩
  rw [hAtime, hMtime]
  exact ⟨rfl, rfl⟩

/-- **A time that does not survive.** A client sets the times of its file to five seconds and
seven microseconds, and is told that it has set seven thousand. It sends these back, and the
times of the file are others than before. When it sends back what it is told then, the
request fails. -/
theorem times_not_returned :
    let w := (Sample.world.step Sample.mount).step
      (Sample.request (.create (Sample.newFile 2 "new" 1000)))
    let set (useconds : Nat) := Sample.setattr 26 (timesOnly ⟨5, useconds⟩ ⟨5, useconds⟩)
    let times (w : World) := (w.fs.inode 26).map fun x => (x.attr.atime, x.attr.mtime)
    let reported (w : World) (r : Request) := match w.answer (.authSys Sample.caller) r with
      | .attrStat (.ok fattr) => some (fattr.atime, fattr.mtime)
      | _ => none
    let w₁ := w.step (Sample.request (set 7))
    let w₂ := w₁.step (Sample.request (set 7000))
    reported w (set 7) = some (⟨5, 7000⟩, ⟨5, 7000⟩) ∧
      times w₁ = some (⟨5, 7000⟩, ⟨5, 7000⟩) ∧
      reported w₁ (.getattr (Sample.handle 26)) = some (⟨5, 7000⟩, ⟨5, 7000⟩) ∧
      times w₂ = some (⟨5, 7000000⟩, ⟨5, 7000000⟩) ∧
      reported w₂ (.getattr (Sample.handle 26)) = some (⟨5, 7000000⟩, ⟨5, 7000000⟩) ∧
      w₂.answer (.authSys Sample.caller) (set 7000000) = .attrStat .systemErr := by
  decide +kernel

end QuicNfs.Server

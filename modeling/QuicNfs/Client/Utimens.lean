import QuicNfs.Client.Resolution
import QuicNfs.Server.TimesRoundTrip

/-!
# QuicNfs — `utimens`

`nfs_utimens` sends two times with SETATTR, each of them as all ones if it is not to be set.
Two things are lost on the way: the client takes a time for one not to be set if its seconds,
and not only its nanoseconds, are `UTIME_OMIT`, and the server sets both times or none.

* `askedTime` — the time that a file should have afterwards;
* `Sendable` — the times that the client does not take for `UTIME_OMIT`;
* `times_of_setTo` — what becomes of the two times of an object;
* `utimens_iff` — the file has the times asked for if both were sent, or if it has had them
  before.
-/

namespace QuicNfs.Kernel

/-- The time without what a microsecond cannot tell. -/
def Timespec.truncated (t : Timespec) : Timespec := ⟨t.sec, t.nsec / 1000 * 1000⟩

/-- A time that a clock can show. -/
structure Timespec.OfClock (t : Timespec) : Prop where
  sec : t.sec < 2 ^ 63
  nsec : t.nsec < 10 ^ 9

end QuicNfs.Kernel

namespace QuicNfs.Client

open Kernel Server Lib

/-! ## What is asked for -/

/-- A time that may be passed to `utimens`. -/
structure Utime (tv : Timespec) : Prop where
  sec : tv.sec < 2 ^ 63
  nsec : tv.nsec = UTIME_OMIT ∨ tv.nsec = UTIME_NOW ∨ tv.nsec < 10 ^ 9

/-- The time that should be there after `utimens`, called when the clock shows `clock`. -/
def askedTime (tv clock old : Timespec) : Timespec :=
  if tv.nsec = UTIME_OMIT then old
  else if tv.nsec = UTIME_NOW then clock.truncated
  else tv.truncated

/-- The client sends the time. -/
structure Sendable (tv : Timespec) : Prop where
  sec : tv.sec ≠ UTIME_OMIT
  nsec : tv.nsec ≠ UTIME_OMIT

section Sent

variable {tv clock : Timespec}

theorem not_given_of_not_sendable (h : ¬Sendable tv) : ¬(utimensTimeVal tv clock).Given := by
  have hOmit : utimensTimeVal tv clock = ⟨unchanged64, unchanged64⟩ := by
    refine if_pos ?_
    by_contra hNot
    exact h ⟨fun hSec => hNot (.inl hSec), fun hNsec => hNot (.inr hNsec)⟩
  rw [hOmit]
  intro hGiven
  exact hGiven.1 rfl

/-- A time of a clock in microseconds. -/
theorem ofClock_useconds {t : Timespec} (h : t.OfClock) :
    (⟨t.sec, t.nsec / 1000⟩ : MsgTimeVal).Given ∧ t.nsec / 1000 < 1000000 := by
  obtain ⟨hSec, hNsec⟩ := h
  -- seconds below 2^63 and microseconds below 10^6 are never all ones
  unfold MsgTimeVal.Given unchanged64
  dsimp only
  omega

/-- What is sent is the time asked for, and the server takes it for one. -/
theorem utimensTimeVal_of_sendable (h : Sendable tv) (hTv : Utime tv) (hClock : clock.OfClock) :
    (utimensTimeVal tv clock).Given ∧ (utimensTimeVal tv clock).useconds < 1000000 ∧
      ∀ old, (utimensTimeVal tv clock).time = askedTime tv clock old := by
  have hNot : ¬(tv.sec = UTIME_OMIT ∨ tv.nsec = UTIME_OMIT) := by
    rintro (hSec | hNsec)
    · exact h.sec hSec
    · exact h.nsec hNsec
  have hAsked : ∀ old, askedTime tv clock old =
      if tv.nsec = UTIME_NOW then clock.truncated else tv.truncated := fun _ => if_neg h.nsec
  unfold utimensTimeVal
  simp only [hAsked, if_neg hNot]
  by_cases hNow : tv.nsec = UTIME_NOW
  · simp only [if_pos hNow]
    obtain ⟨hGiven, hUseconds⟩ := ofClock_useconds hClock
    exact ⟨hGiven, hUseconds, fun _ => rfl⟩
  · -- neither of the two special values is left
    have hNsec : tv.nsec < 10 ^ 9 := by
      rcases hTv.nsec with hOmit | hIsNow | hLt
      · exact absurd hOmit h.nsec
      · exact absurd hIsNow hNow
      · exact hLt
    simp only [if_neg hNow]
    obtain ⟨hGiven, hUseconds⟩ := ofClock_useconds ⟨hTv.sec, hNsec⟩
    exact ⟨hGiven, hUseconds, fun _ => rfl⟩

end Sent

/-! ## What becomes of it -/

section Set

variable {atime mtime atimeClock mtimeClock : Timespec}

/-- The attributes that `blocking_utimens` asks SETATTR to set. -/
def utimensAttributes (atime mtime atimeClock mtimeClock : Timespec) : Attributes where
  mode := unchanged32
  uid := unchanged32
  gid := unchanged32
  size := unchanged64
  atime := utimensTimeVal atime atimeClock
  mtime := utimensTimeVal mtime mtimeClock

/-- The server sets the times if the client has sent both. -/
theorem setsTimes_iff_sendable (hAtime : Utime atime) (hMtime : Utime mtime)
    (hAtimeClock : atimeClock.OfClock) (hMtimeClock : mtimeClock.OfClock) :
    (utimensAttributes atime mtime atimeClock mtimeClock).setsTimes ↔
      Sendable atime ∧ Sendable mtime := by
  rw [Attributes.setsTimes_iff]
  constructor
  · rintro ⟨hA, hM⟩
    constructor
    · by_contra hNot
      exact not_given_of_not_sendable hNot hA
    · by_contra hNot
      exact not_given_of_not_sendable hNot hM
  · rintro ⟨hA, hM⟩
    exact ⟨(utimensTimeVal_of_sendable hA hAtime hAtimeClock).1,
      (utimensTimeVal_of_sendable hM hMtime hMtimeClock).1⟩

/-- The times are those asked for if both were sent, or if there is nothing to set. -/
theorem times_of_setTo (hAtime : Utime atime) (hMtime : Utime mtime)
    (hAtimeClock : atimeClock.OfClock) (hMtimeClock : mtimeClock.OfClock) {now : Timespec}
    {x y : Inode} (h : SetTo (utimensAttributes atime mtime atimeClock mtimeClock) now x y) :
    y.attr.atime = askedTime atime atimeClock x.attr.atime ∧
        y.attr.mtime = askedTime mtime mtimeClock x.attr.mtime ↔
      Sendable atime ∧ Sendable mtime ∨
        askedTime atime atimeClock x.attr.atime = x.attr.atime ∧
          askedTime mtime mtimeClock x.attr.mtime = x.attr.mtime := by
  have hKeeps : (utimensAttributes atime mtime atimeClock mtimeClock).mtimeFor now x =
      x.attr.mtime := if_pos (.inl rfl)
  have hSets := setsTimes_iff_sendable hAtime hMtime hAtimeClock hMtimeClock
  rw [h.atime, h.mtime, hKeeps]
  -- the server sets both times with one call, or it makes no call
  by_cases hBoth : Sendable atime ∧ Sendable mtime
  · rw [if_pos (hSets.mpr hBoth), if_pos (hSets.mpr hBoth)]
    refine iff_of_true ⟨?_, ?_⟩ (.inl hBoth)
    · exact (utimensTimeVal_of_sendable hBoth.1 hAtime hAtimeClock).2.2 _
    · exact (utimensTimeVal_of_sendable hBoth.2 hMtime hMtimeClock).2.2 _
  · -- one of them was not sent, so that both are as before
    rw [if_neg fun h => hBoth (hSets.mp h), if_neg fun h => hBoth (hSets.mp h)]
    rw [or_iff_right hBoth]
    exact and_congr eq_comm eq_comm

end Set

/-! ## From end to end -/

/-- The way leads to the object `x`, which is not a symbolic link and which the caller may
write to. -/
structure Writable (cred : Credential) (root : Ino) (way : List (Name × Ino))
    (known : Ino → Path) (x : Inode) (w : World) : Prop where
  passable : Passable cred root way known w
  inode : w.fs.inode (destination root way) = some x
  file : x.content.format ≠ .lnk
  permitted : permitted w.fs cred .write (destination root way) = true

section Run

variable {cred : Credential} {root : Ino} {way : List (Name × Ino)} {known : Ino → Path}
  {x : Inode} {w w' : World} {l : Link}

theorem Writable.undisturbed (h : Writable cred root way known x w) (hSame : Undisturbed w w')
    (hView : ∀ x, w'.view x = w.view x ∨ w'.view x = some (known x)) :
    Writable cred root way known x w' where
  passable := h.passable.undisturbed hSame hView
  inode := by rw [hSame.fs]; exact h.inode
  file := h.file
  permitted := by rw [hSame.fs]; exact h.permitted

/-- **`utimens` from end to end.** Let a path lead to a file that the caller may write to, no call
be lost, and the others leave the way and the file alone. Then `nfs_utimens` returns 0, and the
two times are those asked for if and only if the client has sent both, or the file has had
them before. -/
theorem utimens_iff (l : Link) (root : Ino) (way : List (Name × Ino)) (known : Ino → Path)
    (x : Inode) (h : Steady known (Writable l.credential root way known x) l) (path : Bytes)
    (hAbsolute : path.head? = some slash) (hPath : components path = way.map (·.1)) (t : Nat)
    (atime mtime atimeClock mtimeClock : Timespec) (hAtime : Utime atime) (hMtime : Utime mtime)
    (hAtimeClock : atimeClock.OfClock) (hMtimeClock : mtimeClock.OfClock) :
    let utimens := nfsUtimens ⟨root, t⟩ path atime mtime atimeClock mtimeClock
    (utimens.run l).1 = .returns 0 ∧
    ∃ y, (utimens.run l).2.world.fs.inode (destination root way) = some y ∧
      (y.attr.atime = askedTime atime atimeClock x.attr.atime ∧
          y.attr.mtime = askedTime mtime mtimeClock x.attr.mtime ↔
        Sendable atime ∧ Sendable mtime ∨
          askedTime atime atimeClock x.attr.atime = x.attr.atime ∧
            askedTime mtime mtimeClock x.attr.mtime = x.attr.mtime) := by
  intro utimens
  -- LOOKUP by LOOKUP to the file
  obtain ⟨t', ftype, w', c, hResolve, hI, hView⟩ := run_resolveAbsolutePath
    (fun _ hI => hI.passable) (fun _ _ hI => hI.undisturbed) h hAbsolute hPath t
  -- the server as SETATTR finds it
  let link : Link := { l with world := w', calls := c }
  have hSteady : Steady known (Writable l.credential root way known x) link :=
    ⟨hI, h.keep, h.view, h.delivered⟩
  set u := link.before with hu
  have hBefore : Writable l.credential root way known x u := hSteady.before
  have hView : u.view (destination root way) = some (known (destination root way)) :=
    h.view c w' _ hI hView
  let args : SAttrArgs := ⟨some ⟨some ⟨destination root way, t'⟩⟩,
    some (timesOnly (utimensTimeVal atime atimeClock) (utimensTimeVal mtime mtimeClock))⟩
  have hArgs : args.decode = some (destination root way,
      utimensAttributes atime mtime atimeClock mtimeClock) := rfl
  -- it succeeds: what is sent has less than a million microseconds
  have hOk : (u.answer l.credential (.setattr args)).isOk = true := by
    refine (setattr_onlyTimes hBefore.passable.quiet hView hBefore.passable.lookup hBefore.inode
      hBefore.file hBefore.permitted hArgs ⟨rfl, rfl, rfl, rfl⟩).mpr fun hSets => ?_
    obtain ⟨hA, hM⟩ := (setsTimes_iff_sendable hAtime hMtime hAtimeClock hMtimeClock).mp hSets
    exact ⟨(utimensTimeVal_of_sendable hA hAtime hAtimeClock).2.1,
      (utimensTimeVal_of_sendable hM hMtime hMtimeClock).2.1⟩
  -- and what it leaves is known from its success alone
  obtain ⟨y, st, hAfter, hSetTo, -, -, hAnswer⟩ := setTo_of_isOk hArgs hView
    hBefore.passable.lookup hBefore.inode hBefore.file hOk
  have hServe : (serveNfsProcedure2SetFileAttributes l.credential args).run u =
      (.ok (fattrOfStat st), u.afterRequest l.credential (.setattr args)) := by
    rw [World.answer, serve, run_return] at hAnswer
    rw [World.afterRequest, serve, run_return]
    exact Prod.ext (Answer.attrStat.inj hAnswer) rfl
  have hRun : utimens.run l =
      (.returns 0, link.served (u.afterRequest l.credential (.setattr args))) := by
    show (nfsUtimens ⟨root, t⟩ path atime mtime atimeClock mtimeClock).run l = _
    unfold nfsUtimens
    rw [Prog.run_bind, hResolve]
    exact run_stub (l := link) (h.delivered c) rfl (fun _ => rfl) hServe _
  rw [hRun]
  exact ⟨rfl, y, hAfter, times_of_setTo hAtime hMtime hAtimeClock hMtimeClock hSetTo⟩

end Run

namespace Sample

/-- The times of the file `a/f` after `utimens`, and what it returns. -/
def utimensOfFile (atime mtime : Timespec) : Outcome × Option (Timespec × Timespec) :=
  let (outcome, l) := (nfsUtimens ⟨2, 0⟩ (bytes "/a/f") atime mtime ⟨9, 9⟩ ⟨9, 9⟩).run link
  (outcome, (l.world.fs.inode 4).map fun y => (y.attr.atime, y.attr.mtime))

theorem steady_link {x : Inode} (hInode : mounted.fs.inode 4 = some x)
    (hFile : x.content.format ≠ .lnk) :
    Steady knownAs (Writable Server.Sample.root 2 wayToFile knownAs x) link where
  now := ⟨passable_mounted, hInode, hFile, by decide +kernel⟩
  keep _ _ h := h
  view _ _ _ _ h := h
  delivered _ := rfl

end Sample

/-- Both times are given, the one as five seconds and some, the other as that of the clock. -/
theorem utimens_both_given :
    ∃ y, ((nfsUtimens ⟨2, 0⟩ (bytes "/a/f") ⟨5, 7777⟩ ⟨0, UTIME_NOW⟩ ⟨9, 9⟩ ⟨9, 9999⟩).run
        Sample.link).2.world.fs.inode 4 = some y ∧
      y.attr.atime = ⟨5, 7000⟩ ∧ y.attr.mtime = ⟨9, 9000⟩ := by
  have hFile : (Sample.mounted.fs.inode 4).map (·.content.format) = some .reg := by decide +kernel
  obtain ⟨x, hInode, hFormat⟩ := Option.map_eq_some_iff.mp hFile
  obtain ⟨-, y, hAfter, hTimes⟩ := utimens_iff Sample.link 2 Sample.wayToFile Sample.knownAs x
    (Sample.steady_link hInode (by rw [hFormat]; simp)) (bytes "/a/f") rfl (by decide) 0 ⟨5, 7777⟩
    ⟨0, UTIME_NOW⟩ ⟨9, 9⟩ ⟨9, 9999⟩ ⟨by decide, by decide⟩ ⟨by decide, by decide⟩
    ⟨by decide, by decide⟩ ⟨by decide, by decide⟩
  obtain ⟨hAtime, hMtime⟩ := hTimes.mpr (.inl ⟨⟨by decide, by decide⟩, ⟨by decide, by decide⟩⟩)
  exact ⟨y, hAfter, hAtime, hMtime⟩

/-- **Times that are not set.** The times of the file are both 0. A client asks for an access time
and omits the other, and nothing is set. It asks for two times, the one with as many
seconds as `UTIME_OMIT` is a number, and nothing is set. `nfs_utimens` returns 0 either way. -/
theorem utimens_not_set :
    (Sample.mounted.fs.inode 4).map (fun x => (x.attr.atime, x.attr.mtime)) =
        some (⟨0, 0⟩, ⟨0, 0⟩) ∧
      Sample.utimensOfFile ⟨5, 0⟩ ⟨0, UTIME_OMIT⟩ = (.returns 0, some (⟨0, 0⟩, ⟨0, 0⟩)) ∧
      Sample.utimensOfFile ⟨UTIME_OMIT, 0⟩ ⟨5, 0⟩ = (.returns 0, some (⟨0, 0⟩, ⟨0, 0⟩)) ∧
      Sample.utimensOfFile ⟨UTIME_OMIT + 1, 0⟩ ⟨5, 0⟩ =
        (.returns 0, some (⟨UTIME_OMIT + 1, 0⟩, ⟨5, 0⟩)) := by
  decide +kernel

end QuicNfs.Client

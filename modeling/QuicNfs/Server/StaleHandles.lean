import QuicNfs.Server.Issuing

/-!
# QuicNfs — handles of objects that are gone

A handle carries an inode number and the time at which it was made. The server
compares the number and never the time, so that a handle is as good as any other
with its number.

* `Inert` — no request that carries the handle is carried out or changes a file;
* `Quiet.inert_iff` — where the cache is sound, a handle is inert as long as its
  number has no mapping;
* `stale_handle_dead_iff` — once the object of a handle is gone, the handle
  stays inert if and only if no handle with the same number is issued again;
* `stale_handle_revived` — a number that is used again brings a handle of the old
  object back to life.
-/

namespace QuicNfs.Server

open Kernel Lib Option

variable {w : World} {cred : Credential} {r : Request} {handle : NfsFileHandle}

/-! ## Requests that carry a handle -/

def carriedBy (fhandle : Option FHandle) : List NfsFileHandle :=
  (fhandle.bind FHandle.nfsFilehandle).toList

/-- The handles of a request as they are sent, times included. -/
def Request.carried : Request → List NfsFileHandle
  | .mnt _ => []
  | .getattr fhandle => carriedBy (some fhandle)
  | .setattr args => carriedBy args.file
  | .lookup args => carriedBy args.dir
  | .readlink fhandle => carriedBy (some fhandle)
  | .read args => carriedBy args.file
  | .write args => carriedBy args.file
  | .create args => carriedBy (args.location.bind DirOpArgs.dir)
  | .remove args => carriedBy args.dir
  | .rename args =>
    carriedBy (args.source.bind DirOpArgs.dir) ++ carriedBy (args.target.bind DirOpArgs.dir)
  | .link args => carriedBy args.source ++ carriedBy (args.target.bind DirOpArgs.dir)
  | .symlink args => carriedBy (args.source.bind DirOpArgs.dir)
  | .mkdir args => carriedBy (args.location.bind DirOpArgs.dir)
  | .rmdir args => carriedBy args.dir
  | .readdir args => carriedBy args.dir
  | .statfs fhandle => carriedBy (some fhandle)

variable {i : Ino}

theorem carriedBy_file {fhandle : Option FHandle} {f : FHandle} (hFile : fhandle = some f)
    (h : f.decode = some i) : (carriedBy fhandle).map (·.inodeNumber) = [i] := by
  obtain ⟨handle, hHandle, rfl⟩ := map_eq_some_iff.mp h
  simp [carriedBy, hFile, hHandle]

theorem carriedBy_dir {args : DirOpArgs} {n : Bytes} (h : args.decode = some (i, n)) :
    (carriedBy args.dir).map (·.inodeNumber) = [i] := by
  obtain ⟨dir, hDir, h⟩ := bind_eq_some_iff.mp h
  obtain ⟨handle, hHandle, h⟩ := bind_eq_some_iff.mp h
  simp only [bind_eq_bind, bind_eq_some_iff, pure_def, some.injEq, Prod.mk.injEq] at h
  obtain ⟨_, _, _, _, rfl, _⟩ := h
  simp [carriedBy, hDir, hHandle]

/-- The directory of a name that is wrapped once more. -/
theorem carriedBy_location {location : Option DirOpArgs} {args : DirOpArgs} {n : Bytes}
    (hLocation : location = some args) (h : args.decode = some (i, n)) :
    (carriedBy (location.bind DirOpArgs.dir)).map (·.inodeNumber) = [i] := by
  rw [hLocation]
  exact carriedBy_dir h

/-! Arguments that are complete name the numbers of the handles in them. -/

theorem carriedBy_setattr {args : SAttrArgs} {a : Ino × Attributes} (h : args.decode = some a) :
    (carriedBy args.file).map (·.inodeNumber) = [a.1] := by
  obtain ⟨f, hFile, h⟩ := bind_eq_some_iff.mp h
  obtain ⟨handle, hHandle, h⟩ := bind_eq_some_iff.mp h
  obtain ⟨sattr, _, h⟩ := bind_eq_some_iff.mp h
  obtain ⟨attributes, _, h⟩ := bind_eq_some_iff.mp h
  cases some.inj h
  simp [carriedBy, hFile, hHandle]

theorem carriedBy_write {args : WriteArgs} {a : Ino × Bytes} (h : args.decode = some a) :
    (carriedBy args.file).map (·.inodeNumber) = [a.1] := by
  obtain ⟨f, hFile, h⟩ := bind_eq_some_iff.mp h
  obtain ⟨i, hf, h⟩ := bind_eq_some_iff.mp h
  obtain ⟨data, _, h⟩ := bind_eq_some_iff.mp h
  cases some.inj h
  exact carriedBy_file hFile hf

theorem carriedBy_readdir {args : ReadDirArgs} {a : Ino × Nat} (h : args.decode = some a) :
    (carriedBy args.dir).map (·.inodeNumber) = [a.1] := by
  obtain ⟨f, hFile, h⟩ := bind_eq_some_iff.mp h
  obtain ⟨i, hf, h⟩ := bind_eq_some_iff.mp h
  obtain ⟨cookie, _, h⟩ := bind_eq_some_iff.mp h
  cases some.inj h
  exact carriedBy_file hFile hf

theorem carriedBy_create {args : CreateArgs} {a : Ino × Bytes × Attributes}
    (h : args.decode = some a) :
    (carriedBy (args.location.bind DirOpArgs.dir)).map (·.inodeNumber) = [a.1] := by
  obtain ⟨location, hLocation, h⟩ := bind_eq_some_iff.mp h
  obtain ⟨⟨i, n⟩, hDir, h⟩ := bind_eq_some_iff.mp h
  obtain ⟨sattr, _, h⟩ := bind_eq_some_iff.mp h
  obtain ⟨attributes, _, h⟩ := bind_eq_some_iff.mp h
  cases some.inj h
  exact carriedBy_location hLocation hDir

theorem carriedBy_symlink {args : SymLinkArgs} {a : Ino × Bytes × Path} (h : args.decode = some a) :
    (carriedBy (args.source.bind DirOpArgs.dir)).map (·.inodeNumber) = [a.1] := by
  obtain ⟨location, hLocation, h⟩ := bind_eq_some_iff.mp h
  obtain ⟨⟨i, n⟩, hDir, h⟩ := bind_eq_some_iff.mp h
  obtain ⟨target, _, h⟩ := bind_eq_some_iff.mp h
  obtain ⟨path, _, h⟩ := bind_eq_some_iff.mp h
  obtain ⟨sattr, _, h⟩ := bind_eq_some_iff.mp h
  obtain ⟨attributes, _, h⟩ := bind_eq_some_iff.mp h
  cases some.inj h
  exact carriedBy_location hLocation hDir

theorem carriedBy_link {args : LinkArgs} {a : Ino × Ino × Bytes} (h : args.decode = some a) :
    (carriedBy args.source).map (·.inodeNumber) = [a.1] ∧
      (carriedBy (args.target.bind DirOpArgs.dir)).map (·.inodeNumber) = [a.2.1] := by
  obtain ⟨f, hFile, h⟩ := bind_eq_some_iff.mp h
  obtain ⟨k, hf, h⟩ := bind_eq_some_iff.mp h
  obtain ⟨location, hLocation, h⟩ := bind_eq_some_iff.mp h
  obtain ⟨⟨i, n⟩, hDir, h⟩ := bind_eq_some_iff.mp h
  cases some.inj h
  exact ⟨carriedBy_file hFile hf, carriedBy_location hLocation hDir⟩

theorem carriedBy_rename {args : RenameArgs} {a : (Ino × Bytes) × (Ino × Bytes)}
    (h : args.decode = some a) :
    (carriedBy (args.source.bind DirOpArgs.dir)).map (·.inodeNumber) = [a.1.1] ∧
      (carriedBy (args.target.bind DirOpArgs.dir)).map (·.inodeNumber) = [a.2.1] := by
  obtain ⟨source, hSource, h⟩ := bind_eq_some_iff.mp h
  obtain ⟨⟨i, n⟩, hOld, h⟩ := bind_eq_some_iff.mp h
  obtain ⟨target, hTarget, h⟩ := bind_eq_some_iff.mp h
  obtain ⟨⟨i', n'⟩, hNew, h⟩ := bind_eq_some_iff.mp h
  cases some.inj h
  exact ⟨carriedBy_location hSource hOld, carriedBy_location hTarget hNew⟩

/-- A request with a part missing names no handle to the server; otherwise it
names the numbers of those it carries. -/
theorem handles_of_carried (r : Request) :
    r.handles = [] ∨ r.handles = r.carried.map (·.inodeNumber) := by
  rw [or_iff_not_imp_left]
  intro hSome
  cases r with
  | mnt => exact absurd rfl hSome
  | getattr f | readlink f | statfs f =>
    cases hArgs : f.decode with
    | none => simp [Request.handles, hArgs] at hSome
    | some i => simp [Request.handles, Request.carried, hArgs, carriedBy_file rfl hArgs]
  | read args =>
    cases hArgs : args.file.bind FHandle.decode with
    | none => simp [Request.handles, hArgs] at hSome
    | some i =>
      obtain ⟨f, hFile, hf⟩ := bind_eq_some_iff.mp hArgs
      simp [Request.handles, Request.carried, hArgs, carriedBy_file hFile hf]
  | setattr args =>
    cases hArgs : args.decode with
    | none => simp [Request.handles, hArgs] at hSome
    | some a => simp [Request.handles, Request.carried, hArgs, carriedBy_setattr hArgs]
  | write args =>
    cases hArgs : args.decode with
    | none => simp [Request.handles, hArgs] at hSome
    | some a => simp [Request.handles, Request.carried, hArgs, carriedBy_write hArgs]
  | readdir args =>
    cases hArgs : args.decode with
    | none => simp [Request.handles, hArgs] at hSome
    | some a => simp [Request.handles, Request.carried, hArgs, carriedBy_readdir hArgs]
  | lookup args | remove args | rmdir args =>
    cases hArgs : args.decode with
    | none => simp [Request.handles, Request.names, hArgs] at hSome
    | some a =>
      simp [Request.handles, Request.names, Request.carried, hArgs, carriedBy_dir hArgs]
  | create args | mkdir args =>
    cases hArgs : args.decode with
    | none => simp [Request.handles, Request.names, hArgs] at hSome
    | some a =>
      simp [Request.handles, Request.names, Request.carried, hArgs, carriedBy_create hArgs]
  | symlink args =>
    cases hArgs : args.decode with
    | none => simp [Request.handles, Request.names, hArgs] at hSome
    | some a =>
      simp [Request.handles, Request.names, Request.carried, hArgs, carriedBy_symlink hArgs]
  | link args =>
    cases hArgs : args.decode with
    | none => simp [Request.handles, hArgs] at hSome
    | some a => simp [Request.handles, Request.carried, hArgs, carriedBy_link hArgs]
  | rename args =>
    cases hArgs : args.decode with
    | none => simp [Request.handles, Request.names, hArgs] at hSome
    | some a =>
      simp [Request.handles, Request.names, Request.carried, hArgs, carriedBy_rename hArgs]

/-! ## Handles the server does not know -/

/-- No request that carries the handle is carried out, and none changes a file. -/
structure Inert (w : World) (handle : NfsFileHandle) : Prop where
  refused (cred : Credential) (r : Request) :
    handle ∈ r.carried → (w.answer cred r).isOk = false
  unchanged (cred : Credential) (r : Request) :
    handle ∈ r.carried → (w.afterRequest cred r).fs = w.fs

/-- The request was refused and the files are as in `w`. -/
def Refused (w : World) (answer : Answer) (w' : World) : Prop :=
  answer.isOk = false ∧ w'.fs = w.fs

/-- Failing leaves the files alone. -/
theorem failSafe_refused {β : Type} {f : NfsReply β → Answer}
    (hf : ∀ reply, (f reply).isOk = reply.isOk) :
    FailSafe (fun reply w' => Refused w (f reply) w') w :=
  fun reply hReply _ => ⟨(hf reply).trans hReply, rfl⟩

theorem refused_withFile {β : Type} {f : NfsReply β → Answer}
    (hf : ∀ reply, (f reply).isOk = reply.isOk) (h : ¬w.Knows i) (k : Path → Proc (NfsReply β)) :
    Safe .none (fun reply w' => Refused w (f reply) w') (withFile i k) w := by
  refine safe_withFile (failSafe_refused hf) fun p hp => ?_
  rw [World.view_of_not_knows h] at hp
  cases hp

/-- A procedure whose first step is to find the path of a number that is not
known. -/
theorem refused_first {α β : Type} {f : NfsReply β → Answer}
    (hf : ∀ reply, (f reply).isOk = reply.isOk) {args : Option α} {k : α → Proc (NfsReply β)}
    (h : ∀ a, args = some a → ∃ i k', ¬w.Knows i ∧ k a = withFile i k') :
    Safe .none (Refused w) (do return f (← orGarbageArgs args k)) w := by
  refine safe_return (safe_orGarbageArgs (failSafe_refused hf) fun a hArgs => ?_)
  obtain ⟨i, k', hUnknown, hk⟩ := h a hArgs
  rw [hk]
  exact refused_withFile hf hUnknown k'

/-- **A request with an unknown handle is refused**, and so is one with a part
missing. -/
theorem safe_refused (hMnt : ∀ dirpath, r ≠ .mnt dirpath)
    (h : r.handles = [] ∨ ∃ i ∈ r.handles, ¬w.Knows i) :
    Safe .none (Refused w) (serve cred r) w := by
  cases r with
  | mnt dirpath => exact absurd rfl (hMnt dirpath)
  | getattr | readlink | read | statfs =>
    exact refused_first (fun _ => rfl) fun i hArgs =>
      ⟨i, _, by simpa [Request.handles, hArgs] using h, rfl⟩
  | setattr | write | readdir | lookup | remove | rmdir | create | mkdir | symlink =>
    exact refused_first (fun _ => rfl) fun a hArgs =>
      ⟨a.1, _, by simpa [Request.handles, Request.names, hArgs] using h, rfl⟩
  | link args =>
    have hFail := failSafe_refused (w := w) (f := Answer.nfsStat) fun _ => rfl
    refine safe_return (safe_orGarbageArgs hFail fun a hArgs => ?_)
    obtain ⟨k, i, n⟩ := a
    -- the handle of the file is looked at first, then that of the directory
    have hUnknown : ¬w.Knows k ∨ ¬w.Knows i := by simpa [Request.handles, hArgs] using h
    rcases hUnknown with hk | hi
    · exact refused_withFile (fun _ => rfl) hk _
    · refine safe_withFile hFail fun q _ => ?_
      refine safe_withAttributes (fun _ => trivial) hFail fun _ _ => ?_
      split
      · exact safe_err hFail _
      · exact refused_withFile (fun _ => rfl) hi _
  | rename args =>
    have hFail := failSafe_refused (w := w) (f := Answer.nfsStat) fun _ => rfl
    refine safe_return (safe_orGarbageArgs hFail fun a hArgs => ?_)
    obtain ⟨⟨i, n⟩, ⟨i', n'⟩⟩ := a
    have hUnknown : ¬w.Knows i ∨ ¬w.Knows i' := by
      simpa [Request.handles, Request.names, hArgs] using h
    rcases hUnknown with hi | hi'
    · exact refused_withFile (fun _ => rfl) hi _
    · refine safe_withDirectory (fun _ _ _ => trivial) hFail fun p st _ _ _ => ?_
      refine safe_withExisting (fun _ => trivial) hFail fun _ _ => ?_
      exact refused_withFile (fun _ => rfl) hi' _

theorem inert_of_unknown (h : ¬w.Knows handle.inodeNumber) : Inert w handle := by
  have hRefused : ∀ cred r, handle ∈ r.carried →
      Refused w (w.answer cred r) (w.afterRequest cred r) := by
    intro cred r hCarried
    refine Safe.run (safe_refused ?_ ?_)
    · rintro dirpath rfl
      exact absurd hCarried List.not_mem_nil
    · rcases handles_of_carried r with hNone | hHandles
      · exact Or.inl hNone
      · exact Or.inr ⟨_, hHandles ▸ List.mem_map_of_mem hCarried, h⟩
  exact ⟨fun cred r hr => (hRefused cred r hr).1, fun cred r hr => (hRefused cred r hr).2⟩

/-- **A handle is inert as long as its number is not known.** -/
theorem Quiet.inert_iff (hw : Quiet w) (hSound : Sound w.fs w.inodeCache) :
    Inert w handle ↔ ¬w.Knows handle.inodeNumber := by
  refine ⟨fun hInert hKnows => ?_, inert_of_unknown⟩
  -- GETATTR would be answered, whatever time the handle carries
  obtain ⟨st, -, hAnswer⟩ := hw.getattr_of_known hSound hKnows .authNone
  have hNot := hInert.refused .authNone (.getattr ⟨some handle⟩) (by
    simp [Request.carried, carriedBy])
  rw [hAnswer] at hNot
  cases hNot

/-! ## Runs -/

/-- The action issues no handle with the number `i`. -/
def Spares (i : Ino) (w : World) (a : Action) : Prop :=
  (w.issued a).map (·.inodeNumber) ≠ some i

instance (i : Ino) (w : World) (a : Action) : Decidable (Spares i w a) :=
  inferInstanceAs (Decidable ((w.issued a).map (·.inodeNumber) ≠ some i))

/-- A number that is not known becomes known when a handle with it is issued, and
only then. -/
theorem Quiet.knows_step_iff (hw : Quiet w) (hNot : ¬w.Knows i) (a : Action) :
    (w.step a).Knows i ↔ ¬Spares i w a := by
  unfold Spares
  rw [not_not, map_eq_some_iff]
  cases a with
  | cleanUp =>
    refine ⟨fun hKnows => absurd ?_ hNot, fun ⟨handle, hIssued, _⟩ => by cases hIssued⟩
    unfold World.Knows at hKnows ⊢
    rwa [(effect_cleanUp w).2] at hKnows
  | request cred r =>
    constructor
    · exact fun hKnows => hw.issued_of_learned hNot hKnows
    · rintro ⟨handle, hIssued, rfl⟩
      exact hw.knows_of_issued hIssued

/-- From a state in which the number of the handle is not known. -/
theorem Quiet.throughout_inert_iff (hw : Quiet w) (hSound : Sound w.fs w.inodeCache)
    {run : List Action} (hRun : World.Along HandleSafeAction w run)
    (hNot : ¬w.Knows handle.inodeNumber) :
    World.Throughout (Inert · handle) w run ↔ World.Along (Spares handle.inodeNumber) w run := by
  -- by induction over the run: the number stays unknown until it is issued
  induction run generalizing w with
  | nil => exact iff_of_true (inert_of_unknown hNot) trivial
  | cons a run ih =>
    obtain ⟨hSafe, hRun⟩ := hRun
    have hQuiet := hw.step a
    have hSound' := sound_step w a hSound hSafe
    show Inert w handle ∧ _ ↔ Spares handle.inodeNumber w a ∧ _
    by_cases hSpares : Spares handle.inodeNumber w a
    · have hStill : ¬(w.step a).Knows handle.inodeNumber := fun hKnows =>
        (hw.knows_step_iff hNot a).mp hKnows hSpares
      rw [ih hQuiet hSound' hRun hStill]
      exact and_congr_left' (iff_of_true (inert_of_unknown hNot) hSpares)
    · -- the new handle and the old one are the same to the server
      have hKnows := (hw.knows_step_iff hNot a).mpr hSpares
      refine iff_of_false (fun h => ?_) fun h => hSpares h.1
      exact (hQuiet.inert_iff hSound').mp h.2.start hKnows

/-- **A handle of an object that is gone stays dead if and only if its number is
not issued again.** Along every run of requests that the cache can follow, on a
machine where no call fails for a reason of its own: once no object has the
number of the handle, no later request that carries it is carried out or changes
a file, as long as no handle with that number is issued; and the first one that
is makes the old one work again. -/
theorem stale_handle_dead_iff (hFresh : w.Fresh) (hw : Quiet w) {past rest : List Action}
    (hRun : World.Along HandleSafeAction w (past ++ rest))
    (hGone : (w.steps past).fs.inode handle.inodeNumber = none) :
    World.Throughout (Inert · handle) (w.steps past) rest ↔
      World.Along (Spares handle.inodeNumber) (w.steps past) rest := by
  obtain ⟨hPast, hRest⟩ := World.along_append.mp hRun
  have hSound := sound_steps hFresh hPast
  -- a path that leads to an object is not that of one that is gone
  have hNot : ¬(w.steps past).Knows handle.inodeNumber := by
    unfold World.Knows
    rw [hSound.count_of_none hGone]
    exact lt_irrefl 0
  exact (hw.steps past).throughout_inert_iff hSound hRest hNot

/-- A file is made and removed, and other files are made afterwards under numbers
of their own. -/
theorem stale_handle_dead_removed :
    World.Throughout (Inert · ⟨26, 0⟩)
      (Sample.world.steps [Sample.mount, Sample.request (.create (Sample.newFile 2 "new" 1000)),
        Sample.request (.remove (Sample.nameIn 2 "new"))])
      [Sample.request (.create (Sample.newFile 2 "other" 1000)),
        Sample.request (.lookup (Sample.nameIn 2 "a"))] :=
  (@stale_handle_dead_iff Sample.world ⟨26, 0⟩ (World.fresh_boot _ _ _ _)
    ⟨fun _ => rfl, fun _ => rfl⟩ _ _ (by decide +kernel) (by decide +kernel)).mpr
    (by decide +kernel)

/-- The small server on a file system that gives a new object the lowest number
that is free, with a clock that goes on. -/
def Sample.reusing : World :=
  .boot files host (some (bytes "/exp *(rw)\n"))
    fun t => { (default : Circumstance) with ino := 7, now := ⟨t, 0⟩ }

/-- **A handle of a removed file leads to the next one with its number.** The
file `new` is made and removed, then `other` is made and gets the number of the
first. The handles have different times, and the old one reads the attributes
of `other` and writes to it. -/
theorem stale_handle_revived :
    let w₀ := Sample.reusing.steps [Sample.mount]
    let w₁ := w₀.steps [Sample.request (.create (Sample.newFile 2 "new" 1000)),
      Sample.request (.remove (Sample.nameIn 2 "new"))]
    let w₂ := w₁.steps [Sample.request (.create (Sample.newFile 2 "other" 1000))]
    let old : NfsFileHandle := ⟨7, 22⟩
    let new : NfsFileHandle := ⟨7, 54⟩
    Sample.reusing.Fresh ∧ Quiet Sample.reusing ∧
      w₀.issued (Sample.request (.create (Sample.newFile 2 "new" 1000))) = some old ∧
      w₁.fs.inode 7 = none ∧
      w₁.issued (Sample.request (.create (Sample.newFile 2 "other" 1000))) = some new ∧
      w₂.answer (.authSys Sample.caller) (.getattr ⟨some old⟩) =
        w₂.answer (.authSys Sample.caller) (.getattr ⟨some new⟩) ∧
      (w₂.answer (.authSys Sample.caller) (.getattr ⟨some old⟩)).isOk = true ∧
      (w₂.answer (.authSys Sample.caller)
        (.write ⟨some ⟨some old⟩, 0, some (bytes "lost")⟩)).isOk = true :=
  ⟨World.fresh_boot _ _ _ _, ⟨fun _ => rfl, fun _ => rfl⟩, by decide +kernel, by decide +kernel,
    by decide +kernel, by decide +kernel, by decide +kernel, by decide +kernel⟩

end QuicNfs.Server

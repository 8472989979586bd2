import QuicNfs.Server.Server
import QuicNfs.Kernel.FileContent

/-!
# QuicNfs — runs, call by call

The calls that only look leave the world as it is, up to the count of calls
(`World.wait`). A block of a procedure that ends well has therefore made a known
number of calls, and the lemmas here say what the world is after it.

* `run_withAttributes`, `run_withPermission` — what has to hold for a block to go on, and in
  which world it does;
* `World.Clear`, `World.Supplied`, `World.Describes` — the next calls do not fail for a reason
  of their own;
* `Quiet` — a machine on which no call ever does; the blocks go on there as soon as the tree
  lets them.
-/

namespace QuicNfs.Server

open Kernel Lib List FileSystem Prog

variable {α β : Type}
variable {r : Except Errno α} {n : Nat}

namespace World

/-- The world after `n` calls that changed nothing. -/
def wait (w : World) (n : Nat) : World := w.atTick (w.machine.tick + n)

@[simp] theorem fs_wait (w : World) (n : Nat) : (w.wait n).fs = w.fs := rfl
@[simp] theorem inodeCache_wait (w : World) (n : Nat) : (w.wait n).inodeCache = w.inodeCache := rfl

theorem wait_wait (w : World) (m n : Nat) : (w.wait m).wait n = w.wait (m + n) := by
  simp only [wait, atTick, Nat.add_assoc]

/-- What a call that looks gets to see, where the tree says `r`. -/
def sees (w : World) (r : Except Errno α) : Except Errno α := (w.machine.answer r).1

theorem sees_eq_ok {w : World} {a : α} (h : w.sees r = .ok a) : r = .ok a := by
  unfold sees Machine.answer at h
  split at h
  · cases h
  · exact h

/-- The next call does not fail for a reason of its own. -/
def Clear (w : World) : Prop := w.machine.here.fault = none

/-- The next `n` allocations succeed. -/
def Supplied (w : World) (n : Nat) : Prop := ∀ k < n, (w.wait k).machine.here.memory = true

/-- `get_attributes` succeeds now if there is something at its path. -/
structure Describes (w : World) : Prop where
  clear : w.Clear
  supplied : (w.wait 1).Supplied 4

instance (w : World) : Decidable w.Clear := inferInstanceAs (Decidable (_ = _))

instance (w : World) (n : Nat) : Decidable (w.Supplied n) :=
  inferInstanceAs (Decidable (∀ k < n, (w.wait k).machine.here.memory = true))

instance (w : World) : Decidable w.Describes :=
  decidable_of_iff (w.Clear ∧ (w.wait 1).Supplied 4)
    ⟨fun h => ⟨h.1, h.2⟩, fun h => ⟨h.clear, h.supplied⟩⟩

theorem Clear.sees {w : World} (h : w.Clear) (r : Except Errno α) : w.sees r = r := by
  have h : w.machine.here.fault = none := h
  unfold World.sees Machine.answer
  rw [h]

/-- A call that looks and fails for a reason of its own. -/
theorem sees_of_not_clear {w : World} (h : ¬w.Clear) (r : Except Errno α) :
    ∃ f : Fault, w.sees r = .error f.errno := by
  obtain ⟨f, hf⟩ := Option.ne_none_iff_exists'.mp h
  exact ⟨f, by unfold World.sees Machine.answer; rw [hf]⟩

theorem clear_of_sees {w : World} {a : α} (h : w.sees r = .ok a) : w.Clear := by
  by_contra hNot
  obtain ⟨f, hf⟩ := sees_of_not_clear hNot r
  cases hf.symm.trans h

theorem supplied_succ {w : World} :
    w.Supplied (n + 1) ↔ w.machine.here.memory = true ∧ (w.wait 1).Supplied n := by
  constructor
  · intro h
    refine ⟨h 0 (Nat.succ_pos n), fun k hk => ?_⟩
    rw [wait_wait, Nat.add_comm]
    exact h (k + 1) (Nat.succ_lt_succ hk)
  · rintro ⟨hNow, hLater⟩ k hk
    cases k with
    | zero => exact hNow
    | succ k =>
      have hk := hLater k (Nat.lt_of_succ_lt_succ hk)
      rwa [wait_wait, Nat.add_comm] at hk

end World

/-- No call fails for a reason of its own. -/
structure Quiet (w : World) : Prop where
  fault (t : Nat) : (w.machine.env t).fault = none
  memory (t : Nat) : (w.machine.env t).memory = true

theorem Quiet.wait {w : World} (h : Quiet w) (n : Nat) : Quiet (w.wait n) := ⟨h.fault, h.memory⟩

theorem Quiet.withFs {w : World} (h : Quiet w) (fs : FileSystem) : Quiet (w.withFs fs) :=
  ⟨h.fault, h.memory⟩

theorem Quiet.clear {w : World} (h : Quiet w) : w.Clear := h.fault _

theorem Quiet.supplied {w : World} (h : Quiet w) (n : Nat) : w.Supplied n := fun _ _ => h.memory _

theorem Quiet.describes {w : World} (h : Quiet w) : w.Describes := ⟨h.clear, (h.wait 1).supplied 4⟩

theorem Quiet.sees {w : World} (h : Quiet w) (r : Except Errno α) : w.sees r = r := h.clear.sees r

theorem Quiet.step {w : World} (hw : Quiet w) (a : Action) : Quiet (w.step a) := by
  have hEnv := (w.step_frame a).2.1
  exact ⟨fun t => by rw [hEnv]; exact hw.fault t, fun t => by rw [hEnv]; exact hw.memory t⟩

/-- A quiet machine stays quiet. -/
theorem Quiet.steps {w : World} (hw : Quiet w) (run : List Action) : Quiet (w.steps run) := by
  induction run generalizing w with
  | nil => exact hw
  | cons a run ih => exact ih (hw.step a)

/-! ## Single calls -/

/-- A call that looks. -/
theorem run_answer {o : Sys (Except Errno α)} {w : World}
    (h : w.machine.exec o = w.machine.answer r) (k : Except Errno α → Proc β) :
    (sys o >>= k).run w = (k (w.sees r)).run (w.wait 1) := by
  show (k (w.machine.exec o).1).run { w with machine := (w.machine.exec o).2 } = _
  have hNext : (w.machine.answer r).2 = w.machine.next := by
    unfold Machine.answer
    split <;> rfl
  rw [h, hNext]
  rfl

theorem run_lstat (p : Path) (k : Except Errno Kernel.Stat → Proc β) (w : World) :
    (sys (.lstat p) >>= k).run w = (k (w.sees (w.fs.lstat w.host p))).run (w.wait 1) :=
  run_answer rfl k

theorem run_getInodeCache (k : InodeCache → Proc β) (w : World) :
    (call .getInodeCache >>= k).run w = (k w.inodeCache).run w :=
  rfl

theorem run_getReaddirSessions (k : List ReadDirSession → Proc β) (w : World) :
    (call .getReaddirSessions >>= k).run w = (k w.readdirSessions).run w :=
  rfl

/-! ## Blocks -/

theorem run_allocate_succ (n : Nat) (w : World) :
    (allocate (n + 1)).run w =
      (if w.machine.here.memory then allocate n else pure false : Proc Bool).run (w.wait 1) := rfl

theorem run_allocate {w : World} (h : w.Supplied n) : (allocate n).run w = (true, w.wait n) := by
  induction n generalizing w with
  | zero => rfl
  | succ n ih =>
    obtain ⟨hNow, hLater⟩ := World.supplied_succ.mp h
    rw [run_allocate_succ, if_pos hNow, ih hLater, World.wait_wait, Nat.add_comm]

/-- The first allocation that fails is the last one. -/
theorem run_allocate_of_not {w : World} (h : ¬w.Supplied n) :
    ∃ t, (allocate n).run w = (false, w.atTick t) := by
  induction n generalizing w with
  | zero => exact absurd (fun k hk => absurd hk (Nat.not_lt_zero k)) h
  | succ n ih =>
    rw [World.supplied_succ] at h
    rw [run_allocate_succ]
    by_cases hNow : w.machine.here.memory = true
    · rw [if_pos hNow]
      exact ih fun hLater => h ⟨hNow, hLater⟩
    · rw [if_neg hNow]
      exact ⟨w.machine.tick + 1, rfl⟩

theorem run_getAttributes {p : Path} {w : World} {st : Kernel.Stat}
    (hStat : w.fs.lstat w.host p = .ok st) (h : w.Describes) :
    (getAttributes p).run w = (some (fattrOfStat st), w.wait 5) := by
  unfold getAttributes
  rw [run_lstat, h.clear.sees, hStat]
  dsimp only
  rw [run_bind, run_allocate h.supplied, World.wait_wait]
  rfl

theorem run_getAttributes_of_not {p : Path} {w : World}
    (h : ¬((∃ st, w.fs.lstat w.host p = .ok st) ∧ w.Describes)) :
    ∃ t, (getAttributes p).run w = (none, w.atTick t) := by
  unfold getAttributes
  rw [run_lstat]
  cases hSees : w.sees (w.fs.lstat w.host p) with
  | error e => exact ⟨w.machine.tick + 1, rfl⟩
  | ok st =>
    -- the path leads somewhere, so an allocation fails
    have hSupplied : ¬(w.wait 1).Supplied 4 := fun hSupplied =>
      h ⟨⟨st, World.sees_eq_ok hSees⟩, World.clear_of_sees hSees, hSupplied⟩
    obtain ⟨t, ht⟩ := run_allocate_of_not hSupplied
    dsimp only
    rw [run_bind, ht]
    exact ⟨t, rfl⟩

/-- Attributes that were got are those of the tree. -/
theorem getAttributes_eq_some {p : Path} {w : World} {fattr : FAttr}
    (h : ((getAttributes p).run w).1 = some fattr) :
    ∃ st, w.fs.lstat w.host p = .ok st ∧ fattr = fattrOfStat st ∧
      (getAttributes p).run w = (some fattr, w.wait 5) := by
  by_cases hGot : (∃ st, w.fs.lstat w.host p = .ok st) ∧ w.Describes
  · obtain ⟨⟨st, hStat⟩, hDescribes⟩ := hGot
    rw [run_getAttributes hStat hDescribes] at h ⊢
    obtain rfl : fattrOfStat st = fattr := Option.some.inj h
    exact ⟨st, hStat, rfl, rfl⟩
  · obtain ⟨t, ht⟩ := run_getAttributes_of_not hGot
    rw [ht] at h
    cases h

variable {w w' : World} {b : β} {p : Path}

theorem run_withFile_of_cached {i : Ino} {k : Path → Proc (NfsReply β)}
    (hPath : w.inodeCache.getAbsolutePathFromInodeNumber i = some p) :
    (withFile i k).run w = (k p).run w := by
  unfold withFile
  rw [run_getInodeCache, hPath]

theorem run_withAttributes {k : FAttr → Proc (NfsReply β)}
    (h : (withAttributes p k).run w = (.ok b, w')) :
    ∃ st, w.fs.lstat w.host p = .ok st ∧ (k (fattrOfStat st)).run (w.wait 5) = (.ok b, w') := by
  unfold withAttributes at h
  rw [run_bind] at h
  cases hAttr : ((getAttributes p).run w).1 with
  | none =>
    rw [hAttr] at h
    cases h
  | some fattr =>
    obtain ⟨st, hStat, rfl, hRun⟩ := getAttributes_eq_some hAttr
    rw [hRun] at h
    exact ⟨st, hStat, h⟩

theorem Quiet.run_withAttributes (hw : Quiet w) {k : FAttr → Proc (NfsReply β)} {st : Kernel.Stat}
    (hStat : w.fs.lstat w.host p = .ok st) :
    (withAttributes p k).run w = (k (fattrOfStat st)).run (w.wait 5) := by
  unfold withAttributes
  rw [run_bind, run_getAttributes hStat hw.describes]

/-- How many calls the check of a permission on one path takes. -/
def permissionCalls : Credential → Nat
  | .authNone => 0
  | .authSys caller => if caller.uid = 0 then 0 else 1

theorem run_withPermission {cred : Credential} {a : Access} {k : Proc (NfsReply β)}
    (h : (withPermission cred (needs a p) k).run w = (.ok b, w')) :
    k.run (w.wait (permissionCalls cred)) = (.ok b, w') := by
  cases cred with
  | authNone => exact h
  | authSys caller =>
    unfold withPermission at h
    simp only [needs, unlessRoot] at h
    simp only [permissionCalls]
    by_cases hRoot : caller.uid = 0
    · rw [if_pos hRoot] at h ⊢
      exact h
    · rw [if_neg hRoot] at h ⊢
      unfold checkPermission at h
      rw [run_bind, run_lstat] at h
      cases hSees : w.sees (w.fs.lstat w.host p) with
      | error e =>
        rw [hSees] at h
        cases h
      | ok st =>
        rw [hSees] at h
        dsimp only at h
        cases hAllows : allows a st.perm st.uid st.gid caller.uid caller.gid with
        | false =>
          rw [hAllows] at h
          cases h
        | true =>
          rw [hAllows] at h
          exact h

/-- The caller has the permission `a` on the object, as far as it needs one. -/
def Allowed (fs : FileSystem) (cred : Credential) (a : Access) (i : Ino) : Prop :=
  ∀ caller, cred = .authSys caller → caller.uid ≠ 0 →
    ∃ x, fs.inode i = some x ∧
      allows a x.attr.perm x.attr.uid x.attr.gid caller.uid caller.gid = true

theorem Quiet.run_withPermission (hw : Quiet w) {cred : Credential} {a : Access}
    {k : Proc (NfsReply β)} {i : Ino} (hLookup : w.fs.lookup false p = .ok i)
    (hAllowed : Allowed w.fs cred a i) :
    (withPermission cred (needs a p) k).run w = k.run (w.wait (permissionCalls cred)) := by
  cases cred with
  | authNone => rfl
  | authSys caller =>
    unfold withPermission
    simp only [needs, unlessRoot, permissionCalls]
    by_cases hRoot : caller.uid = 0
    · rw [if_pos hRoot, if_pos hRoot]
      rfl
    · obtain ⟨x, hx, hAllows⟩ := hAllowed caller rfl hRoot
      obtain ⟨st, hStat, rfl⟩ := lstat_of_lookup w.host hLookup
      obtain ⟨-, x', hx', -, hPerm, hUid, hGid⟩ := lstat_ok hStat
      obtain rfl : x' = x := Option.some.inj (hx'.symm.trans hx)
      rw [if_neg hRoot, if_neg hRoot]
      unfold checkPermission
      rw [run_bind, run_lstat, hw.sees, hStat]
      dsimp only
      rw [hPerm, hUid, hGid, hAllows]
      rfl

/-! ## Writing

`fwrite` and the flush in `fclose` are the third and the fourth call of
`write_to_file`. -/

namespace World

/-- The bytes that `fwrite` leaves in the buffer. -/
def buffered (w : World) (source : Bytes) : Bytes :=
  source.drop (w.machine.env (w.machine.tick + 2)).stored

/-- The bytes of the buffer that the flush gets to the file. -/
def flushed (w : World) (source : Bytes) : Bytes :=
  match (w.machine.env (w.machine.tick + 3)).fault with
  | some _ => (w.buffered source).take (w.machine.env (w.machine.tick + 3)).stored
  | none => w.buffered source

/-- How many bytes `write_to_file` gets to the file if it starts in `w`. -/
def stored (w : World) (source : Bytes) : Nat :=
  source.length - (w.buffered source).length + (w.flushed source).length

/-- The tree after `write_to_file` has written to `file`. -/
def written (w : World) (file : Ino) (offset : Nat) (source : Bytes) : FileSystem :=
  (w.fs.write file offset (source.take (w.machine.env (w.machine.tick + 2)).stored)
    (w.machine.env (w.machine.tick + 2)).now).write file
      (offset + (source.length - (w.buffered source).length)) (w.flushed source)
      (w.machine.env (w.machine.tick + 3)).now

theorem flushed_prefix (w : World) (source : Bytes) : w.flushed source <+: w.buffered source := by
  unfold flushed
  split
  · exact take_prefix _ _
  · exact prefix_rfl

theorem buffered_length (w : World) (source : Bytes) :
    source.length - (w.buffered source).length =
      (source.take (w.machine.env (w.machine.tick + 2)).stored).length := by
  rw [buffered, length_drop, length_take]
  omega

/-- What reaches the file in the two steps is the beginning of the data. -/
theorem take_stored (w : World) (source : Bytes) :
    source.take (w.stored source) =
      source.take (w.machine.env (w.machine.tick + 2)).stored ++ w.flushed source := by
  have hPrefix : source.take (w.machine.env (w.machine.tick + 2)).stored ++ w.flushed source <+:
      source := by
    conv_rhs => rw [← take_append_drop (w.machine.env (w.machine.tick + 2)).stored source]
    exact (prefix_append_right_inj _).mpr (w.flushed_prefix source)
  rw [prefix_iff_eq_take.mp hPrefix, length_append, ← w.buffered_length source]
  rfl

theorem holds_written {w : World} {file : Ino} {old : Bytes} (h : w.fs.Holds file old)
    (offset : Nat) (source : Bytes) :
    (w.written file offset source).Holds file
      (overwrite offset (source.take (w.stored source)) old) := by
  have hBoth := holds_write (holds_write h offset
    (source.take (w.machine.env (w.machine.tick + 2)).stored)
    (w.machine.env (w.machine.tick + 2)).now)
    (offset + (source.length - (w.buffered source).length)) (w.flushed source)
    (w.machine.env (w.machine.tick + 3)).now
  rw [take_stored, overwrite_eq_splice, splice_append, ← w.buffered_length source]
  exact hBoth

end World

theorem run_fwrite (file : Ino) (offset : Nat) (data : Bytes) (k : Except Errno Bytes → Proc β)
    (w : World) :
    (sys (.fwrite file offset data) >>= k).run w =
      (k (w.sees (.ok (data.drop w.machine.here.stored)))).run
        ((w.withFs (w.fs.write file offset (data.take w.machine.here.stored)
          w.machine.here.now)).wait 1) := by
  show (k (w.machine.streamWrite file offset data).1).run
    { w with machine := (w.machine.streamWrite file offset data).2 } = _
  unfold Machine.streamWrite World.sees Machine.answer
  cases w.machine.here.fault <;> rfl

/-- The stream is closed whatever comes of the flush. -/
theorem run_fclose (file : Ino) (offset : Nat) (buffered : Bytes) (q : Proc β) (w : World) :
    (sys (.fclose file offset buffered) >>= fun _ => q).run w =
      q.run ((w.withFs (w.fs.write file offset
        (match w.machine.here.fault with
          | some _ => buffered.take w.machine.here.stored
          | none => buffered) w.machine.here.now)).wait 1) := by
  show q.run { w with machine := (w.machine.streamClose file offset buffered).2 } = _
  unfold Machine.streamClose
  cases w.machine.here.fault <;> rfl

/-- Nothing happens to the file if the buffer is empty. -/
theorem run_fclose_nil (file : Ino) (offset : Nat) (q : Proc β) (w : World) :
    (sys (.fclose file offset []) >>= fun _ => q).run w = q.run (w.wait 1) := by
  have hNil : ∀ now, w.fs.write file offset [] now = w.fs := fun _ => if_pos rfl
  rw [run_fclose]
  cases w.machine.here.fault <;> simp only [take_nil, hNil] <;> rfl

theorem writeResultOfErrno_ne (e : Errno) : writeResultOfErrno e ≠ .written := by
  cases e <;> decide

/-- A file that was written. -/
theorem run_writeToFile {offset : Nat} {source : Bytes}
    (h : (writeToFile p offset source).run w = (.written, w')) :
    ∃ file, w.fs.fopen p true = .ok file ∧
      w' = (w.withFs (w.written file offset source)).wait 4 := by
  unfold writeToFile at h
  rw [run_answer rfl] at h
  cases hOpen : w.sees (w.machine.fs.fopen p true) with
  | error e =>
    rw [hOpen] at h
    cases h
  | ok file =>
    refine ⟨file, World.sees_eq_ok hOpen, ?_⟩
    rw [hOpen] at h
    dsimp only at h
    rw [run_answer rfl] at h
    cases hSeek : (w.wait 1).sees (.ok ()) with
    | error e =>
      rw [hSeek] at h
      cases h
    | ok u =>
      rw [hSeek] at h
      dsimp only at h
      rw [run_fwrite] at h
      cases hWrite : ((w.wait 1).wait 1).sees (.ok (source.drop ((w.wait 1).wait 1).machine.here.stored)) with
      | error e =>
        rw [hWrite] at h
        dsimp only at h
        rw [run_fclose] at h
        exact absurd (congrArg Prod.fst h) (writeResultOfErrno_ne e)
      | ok rest =>
        obtain rfl : source.drop ((w.wait 1).wait 1).machine.here.stored = rest :=
          Except.ok.inj (World.sees_eq_ok hWrite)
        rw [hWrite] at h
        dsimp only at h
        rw [run_fclose] at h
        cases h
        rfl

theorem Quiet.run_writeToFile (hw : Quiet w) {offset : Nat} {source : Bytes} {file : Ino}
    (hOpen : w.fs.fopen p true = .ok file) :
    (writeToFile p offset source).run w =
      (.written, (w.withFs (w.written file offset source)).wait 4) := by
  have hOpen : w.machine.fs.fopen p true = .ok file := hOpen
  unfold writeToFile
  rw [run_answer rfl, hw.sees, hOpen]
  dsimp only
  rw [run_answer rfl, (hw.wait 1).sees]
  dsimp only
  rw [run_fwrite, ((hw.wait 1).wait 1).sees]
  dsimp only
  rw [run_fclose]
  rfl

/-- All of the data reaches the file. -/
theorem Quiet.take_stored (hw : Quiet w) (source : Bytes) :
    source.take (w.stored source) = source := by
  have hFlushed : w.flushed source = w.buffered source := by
    unfold World.flushed
    rw [hw.fault]
  rw [World.take_stored, hFlushed]
  exact take_append_drop _ source

end QuicNfs.Server

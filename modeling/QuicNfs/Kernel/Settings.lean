import QuicNfs.Kernel.Effects
import QuicNfs.Kernel.Machine

/-!
# QuicNfs — the calls that set attributes

`chmod`, `chown`, `truncate` and `utimes` work on the one object that a path leads to. What each
of them makes of the object depends on the object alone, and so does whether it accepts what
it is asked to set.

* `Setting` — such a call, without the path;
* `Setting.Accepts`, `Setting.apply` — when it succeeds, and what the object is then;
* `Setting.result_of_accepts`, `Setting.result_of_not_accepts` — the call does just that;
* `Setting.exec_eq` — so it does on a machine, unless the call fails for a reason of its own.
-/

namespace QuicNfs.Kernel

open FileSystem

/-- One attribute, or a pair of them, that a call sets. -/
inductive Setting where
  | mode (mode : Nat)
  | owner (uid gid : Nat)
  | size (size : Nat)
  | times (atime mtime : TimeVal)
deriving DecidableEq, Repr

namespace Setting

def call (p : Path) : Setting → Sys (Except Errno Unit)
  | mode m => .chmod p m
  | owner uid gid => .chown p uid gid
  | size n => .truncate p n
  | times atime mtime => .utimes p atime mtime

/-- What the call makes of a file system. -/
def result (fs : FileSystem) (p : Path) (now : Timespec) : Setting → Except Errno FileSystem
  | mode m => fs.chmod p m now
  | owner uid gid => fs.chown p uid gid now
  | size n => fs.truncate p n now
  | times atime mtime => fs.utimes p atime mtime now

/-- The values that can be set on an object of this format. -/
def Accepts (format : Format) : Setting → Prop
  | size n => format = .reg ∧ n < 2 ^ 63
  | times atime mtime => atime.usec < 1000000 ∧ mtime.usec < 1000000
  | _ => True

instance (format : Format) : ∀ s : Setting, Decidable (s.Accepts format)
  | mode _ => inferInstanceAs (Decidable True)
  | owner _ _ => inferInstanceAs (Decidable True)
  | size n => inferInstanceAs (Decidable (format = .reg ∧ n < 2 ^ 63))
  | times atime mtime =>
    inferInstanceAs (Decidable (atime.usec < 1000000 ∧ mtime.usec < 1000000))

/-- The object after the call. -/
def apply (now : Timespec) (x : Inode) : Setting → Inode
  | mode m => { x with attr := { x.attr with perm := m % 4096, ctime := now } }
  | owner uid gid => { x with attr := x.attr.chown x.content.isDir uid gid now }
  | size n => { x.mapData (resize n) with
      -- a size that stays the same leaves the times alone
      attr := if x.content.size = n then x.attr else { x.attr with mtime := now, ctime := now } }
  | times atime mtime => { x with attr :=
      { x.attr with atime := atime.toTimespec, mtime := mtime.toTimespec, ctime := now } }

theorem format_mapData (x : Inode) (g : Bytes → Bytes) :
    (x.mapData g).content.format = x.content.format := by
  obtain ⟨content, attr⟩ := x
  cases content <;> rfl

@[simp] theorem format_apply (s : Setting) (now : Timespec) (x : Inode) :
    (s.apply now x).content.format = x.content.format := by
  cases s with
  | size n => exact format_mapData x _
  | mode | owner | times => rfl

section Object

variable {fs : FileSystem} {p : Path} {f : Ino} {x : Inode} {now : Timespec} {s : Setting}

theorem isDir_of_inode (hx : fs.inode f = some x) : fs.isDir f = x.content.isDir := by
  unfold Tree.isDir
  rw [hx]
  rfl

theorem content_of_inode (hx : fs.inode f = some x) : fs.content f = some x.content := by
  unfold Tree.content
  rw [hx]
  rfl

/-- A change of the attributes alone. -/
theorem inode_setAttr_self (hx : fs.inode f = some x) (g : Attr → Attr) :
    (fs.setAttr f g).inode f = some { x with attr := g x.attr } := by
  rw [inode_setAttr, if_pos rfl, hx]
  rfl

/-- A regular file can have any size below 2^63. -/
theorem truncate_regular {n : Nat} {data : Bytes} {attr : Attr} (hSize : n < 2 ^ 63)
    (hLookup : fs.lookup true p = .ok f) (hx : fs.inode f = some ⟨.regular data, attr⟩) :
    ∃ fs', fs.truncate p n now = .ok fs' ∧ fs.Touched fs' f ∧
      fs'.inode f = some ((size n).apply now ⟨.regular data, attr⟩) := by
  unfold truncate
  rw [if_neg (by omega), hLookup]
  simp only [content_of_inode hx]
  refine ⟨_, rfl, (touched_setData fs f _).trans (touched_setAttr _ f _), ?_⟩
  have hData : (fs.setData f (resize n)).inode f = some ⟨.regular (resize n data), attr⟩ := by
    rw [inode_setData, if_pos rfl, hx]
    rfl
  rw [inode_setAttr_self hData]
  rfl

/-- An attribute that the object accepts is set. -/
theorem result_of_accepts (hLookup : fs.lookup true p = .ok f) (hx : fs.inode f = some x)
    (h : s.Accepts x.content.format) :
    ∃ fs', s.result fs p now = .ok fs' ∧ fs.Touched fs' f ∧ fs'.inode f = some (s.apply now x) := by
  cases s with
  | mode m =>
    dsimp only [result, chmod]
    rw [hLookup]
    exact ⟨_, rfl, touched_setAttr fs f _, inode_setAttr_self hx _⟩
  | owner uid gid =>
    dsimp only [result, chown]
    rw [hLookup]
    dsimp only
    rw [isDir_of_inode hx]
    exact ⟨_, rfl, touched_setAttr fs f _, inode_setAttr_self hx _⟩
  | times atime mtime =>
    have hUsec : ¬(atime.usec ≥ 1000000 ∨ mtime.usec ≥ 1000000) := by
      have := h.1
      have := h.2
      omega
    dsimp only [result, utimes]
    rw [hLookup]
    dsimp only
    rw [if_neg hUsec]
    exact ⟨_, rfl, touched_setAttr fs f _, inode_setAttr_self hx _⟩
  | size n =>
    -- only a regular file has a size that can be set
    obtain ⟨content, attr⟩ := x
    cases content with
    | regular data => exact truncate_regular h.2 hLookup hx
    | directory | symlink => cases h.1
    | special kind => cases kind <;> cases h.1

/-- Otherwise the call fails. -/
theorem result_of_not_accepts (hLookup : fs.lookup true p = .ok f) (hx : fs.inode f = some x)
    (h : ¬s.Accepts x.content.format) : ∃ e, s.result fs p now = .error e := by
  cases s with
  | mode | owner => exact absurd trivial h
  | times atime mtime =>
    have hUsec : atime.usec ≥ 1000000 ∨ mtime.usec ≥ 1000000 := by
      by_contra hNot
      exact h ⟨by omega, by omega⟩
    dsimp only [result, utimes]
    rw [hLookup]
    dsimp only
    rw [if_pos hUsec]
    exact ⟨_, rfl⟩
  | size n =>
    -- a size that is too large is refused before the path is looked at
    dsimp only [result, truncate]
    split
    · exact ⟨_, rfl⟩
    · next hSize =>
      rw [hLookup]
      simp only [content_of_inode hx]
      obtain ⟨content, attr⟩ := x
      cases content with
      | regular data => exact absurd ⟨rfl, by omega⟩ h
      | directory | symlink | special => exact ⟨_, rfl⟩

/-- A path that leads nowhere. -/
theorem result_of_lookup_error {e : Errno} (hLookup : fs.lookup true p = .error e) :
    ∃ e', s.result fs p now = .error e' := by
  cases s with
  | mode m => exact ⟨e, by dsimp only [result, chmod]; rw [hLookup]⟩
  | owner uid gid => exact ⟨e, by dsimp only [result, chown]; rw [hLookup]⟩
  | times atime mtime => exact ⟨e, by dsimp only [result, utimes]; rw [hLookup]⟩
  | size n =>
    dsimp only [result, truncate]
    rw [hLookup]
    split <;> exact ⟨_, rfl⟩

/-- A call that succeeds has touched what the path leads to, and nothing else. -/
theorem touched_of_result {fs' : FileSystem} (h : s.result fs p now = .ok fs') :
    ∃ i, fs.lookup true p = .ok i ∧ fs.Touched fs' i := by
  cases s with
  | mode m =>
    obtain ⟨i, hi, hTouched, -⟩ := chmod_ok h
    exact ⟨i, hi, hTouched⟩
  | owner uid gid =>
    obtain ⟨i, hi, hTouched, -⟩ := chown_ok h
    exact ⟨i, hi, hTouched⟩
  | size n =>
    obtain ⟨i, hi, hTouched, -⟩ := truncate_ok h
    exact ⟨i, hi, hTouched⟩
  | times atime mtime =>
    obtain ⟨i, hi, hTouched, -⟩ := utimes_ok h
    exact ⟨i, hi, hTouched⟩

/-- No call but `chown` changes an owner. -/
theorem sameOwners_of_result {fs' : FileSystem} (h : s.result fs p now = .ok fs')
    (hOwner : ∀ uid gid, s = .owner uid gid → fs.SameOwners fs') : fs.SameOwners fs' := by
  cases s with
  | owner uid gid => exact hOwner uid gid rfl
  | mode m =>
    obtain ⟨-, -, -, hSame⟩ := chmod_ok h
    exact hSame
  | size n =>
    obtain ⟨-, -, -, hSame⟩ := truncate_ok h
    exact hSame
  | times atime mtime =>
    obtain ⟨-, -, -, hSame⟩ := utimes_ok h
    exact hSame

end Object

/-- Each setting is one system call. -/
theorem exec_eq (s : Setting) (p : Path) (m : Machine) :
    m.exec (s.call p) = m.change (s.result m.fs p m.here.now) := by
  cases s <;> rfl

end Setting

end QuicNfs.Kernel

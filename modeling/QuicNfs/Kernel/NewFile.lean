import QuicNfs.Kernel.FileContent
import QuicNfs.Kernel.Places

/-!
# QuicNfs — a new file, and everything around it

What others see of a file that was made in a directory: every other path leads
where it led before, the directory's permissions are the same, and the path of
the new name leads to the file, also after its owner, size or times were set.

* `Extends.lookup_of_ok` — a path that led somewhere leads there still;
* `NewFile` — a regular file was made under a free name, and perhaps changed;
* `openCreat_free`, `NewFile.openCreat`, `NewFile.chown`, `NewFile.truncate`,
  `NewFile.utimes` — the calls of CREATE succeed and leave such a file.
-/

namespace QuicNfs.Kernel

open Tree

namespace FileSystem

variable {fs fs' fs'' : FileSystem} {d : Ino} {n : Name} {f : Ino}

/-! ## One more name does not lead another path astray -/

variable {follow : Bool} {i : Ino}

/-- A path that led to an object leads to it still. -/
theorem Extends.lookup_of_ok (h : fs.Extends fs' d n f) {p : Path}
    (hi : fs.lookup follow p = .ok i) : fs'.lookup follow p = .ok i := by
  unfold lookup at hi ⊢
  cases hn : fs.namei (follow || endsInSlash p) p with
  | error e =>
    rw [hn] at hi
    cases hi
  | ok r =>
    rw [hn] at hi
    have hOther : r ≠ .missing d n := by
      rintro rfl
      cases hi
    rw [h.namei_of_ok hOther hn]
    exact hi

/-- The directory of a new object keeps its permissions and its owner. -/
theorem Created.inode_dir {x y : Inode} (h : fs.Created fs' d n f x) (hy : fs.inode d = some y) :
    ∃ y', fs'.inode d = some y' ∧ y'.attr.perm = y.attr.perm ∧ y'.attr.uid = y.attr.uid ∧
      y'.attr.gid = y.attr.gid := by
  obtain ⟨now, rfl⟩ := h.eq
  have hne : d ≠ f := by
    rintro rfl
    cases h.fresh.symm.trans hy
  have hAlloc : (fs.alloc f x).inode d = some y := by
    rw [inode_alloc h.fresh h.noEntries, if_neg hne, hy]
  unfold create bind
  split
  · refine ⟨⟨y.content.bindEntry n f, touchDir now y.attr⟩,
      (inode_modify _ d d _).trans ?_, rfl, rfl, rfl⟩
    rw [if_pos rfl, hAlloc]
    rfl
  · exact ⟨y, hAlloc, rfl, rfl, rfl⟩

/-! ## A directory and a name in it -/

section Name

variable {p : Path} (hLeads : fs.lookup false p = .ok d) (hDir : fs.isDir d) (hName : ValidName n)
  (hLength : (p ++ slash :: n).length < pathMax)
include hLeads hDir hName hLength

/-- The path of a free name ends at that name. -/
theorem namei_join_free (hFree : fs.entry d n = none) :
    fs.namei false (p ++ slash :: n) = .ok (.missing d n) := by
  have hWalk : fs.walk false d .root (components n) = .ok (.done (.missing d n)) := by
    rw [hName.components_eq, walk_cons_name hDir hName.length_le hName.ne_dot hName.ne_dotdot, hFree]
    rfl
  rw [namei_join hLeads hDir (by simp [hName.components_eq]) (by simp [hWalk]) hLength, hWalk]
  rfl

/-- The path of a name that is taken leads to its object. -/
theorem lookup_join_taken (hEntry : fs.entry d n = some i) :
    fs.lookup false (p ++ slash :: n) = .ok i := by
  have hSlash := endsInSlash_join_plain p hName.toPlain
  have hSome := fs.wf.entry_exists hEntry
  obtain ⟨x, hx⟩ := Option.isSome_iff_exists.mp hSome
  unfold lookup
  rw [hSlash, Bool.or_false]
  by_cases hi : fs.isDir i
  · have hWalk : fs.walk false d .root (components n) = .ok (.done (.dir i (.name d n))) := by
      rw [hName.components_eq, walk_cons_down hEntry hi]
      rfl
    rw [namei_join hLeads hDir (by simp [hName.components_eq]) (by simp [hWalk]) hLength, hWalk]
    rfl
  · have hWalk : fs.walk false d .root (components n) = .ok (.done (.leaf d n i)) := by
      rw [hName.components_eq]
      exact walk_leaf hEntry (by simpa using hi) false .root (by simp)
    rw [namei_join hLeads hDir (by simp [hName.components_eq]) (by simp [hWalk]) hLength, hWalk]
    rfl

/-- Before the file is made, its path leads nowhere. -/
theorem lookup_join_free (hFree : fs.entry d n = none) :
    fs.lookup false (p ++ slash :: n) = .error .enoent := by
  unfold lookup
  rw [endsInSlash_join_plain p hName.toPlain, Bool.or_false,
    namei_join_free hLeads hDir hName hLength hFree]

end Name

/-! ## The new file -/

/-- `fs'` is `fs` with a regular file `f` made under the free name `n` of `d`, and
changes of that file. -/
structure NewFile (fs fs' : FileSystem) (d : Ino) (n : Name) (f : Ino) : Prop where
  made : ∃ fs₁ x, x.content = .regular [] ∧ fs.Created fs₁ d n f x ∧ fs₁.Touched fs' f
  regular : ∃ data, fs'.Holds f data

namespace NewFile

theorem free (h : fs.NewFile fs' d n f) : fs.entry d n = none := by
  obtain ⟨fs₁, x, -, hCreated, -⟩ := h.made
  exact hCreated.free

theorem isDir (h : fs.NewFile fs' d n f) : fs.isDir d := by
  obtain ⟨fs₁, x, -, hCreated, -⟩ := h.made
  exact hCreated.isDir

theorem ne_dir (h : fs.NewFile fs' d n f) : d ≠ f := by
  obtain ⟨fs₁, x, -, hCreated, -⟩ := h.made
  exact hCreated.ne_dir

/-- `open` with `O_CREAT` has made an empty file. -/
theorem created {x : Inode} (h : fs.Created fs' d n f x) (hx : x.content = .regular []) :
    fs.NewFile fs' d n f := by
  refine ⟨⟨fs', x, hx, h, .refl fs' f⟩, [], ?_⟩
  unfold Holds content
  rw [h.inode_new]
  simp [hx]

theorem isDir_file (h : fs.NewFile fs' d n f) : fs'.isDir f = false := by
  obtain ⟨data, hData⟩ := h.regular
  obtain ⟨x, hx, hContent⟩ := Option.map_eq_some_iff.mp hData
  simp [Tree.isDir, hx, hContent, Content.isDir]

/-- Other paths lead where they led. -/
theorem lookup_of_ok (h : fs.NewFile fs' d n f) {p : Path} (hi : fs.lookup follow p = .ok i) :
    fs'.lookup follow p = .ok i := by
  obtain ⟨fs₁, x, -, hCreated, hTouched⟩ := h.made
  rw [hTouched.names.lookup]
  exact hCreated.extends.lookup_of_ok hi

theorem isDir_of (h : fs.NewFile fs' d n f) (hi : fs.isDir i) : fs'.isDir i := by
  obtain ⟨fs₁, x, -, hCreated, hTouched⟩ := h.made
  rw [hTouched.names.isDir]
  exact hCreated.extends.isDir_of hi

/-- The directory keeps its owner and its permissions. -/
theorem inode_dir (h : fs.NewFile fs' d n f) {y : Inode} (hy : fs.inode d = some y) :
    ∃ y', fs'.inode d = some y' ∧ y'.attr.perm = y.attr.perm ∧ y'.attr.uid = y.attr.uid ∧
      y'.attr.gid = y.attr.gid := by
  have hne := h.ne_dir
  obtain ⟨fs₁, x, -, hCreated, hTouched⟩ := h.made
  rw [hTouched.other hne]
  exact hCreated.inode_dir hy

variable {p : Path}

/-- The path of the name leads to the file, for every call. -/
theorem leads (h : fs.NewFile fs' d n f) (hLeads : fs.lookup false p = .ok d)
    (hName : ValidName n) (hLength : (p ++ slash :: n).length < pathMax) (follow : Bool) :
    fs'.lookup follow (p ++ slash :: n) = .ok f := by
  have hn := namei_join_free hLeads h.isDir hName hLength h.free
  have hSlash := endsInSlash_join_plain p hName.toPlain
  obtain ⟨fs₁, x, hx, hCreated, hTouched⟩ := h.made
  rw [hTouched.names.lookup]
  refine hCreated.extends.lookup_new ?_ (by simp [hSlash]) hn follow
  intro target
  rw [hCreated.kind_new, hx]
  simp [Content.kind]

/-- The file can change afterwards, and is still the new file. -/
theorem touched (h : fs.NewFile fs' d n f) (hTouched : fs'.Touched fs'' f)
    (hRegular : ∃ data, fs''.Holds f data) : fs.NewFile fs'' d n f := by
  obtain ⟨fs₁, x, hx, hCreated, hTouched₁⟩ := h.made
  exact ⟨⟨fs₁, x, hx, hCreated, hTouched₁.trans hTouched⟩, hRegular⟩

end NewFile

/-! ## The calls of CREATE -/

theorem holds_setAttr {data : Bytes} (h : fs.Holds f data) (i : Ino) (g : Attr → Attr) :
    (fs.setAttr i g).Holds f data := by
  obtain ⟨x, hx, hContent⟩ := Option.map_eq_some_iff.mp h
  unfold Holds content
  rw [inode_setAttr]
  split <;> simp [hx, hContent]

theorem holds_setData {data : Bytes} (h : fs.Holds f data) (g : Bytes → Bytes) :
    (fs.setData f g).Holds f (g data) := by
  obtain ⟨x, hx, hContent⟩ := Option.map_eq_some_iff.mp h
  unfold Holds content
  rw [inode_setData, if_pos rfl, hx]
  simp [Inode.mapData, hContent]

section Calls

variable {p : Path}

/-- `open` makes the file where the name is free. -/
theorem openCreat_free (hLeads : fs.lookup false p = .ok d) (hDir : fs.isDir d)
    (hName : ValidName n) (hLength : (p ++ slash :: n).length < pathMax)
    (hFree : fs.entry d n = none) {busy : List Ino} (hFresh : fs.inode f = none) (hBusy : f ∉ busy)
    (host : Host) (mode : Nat) (now : Timespec) :
    ∃ fs', fs.openCreat host busy (p ++ slash :: n) mode f now = .ok fs' ∧
      fs.NewFile fs' d n f := by
  -- nothing is there, so it does not matter if links are followed
  have hn := namei_join_free hLeads hDir hName hLength hFree
  have hTrue : fs.namei true (p ++ slash :: n) = .ok (.missing d n) := by
    rw [namei_true_of_false, hn]
    intro d' n' j target hEq
    cases hn.symm.trans hEq
  have hOk : fs.openCreat host busy (p ++ slash :: n) mode f now =
      .ok (fs.create d n f (fs.newInode d (.regular []) (withUmask host.umask mode) now) now) := by
    unfold openCreat make
    rw [hTrue]
    simp [endsInSlash_join_plain p hName.toPlain, hFresh, hBusy]
  refine ⟨_, hOk, ?_⟩
  obtain ⟨-, ⟨-, d', n', j, hLeaf⟩ | ⟨d', n', x, hx, hMissing, hCreated⟩⟩ := openCreat_ok hOk
  · cases hTrue.symm.trans hLeaf
  · obtain ⟨rfl, rfl⟩ : d = d' ∧ n = n' := by
      rw [hTrue] at hMissing
      simpa using hMissing
    exact .created hCreated hx

variable (h : fs.NewFile fs' d n f) (hLeads : fs.lookup false p = .ok d)
  (hName : ValidName n) (hLength : (p ++ slash :: n).length < pathMax)
include h hLeads hName hLength

/-- `open` on the file leaves it alone: it was not asked to be exclusive. -/
theorem NewFile.openCreat (host : Host) (busy : List Ino) (mode : Nat) (i : Ino) (now : Timespec) :
    fs'.openCreat host busy (p ++ slash :: n) mode i now = .ok fs' := by
  have hSlash := endsInSlash_join_plain p hName.toPlain
  rcases lookup_ok (h.leads hLeads hName hLength true) with ⟨-, hDir⟩ | ⟨-, -, d', n', hn, -⟩
  · exact absurd hDir (by simp [h.isDir_file])
  · unfold FileSystem.openCreat
    rw [hn]
    simp [hSlash]

theorem NewFile.chown (uid gid : Nat) (now : Timespec) :
    ∃ fs'', fs'.chown (p ++ slash :: n) uid gid now = .ok fs'' ∧ fs.NewFile fs'' d n f := by
  obtain ⟨data, hData⟩ := h.regular
  unfold FileSystem.chown
  rw [h.leads hLeads hName hLength true]
  exact ⟨_, rfl, h.touched (touched_setAttr fs' f _) ⟨data, holds_setAttr hData f _⟩⟩

theorem NewFile.truncate {size : Nat} (hSize : size < 2 ^ 63) (now : Timespec) :
    ∃ fs'', fs'.truncate (p ++ slash :: n) size now = .ok fs'' ∧ fs.NewFile fs'' d n f := by
  obtain ⟨data, hData⟩ := h.regular
  have hContent : fs'.content f = some (.regular data) := hData
  unfold FileSystem.truncate
  rw [if_neg (by omega), h.leads hLeads hName hLength true]
  simp only [hContent]
  refine ⟨_, rfl, h.touched ((touched_setData fs' f _).trans (touched_setAttr _ f _)) ?_⟩
  exact ⟨_, holds_setAttr (holds_setData hData _) f _⟩

theorem NewFile.utimes (atime mtime : TimeVal) (hAtime : atime.usec < 1000000)
    (hMtime : mtime.usec < 1000000) (now : Timespec) :
    ∃ fs'', fs'.utimes (p ++ slash :: n) atime mtime now = .ok fs'' ∧ fs.NewFile fs'' d n f := by
  obtain ⟨data, hData⟩ := h.regular
  unfold FileSystem.utimes
  rw [h.leads hLeads hName hLength true]
  simp only
  rw [if_neg (by omega)]
  exact ⟨_, rfl, h.touched (touched_setAttr fs' f _) ⟨data, holds_setAttr hData f _⟩⟩

end Calls

end FileSystem

end QuicNfs.Kernel

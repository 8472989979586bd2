import QuicNfs.Kernel.Tree

/-!
# QuicNfs — well-formed file systems and their primitive changes

A `FileSystem` is a tree that satisfies what every kernel tree satisfies, so
that no ill-formed tree can be built. The changes the system calls are made of
are total on it:

* `setAttr`, `setData` — change one inode, no name;
* `create` — a new inode with one name;
* `link` — one more name for a non-directory;
* `remove` — drop one name, and the inode with its last name;
* `move` — one name to another place.

For each of them `entry_…` and `kind_…` say what the changed tree looks like.
-/

namespace QuicNfs.Kernel

open Tree

/-- A name a directory can hold. -/
structure ValidName (n : Name) : Prop extends Plain n where
  length_le : n.length ≤ nameMax

instance (n : Name) : Decidable (ValidName n) :=
  decidable_of_iff (Plain n ∧ n.length ≤ nameMax) ⟨fun h => ⟨h.1, h.2⟩, fun h => ⟨h.1, h.2⟩⟩

namespace Tree

structure WellFormed (t : Tree) : Prop where
  root_isDir : t.isDir t.root
  entry_exists {d : Ino} {n : Name} {i : Ino} : t.entry d n = some i → (t.inode i).isSome
  entry_valid {d : Ino} {n : Name} {i : Ino} : t.entry d n = some i → ValidName n
  /-- A directory has one name. -/
  dir_unique {d d' : Ino} {n n' : Name} {i : Ino} : t.entry d n = some i →
    t.entry d' n' = some i → t.isDir i → d = d' ∧ n = n'
  root_unnamed {d : Ino} {n : Name} : t.entry d n ≠ some t.root

/-- A changed inode changes the names in it only. -/
theorem entry_modify (t : Tree) (i d : Ino) (n : Name) (f : Inode → Inode) :
    (t.modify i f).entry d n =
      if d = i then (t.inode d).bind fun x => (f x).content.entry n else t.entry d n := by
  unfold entry
  rw [inode_modify]
  split
  · cases t.inode d <;> rfl
  · rfl

variable {t : Tree}

theorem kind_modify {f : Inode → Inode} (hKind : ∀ x, (f x).content.kind = x.content.kind)
    (i j : Ino) : (t.modify i f).kind j = t.kind j := by
  unfold kind
  rw [inode_modify]
  split
  · cases t.inode j <;> simp [hKind]
  · rfl

/-- Being a directory is a matter of the kind. -/
theorem isDir_eq_of_kind {t' : Tree} {i : Ino} (h : t'.kind i = t.kind i) :
    t'.isDir i = t.isDir i := by
  rw [Bool.eq_iff_iff, isDir_iff_kind, isDir_iff_kind, h]

theorem isSome_inode_of_kind {t' : Tree} {i : Ino} (h : t'.kind i = t.kind i) :
    (t'.inode i).isSome = (t.inode i).isSome := by
  have hSome := congrArg Option.isSome h
  rwa [kind, kind, Option.isSome_map, Option.isSome_map] at hSome

/-- A tree stays well formed as long as no name is added, and the root and what is named are
of the kinds they were. -/
theorem WellFormed.of_entry (h : t.WellFormed) {t' : Tree} (hRoot : t'.root = t.root)
    (hEntry : ∀ {d n j}, t'.entry d n = some j → t.entry d n = some j)
    (hKind : ∀ {j}, (j = t.root ∨ ∃ d n, t.entry d n = some j) → t'.kind j = t.kind j) :
    t'.WellFormed where
  root_isDir := by
    rw [hRoot, isDir_eq_of_kind (hKind (.inl rfl))]
    exact h.root_isDir
  entry_exists {d n j} he := by
    rw [isSome_inode_of_kind (hKind (.inr ⟨d, n, hEntry he⟩))]
    exact h.entry_exists (hEntry he)
  entry_valid he := h.entry_valid (hEntry he)
  dir_unique {d d' n n' j} he he' hj := by
    rw [isDir_eq_of_kind (hKind (.inr ⟨d, n, hEntry he⟩))] at hj
    exact h.dir_unique (hEntry he) (hEntry he') hj
  root_unnamed he := h.root_unnamed (hEntry (he.trans (congrArg some hRoot)))

/-- A change that leaves every directory as it is keeps the tree well formed. -/
theorem WellFormed.modify_of_entry (h : t.WellFormed) {i : Ino} {f : Inode → Inode}
    (hEntry : ∀ x n, (f x).content.entry n = x.content.entry n)
    (hKind : ∀ x, (f x).content.kind = x.content.kind) : (t.modify i f).WellFormed := by
  refine h.of_entry (root_modify t i f) (fun {d n j} he => ?_) fun _ => kind_modify hKind i _
  rw [entry_modify] at he
  split at he
  · simp only [hEntry] at he
    exact he
  · exact he

/-! ## Names -/

/-- What binding or dropping a name does to the directory's times. -/
def touchDir (now : Timespec) (a : Attr) : Attr := { a with mtime := now, ctime := now }

def bindName (t : Tree) (d : Ino) (n : Name) (i : Ino) (now : Timespec) : Tree :=
  t.modify d fun x => { content := x.content.bindEntry n i, attr := touchDir now x.attr }

def unbindName (t : Tree) (d : Ino) (n : Name) (now : Timespec) : Tree :=
  t.modify d fun x => { content := x.content.unbindEntry n, attr := touchDir now x.attr }

@[simp] theorem kind_bindName (t : Tree) (d : Ino) (n : Name) (i : Ino) (now : Timespec)
    (j : Ino) : (t.bindName d n i now).kind j = t.kind j :=
  kind_modify (fun x => Content.kind_bindEntry x.content n i) d j

@[simp] theorem kind_unbindName (t : Tree) (d : Ino) (n : Name) (now : Timespec) (j : Ino) :
    (t.unbindName d n now).kind j = t.kind j :=
  kind_modify (fun x => Content.kind_unbindEntry x.content n) d j

theorem entry_bindName {d : Ino} (hDir : t.isDir d) (n : Name) (i : Ino) (now : Timespec)
    (e : Ino) (m : Name) :
    (t.bindName d n i now).entry e m = if e = d ∧ m = n then some i else t.entry e m := by
  obtain ⟨x, hx, hxd⟩ := isDir_iff.mp hDir
  rw [bindName, entry_modify]
  by_cases he : e = d
  · subst he
    simp only [hx, Option.bind_some, true_and, if_true, entry, Content.entry_bindEntry hxd]
  · simp [he]

theorem entry_unbindName (t : Tree) (d : Ino) (n : Name) (now : Timespec) (e : Ino) (m : Name) :
    (t.unbindName d n now).entry e m = if e = d ∧ m = n then none else t.entry e m := by
  rw [unbindName, entry_modify]
  by_cases he : e = d
  · subst he
    cases hx : t.inode e with
    | none => simp [entry, hx]
    | some x => simp [entry, hx, Content.entry_unbindEntry]
  · simp [he]

/-- An empty inode adds no name. -/
theorem entry_put_of_none {i : Ino} (hFree : t.inode i = none) {x : Inode}
    (hEmpty : x.content.entries = []) (e : Ino) (m : Name) :
    (t.put i x).entry e m = t.entry e m := by
  unfold entry
  rw [inode_put]
  split
  · next h =>
    subst h
    have hNone : x.content.entry m = none := by
      rw [Option.eq_none_iff_forall_not_mem]
      intro j hj
      have hMem := Content.mem_entries.mpr hj
      rw [hEmpty] at hMem
      cases hMem
    simp [hFree, hNone]
  · rfl

/-- What is the root or has a name is allocated. -/
theorem WellFormed.ne_of_none (h : t.WellFormed) {i j : Ino} (hFree : t.inode i = none)
    (hj : j = t.root ∨ ∃ d n, t.entry d n = some j) : j ≠ i := by
  rintro rfl
  rcases hj with rfl | ⟨d, n, he⟩
  · obtain ⟨y, hy, -⟩ := isDir_iff.mp h.root_isDir
    cases hFree.symm.trans hy
  · have hSome := h.entry_exists he
    rw [hFree] at hSome
    cases hSome

theorem WellFormed.put (h : t.WellFormed) {i : Ino} (hFree : t.inode i = none) {x : Inode}
    (hEmpty : x.content.entries = []) : (t.put i x).WellFormed := by
  refine h.of_entry rfl (fun he => (entry_put_of_none hFree hEmpty _ _).symm.trans he) fun hj => ?_
  rw [kind, inode_put, if_neg (h.ne_of_none hFree hj)]
  rfl

theorem WellFormed.unbindName (h : t.WellFormed) (d : Ino) (n : Name) (now : Timespec) :
    (t.unbindName d n now).WellFormed := by
  refine h.of_entry (root_modify t d _) (fun he => ?_) fun _ => kind_unbindName t d n now _
  -- every name that is left was there before
  rw [entry_unbindName] at he
  split at he
  · cases he
  · exact he

theorem ne_of_hasName_false {i d j : Ino} {n : Name} (h : t.hasName i = false)
    (he : t.entry d n = some j) : j ≠ i := by
  rintro rfl
  cases h.symm.trans (hasName_iff.mpr ⟨d, n, he⟩)

/-- A new name keeps the tree well formed, if a directory has no other. -/
theorem WellFormed.bindName (h : t.WellFormed) {d : Ino} {n : Name} {i : Ino} (hDir : t.isDir d)
    (hName : ValidName n) (hSome : (t.inode i).isSome) (hRoot : i ≠ t.root)
    (hOne : t.isDir i → t.hasName i = false) (now : Timespec) :
    (t.bindName d n i now).WellFormed := by
  have hE := entry_bindName hDir n i now
  have hNoName : t.isDir i → ∀ e m, t.entry e m ≠ some i := by
    intro hi e m he
    exact ne_of_hasName_false (hOne hi) he rfl
  have hDirs : ∀ j, (t.bindName d n i now).isDir j = t.isDir j := fun j =>
    isDir_eq_of_kind (kind_bindName t d n i now j)
  refine ⟨?_, ?_, ?_, ?_, ?_⟩
  · rw [hDirs]
    exact (root_modify t d _).symm ▸ h.root_isDir
  · intro e m j he
    rw [isSome_inode_of_kind (kind_bindName t d n i now j)]
    rw [hE] at he
    split at he
    · cases he; exact hSome
    · exact h.entry_exists he
  · intro e m j he
    rw [hE] at he
    split at he
    · next hem => exact hem.2 ▸ hName
    · exact h.entry_valid he
  · intro e e' m m' j he he' hj
    rw [hDirs] at hj
    rw [hE] at he he'
    -- with the new name and another one, a directory would have had a name before
    split at he <;> split at he'
    · next h₁ h₂ => exact ⟨h₁.1.trans h₂.1.symm, h₁.2.trans h₂.2.symm⟩
    · cases he; exact absurd he' (hNoName hj _ _)
    · cases he'; exact absurd he (hNoName hj _ _)
    · exact h.dir_unique he he' hj
  · intro e m he
    rw [hE, show (t.bindName d n i now).root = t.root from root_modify t d _] at he
    split at he
    · exact hRoot (Option.some.inj he)
    · exact h.root_unnamed he

theorem entry_drop (i e : Ino) (m : Name) :
    (t.drop i).entry e m = if e = i then none else t.entry e m := by
  unfold entry
  rw [inode_drop]
  split <;> rfl

/-- So does dropping an inode without a name. -/
theorem WellFormed.drop (h : t.WellFormed) {i : Ino} (hRoot : i ≠ t.root)
    (hNone : t.hasName i = false) : (t.drop i).WellFormed := by
  refine h.of_entry rfl (fun he => ?_) fun {j} hj => ?_
  · rw [entry_drop] at he
    split at he
    · cases he
    · exact he
  · have hNe : j ≠ i := by
      rcases hj with rfl | ⟨d, n, he⟩
      · exact hRoot.symm
      · exact ne_of_hasName_false hNone he
    rw [kind, inode_drop, if_neg hNe]
    rfl

end Tree

/-- Replace the bytes of a regular file. -/
def Inode.mapData (g : Bytes → Bytes) (x : Inode) : Inode :=
  match x.content with
  | .regular b => { x with content := .regular (g b) }
  | _ => x

theorem Inode.entry_mapData (g : Bytes → Bytes) (x : Inode) (n : Name) :
    (x.mapData g).content.entry n = x.content.entry n := by
  unfold mapData
  split <;> simp_all [Content.entry]

theorem Inode.kind_mapData (g : Bytes → Bytes) (x : Inode) :
    (x.mapData g).content.kind = x.content.kind := by
  unfold mapData
  split <;> simp_all [Content.kind]

/-- A tree of the kernel. -/
structure FileSystem extends Tree where
  wf : toTree.WellFormed

namespace FileSystem

/-! ## Changes of one inode -/

def setAttr (fs : FileSystem) (i : Ino) (f : Attr → Attr) : FileSystem :=
  ⟨fs.modify i fun x => { x with attr := f x.attr },
    fs.wf.modify_of_entry (fun _ _ => rfl) fun _ => rfl⟩

def setData (fs : FileSystem) (i : Ino) (g : Bytes → Bytes) : FileSystem :=
  ⟨fs.modify i (Inode.mapData g),
    fs.wf.modify_of_entry (Inode.entry_mapData g) (Inode.kind_mapData g)⟩

section Inodes

variable (fs : FileSystem) (i j d : Ino) (f : Attr → Attr) (g : Bytes → Bytes) (n : Name)

@[simp] theorem root_setAttr : (fs.setAttr i f).root = fs.root := root_modify _ _ _

@[simp] theorem root_setData : (fs.setData i g).root = fs.root := root_modify _ _ _

@[simp] theorem cwd_setAttr : (fs.setAttr i f).cwd = fs.cwd := cwd_modify _ _ _

@[simp] theorem cwd_setData : (fs.setData i g).cwd = fs.cwd := cwd_modify _ _ _

theorem inode_setAttr : (fs.setAttr i f).inode j =
      if j = i then (fs.inode j).map fun x => { x with attr := f x.attr } else fs.inode j :=
  inode_modify _ _ _ _

theorem inode_setData : (fs.setData i g).inode j =
      if j = i then (fs.inode j).map (Inode.mapData g) else fs.inode j :=
  inode_modify _ _ _ _

@[simp] theorem entry_setAttr : (fs.setAttr i f).entry d n = fs.entry d n := by
  refine (entry_modify _ i d n _).trans ?_
  split <;> rfl

@[simp] theorem entry_setData : (fs.setData i g).entry d n = fs.entry d n := by
  refine (entry_modify _ i d n _).trans ?_
  simp only [Inode.entry_mapData]
  split <;> rfl

@[simp] theorem kind_setAttr : (fs.setAttr i f).kind j = fs.kind j :=
  kind_modify (f := fun x => { x with attr := f x.attr }) (fun _ => rfl) i j

@[simp] theorem kind_setData : (fs.setData i g).kind j = fs.kind j :=
  kind_modify (Inode.kind_mapData g) i j

end Inodes

/-! ## Changes of names

The four primitives are guarded by what keeps the tree well formed; a system
call only uses them where the guard holds. -/

/-- A new inode, which has no name yet. -/
def alloc (fs : FileSystem) (i : Ino) (x : Inode) : FileSystem :=
  if h : fs.inode i = none ∧ x.content.entries = [] then
    ⟨fs.put i x, fs.wf.put h.1 h.2⟩
  else fs

/-- Drop an inode that has no name. -/
def free (fs : FileSystem) (i : Ino) : FileSystem :=
  if h : i ≠ fs.root ∧ fs.hasName i = false then ⟨fs.drop i, fs.wf.drop h.1 h.2⟩ else fs

def unbind (fs : FileSystem) (d : Ino) (n : Name) (now : Timespec) : FileSystem :=
  ⟨fs.unbindName d n now, fs.wf.unbindName d n now⟩

/-- Directory `d` can give `i` the name `n`. -/
structure Bindable (fs : FileSystem) (d : Ino) (n : Name) (i : Ino) : Prop where
  isDir : fs.isDir d
  valid : ValidName n
  isSome : (fs.inode i).isSome
  ne_root : i ≠ fs.root
  one : fs.isDir i → fs.hasName i = false

instance (fs : FileSystem) (d : Ino) (n : Name) (i : Ino) : Decidable (fs.Bindable d n i) :=
  decidable_of_iff (fs.isDir d ∧ ValidName n ∧ (fs.inode i).isSome ∧ i ≠ fs.root ∧
      (fs.isDir i → fs.hasName i = false))
    ⟨fun ⟨h₁, h₂, h₃, h₄, h₅⟩ => ⟨h₁, h₂, h₃, h₄, h₅⟩,
      fun ⟨h₁, h₂, h₃, h₄, h₅⟩ => ⟨h₁, h₂, h₃, h₄, h₅⟩⟩

def bind (fs : FileSystem) (d : Ino) (n : Name) (i : Ino) (now : Timespec) : FileSystem :=
  if h : fs.Bindable d n i then
    ⟨fs.bindName d n i now, fs.wf.bindName h.isDir h.valid h.isSome h.ne_root h.one now⟩
  else fs

/-- A new inode `i` under the name `n` of `d`. -/
def create (fs : FileSystem) (d : Ino) (n : Name) (i : Ino) (x : Inode) (now : Timespec) :
    FileSystem :=
  (fs.alloc i x).bind d n i now

/-- One more name for `i`. -/
def link (fs : FileSystem) (d : Ino) (n : Name) (i : Ino) (now : Timespec) : FileSystem :=
  (fs.bind d n i now).setAttr i fun a => { a with ctime := now }

/-- Drop the name `n` of `d`, and the inode if that was its last name. -/
def remove (fs : FileSystem) (d : Ino) (n : Name) (now : Timespec) : FileSystem :=
  match fs.entry d n with
  | none => fs
  | some i => ((fs.unbind d n now).setAttr i fun a => { a with ctime := now }).free i

/-- Give what `n` in `d` names the name `n'` in `d'` instead. -/
def move (fs : FileSystem) (d : Ino) (n : Name) (d' : Ino) (n' : Name) (now : Timespec) :
    FileSystem :=
  match fs.entry d n with
  | none => fs
  | some i => ((fs.unbind d n now).bind d' n' i now).setAttr i fun a => { a with ctime := now }

section Names

variable (fs : FileSystem) (d : Ino) (n : Name) (i : Ino) (x : Inode) (now : Timespec) (e : Ino)
  (m : Name) (j : Ino)

@[simp] theorem root_alloc : (fs.alloc i x).root = fs.root := by
  unfold alloc; split <;> rfl

@[simp] theorem root_free : (fs.free i).root = fs.root := by
  unfold free; split <;> rfl

@[simp] theorem root_unbind : (fs.unbind d n now).root = fs.root := root_modify _ _ _

@[simp] theorem root_bind : (fs.bind d n i now).root = fs.root := by
  unfold bind
  split
  · exact root_modify _ _ _
  · rfl

@[simp] theorem cwd_alloc : (fs.alloc i x).cwd = fs.cwd := by
  unfold alloc; split <;> rfl

@[simp] theorem cwd_free : (fs.free i).cwd = fs.cwd := by
  unfold free; split <;> rfl

@[simp] theorem cwd_unbind : (fs.unbind d n now).cwd = fs.cwd := cwd_modify _ _ _

@[simp] theorem cwd_bind : (fs.bind d n i now).cwd = fs.cwd := by
  unfold bind
  split
  · exact cwd_modify _ _ _
  · rfl

@[simp] theorem entry_unbind :
    (fs.unbind d n now).entry e m = if e = d ∧ m = n then none else fs.entry e m :=
  entry_unbindName _ _ _ _ _ _

@[simp] theorem kind_unbind : (fs.unbind d n now).kind j = fs.kind j :=
  kind_unbindName _ _ _ _ _

@[simp] theorem isDir_unbind : (fs.unbind d n now).isDir j = fs.isDir j :=
  isDir_eq_of_kind (kind_unbind fs d n now j)

variable {fs d n i} in
/-- The one name that is new. -/
theorem Bindable.entry_bind (h : fs.Bindable d n i) :
    (fs.bind d n i now).entry e m = if e = d ∧ m = n then some i else fs.entry e m := by
  unfold bind
  rw [dif_pos h]
  exact entry_bindName h.isDir n i now e m

@[simp] theorem kind_bind : (fs.bind d n i now).kind j = fs.kind j := by
  unfold bind
  split
  · exact kind_bindName _ _ _ _ _ _
  · rfl

end Names

/-- A number that is not in use is neither a directory nor the root. -/
theorem isDir_ne_root_of_none {fs : FileSystem} {i : Ino} (h : fs.inode i = none) :
    fs.isDir i = false ∧ i ≠ fs.root := by
  have hDir : fs.isDir i = false := by simp [isDir, h]
  refine ⟨hDir, ?_⟩
  rintro rfl
  exact absurd fs.wf.root_isDir (by simp [hDir])

/-- No name leads to an inode number that is not in use. -/
theorem entry_ne_of_none {fs : FileSystem} {i : Ino} (h : fs.inode i = none) (d : Ino) (n : Name) :
    fs.entry d n ≠ some i := by
  exact fun he => fs.wf.ne_of_none h (.inr ⟨d, n, he⟩) rfl

section Create

variable {fs : FileSystem} {d : Ino} {n : Name} {i : Ino} {x : Inode}

theorem entry_alloc (hFree : fs.inode i = none) (hEmpty : x.content.entries = []) (e : Ino)
    (m : Name) : (fs.alloc i x).entry e m = fs.entry e m := by
  unfold alloc
  rw [dif_pos ⟨hFree, hEmpty⟩]
  exact entry_put_of_none hFree hEmpty e m

theorem inode_alloc (hFree : fs.inode i = none) (hEmpty : x.content.entries = []) (j : Ino) :
    (fs.alloc i x).inode j = if j = i then some x else fs.inode j := by
  unfold alloc
  rw [dif_pos ⟨hFree, hEmpty⟩]
  exact inode_put _ _ _ _

/-- A new object can be given any free name. -/
theorem bindable_alloc (hDir : fs.isDir d) (hName : ValidName n) (hFree : fs.inode i = none)
    (hEmpty : x.content.entries = []) : (fs.alloc i x).Bindable d n i := by
  obtain ⟨hi, hRoot⟩ := isDir_ne_root_of_none hFree
  have hne : d ≠ i := by
    rintro rfl
    exact absurd hDir (by simp [hi])
  refine ⟨?_, hName, ?_, ?_, ?_⟩
  · simpa [isDir, inode_alloc hFree hEmpty, hne] using hDir
  · simp [inode_alloc hFree hEmpty]
  · rwa [root_alloc]
  · intro _
    rw [Bool.eq_false_iff]
    intro hHas
    obtain ⟨e, m, he⟩ := hasName_iff.mp hHas
    rw [entry_alloc hFree hEmpty] at he
    exact entry_ne_of_none hFree e m he

theorem entry_create (hDir : fs.isDir d) (hName : ValidName n) (hFree : fs.inode i = none)
    (hEmpty : x.content.entries = []) (now : Timespec) (e : Ino) (m : Name) :
    (fs.create d n i x now).entry e m = if e = d ∧ m = n then some i else fs.entry e m := by
  unfold create
  rw [(bindable_alloc hDir hName hFree hEmpty).entry_bind, entry_alloc hFree hEmpty]

theorem kind_create (hFree : fs.inode i = none) (hEmpty : x.content.entries = [])
    (now : Timespec) (j : Ino) :
    (fs.create d n i x now).kind j = if j = i then some x.content.kind else fs.kind j := by
  unfold create
  rw [kind_bind, kind, inode_alloc hFree hEmpty]
  split <;> rfl

end Create

section Link

variable {fs : FileSystem} {d : Ino} {n : Name} {i : Ino}

/-- Names for a file may be as many as one likes. -/
theorem bindable_of_not_dir (hDir : fs.isDir d) (hName : ValidName n)
    (hSome : (fs.inode i).isSome) (hNotDir : fs.isDir i = false) : fs.Bindable d n i := by
  refine ⟨hDir, hName, hSome, ?_, ?_⟩
  · rintro rfl
    exact absurd fs.wf.root_isDir (by simp [hNotDir])
  · intro hi
    exact absurd hi (by simp [hNotDir])

theorem entry_link (h : fs.Bindable d n i) (now : Timespec) (e : Ino) (m : Name) :
    (fs.link d n i now).entry e m = if e = d ∧ m = n then some i else fs.entry e m := by
  unfold link
  rw [entry_setAttr, h.entry_bind]

@[simp] theorem kind_link (fs : FileSystem) (d : Ino) (n : Name) (i : Ino) (now : Timespec)
    (j : Ino) : (fs.link d n i now).kind j = fs.kind j := by
  unfold link
  rw [kind_setAttr, kind_bind]

end Link

section Remove

variable {fs : FileSystem} {d : Ino} {n : Name} {i : Ino}

/-- No name is lost with an inode that holds none. -/
theorem entry_free_of_empty (hEmpty : ∀ m, fs.entry i m = none) (e : Ino) (m : Name) :
    (fs.free i).entry e m = fs.entry e m := by
  unfold free
  split
  · refine (entry_drop i e m).trans ?_
    split
    · next h => rw [h, hEmpty]
    · rfl
  · rfl

theorem kind_free_of_ne (fs : FileSystem) {i j : Ino} (h : j ≠ i) :
    (fs.free i).kind j = fs.kind j := by
  unfold free
  split
  · simp [kind, inode_drop, h]
  · rfl

/-- Removing a name of a file or of an empty directory changes no other name. -/
theorem entry_remove (h : fs.entry d n = some i) (hEmpty : ∀ m, fs.entry i m = none)
    (now : Timespec) (e : Ino) (m : Name) :
    (fs.remove d n now).entry e m = if e = d ∧ m = n then none else fs.entry e m := by
  unfold remove
  rw [h]
  refine (entry_free_of_empty ?_ e m).trans ?_
  · intro m'
    simp [hEmpty]
  · simp

theorem kind_remove (h : fs.entry d n = some i) (now : Timespec) {j : Ino} (hj : j ≠ i) :
    (fs.remove d n now).kind j = fs.kind j := by
  unfold remove
  rw [h]
  exact (kind_free_of_ne _ hj).trans (by simp)

end Remove

section Move

variable {fs : FileSystem} {d d' : Ino} {n n' : Name} {i : Ino}

/-- An object that has lost its name can be given another. -/
theorem bindable_unbind (h : fs.entry d n = some i) (hDir : fs.isDir d') (hName : ValidName n')
    (now : Timespec) : (fs.unbind d n now).Bindable d' n' i := by
  refine ⟨by simpa using hDir, hName, ?_, ?_, ?_⟩
  · rw [isSome_inode_of_kind (kind_unbind fs d n now i)]
    exact fs.wf.entry_exists h
  · rintro rfl
    exact fs.wf.root_unnamed (h.trans (by simp))
  · intro hi
    rw [isDir_unbind] at hi
    rw [Bool.eq_false_iff]
    intro hHas
    obtain ⟨e, m, he⟩ := hasName_iff.mp hHas
    rw [entry_unbind] at he
    split at he
    · cases he
    · next hne => exact hne (fs.wf.dir_unique he h hi)

/-- The new name, and the old one no more. -/
theorem entry_move (h : fs.entry d n = some i) (hDir : fs.isDir d') (hName : ValidName n')
    (now : Timespec) (e : Ino) (m : Name) :
    (fs.move d n d' n' now).entry e m =
      if e = d' ∧ m = n' then some i
      else if e = d ∧ m = n then none else fs.entry e m := by
  unfold move
  rw [h]
  simp only [entry_setAttr]
  rw [(bindable_unbind h hDir hName now).entry_bind, entry_unbind]

@[simp] theorem kind_move (fs : FileSystem) (d : Ino) (n : Name) (d' : Ino) (n' : Name)
    (now : Timespec) (j : Ino) : (fs.move d n d' n' now).kind j = fs.kind j := by
  unfold move
  split <;> simp

end Move

/-! ## The smallest file system -/

/-- Nothing but a root directory, which is also the working directory. -/
def rootOnly (root : Ino) (a : Attr) : FileSystem :=
  ⟨Tree.put ⟨∅, root, root⟩ root ⟨.directory ∅, a⟩, by
    have hInode := Tree.inode_put ⟨∅, root, root⟩ root
    have hNone : ∀ d n, (Tree.put ⟨∅, root, root⟩ root ⟨.directory ∅, a⟩).entry d n = none := by
      intro d n
      unfold Tree.entry
      rw [hInode]
      split <;> simp [Tree.inode, Content.entry]
    refine ⟨?_, ?_, ?_, ?_, ?_⟩
    · simp [Tree.isDir, hInode, Content.isDir]
    · intro d n i h; simp [hNone] at h
    · intro d n i h; simp [hNone] at h
    · intro d d' n n' i h; simp [hNone] at h
    · intro d n h; simp [hNone] at h⟩

end FileSystem

end QuicNfs.Kernel

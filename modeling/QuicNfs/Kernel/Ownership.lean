import QuicNfs.Kernel.Resolution

/-!
# QuicNfs — which objects a change is of

What the primitive changes do to inodes other than through their names:

* `FileSystem.Only` — no inode but those of a list changed;
* `FileSystem.Touched` — nothing but the attributes and bytes of one object
  changed;
* `Tree.owner` — the owner and group of an object. Only a new object and
  `setAttr` bring in an owner (`owner_create`, `owner_setAttr`); names come and
  go without one.
-/

namespace QuicNfs.Kernel

open Tree

namespace Tree

/-- The owner and the group of an object. -/
def owner (t : Tree) (i : Ino) : Option (Nat × Nat) :=
  (t.inode i).map fun x => (x.attr.uid, x.attr.gid)

/-- A change of anything but the owner. -/
theorem owner_modify {t : Tree} {i : Ino} {f : Inode → Inode}
    (hf : ∀ x, (f x).attr.uid = x.attr.uid ∧ (f x).attr.gid = x.attr.gid) (j : Ino) :
    (t.modify i f).owner j = t.owner j := by
  unfold owner
  rw [inode_modify]
  split
  · rw [Option.map_map]
    congr 1
    funext x
    simp only [Function.comp, hf]
  · rfl

end Tree

namespace FileSystem

variable {fs fs' fs'' : FileSystem} {d : Ino} {n : Name} {i : Ino}

/-! ## Changes of one object -/

/-- `fs'` is `fs` but for the attributes and bytes of `i`. -/
structure Touched (fs fs' : FileSystem) (i : Ino) : Prop where
  names : fs.SameNames fs'
  other {j : Ino} : j ≠ i → fs'.inode j = fs.inode j

theorem Touched.refl (fs : FileSystem) (i : Ino) : fs.Touched fs i :=
  ⟨SameNames.refl fs, fun _ => rfl⟩

theorem Touched.trans (h : fs.Touched fs' i) (h' : fs'.Touched fs'' i) : fs.Touched fs'' i :=
  ⟨h.names.trans h'.names, fun hj => (h'.other hj).trans (h.other hj)⟩

theorem touched_setAttr (fs : FileSystem) (i : Ino) (f : Attr → Attr) :
    fs.Touched (fs.setAttr i f) i :=
  ⟨sameNames_setAttr fs i f, fun hj => by rw [inode_setAttr, if_neg hj]⟩

theorem touched_setData (fs : FileSystem) (i : Ino) (g : Bytes → Bytes) :
    fs.Touched (fs.setData i g) i :=
  ⟨sameNames_setData fs i g, fun hj => by rw [inode_setData, if_neg hj]⟩

/-! ## Changes of some objects -/

/-- `fs'` is `fs` but for the inodes in `S`. -/
def Only (fs fs' : FileSystem) (S : List Ino) : Prop := ∀ i, i ∉ S → fs'.inode i = fs.inode i

theorem Only.trans {S : List Ino} (h : fs.Only fs' S) (h' : fs'.Only fs'' S) : fs.Only fs'' S :=
  fun i hi => (h' i hi).trans (h i hi)

theorem Only.mono {S S' : List Ino} (h : fs.Only fs' S) (hSub : S ⊆ S') : fs.Only fs' S' :=
  fun i hi => h i fun hS => hi (hSub hS)

theorem Touched.only (h : fs.Touched fs' i) : fs.Only fs' [i] :=
  fun _ hj => h.other (by simpa using hj)

section

variable (fs d n i) (now : Timespec)

theorem only_unbind : fs.Only (fs.unbind d n now) [d] := by
  intro i hi
  exact (inode_modify fs.toTree d i _).trans (if_neg (by simpa using hi))

theorem only_bind : fs.Only (fs.bind d n i now) [d] := by
  intro j hj
  unfold bind
  split
  · exact (inode_modify fs.toTree d j _).trans (if_neg (by simpa using hj))
  · rfl

theorem only_free : fs.Only (fs.free i) [i] := by
  intro j hj
  unfold free
  split
  · exact (inode_drop fs.toTree i j).trans (if_neg (by simpa using hj))
  · rfl

theorem only_link : fs.Only (fs.link d n i now) [d, i] :=
  ((only_bind fs d n i now).mono (by simp)).trans ((touched_setAttr _ i _).only.mono (by simp))

end

/-- A new object and its directory change. -/
theorem only_create {x : Inode} (hFree : fs.inode i = none) (hEmpty : x.content.entries = [])
    (d : Ino) (n : Name) (now : Timespec) : fs.Only (fs.create d n i x now) [d, i] := by
  have hAlloc : fs.Only (fs.alloc i x) [i] := by
    intro j hj
    rw [inode_alloc hFree hEmpty, if_neg (by simpa using hj)]
  exact (hAlloc.mono (by simp)).trans ((only_bind _ d n i now).mono (by simp))

/-- A directory and the object that loses its name change. -/
theorem only_remove (h : fs.entry d n = some i) (now : Timespec) :
    fs.Only (fs.remove d n now) [d, i] := by
  unfold remove
  rw [h]
  have hAttr := ((only_unbind fs d n now).mono (by simp)).trans
    ((touched_setAttr _ i fun a => { a with ctime := now }).only.mono (by simp : [i] ⊆ [d, i]))
  exact hAttr.trans ((only_free _ i).mono (by simp))

/-- Two directories and the object that is moved change. -/
theorem only_move (h : fs.entry d n = some i) (d' : Ino) (n' : Name)
    (now : Timespec) : fs.Only (fs.move d n d' n' now) [d, i, d'] := by
  unfold move
  rw [h]
  have hBind := ((only_unbind fs d n now).mono (by simp)).trans
    ((only_bind _ d' n' i now).mono (by simp : [d'] ⊆ [d, i, d']))
  exact hBind.trans ((touched_setAttr _ i _).only.mono (by simp))

/-! ## Owners -/

/-- Every object has the owner it had. -/
def SameOwners (fs fs' : FileSystem) : Prop := ∀ i, fs'.owner i = fs.owner i

/-- Every object that is left has the owner it had. -/
def KeepsOwners (fs fs' : FileSystem) : Prop :=
  ∀ i, fs'.owner i = none ∨ fs'.owner i = fs.owner i

theorem SameOwners.trans (h : fs.SameOwners fs') (h' : fs'.SameOwners fs'') :
    fs.SameOwners fs'' := fun i => (h' i).trans (h i)

theorem SameOwners.keepsOwners (h : fs.SameOwners fs') : fs.KeepsOwners fs' := fun i => Or.inr (h i)

theorem KeepsOwners.trans_same (h : fs.KeepsOwners fs') (h' : fs'.SameOwners fs'') :
    fs.KeepsOwners fs'' := by
  intro i
  rw [h' i]
  exact h i

/-- The owner of one object is set. -/
theorem owner_setAttr (fs : FileSystem) (i j : Ino) (f : Attr → Attr) :
    (fs.setAttr i f).owner j =
      if j = i then (fs.inode j).map fun x => ((f x.attr).uid, (f x.attr).gid)
      else fs.owner j := by
  unfold owner
  rw [inode_setAttr]
  split
  · rw [Option.map_map]
    rfl
  · rfl

/-- Attributes other than the owner. -/
theorem sameOwners_setAttr (i : Ino) {f : Attr → Attr}
    (hf : ∀ a, (f a).uid = a.uid ∧ (f a).gid = a.gid) : fs.SameOwners (fs.setAttr i f) :=
  owner_modify fun x => hf x.attr

section

variable (fs d n i) (now : Timespec)

theorem sameOwners_setData (g : Bytes → Bytes) : fs.SameOwners (fs.setData i g) := by
  refine owner_modify fun x => ?_
  unfold Inode.mapData
  split <;> exact ⟨rfl, rfl⟩

theorem sameOwners_unbind : fs.SameOwners (fs.unbind d n now) :=
  owner_modify fun _ => ⟨rfl, rfl⟩

theorem sameOwners_bind : fs.SameOwners (fs.bind d n i now) := by
  unfold bind
  split
  · exact owner_modify (t := fs.toTree) (i := d)
      (f := fun x => { content := x.content.bindEntry n i, attr := touchDir now x.attr })
      fun _ => ⟨rfl, rfl⟩
  · exact fun _ => rfl

/-- An object that is gone has no owner. -/
theorem keepsOwners_free : fs.KeepsOwners (fs.free i) := by
  intro j
  unfold free
  split
  · by_cases hj : j = i
    · exact Or.inl (by simp [owner, inode_drop, hj])
    · exact Or.inr (by simp [owner, inode_drop, hj])
  · exact Or.inr rfl

theorem sameOwners_link : fs.SameOwners (fs.link d n i now) :=
  (sameOwners_bind fs d n i now).trans (sameOwners_setAttr i fun _ => ⟨rfl, rfl⟩)

theorem keepsOwners_remove : fs.KeepsOwners (fs.remove d n now) := by
  unfold remove
  split
  · exact fun _ => Or.inr rfl
  · next i _ =>
    -- only dropping the inode with its last name loses an owner
    have hSame := (sameOwners_unbind fs d n now).trans
      (sameOwners_setAttr i (f := fun a => { a with ctime := now }) fun _ => ⟨rfl, rfl⟩)
    intro j
    rcases keepsOwners_free _ i j with h | h
    · exact Or.inl h
    · exact Or.inr (h.trans (hSame j))

end

theorem sameOwners_move (fs : FileSystem) (d : Ino) (n : Name) (d' : Ino) (n' : Name)
    (now : Timespec) : fs.SameOwners (fs.move d n d' n' now) := by
  unfold move
  split
  · exact fun _ => rfl
  · next i _ =>
    exact ((sameOwners_unbind fs d n now).trans (sameOwners_bind _ d' n' i now)).trans
      (sameOwners_setAttr i fun _ => ⟨rfl, rfl⟩)

/-- A new object comes with its owner. -/
theorem owner_create {x : Inode} (hFree : fs.inode i = none) (hEmpty : x.content.entries = [])
    (d : Ino) (n : Name) (now : Timespec) (j : Ino) :
    (fs.create d n i x now).owner j =
      if j = i then some (x.attr.uid, x.attr.gid) else fs.owner j := by
  unfold create
  rw [sameOwners_bind _ d n i now j]
  unfold owner
  rw [inode_alloc hFree hEmpty]
  split <;> rfl

end FileSystem

end QuicNfs.Kernel

import Mathlib.Data.List.AList
import Mathlib.Logic.Relation
import QuicNfs.Kernel.Path

/-!
# QuicNfs — the file tree

The part of the operating system the server works on: inodes, and the names
directories give them.

* `Content` — what an inode holds: bytes, names, or the target of a link;
* `Tree` — inodes by number, with the root and the working directory;
* `Tree.put`, `Tree.drop`, `Tree.modify` — the changes of single inodes;
* `Tree.ancestors` — the directories above a directory.

Everything later is proved from `inode` and `entry` of the changed tree, one
pair of lemmas for each change.
-/

namespace QuicNfs.Kernel

open List

abbrev Ino := Nat

structure Timespec where
  sec : Nat
  nsec : Nat
deriving DecidableEq, Repr

instance : Inhabited Timespec := ⟨⟨0, 0⟩⟩

/-- The special files, on which the server only ever reports. -/
inductive Special where
  | blk | chr | fifo | sock
deriving DecidableEq, Repr

/-- What an inode holds. The entries of a directory leave out `.` and `..`. -/
inductive Content where
  | regular (data : Bytes)
  | directory (entries : AList fun _ : Name => Ino)
  | symlink (target : Path)
  | special (kind : Special)

/-- What path resolution asks of an object. -/
inductive Kind where
  | dir
  | link (target : Path)
  | other
deriving DecidableEq, Repr

/-- The attributes that are not part of the content. `perm` is the low twelve
bits of `st_mode`. -/
structure Attr where
  perm : Nat
  uid : Nat
  gid : Nat
  atime : Timespec
  mtime : Timespec
  ctime : Timespec
deriving DecidableEq, Repr

structure Inode where
  content : Content
  attr : Attr

variable {n : Name} {i : Ino}

namespace Content

/-- The inode a directory gives the name `n`. -/
def entry : Content → Name → Option Ino
  | directory es, n => es.lookup n
  | _, _ => none

/-- The names and inodes a directory holds. -/
def entries : Content → List (Name × Ino)
  | directory es => es.entries.map fun e => (e.1, e.2)
  | _ => []

def isDir : Content → Bool
  | directory _ => true
  | _ => false

def kind : Content → Kind
  | directory _ => .dir
  | symlink target => .link target
  | _ => .other

def bindEntry (n : Name) (i : Ino) : Content → Content
  | directory es => directory (es.insert n i)
  | c => c

def unbindEntry (n : Name) : Content → Content
  | directory es => directory (es.erase n)
  | c => c

variable {c : Content}

/-- The list of entries and the look-up agree. -/
theorem mem_entries : (n, i) ∈ c.entries ↔ c.entry n = some i := by
  cases c with
  | directory es =>
    simp only [entries, entry, mem_map, Prod.mk.injEq]
    rw [← Option.mem_def, AList.mem_lookup_iff]
    constructor
    · rintro ⟨e, he, rfl, rfl⟩
      exact he
    · exact fun h => ⟨_, h, rfl, rfl⟩
  | regular | symlink | special => simp [entries, entry]

theorem isDir_iff_kind : c.isDir ↔ c.kind = .dir := by
  cases c <;> simp [isDir, kind]

@[simp] theorem kind_bindEntry (c : Content) (n : Name) (i : Ino) :
    (c.bindEntry n i).kind = c.kind := by
  cases c <;> rfl

@[simp] theorem kind_unbindEntry (c : Content) (n : Name) :
    (c.unbindEntry n).kind = c.kind := by
  cases c <;> rfl

/-- One entry is new. -/
theorem entry_bindEntry (hDir : c.isDir) (n m : Name) (i : Ino) :
    (c.bindEntry n i).entry m = if m = n then some i else c.entry m := by
  cases c with
  | directory es =>
    by_cases h : m = n
    · subst h; simp [bindEntry, entry]
    · simp [bindEntry, entry, h, AList.lookup_insert_ne]
  | regular | symlink | special => cases hDir

/-- One entry is gone. -/
theorem entry_unbindEntry (c : Content) (n m : Name) :
    (c.unbindEntry n).entry m = if m = n then none else c.entry m := by
  cases c with
  | directory es =>
    by_cases h : m = n
    · subst h; simp [unbindEntry, entry]
    · simp [unbindEntry, entry, h, AList.lookup_erase_ne]
  | regular | symlink | special => simp [unbindEntry, entry]

/-- Only directories have entries. -/
theorem isDir_of_entry (h : c.entry n = some i) : c.isDir := by
  cases c with
  | directory es => rfl
  | regular | symlink | special => cases h

end Content

/-- The inodes of a file system, its root and the server's working directory. -/
structure Tree where
  inodes : AList fun _ : Ino => Inode
  root : Ino
  cwd : Ino

namespace Tree

def inode (t : Tree) (i : Ino) : Option Inode := t.inodes.lookup i

def content (t : Tree) (i : Ino) : Option Content := (t.inode i).map Inode.content

/-- The entry `n` of directory `d`. -/
def entry (t : Tree) (d : Ino) (n : Name) : Option Ino :=
  (t.inode d).bind fun x => x.content.entry n

def isDir (t : Tree) (i : Ino) : Bool := (t.inode i).any fun x => x.content.isDir

def kind (t : Tree) (i : Ino) : Option Kind := (t.inode i).map fun x => x.content.kind

/-- Whether some directory still gives `i` a name. -/
def hasName (t : Tree) (i : Ino) : Bool :=
  t.inodes.entries.any fun x => x.2.content.entries.any fun e => e.2 == i

/-- How many names `i` has. -/
def nameCount (t : Tree) (i : Ino) : Nat :=
  (t.inodes.entries.map fun x => x.2.content.entries.countP fun e => e.2 == i).sum

/-- The directory `..` leads to: the one that holds a name of `d`. -/
def parentOf (t : Tree) (d : Ino) : Option Ino :=
  if d = t.root then some d
  else (t.inodes.entries.find? fun x => x.2.content.entries.any fun e => e.2 == d).map (·.1)

/-- `d` and the directories above it. The fuel only bounds the climb: a path
upwards visits no inode twice. -/
def climb (t : Tree) : Nat → Ino → List Ino
  | 0, _ => []
  | k + 1, d =>
    if d = t.root then [d]
    else d :: ((t.parentOf d).map (t.climb k)).getD []

def ancestors (t : Tree) (d : Ino) : List Ino := t.climb t.inodes.entries.length d

def put (t : Tree) (i : Ino) (x : Inode) : Tree := { t with inodes := t.inodes.insert i x }

def drop (t : Tree) (i : Ino) : Tree := { t with inodes := t.inodes.erase i }

/-- Apply `f` to inode `i`, if there is one. -/
def modify (t : Tree) (i : Ino) (f : Inode → Inode) : Tree :=
  match t.inode i with
  | some x => t.put i (f x)
  | none => t

@[simp] theorem root_put (t : Tree) (i : Ino) (x : Inode) : (t.put i x).root = t.root := rfl

@[simp] theorem root_modify (t : Tree) (i : Ino) (f : Inode → Inode) :
    (t.modify i f).root = t.root := by
  unfold modify; split <;> rfl

@[simp] theorem cwd_modify (t : Tree) (i : Ino) (f : Inode → Inode) :
    (t.modify i f).cwd = t.cwd := by
  unfold modify; split <;> rfl

theorem inode_put (t : Tree) (i j : Ino) (x : Inode) :
    (t.put i x).inode j = if j = i then some x else t.inode j := by
  by_cases h : j = i
  · subst h; simp [put, inode]
  · simp [put, inode, h, AList.lookup_insert_ne]

theorem inode_drop (t : Tree) (i j : Ino) :
    (t.drop i).inode j = if j = i then none else t.inode j := by
  by_cases h : j = i
  · subst h; simp [drop, inode]
  · simp [drop, inode, h, AList.lookup_erase_ne]

/-- No other inode changes. -/
theorem inode_modify (t : Tree) (i j : Ino) (f : Inode → Inode) :
    (t.modify i f).inode j = if j = i then (t.inode j).map f else t.inode j := by
  unfold modify
  cases h : t.inode i with
  | none => by_cases hj : j = i <;> simp [hj, h]
  | some x => by_cases hj : j = i <;> simp [hj, h, inode_put]

variable {t : Tree} {d : Ino}

theorem entry_eq_some :
    t.entry d n = some i ↔ ∃ x, t.inode d = some x ∧ x.content.entry n = some i := by
  simp [entry, Option.bind_eq_some_iff]

theorem isDir_of_entry (h : t.entry d n = some i) : t.isDir d := by
  obtain ⟨x, hx, he⟩ := entry_eq_some.mp h
  simp [isDir, hx, Content.isDir_of_entry he]

theorem isDir_iff : t.isDir d ↔ ∃ x, t.inode d = some x ∧ x.content.isDir := by
  simp [isDir, Option.any_eq_true]

theorem isDir_iff_kind : t.isDir d ↔ t.kind d = some .dir := by
  simp only [isDir_iff, kind, Option.map_eq_some_iff, Content.isDir_iff_kind]

/-- Some directory has the object. -/
theorem hasName_iff : t.hasName i ↔ ∃ d n, t.entry d n = some i := by
  simp only [hasName, any_eq_true, beq_iff_eq, entry_eq_some]
  constructor
  · rintro ⟨⟨d, x⟩, hx, ⟨n, j⟩, he, rfl⟩
    exact ⟨d, n, x, AList.mem_lookup_iff.mpr hx, Content.mem_entries.mp he⟩
  · rintro ⟨d, n, x, hx, he⟩
    exact ⟨⟨d, x⟩, AList.mem_lookup_iff.mp hx, (n, i), Content.mem_entries.mpr he, rfl⟩

/-- An object with one name has no other. -/
theorem entry_unique (hCount : t.nameCount i ≤ 1) {d' : Ino} {n' : Name}
    (h : t.entry d n = some i) (h' : t.entry d' n' = some i) : d = d' ∧ n = n' := by
  -- all names of all directories, each with its directory
  let names := t.inodes.entries.flatMap fun x =>
    x.2.content.entries.map fun e => (x.1, e.1, e.2)
  have hMem : ∀ {d n}, t.entry d n = some i → (d, n, i) ∈ names.filter (·.2.2 == i) := by
    intro d n he
    obtain ⟨x, hx, hn⟩ := entry_eq_some.mp he
    refine mem_filter.mpr ⟨mem_flatMap.mpr ⟨⟨d, x⟩, AList.mem_lookup_iff.mp hx, ?_⟩,
      beq_self_eq_true i⟩
    exact mem_map.mpr ⟨(n, i), Content.mem_entries.mpr hn, rfl⟩
  have hLength : (names.filter (·.2.2 == i)).length ≤ 1 := by
    rw [← countP_eq_length_filter, countP_flatMap]
    refine le_trans (le_of_eq ?_) hCount
    simp only [nameCount, Function.comp_def, countP_map]
  -- a list of at most one name has both of them
  have hEq : (d, n, i) = (d', n', i) := by
    have hx := hMem h
    have hx' := hMem h'
    generalize names.filter (·.2.2 == i) = l at hLength hx hx'
    cases l with
    | nil => exact absurd hx not_mem_nil
    | cons x rest =>
      obtain rfl : rest = [] := by simpa using hLength
      exact (mem_singleton.mp hx).trans (mem_singleton.mp hx').symm
  cases hEq
  exact ⟨rfl, rfl⟩

theorem kind_ne_link_of_isDir (h : t.isDir d) (target : Path) : t.kind d ≠ some (.link target) := by
  rw [isDir_iff_kind.mp h]
  simp

/-- A directory is among its own ancestors. -/
theorem mem_ancestors (h : t.isDir d) : d ∈ t.ancestors d := by
  obtain ⟨x, hx, _⟩ := isDir_iff.mp h
  have hMem : (⟨d, x⟩ : Sigma fun _ : Ino => Inode) ∈ t.inodes.entries := AList.mem_lookup_iff.mp hx
  obtain ⟨k, hk⟩ := Nat.exists_eq_succ_of_ne_zero (Nat.pos_iff_ne_zero.mp (length_pos_of_mem hMem))
  rw [ancestors, hk, climb]
  split <;> simp

end Tree

end QuicNfs.Kernel

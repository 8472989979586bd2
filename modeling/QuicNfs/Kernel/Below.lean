import Mathlib.Logic.Relation
import QuicNfs.Kernel.Descent

/-!
# QuicNfs — below a directory

* `Tree.Below` — an object lies at or below a directory: it is reached through
  entries alone;
* `FileSystem.ClearWay` — names behind the path of a directory that meet no
  symbolic link;
* `ClearWay.below` — what such a path leads to lies below the directory.
-/

namespace QuicNfs.Kernel

open List Tree

/-- `i` is `d`, or is reached from `d` through directory entries. -/
def Tree.Below (t : Tree) : Ino → Ino → Prop :=
  Relation.ReflTransGen fun d i => ∃ n, t.entry d n = some i

variable {d i e : Ino}

/-- More names lead to no fewer objects. -/
theorem Tree.Below.mono {t t' : Tree} (h : ∀ d n i, t.entry d n = some i → t'.entry d n = some i)
    (hBelow : t.Below d i) : t'.Below d i := by
  induction hBelow with
  | refl => exact .refl
  | tail _ hStep ih =>
    obtain ⟨n, hn⟩ := hStep
    exact ih.tail ⟨n, h _ n _ hn⟩

theorem Tree.Below.entry {t : Tree} {n : Name} (h : t.Below e d) (hn : t.entry d n = some i) :
    t.Below e i :=
  Relation.ReflTransGen.tail h ⟨n, hn⟩

/-- The object that was found. -/
def Found.object : Found → Option Ino
  | .dir i _ => some i
  | .leaf _ _ i => some i
  | .missing _ _ => none

namespace FileSystem

variable {fs : FileSystem}

/-- Nothing but the root lies above the root. -/
theorem eq_root_of_below (h : fs.Below d fs.root) : d = fs.root := by
  rcases Relation.ReflTransGen.cases_tail h with hEq | ⟨e, _, n, hn⟩
  · exact hEq.symm
  · exact absurd hn fs.wf.root_unnamed

variable {follow : Bool} {cs : List Name} {p : Path}

/-- A walk of plain names goes down only: it leads through entries. -/
theorem descend_of_walk {last : Last} {f : Found} (h : fs.walk follow d last cs = .ok (.done f))
    (hcs : ∀ c ∈ cs, Plain c) (hi : f.object = some i) : fs.descend d cs = some i := by
  revert hcs
  -- `.` and `..` are not plain; at a symbolic link the walk is not done
  suffices hAll : ∀ r, fs.walk follow d last cs = .ok r → r = .done f →
      (∀ c ∈ cs, Plain c) → fs.descend d cs = some i from hAll _ h rfl
  intro r hr
  refine walk_induction (P := fun d _ cs r => r = .done f → (∀ c ∈ cs, Plain c) →
    fs.descend d cs = some i) ?_ ?_ ?_ ?_ ?_ ?_ ?_ hr
  · rintro d last hf _
    cases hf
    cases hi
    rfl
  · intro d last rest r _ _ _ hcs
    exact absurd rfl (hcs dot (by simp)).ne_dot
  · intro d last p rest r _ _ _ _ hcs
    exact absurd rfl (hcs dotdot (by simp)).ne_dotdot
  · intro d last c j rest r _ hj _ ih hf hcs
    exact Option.bind_eq_some_iff.mpr ⟨j, hj, ih hf fun c hc => hcs c (mem_cons_of_mem _ hc)⟩
  · rintro d last c _ _ _ _ _ hf _
    cases hf
    cases hi
  · rintro d last c j _ hj _ _ hf _
    cases hf
    cases hi
    exact Option.bind_eq_some_iff.mpr ⟨i, hj, rfl⟩
  · rintro d last c j target rest _ _ _ _ hf _
    cases hf

/-- What a list of names leads to is below. -/
theorem below_of_descend (h : fs.descend d cs = some i) : fs.Below d i := by
  induction cs generalizing d with
  | nil =>
    cases h
    exact .refl
  | cons c cs ih =>
    obtain ⟨j, hj, h⟩ := Option.bind_eq_some_iff.mp h
    exact .head ⟨c, hj⟩ (ih h)

/-- What lies below a directory exists. -/
theorem isSome_of_below (hDir : fs.isDir e) (h : fs.Below e i) : (fs.inode i).isSome := by
  rcases Relation.ReflTransGen.cases_tail h with rfl | ⟨d, _, n, hn⟩
  · obtain ⟨x, hx, _⟩ := isDir_iff.mp hDir
    simp [hx]
  · exact fs.wf.entry_exists hn

/-- What the kernel finds at `p`: the object, or the directory in which the name
is free. -/
def leadsTo (fs : FileSystem) (p : Path) : Option Ino :=
  match fs.namei (endsInSlash p) p with
  | .ok (.dir i _) => some i
  | .ok (.leaf _ _ i) => some i
  | .ok (.missing d _) => some d
  | .error _ => none

theorem leadsTo_of_lookup (h : fs.lookup false p = .ok i) : fs.leadsTo p = some i := by
  unfold Tree.lookup at h
  rw [Bool.false_or] at h
  unfold leadsTo
  split at h
  · cases h
  · next hn => rw [hn]; cases h; rfl
  · next hn =>
    rw [hn]
    split at h
    · cases h
    · cases h; rfl
  · cases h

/-- A plain name in a directory leads to the object of that name, or is free
there. -/
theorem leadsTo_join_plain (h : fs.lookup false p = .ok d) (hDir : fs.isDir d) {n : Name}
    (hn : Plain n) (hi : fs.leadsTo (p ++ slash :: n) = some i) :
    fs.lookup false (p ++ slash :: n) = .ok i ∨ i = d := by
  have hSlash := endsInSlash_join_plain p hn
  unfold leadsTo at hi
  rw [hSlash] at hi
  unfold Tree.lookup
  rw [hSlash]
  split at hi
  · next hf => cases hi; exact Or.inl (by simp [hf])
  · next hf => cases hi; exact Or.inl (by simp [hf])
  · next hf =>
    cases hi
    cases slot_of_namei_join h hDir hn hf
    exact Or.inr rfl
  · cases hi

/-! ## Ways without symbolic links -/

/-- The walk stops at a symbolic link. -/
def meetsLink (fs : FileSystem) (follow : Bool) (d : Ino) (cs : List Name) : Bool :=
  match fs.walk follow d .root cs with
  | .ok (.link _ _ _) => true
  | _ => false

/-- Without a link on the way the walk does not stop at one. -/
theorem ne_link_of_meetsLink (h : fs.meetsLink follow d cs = false) (dir : Ino) (target : Path)
    (rest : List Name) : fs.walk follow d .root cs ≠ .ok (.link dir target rest) := by
  intro hw
  rw [meetsLink, hw] at h
  cases h

/-- A link that is met without following the last name is met with it. -/
theorem meetsLink_false_of_true (h : fs.meetsLink true d cs = false) :
    fs.meetsLink false d cs = false := by
  unfold meetsLink
  split
  · next dir target rest hw =>
    have hTrue : fs.walk true d .root cs = .ok (.link dir target rest) := by
      rw [walk_true_of_false fun _ _ _ _ hLeaf => absurd (hw.symm.trans hLeaf) (by simp), hw]
    exact absurd hTrue (ne_link_of_meetsLink h dir target rest)
  · rfl

/-- `p` is the path of the directory `e`, and the names `cs` from there on meet
no symbolic link. -/
structure ClearWay (fs : FileSystem) (follow : Bool) (p : Path) (cs : List Name) (e : Ino) :
    Prop where
  start : fs.lookup false p = .ok e
  isDir : fs.isDir e
  plain : ∀ c ∈ cs, Plain c
  noLink : fs.meetsLink follow e cs = false

theorem ClearWay.of_true (h : fs.ClearWay true p cs e) (follow : Bool) :
    fs.ClearWay follow p cs e := by
  cases follow with
  | true => exact h
  | false => exact ⟨h.start, h.isDir, h.plain, meetsLink_false_of_true h.noLink⟩

/-- A path that ends in a plain name. -/
theorem endsInSlash_joinNames (p : Path) (hNil : cs ≠ []) (hPlain : ∀ c ∈ cs, Plain c) :
    endsInSlash (p ++ joinNames cs) = false := by
  rcases eq_nil_or_concat' cs with hEmpty | ⟨as, a, rfl⟩
  · exact absurd hEmpty hNil
  · rw [joinNames_concat, ← append_assoc]
    exact endsInSlash_join_plain _ (hPlain a (by simp))

/-- `lstat` finds what the walk ends at. -/
theorem object_of_lookup (hSlash : endsInSlash p = false) (h : fs.lookup follow p = .ok i) :
    ∃ f, fs.namei follow p = .ok f ∧ f.object = some i := by
  unfold Tree.lookup at h
  rw [hSlash, Bool.or_false] at h
  cases hn : fs.namei follow p with
  | error err =>
    rw [hn] at h
    cases h
  | ok f =>
    rw [hn] at h
    refine ⟨f, rfl, ?_⟩
    cases f with
    | dir | leaf => exact congrArg some (Except.ok.inj h)
    | missing d n => cases h

/-- A resolution that meets no symbolic link is one walk. -/
theorem walk_of_conclude {mustDir : Bool} {f : Found}
    {next : Ino → Path → List Name → Except Errno Found}
    (hNoLink : fs.meetsLink follow d cs = false)
    (h : conclude mustDir next (fs.walk follow d .root cs) = .ok f) :
    fs.walk follow d .root cs = .ok (.done f) := by
  cases hw : fs.walk follow d .root cs with
  | error err =>
    rw [hw] at h
    cases h
  | ok r =>
    cases r with
    | link dir target rest => exact absurd hw (ne_link_of_meetsLink hNoLink dir target rest)
    | done f' =>
      rw [hw] at h
      rw [eq_of_settle h]

/-- **What a clear way leads to lies below its directory.** -/
theorem ClearWay.below (h : fs.ClearWay follow p cs e)
    (hi : fs.lookup follow (p ++ joinNames cs) = .ok i) : fs.Below e i := by
  cases cs with
  | nil =>
    rw [show joinNames [] = [] from rfl, append_nil] at hi
    have hEq : fs.lookup follow p = .ok e := by
      cases follow with
      | false => exact h.start
      | true => exact lookup_true_of_false h.start (kind_ne_link_of_isDir h.isDir)
    cases hi.symm.trans hEq
    exact .refl
  | cons c cs =>
    have hJoin : p ++ joinNames (c :: cs) = p ++ slash :: (c ++ joinNames cs) := rfl
    have hComponents : components (c ++ joinNames cs) = c :: cs := by
      have := components_joinNames h.plain
      rwa [show joinNames (c :: cs) = slash :: (c ++ joinNames cs) from rfl,
        components_cons_slash] at this
    obtain ⟨f, hn, hObject⟩ := object_of_lookup
      (endsInSlash_joinNames p (cons_ne_nil c cs) h.plain) hi
    rw [hJoin, namei_join h.start h.isDir (by simp [hComponents])
      (by rw [hComponents]; exact ne_link_of_meetsLink h.noLink)
      (length_of_namei (hJoin ▸ hn)), hComponents] at hn
    exact below_of_descend (descend_of_walk (walk_of_conclude h.noLink hn) h.plain hObject)

/-- **A clear way from the root spells what it leads to.** -/
theorem spells_of_lookup (hSpelled : p = joinNames (components p)) (hNil : components p ≠ [])
    (hPlain : ∀ c ∈ components p, Plain c)
    (hNoLink : fs.meetsLink false fs.root (components p) = false) (h : fs.lookup false p = .ok i) :
    fs.Spells p i := by
  have hAbs : isAbsolute p = true := by
    obtain ⟨c, cs, hcs⟩ := exists_cons_of_ne_nil hNil
    rw [hSpelled, hcs]
    rfl
  have hStart : fs.start fs.cwd p = fs.root := by simp [start, hAbs]
  have hSlash : endsInSlash p = false := by
    rw [hSpelled]
    exact endsInSlash_joinNames [] hNil hPlain
  obtain ⟨f, hn, hObject⟩ := object_of_lookup hSlash h
  obtain ⟨-, hLength, hn⟩ := namei_eq_ok.mp hn
  rw [hStart, maxLinks, resolve] at hn
  exact ⟨hSpelled, hNil, descend_of_walk (walk_of_conclude hNoLink hn) hPlain hObject, hLength⟩

end FileSystem

end QuicNfs.Kernel

import QuicNfs.Kernel.Below
import QuicNfs.Lib.PathResolution

/-!
# QuicNfs — paths below a mounted directory

What a path names for a user who sees a part of a file system only: the objects below a
mounted directory, which is the root of absolute paths and its own parent. A directory has
to be searched for every name that is looked up in it, and the user may not search all.

* `namesBelow` — the names that a user can look up;
* `pathResolution` — what a path names, from a working directory;
* `kind_namesBelow_directory`, `kind_namesBelow_link` — the objects are what they are in the
  file system.
-/

namespace QuicNfs.Kernel

open Lib

def linkTarget (target : Path) : LinkTarget Name :=
  ⟨isAbsolute target, components target, endsInSlash target⟩

/-- The objects below `mounted`, for a user who may search the directories in `search`. -/
def namesBelow (fs : FileSystem) (mounted : Ino) (search : Ino → Bool) : NameGraph Ino Name where
  root := mounted
  kind i :=
    match fs.kind i with
    | some .dir => .directory
    | some (.link target) => .link (linkTarget target)
    | _ => .other
  entry d n :=
    -- a directory that may not be searched, or a name that no file system has
    if search d = false ∨ nameMax < n.length then none
    else if n = dot then some d
    -- there is no way up from the mounted directory
    else if n = dotdot then (if d = mounted then some d else fs.parentOf d)
    else fs.entry d n

/-- What a path names. -/
def pathResolution (g : NameGraph Ino Name) (cwd : Ino) (path : Path) : Option Ino :=
  if path = [] then none
  else g.resolve maxLinks (endsInSlash path) (if isAbsolute path then g.root else cwd)
    (components path)

section Kind

variable {fs : FileSystem} {mounted i : Ino} {search : Ino → Bool}

/-- A directory is one in the file system. -/
theorem kind_namesBelow_directory :
    (namesBelow fs mounted search).kind i = .directory ↔ fs.kind i = some .dir := by
  unfold namesBelow
  dsimp only
  split <;> simp_all

theorem kind_namesBelow_link {target : Path} (h : fs.kind i = some (.link target)) :
    (namesBelow fs mounted search).kind i = .link (linkTarget target) := by
  unfold namesBelow
  dsimp only
  rw [h]

/-- A link has the target it has in the file system. -/
theorem exists_of_kind_namesBelow_link {target : LinkTarget Name}
    (h : (namesBelow fs mounted search).kind i = .link target) :
    ∃ path, fs.kind i = some (.link path) ∧ target = linkTarget path := by
  unfold namesBelow at h
  dsimp only at h
  split at h
  · cases h
  · next path hKind => exact ⟨path, hKind, (ObjectKind.link.inj h).symm⟩
  · cases h

theorem kind_namesBelow_ne_link (h : ∀ target, fs.kind i ≠ some (.link target))
    (target : LinkTarget Name) : (namesBelow fs mounted search).kind i ≠ .link target := by
  unfold namesBelow
  dsimp only
  split
  · nofun
  · next path hKind => exact absurd hKind (h path)
  · nofun

end Kind

end QuicNfs.Kernel

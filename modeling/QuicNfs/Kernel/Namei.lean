import QuicNfs.Kernel.FileSystem

/-!
# QuicNfs — path resolution

How the kernel finds the object a path names. `walk` follows components
through directories and stops at the first symbolic link it has to follow;
`resolve` puts the link's target in front of what is left and walks on, at
most `maxLinks` times. The process is root, so no directory refuses the
search.

* `Tree.namei` — a path to what it names: a directory, another object, or a
  free name in a directory that exists;
* `Tree.lookup` — the object a path names, for the calls that need one;
* `Tree.descend` — names followed one by one through directory entries; where
  it succeeds, the walk meets no symbolic link (`walk_of_descend`).
-/

namespace QuicNfs.Kernel

inductive Errno where
  | enoent | eio | enxio | eacces | eexist | enotdir | eisdir | einval | efbig | enospc
  | erofs | ebusy | enomem | enametoolong | enotempty | eloop | edquot | eperm
deriving DecidableEq, Repr

/-- How the last component of a path led to a directory. -/
inductive Last where
  | root
  | dot
  | dotdot
  | name (parent : Ino) (n : Name)
deriving DecidableEq, Repr

/-- What a path names. -/
inductive Found where
  | dir (d : Ino) (last : Last)
  | leaf (parent : Ino) (n : Name) (i : Ino)
  | missing (parent : Ino) (n : Name)
deriving DecidableEq, Repr

/-- Where a walk ends: at the last component, or at a symbolic link in
directory `dir` with `rest` still to go. -/
inductive Walk where
  | done (r : Found)
  | link (dir : Ino) (target : Path) (rest : List Name)
deriving DecidableEq, Repr

def maxLinks : Nat := 40

namespace Tree

/-- Follow `cs` from directory `d`. The last component may be missing; a final
symbolic link is followed only if `follow`. -/
def walk (t : Tree) (follow : Bool) : Ino → Last → List Name → Except Errno Walk
  | d, last, [] => .ok (.done (.dir d last))
  | d, _, c :: rest =>
    if t.isDir d = false then .error .enoent
    else if c.length > nameMax then .error .enametoolong
    else if c = dot then t.walk follow d .dot rest
    else if c = dotdot then
      match t.parentOf d with
      | none => .error .enoent
      | some p => t.walk follow p .dotdot rest
    else
      match t.entry d c with
      | none => if rest = [] then .ok (.done (.missing d c)) else .error .enoent
      | some i =>
        match t.kind i with
        | none => .error .enoent
        | some .dir => t.walk follow i (.name d c) rest
        | some (.link target) =>
          if rest = [] ∧ follow = false then .ok (.done (.leaf d c i))
          else .ok (.link d target rest)
        | some .other => if rest = [] then .ok (.done (.leaf d c i)) else .error .enotdir

/-- The directory a path starts from, read in directory `d`. -/
def start (t : Tree) (d : Ino) (p : Path) : Ino := if isAbsolute p then t.root else d

/-- Where `mustDir`, only a directory will do. -/
def settle (mustDir : Bool) (r : Found) : Except Errno Found :=
  match r with
  | .dir d last => .ok (.dir d last)
  | .leaf d n i => if mustDir then .error .enotdir else .ok (.leaf d n i)
  | .missing d n => if mustDir then .error .enoent else .ok (.missing d n)

/-- The end of a walk; `next` goes on where it stopped at a symbolic link. -/
def conclude (mustDir : Bool) (next : Ino → Path → List Name → Except Errno Found) :
    Except Errno Walk → Except Errno Found
  | .error e => .error e
  | .ok (.done r) => settle mustDir r
  | .ok (.link dir target rest) => next dir target rest

/-- Walk `cs` from `d` through at most `k` symbolic links. -/
def resolve (t : Tree) (follow : Bool) : Nat → Bool → Ino → List Name → Except Errno Found
  | 0, mustDir, d, cs => conclude mustDir (fun _ _ _ => .error .eloop) (t.walk follow d .root cs)
  | k + 1, mustDir, d, cs =>
    -- a target that ends in a slash asks for a directory when it is the end of the path
    conclude mustDir (fun dir target rest =>
      t.resolve follow k (mustDir || (rest.isEmpty && endsInSlash target))
        (t.start dir target) (components target ++ rest)) (t.walk follow d .root cs)

/-- What `p` names. -/
def namei (t : Tree) (follow : Bool) (p : Path) : Except Errno Found :=
  if p = [] then .error .enoent
  else if p.length ≥ pathMax then .error .enametoolong
  else t.resolve follow maxLinks false (t.start t.cwd p) (components p)

/-- The object `p` names. A path that ends in a slash names the directory
behind it, through a symbolic link too. -/
def lookup (t : Tree) (follow : Bool) (p : Path) : Except Errno Ino :=
  match t.namei (follow || endsInSlash p) p with
  | .error e => .error e
  | .ok (.dir d _) => .ok d
  | .ok (.leaf _ _ i) => if endsInSlash p then .error .enotdir else .ok i
  | .ok (.missing _ _) => .error .enoent

/-- Follow names from `d` through directory entries alone. -/
def descend (t : Tree) : Ino → List Name → Option Ino
  | d, [] => some d
  | d, c :: cs => (t.entry d c).bind fun i => t.descend i cs

end Tree

end QuicNfs.Kernel

import Mathlib.Data.List.Basic

/-!
# Path resolution

How a path leads through a graph of objects in which names can stand for symbolic links.
The names are looked up one after the other. A symbolic link on the way is replaced by its
target, which is read in the directory that holds the link, and only so many links may be
met.

* `NameGraph` — the objects, what they are, and the names in them;
* `NameGraph.walk` — the names up to the first link;
* `NameGraph.resolve` — through at most so many links.
-/

namespace Lib

/-- What a symbolic link holds: names to follow from the root, or from where the link is.
With `mustDir` only a directory will do. -/
structure LinkTarget (Name : Type) where
  absolute : Bool
  names : List Name
  mustDir : Bool
deriving DecidableEq, Repr

/-- A target that names nothing. -/
def LinkTarget.empty {Name : Type} (target : LinkTarget Name) : Bool :=
  !target.absolute && target.names.isEmpty

inductive ObjectKind (Name : Type) where
  | directory
  | link (target : LinkTarget Name)
  | other
deriving DecidableEq, Repr

/-- Objects under a root. A directory that may not be searched has no entries. -/
structure NameGraph (Obj Name : Type) where
  root : Obj
  kind : Obj → ObjectKind Name
  entry : Obj → Name → Option Obj

/-- Where a walk ends. At a link, `rest` is still to go. -/
inductive WalkEnd (Obj Name : Type) where
  | nowhere
  | reached (object : Obj)
  | link (dir link : Obj) (target : LinkTarget Name) (rest : List Name)
deriving DecidableEq, Repr

namespace NameGraph

variable {Obj Name : Type} (g : NameGraph Obj Name)

/-- The names from `d`, up to the first that stands for a link. -/
def walk : Obj → List Name → WalkEnd Obj Name
  | d, [] => .reached d
  | d, n :: rest =>
    match g.kind d with
    | .directory =>
      match g.entry d n with
      | none => .nowhere
      | some o =>
        -- the walk stops here also if the link is the last name
        match g.kind o with
        | .link target => .link d o target rest
        | _ => walk o rest
    | _ => .nowhere

/-- Where `mustDir`, only a directory will do. -/
def settle (mustDir : Bool) (o : Obj) : Option Obj :=
  match mustDir, g.kind o with
  | false, _ => some o
  | true, .directory => some o
  | true, _ => none

/-- Where a target that is found in `d` begins. -/
def start (d : Obj) (target : LinkTarget Name) : Obj := if target.absolute then g.root else d

/-- The object behind the names, through at most so many links. -/
def resolve : Nat → Bool → Obj → List Name → Option Obj
  | links, mustDir, d, names =>
    match g.walk d names with
    | .nowhere => none
    | .reached o => g.settle mustDir o
    | .link dir _ target rest =>
      match links with
      -- one link more than may be met
      | 0 => none
      | links + 1 =>
        if target.empty then none
        -- a target that asks for a directory does so at the end of the path only
        else resolve links (mustDir || (rest.isEmpty && target.mustDir)) (g.start dir target)
          (target.names ++ rest)

variable {g} {links : Nat} {mustDir : Bool} {d dir o : Obj} {n : Name} {names rest : List Name}
variable {target : LinkTarget Name}

theorem walk_cons_some (hDir : g.kind d = .directory) (hEntry : g.entry d n = some o)
    (hKind : ∀ target, g.kind o ≠ .link target) : g.walk d (n :: rest) = g.walk o rest := by
  rw [walk, hDir]
  dsimp only
  rw [hEntry]
  dsimp only
  split
  · next target hLink => exact absurd hLink (hKind target)
  · rfl

theorem walk_cons_link (hDir : g.kind d = .directory) (hEntry : g.entry d n = some o)
    (hKind : g.kind o = .link target) : g.walk d (n :: rest) = .link d o target rest := by
  rw [walk, hDir]
  dsimp only
  rw [hEntry]
  dsimp only
  rw [hKind]

theorem walk_cons_none (hDir : g.kind d = .directory) (hEntry : g.entry d n = none) :
    g.walk d (n :: rest) = .nowhere := by
  rw [walk, hDir]
  dsimp only
  rw [hEntry]

/-- There are no names in what is not a directory. -/
theorem walk_cons_other (hDir : g.kind d ≠ .directory) : g.walk d (n :: rest) = .nowhere := by
  rw [walk]
  split
  · next h => exact absurd h hDir
  · rfl

/-- What a walk stops at is a link. -/
theorem kind_of_walk_link (hWalk : g.walk d names = .link dir o target rest) :
    g.kind o = .link target := by
  -- only the link itself stops the walk, every other object is walked through
  induction names generalizing d with
  | nil => cases hWalk
  | cons n names ih =>
    by_cases hDir : g.kind d = .directory
    · rcases hEntry : g.entry d n with - | next
      · rw [walk_cons_none hDir hEntry] at hWalk
        cases hWalk
      · by_cases hLink : ∃ target, g.kind next = .link target
        · obtain ⟨target', hTarget⟩ := hLink
          rw [walk_cons_link hDir hEntry hTarget] at hWalk
          cases hWalk
          exact hTarget
        · rw [walk_cons_some hDir hEntry fun target h => hLink ⟨target, h⟩] at hWalk
          exact ih hWalk
    · rw [walk_cons_other hDir] at hWalk
      cases hWalk

theorem resolve_nowhere (hWalk : g.walk d names = .nowhere) :
    g.resolve links mustDir d names = none := by
  unfold resolve
  rw [hWalk]

theorem resolve_reached (hWalk : g.walk d names = .reached o) :
    g.resolve links mustDir d names = g.settle mustDir o := by
  unfold resolve
  rw [hWalk]

theorem resolve_link_zero (hWalk : g.walk d names = .link dir o target rest) :
    g.resolve 0 mustDir d names = none := by
  unfold resolve
  rw [hWalk]

theorem resolve_link_succ (hWalk : g.walk d names = .link dir o target rest)
    (hEmpty : target.empty = false) :
    g.resolve (links + 1) mustDir d names =
      g.resolve links (mustDir || (rest.isEmpty && target.mustDir)) (g.start dir target)
        (target.names ++ rest) := by
  conv_lhs => unfold resolve
  rw [hWalk]
  show (if target.empty = true then none else _) = _
  rw [if_neg (by rw [hEmpty]; exact Bool.false_ne_true)]

end NameGraph

end Lib

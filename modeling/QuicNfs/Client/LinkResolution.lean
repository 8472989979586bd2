import QuicNfs.Client.BrokenLinks
import QuicNfs.Kernel.PathResolution

/-!
# QuicNfs — path resolution in the REPL

`resolve_path` and `follow_symbolic_links` are to resolve a path as `path_resolution(7)`
says, with the mounted directory as the root. They do so for some paths only: a link is
followed if it is the last component, and a relative target is read in the working directory,
wherever the link is.

* `TreeServer` — a server whose LOOKUP and READLINK tell the truth about a tree;
* `Straight` — paths on which the two ways of resolution do not part;
* `resolution_agrees` — on these the REPL finds what it should.
-/

namespace QuicNfs.Client

open Kernel Server Lib NameGraph

/-! ## A correct server -/

/-- A tree that does not change, seen below the mounted directory. The user may look up names
in the directories of `search`. -/
structure TreeServer where
  fs : FileSystem
  mounted : Ino
  search : Ino → Bool
  stamp : Ino → Nat
  attributes : Ino → FAttr
  ftype_dir (i : Ino) : (attributes i).nfsFtype = .nfDir ↔ fs.kind i = some .dir
  ftype_link (i : Ino) :
    (attributes i).nfsFtype = .nfLnk ↔ ∃ target, fs.kind i = some (.link target)

namespace TreeServer

variable (s : TreeServer)

def names : NameGraph Ino Name := namesBelow s.fs s.mounted s.search

def lookup (d : Ino) (n : Name) : NfsReply DirOpOk :=
  -- what may not be searched is reported like what is not there
  match s.names.kind d with
  | .directory =>
    match s.names.entry d n with
    | none => .err .nfserrNoent
    | some o => .ok ⟨⟨o, s.stamp o⟩, s.attributes o⟩
  | _ => .err .nfserrNotdir

def readlink (i : Ino) : NfsReply Bytes :=
  match s.fs.kind i with
  | some (.link target) => .ok target
  | _ => .err .nfserrNxio

def exec {β : Type} : Rpc β → TreeServer → β × TreeServer
  | .call (.lookup ⟨some ⟨some d⟩, some ⟨some n⟩⟩), s =>
    (some (.dirOpRes (s.lookup d.inodeNumber n)), s)
  | .call (.readlink ⟨some i⟩), s => (some (.readLinkRes (s.readlink i.inodeNumber)), s)
  | .call _, s => (none, s)

instance : Handler Rpc TreeServer := ⟨exec⟩

variable {s} {α : Type}

theorem run_lookup (d : NfsFileHandle) (n : Bytes) (k : StubResult DirOpOk → Remote α) :
    (nfsProcedure4LookUpFileName ⟨some ⟨some d⟩, some ⟨some n⟩⟩ >>= k).run s =
      (k (.of (s.lookup d.inodeNumber n))).run s := rfl

theorem run_readlink (i : NfsFileHandle) (k : StubResult Bytes → Remote α) :
    (nfsProcedure5ReadFromSymbolicLink ⟨some i⟩ >>= k).run s =
      (k (.of (s.readlink i.inodeNumber))).run s := rfl

/-! ## The lookups of the REPL -/

/-- What `resolve_path` makes of the end of a walk. -/
def Meets (result : Option (NfsFileHandle × FType)) : WalkEnd Ino Name → Prop
  | .nowhere => result = none
  | .reached o => ∃ fhandle ftype, result = some (fhandle, ftype) ∧ fhandle.inodeNumber = o ∧
      ftype ≠ .nfLnk
  | .link _ o _ rest =>
    if rest = [] then ∃ fhandle, result = some (fhandle, .nfLnk) ∧ fhandle.inodeNumber = o
    else result = none

theorem run_components {fhandle : NfsFileHandle} {ftype : FType}
    (hDir : ftype = .nfDir ↔ s.fs.kind fhandle.inodeNumber = some .dir) (hFile : ftype ≠ .nfLnk)
    (names : List Bytes) :
    ∃ result, (resolveComponents fhandle ftype names).run s = (result, s) ∧
      Meets result (s.names.walk fhandle.inodeNumber names) := by
  -- the invariant: the type says whether the handle is that of a directory, and it is no link
  induction names generalizing fhandle ftype with
  | nil => exact ⟨_, rfl, fhandle, ftype, rfl, rfl, hFile⟩
  | cons n rest ih =>
    unfold resolveComponents
    by_cases hType : ftype = .nfDir
    · have hKind : s.names.kind fhandle.inodeNumber = .directory :=
        kind_namesBelow_directory.mpr (hDir.mp hType)
      rw [if_neg (not_not.mpr hType), run_lookup, lookup, hKind]
      dsimp only
      rcases hEntry : s.names.entry fhandle.inodeNumber n with - | o
      · rw [walk_cons_none hKind hEntry]
        exact ⟨none, rfl, rfl⟩
      dsimp only [StubResult.of]
      by_cases hLink : ∃ target, s.fs.kind o = some (.link target)
      · have hLinkType := (s.ftype_link o).mpr hLink
        obtain ⟨target, hTarget⟩ := hLink
        rw [walk_cons_link hKind hEntry (kind_namesBelow_link hTarget), hLinkType]
        -- a link is no directory, so that only the last component can be one
        cases rest with
        | nil => exact ⟨_, rfl, _, rfl, rfl⟩
        | cons n' rest => exact ⟨none, rfl, rfl⟩
      · have hNoLink : ∀ target, s.fs.kind o ≠ some (.link target) := by simpa using hLink
        rw [walk_cons_some hKind hEntry (kind_namesBelow_ne_link hNoLink)]
        exact ih (s.ftype_dir o) fun hType => hLink ((s.ftype_link o).mp hType)
    · have hKind : s.names.kind fhandle.inodeNumber ≠ .directory := fun h =>
        hType (hDir.mpr (kind_namesBelow_directory.mp h))
      rw [if_pos hType, walk_cons_other hKind]
      exact ⟨none, rfl, rfl⟩

end TreeServer

/-! ## Following the links -/

/-- The REPL has found the object that it should have found, or has reported that there is
none. -/
def Agrees (followed : Followed) : Option Ino → Prop
  | none => followed = .null
  | some o => ∃ fhandle, followed = .found fhandle ∧ fhandle.inodeNumber = o

/-- The names lead to an object. A link on the way is the last name, and a relative one is in
the working directory. Where a slash asks for a directory, there is one. -/
def Straight (g : NameGraph Ino Name) (cwd : Ino) : Nat → Bool → Ino → List Name → Prop
  | links, mustDir, d, names =>
    match g.walk d names with
    | .nowhere => False
    | .reached o => mustDir = true → g.kind o = .directory
    | .link dir _ target rest =>
      rest = [] ∧
        match links with
        | 0 => True
        | links + 1 => target.empty = false ∧ (target.absolute = true ∨ dir = cwd) ∧
            Straight g cwd links (mustDir || target.mustDir) (g.start dir target) target.names

section Following

variable {s : TreeServer} {state : ReplState}

/-- Where there is no link, there is nothing to follow. -/
theorem agrees_reached (unset : Nat → FType) {levels : Nat} {mustDir : Bool} {cwd d o : Ino}
    {names : List Bytes} {result : Option (NfsFileHandle × FType)}
    (hWalk : s.names.walk d names = .reached o)
    (hMeets : TreeServer.Meets result (s.names.walk d names))
    (hStraight : Straight s.names cwd levels mustDir d names) :
    ∃ fhandle ftype, result = some (fhandle, ftype) ∧
      Agrees ((followLevels unset state levels (some fhandle) ftype).run s).1
        (s.names.resolve levels mustDir d names) := by
  unfold Straight at hStraight
  rw [hWalk] at hMeets hStraight
  obtain ⟨fhandle, ftype, rfl, hIno, hFile⟩ := hMeets
  have hSettle : s.names.settle mustDir o = some o := by
    unfold settle
    cases mustDir with
    | false => rfl
    | true => rw [hStraight rfl]
  refine ⟨fhandle, ftype, rfl, ?_⟩
  rw [resolve_reached hWalk, hSettle, (end_of_chain unset levels fhandle hFile).2]
  exact ⟨fhandle, rfl, hIno⟩

variable (hMounted : state.filesystemDagRoot.fhandle.inodeNumber = s.mounted)
  (hRootDir : s.fs.kind s.mounted = some .dir)
  (hCwdDir : s.fs.kind state.cwdNode.fhandle.inodeNumber = some .dir)
include hMounted hRootDir hCwdDir

/-- `resolve_path` begins in a directory. -/
theorem run_resolvePath {path : Bytes} (hPath : path ≠ []) :
    ∃ result, (resolvePath state path).run s = (result, s) ∧
      TreeServer.Meets result (s.names.walk
        (if isAbsolute path then s.mounted else state.cwdNode.fhandle.inodeNumber)
        (components path)) := by
  unfold resolvePath
  rw [if_neg hPath]
  by_cases hSlash : path.head? = some slash
  · have hAbsolute : isAbsolute path = true := beq_iff_eq.mpr hSlash
    rw [if_pos hSlash, if_pos hAbsolute, ← hMounted]
    exact TreeServer.run_components (iff_of_true rfl (by rw [hMounted]; exact hRootDir)) nofun _
  · have hRelative : ¬ isAbsolute path = true := fun h => hSlash (beq_iff_eq.mp h)
    rw [if_neg hSlash, if_neg hRelative]
    exact TreeServer.run_components (iff_of_true rfl hCwdDir) nofun _

/-- Hop by hop, the REPL is where the resolution is. -/
theorem agrees_followLevels (unset : Nat → FType) {levels : Nat} {mustDir : Bool} {d : Ino}
    {names : List Bytes} {result : Option (NfsFileHandle × FType)}
    (hMeets : TreeServer.Meets result (s.names.walk d names))
    (hStraight : Straight s.names state.cwdNode.fhandle.inodeNumber levels mustDir d names) :
    ∃ fhandle ftype, result = some (fhandle, ftype) ∧
      Agrees ((followLevels unset state levels (some fhandle) ftype).run s).1
        (s.names.resolve levels mustDir d names) := by
  -- a link costs both sides one level, so that the limits are met together
  induction levels generalizing mustDir d names result with
  | zero =>
    rcases hWalk : s.names.walk d names with - | o | ⟨dir, o, target, rest⟩
    · unfold Straight at hStraight
      rw [hWalk] at hStraight
      exact hStraight.elim
    · exact agrees_reached unset hWalk hMeets hStraight
    · unfold Straight at hStraight
      rw [hWalk] at hMeets hStraight
      obtain rfl : rest = [] := hStraight.1
      obtain ⟨fhandle, rfl, -⟩ := hMeets
      rw [resolve_link_zero hWalk]
      -- too many links, for both
      exact ⟨fhandle, .nfLnk, rfl, rfl⟩
  | succ levels ih =>
    rcases hWalk : s.names.walk d names with - | o | ⟨dir, o, target, rest⟩
    · unfold Straight at hStraight
      rw [hWalk] at hStraight
      exact hStraight.elim
    · exact agrees_reached unset hWalk hMeets hStraight
    · unfold Straight at hStraight
      rw [hWalk] at hMeets hStraight
      obtain ⟨rfl, hEmpty, hBase, hNext⟩ := hStraight
      obtain ⟨fhandle, rfl, rfl⟩ := hMeets
      -- what READLINK returns is the text that the target was read from
      obtain ⟨path, hKind, rfl⟩ := exists_of_kind_namesBelow_link (kind_of_walk_link hWalk)
      have hPath : path ≠ [] := by
        rintro rfl
        cases hEmpty
      -- the target begins where the resolution goes on
      obtain ⟨next, hRun, hMeets⟩ := run_resolvePath hMounted hRootDir hCwdDir hPath
      have hStart : (if isAbsolute path then s.mounted else state.cwdNode.fhandle.inodeNumber) =
          s.names.start dir (linkTarget path) := by
        show _ = if isAbsolute path then s.mounted else dir
        rcases hBase with hAbsolute | rfl
        -- from the root, or from a link that lies in the working directory itself
        · change isAbsolute path = true at hAbsolute
          rw [if_pos hAbsolute, if_pos hAbsolute]
        · rfl
      rw [hStart] at hMeets
      obtain ⟨nextFhandle, nextType, rfl, hAgrees⟩ := ih hMeets hNext
      refine ⟨fhandle, .nfLnk, rfl, ?_⟩
      rw [resolve_link_succ hWalk hEmpty, followLevels, if_pos rfl,
        TreeServer.run_readlink, TreeServer.readlink, hKind]
      dsimp only [StubResult.of]
      rw [Prog.run_bind, hRun, List.append_nil]
      exact hAgrees

end Following

/-- A path that is resolved without detours, from the working directory. -/
def StraightPath (g : NameGraph Ino Name) (cwd : Ino) (path : Bytes) : Prop :=
  Straight g cwd maxLinks (endsInSlash path) (if isAbsolute path then g.root else cwd)
    (components path)

/-- **The REPL resolves straight paths.** At a server that tells the truth, let a path lead to
no object before it has met a link, or let it be straight. Then the REPL finds the object that
the path names with the mounted directory as the root, or reports that it names none. -/
theorem resolution_agrees (s : TreeServer) (state : ReplState)
    (hMounted : state.filesystemDagRoot.fhandle.inodeNumber = s.mounted)
    (hRootDir : s.fs.kind s.mounted = some .dir)
    (hCwdDir : s.fs.kind state.cwdNode.fhandle.inodeNumber = some .dir) (path : Bytes)
    (hPath : s.names.walk (if isAbsolute path then s.mounted else state.cwdNode.fhandle.inodeNumber)
        (components path) = .nowhere ∨
      StraightPath s.names state.cwdNode.fhandle.inodeNumber path) (unset : Nat → FType) :
    Agrees ((resolveAndFollow unset state path).run s).1
      (pathResolution s.names state.cwdNode.fhandle.inodeNumber path) := by
  unfold resolveAndFollow pathResolution
  by_cases hNil : path = []
  · subst hNil
    exact rfl
  rw [if_neg hNil, Prog.run_bind]
  obtain ⟨result, hRun, hMeets⟩ := run_resolvePath hMounted hRootDir hCwdDir hNil
  rw [hRun]
  -- a path that leads nowhere before it has met a link is reported as such
  rcases hPath with hNowhere | hStraight
  · rw [hNowhere] at hMeets
    obtain rfl : result = none := hMeets
    have hNone : s.names.resolve maxLinks (endsInSlash path)
        (if isAbsolute path then s.names.root else state.cwdNode.fhandle.inodeNumber)
        (components path) = none := resolve_nowhere hNowhere
    rw [hNone]
    rfl
  · obtain ⟨fhandle, ftype, rfl, hAgrees⟩ :=
      agrees_followLevels hMounted hRootDir hCwdDir unset hMeets hStraight
    exact hAgrees

namespace Sample

/-- The server for a user who may search every directory. -/
def truthful (fs : FileSystem) (mounted : Ino) : TreeServer where
  fs := fs
  mounted := mounted
  search _ := true
  stamp _ := 0
  attributes i :=
    let ftype := match fs.kind i with
      | some .dir => .nfDir
      | some (.link _) => .nfLnk
      | _ => .nfReg
    ⟨ftype, 0o777, 1, 0, 0, 0, 4096, 0, 0, 1, i, ⟨0, 0⟩, ⟨0, 0⟩, ⟨0, 0⟩⟩
  ftype_dir i := by
    dsimp only
    split <;> simp_all
  ftype_link i := by
    dsimp only
    split <;> simp_all

/-- The export with a second file `f`, which is not the one in `a`, with a link `r` to `f` in
`a`, and with a link `d` to `a`. -/
def linked : FileSystem :=
  Server.Sample.files
    |>.create 2 (bytes "f") 7 ⟨.regular [], Server.Sample.attr 0o644⟩ default
    |>.create 3 (bytes "r") 8 ⟨.symlink (bytes "f"), Server.Sample.attr 0o777⟩ default
    |>.create 2 (bytes "d") 9 ⟨.symlink (bytes "a"), Server.Sample.attr 0o777⟩ default

theorem straight_linked : StraightPath (truthful linked 2).names 2 (bytes "d") := by
  have hLink : (truthful linked 2).names.walk
      (if isAbsolute (bytes "d") then (truthful linked 2).names.root else 2)
      (components (bytes "d")) = .link 2 9 (linkTarget (bytes "a")) [] := by decide +kernel
  have hTarget : (truthful linked 2).names.walk
      ((truthful linked 2).names.start 2 (linkTarget (bytes "a")))
      (linkTarget (bytes "a")).names = .reached 3 := by decide +kernel
  unfold StraightPath maxLinks Straight
  rw [hLink]
  refine ⟨rfl, by decide +kernel, .inr rfl, ?_⟩
  unfold Straight
  rw [hTarget]
  intro _
  decide +kernel

end Sample

/-- A link in the working directory. -/
theorem resolution_agrees_link :
    Agrees ((resolveAndFollow (fun _ => .nfReg) Sample.atRoot (bytes "d")).run
      (Sample.truthful Sample.linked 2)).1 (some 3) := by
  have hNamed : pathResolution (Sample.truthful Sample.linked 2).names 2 (bytes "d") = some 3 := by
    decide +kernel
  rw [← hNamed]
  exact resolution_agrees (Sample.truthful Sample.linked 2) Sample.atRoot rfl (by decide +kernel)
    (by decide +kernel) (bytes "d") (.inr Sample.straight_linked) _

/-- **The wrong file, and no file.** The path `a/r` is a link to the file `f` beside it, and
the REPL gives the file `f` of the working directory. The path `d/f` leads through a link to
the same file, and the REPL gives none. And it takes `f/` for the file `f`. -/
theorem resolution_differs :
    let s := Sample.truthful Sample.linked 2
    let repl := fun path => ((resolveAndFollow (fun _ => .nfReg) Sample.atRoot path).run s).1
    (pathResolution s.names 2 (bytes "a/r") = some 4 ∧ repl (bytes "a/r") = .found ⟨7, 0⟩) ∧
      (pathResolution s.names 2 (bytes "d/f") = some 4 ∧ repl (bytes "d/f") = .null) ∧
      (pathResolution s.names 2 (bytes "f/") = none ∧ repl (bytes "f/") = .found ⟨7, 0⟩) := by
  decide +kernel

end QuicNfs.Client

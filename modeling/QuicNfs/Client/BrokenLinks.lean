import QuicNfs.Client.Repl
import QuicNfs.Client.Resolution

/-!
# QuicNfs — broken symbolic links

`follow_symbolic_links` notices a READLINK that fails. It does not notice a target that is
not resolved: it goes on with a null pointer for the handle, and with a file type that
nothing has set.

* `pursue` — what the function is for: it stops at the first hop that fails;
* `hop_cases` — what can become of one hop;
* `followLevels_eq_pursue` — it does so as long as the targets are resolved;
* `followLevels_crashes` — it does not if one is not;
* `broken_links_reported_iff` — both together.
-/

namespace QuicNfs.Client

open Kernel Server Lib

/-- Where a chain of symbolic links ends. -/
inductive Pursuit where
  | unreadable
  | unresolved
  | tooMany
  | found (fhandle : NfsFileHandle)
deriving DecidableEq, Repr

/-- A chain that has not come to a file gives no handle. -/
def Pursuit.followed : Pursuit → Followed
  | found fhandle => .found fhandle
  | _ => .null

/-- The chain hop by hop, up to the first one that fails. -/
def pursue (state : ReplState) : Nat → NfsFileHandle → FType → Remote Pursuit
  | 0, fhandle, ftype => if ftype = .nfLnk then return .tooMany else return .found fhandle
  | levelsLeft + 1, fhandle, ftype =>
    if ftype = .nfLnk then do
      match ← nfsProcedure5ReadFromSymbolicLink ⟨some fhandle⟩ with
      | .failed => return .unreadable
      | .err _ => return .unreadable
      | .ok targetPath =>
        match ← resolvePath state targetPath with
        | none => return .unresolved
        | some (nextFhandle, nextFtype) => pursue state levelsLeft nextFhandle nextFtype
    else return .found fhandle

section Environment

variable {σ : Type} [Handler Rpc σ] {state : ReplState}

/-- What can become of one hop: the link is not read, its target is not resolved, or the
chain goes on. -/
theorem hop_cases (unset : Nat → FType) (levelsLeft : Nat) (fhandle : NfsFileHandle) (s : σ) :
    (∃ s', (pursue state (levelsLeft + 1) fhandle .nfLnk).run s = (.unreadable, s') ∧
      (followLevels unset state (levelsLeft + 1) (some fhandle) .nfLnk).run s = (.null, s')) ∨
    (∃ s', (pursue state (levelsLeft + 1) fhandle .nfLnk).run s = (.unresolved, s') ∧
      (followLevels unset state (levelsLeft + 1) (some fhandle) .nfLnk).run s =
        (followLevels unset state levelsLeft none (unset levelsLeft)).run s') ∨
    ∃ next ftype s', (pursue state (levelsLeft + 1) fhandle .nfLnk).run s =
        (pursue state levelsLeft next ftype).run s' ∧
      (followLevels unset state (levelsLeft + 1) (some fhandle) .nfLnk).run s =
        (followLevels unset state levelsLeft (some next) ftype).run s' := by
  rw [pursue, followLevels, if_pos rfl, if_pos rfl]
  simp only [Prog.run_bind]
  generalize (nfsProcedure5ReadFromSymbolicLink ⟨some fhandle⟩).run s = read
  obtain ⟨result, s₁⟩ := read
  cases result with
  | failed | err stat => exact .inl ⟨s₁, rfl, rfl⟩
  | ok targetPath =>
    simp only [Prog.run_bind]
    generalize (resolvePath state targetPath).run s₁ = target
    obtain ⟨next, s₂⟩ := target
    cases next with
    | none => exact .inr (.inl ⟨s₂, rfl, rfl⟩)
    | some next => exact .inr (.inr ⟨next.1, next.2, s₂, rfl, rfl⟩)

variable {ftype : FType}

/-- A file that is not a link is the end of the chain. -/
theorem end_of_chain (unset : Nat → FType) (levelsLeft : Nat) (fhandle : NfsFileHandle)
    (hFile : ftype ≠ .nfLnk) :
    pursue state levelsLeft fhandle ftype = pure (.found fhandle) ∧
      followLevels unset state levelsLeft (some fhandle) ftype = pure (.found fhandle) := by
  cases levelsLeft with
  | zero | succ => exact ⟨if_neg hFile, if_neg hFile⟩

/-- As long as the targets are resolved, every hop is noticed. -/
theorem followLevels_eq_pursue (unset : Nat → FType) {levelsLeft : Nat} {fhandle : NfsFileHandle}
    {s : σ} (h : ((pursue state levelsLeft fhandle ftype).run s).1 ≠ .unresolved) :
    (followLevels unset state levelsLeft (some fhandle) ftype).run s =
      (((pursue state levelsLeft fhandle ftype).run s).1.followed,
        ((pursue state levelsLeft fhandle ftype).run s).2) := by
  -- on the levels left; both functions make the same calls, so the state stays the same
  induction levelsLeft generalizing fhandle ftype s with
  | zero =>
    unfold followLevels pursue
    split <;> rfl
  | succ levelsLeft ih =>
    by_cases hLink : ftype = .nfLnk
    · subst hLink
      rcases hop_cases unset levelsLeft fhandle s with
        ⟨s', hPursue, hFollow⟩ | ⟨s', hPursue, -⟩ | ⟨next, ftype, s', hPursue, hFollow⟩
      · rw [hPursue, hFollow]
        rfl
      -- the hypothesis excludes the one hop after which the two part
      · exact absurd (congrArg Prod.fst hPursue) h
      · rw [hPursue] at h
        rw [hPursue, hFollow]
        exact ih h
    · obtain ⟨hPursue, hFollow⟩ := end_of_chain unset (levelsLeft + 1) fhandle hLink
      rw [hPursue, hFollow]
      rfl

/-- The null pointer is used if the file type is not that of a link by chance. -/
theorem followLevels_crashes {levelsLeft : Nat} {fhandle : NfsFileHandle} {ftype : FType} {s : σ}
    (h : ((pursue state levelsLeft fhandle ftype).run s).1 = .unresolved) :
    ((followLevels (fun _ => .nfReg) state levelsLeft (some fhandle) ftype).run s).1 = .crashes := by
  induction levelsLeft generalizing fhandle ftype s with
  | zero =>
    unfold pursue at h
    split at h <;> cases h
  | succ levelsLeft ih =>
    by_cases hLink : ftype = .nfLnk
    · subst hLink
      rcases hop_cases (fun _ => .nfReg) levelsLeft fhandle s with
        ⟨s', hPursue, -⟩ | ⟨s', -, hFollow⟩ | ⟨next, ftype, s', hPursue, hFollow⟩
      · rw [hPursue] at h
        cases h
      -- here the target is not resolved; a regular file leaves the loop and its handle is copied
      · rw [hFollow]
        cases levelsLeft <;> rfl
      · rw [hPursue] at h
        rw [hFollow]
        exact ih h
    · rw [(end_of_chain (fun _ => .nfReg) (levelsLeft + 1) fhandle hLink).1] at h
      cases h

end Environment

/-- **Broken links are reported** if and only if no target is broken. In any environment, the
function ends as it should whatever the variables hold that nothing has set, exactly if the
target of each link on the way is resolved. A READLINK that fails is always noticed. -/
theorem broken_links_reported_iff {σ : Type} [Handler Rpc σ] (state : ReplState)
    (startFileFhandle : NfsFileHandle) (startFileType : FType) (s : σ) :
    (∀ unset, (followSymbolicLinks unset state startFileFhandle startFileType).run s =
        (((pursue state SYMLINK_LEVELS_LIMIT startFileFhandle startFileType).run s).1.followed,
          ((pursue state SYMLINK_LEVELS_LIMIT startFileFhandle startFileType).run s).2)) ↔
      ((pursue state SYMLINK_LEVELS_LIMIT startFileFhandle startFileType).run s).1 ≠
        .unresolved := by
  constructor
  · intro h hUnresolved
    -- an unset type for which the function does not end as it should
    have hCrashes := followLevels_crashes hUnresolved
    have hNull := congrArg Prod.fst (h fun _ => .nfReg)
    rw [followSymbolicLinks, hCrashes, hUnresolved] at hNull
    cases hNull
  · intro h unset
    exact followLevels_eq_pursue unset h

/-- **A link to nothing.** In the export, `l` is a link to `/secret`, and there is no such
file in what is mounted. Whatever the unset file type is, a null pointer is used. -/
theorem broken_link_crashes :
    [FType.nfNon, .nfReg, .nfDir, .nfBlk, .nfChr, .nfLnk].map (fun unset =>
      ((resolveAndFollow (fun _ => unset) Sample.atRoot (bytes "l")).run
        (⟨Sample.mounted, Server.Sample.root, 0, fun _ w => w, fun _ => .delivered⟩ : Link)).1) =
      List.replicate 6 .crashes := by
  decide +kernel

end QuicNfs.Client

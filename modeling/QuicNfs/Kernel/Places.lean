import QuicNfs.Kernel.Effects

/-!
# QuicNfs — the place a path leads to

The server builds a path from a directory's path and a name, and hands it to a
system call. Which directory the call then works in is not decided by the
name alone:

* `FileSystem.slot` — the directory and the name in it that a path leads to;
* `FileSystem.namei_join` — a directory's path and more components;
* `FileSystem.slot_join_plain` — with a plain name, the call stays in the
  directory.
-/

namespace QuicNfs.Kernel

open Tree

/-- The place in a directory that a path leads to, whatever is there. -/
def Found.slot : Found → Option (Ino × Name)
  | dir _ (.name d n) => some (d, n)
  | dir _ _ => none
  | leaf d n _ => some (d, n)
  | missing d n => some (d, n)

namespace FileSystem

variable {fs : FileSystem}

/-- The directory and the name in it that a system call works on when it is
given the path `p`. -/
def slot (fs : FileSystem) (p : Path) : Option (Ino × Name) :=
  match fs.namei false p with
  | .ok f => f.slot
  | .error _ => none

variable {p : Path} {d e : Ino} {n : Name}

theorem slot_eq {f : Found} (h : fs.namei false p = .ok f) : fs.slot p = f.slot := by
  unfold slot
  rw [h]

/-- A path that is too long leads to no place. -/
theorem length_of_slot {x : Ino × Name} (h : fs.slot p = some x) : p.length < pathMax := by
  unfold slot at h
  split at h
  · next f hf => exact length_of_namei hf
  · cases h

/-- A directory's path with more components leads where the directory leads
with these components, if they meet no symbolic link. -/
theorem namei_join (h : fs.lookup false p = .ok d) (hDir : fs.isDir d) {follow : Bool} {q : Path}
    (hq : components q ≠ []) (hNoLink : ∀ dir target rest,
      fs.walk follow d .root (components q) ≠ .ok (.link dir target rest))
    (hLength : (p ++ slash :: q).length < pathMax) :
    fs.namei follow (p ++ slash :: q) =
      conclude false (fun _ _ _ => .error .eloop) (fs.walk follow d .root (components q)) := by
  -- inside a longer path a final symbolic link of `p` would be followed, but there is none
  have hTrue := lookup_true_of_false h (kind_ne_link_of_isDir hDir)
  rcases lookup_ok hTrue with ⟨⟨last, hn⟩, _⟩ | ⟨_, hNotDir, _⟩
  · rw [Bool.true_or] at hn
    obtain ⟨hNil, -, hn⟩ := namei_eq_ok.mp hn
    rw [namei, if_neg (by simp), if_neg (by omega), components_join]
    have hStart : fs.start fs.cwd (p ++ slash :: q) = fs.start fs.cwd p := by
      unfold start
      rw [isAbsolute_join q hNil]
    rw [hStart]
    exact resolve_append hn hq rfl hNoLink false _
  · exact absurd hDir (by simp [hNotDir])

/-- A walk of one plain name ends at that name. -/
theorem walk_plain (hDir : fs.isDir d) (hn : Plain n) :
    (∃ e, fs.walk false d .root [n] = .error e) ∨
      ∃ f, fs.walk false d .root [n] = .ok (.done f) ∧ f.slot = some (d, n) := by
  by_cases hLen : n.length ≤ nameMax
  · rw [walk_cons_name hDir hLen hn.ne_dot hn.ne_dotdot]
    cases fs.entry d n with
    | none => exact Or.inr ⟨_, rfl, rfl⟩
    | some i =>
      simp only
      cases fs.kind i with
      | none => exact Or.inl ⟨_, rfl⟩
      | some k =>
        cases k with
        | dir => exact Or.inr ⟨_, rfl, rfl⟩
        | link | other => exact Or.inr ⟨.leaf d n i, by simp, rfl⟩
  · refine Or.inl ⟨.enametoolong, ?_⟩
    rw [walk, if_neg (by simp [hDir]), if_pos (by omega)]

/-- **A plain name stays in its directory.** -/
theorem slot_of_namei_join (h : fs.lookup false p = .ok d) (hDir : fs.isDir d) (hn : Plain n)
    {f : Found} (hf : fs.namei false (p ++ slash :: n) = .ok f) : f.slot = some (d, n) := by
  have hWalk := walk_plain hDir hn
  have hNoLink : ∀ dir target rest,
      fs.walk false d .root (components n) ≠ .ok (.link dir target rest) := by
    intro dir target rest hEq
    rw [hn.components_eq] at hEq
    rcases hWalk with ⟨e, he⟩ | ⟨f, hf, _⟩
    · rw [he] at hEq
      cases hEq
    · rw [hf] at hEq
      cases hEq
  rw [namei_join h hDir (by simp [hn.components_eq]) hNoLink (length_of_namei hf),
    hn.components_eq] at hf
  rcases hWalk with ⟨e, he⟩ | ⟨f', hf', hSlot⟩
  · rw [he] at hf
    cases hf
  · rw [hf'] at hf
    obtain rfl := eq_of_settle hf
    exact hSlot

/-- A plain name leads into its own directory. -/
theorem slot_join_plain (h : fs.lookup false p = .ok d) (hDir : fs.isDir d) (hn : Plain n)
    {m : Name} (hSlot : fs.slot (p ++ slash :: n) = some (e, m)) : e = d ∧ m = n := by
  unfold slot at hSlot
  split at hSlot
  · next f hf =>
    cases hSlot.symm.trans (slot_of_namei_join h hDir hn hf)
    exact ⟨rfl, rfl⟩
  · cases hSlot

/-! ## Without symbolic links -/

/-- The directory that names lead to. -/
def directoryAt (fs : FileSystem) (d : Ino) (cs : List Name) : Option Ino :=
  match fs.walk true d .root cs with
  | .ok (.done (.dir e _)) => some e
  | _ => none

theorem directoryAt_eq_some {cs : List Name} :
    fs.directoryAt d cs = some e ↔ ∃ l, fs.walk true d .root cs = .ok (.done (.dir e l)) := by
  unfold directoryAt
  split
  · next hWalk => simp [hWalk]
  · next hNot => simpa using fun l => hNot e l

section NoLinks

variable (hLinks : ∀ i target, fs.kind i ≠ some (.link target))
include hLinks

theorem walk_ne_link {follow : Bool} {last : Last} {cs : List Name} (dir : Ino) (target : Path)
    (rest : List Name) : fs.walk follow d last cs ≠ .ok (.link dir target rest) := by
  intro h
  refine walk_induction (P := fun _ _ _ r => r ≠ .link dir target rest) ?_ ?_ ?_ ?_ ?_ ?_ ?_ h rfl
  · exact fun _ _ => Walk.noConfusion
  · exact fun _ _ _ _ _ ih => ih
  · exact fun _ _ _ _ _ _ _ ih => ih
  · exact fun _ _ _ _ _ _ _ _ _ ih => ih
  · exact fun _ _ _ _ _ _ _ _ => Walk.noConfusion
  · exact fun _ _ _ _ _ _ _ _ => Walk.noConfusion
  · exact fun _ _ _ i target _ _ _ hKind _ => absurd hKind (hLinks i target)

/-- Without links there is nothing to follow. -/
theorem namei_follow (follow : Bool) (p : Path) : fs.namei follow p = fs.namei true p := by
  cases follow with
  | true => rfl
  | false => exact (namei_true_of_false fun _ _ i target _ => hLinks i target).symm

/-- A path names a directory if its names lead there. -/
theorem lookup_eq_directory (hDir : fs.isDir e) :
    fs.lookup false p = .ok e ↔ p ≠ [] ∧ p.length < pathMax ∧
      fs.directoryAt (fs.start fs.cwd p) (components p) = some e := by
  rw [directoryAt_eq_some]
  constructor
  · intro h
    rcases lookup_ok h with ⟨⟨last, hn⟩, -⟩ | ⟨-, hNot, -⟩
    · rw [namei_follow hLinks] at hn
      obtain ⟨hNil, hLength, hn⟩ := namei_eq_ok.mp hn
      refine ⟨hNil, hLength, last, ?_⟩
      rw [maxLinks, resolve] at hn
      cases hWalk : fs.walk true (fs.start fs.cwd p) .root (components p) with
      | error e => rw [hWalk] at hn; cases hn
      | ok r =>
        rw [hWalk] at hn
        cases r with
        | link dir target rest => exact absurd hWalk (walk_ne_link hLinks dir target rest)
        | done f => rw [eq_of_settle hn]
    · rw [hNot] at hDir
      cases hDir
  · rintro ⟨hNil, hLength, last, hWalk⟩
    have hNamei : fs.namei true p = .ok (.dir e last) := by
      refine namei_eq_ok.mpr ⟨hNil, hLength, ?_⟩
      rw [maxLinks, resolve, hWalk]
      rfl
    rw [lookup, namei_follow hLinks, hNamei]

/-- The path of a directory with a path behind it. -/
theorem lookup_join {q : Path} (h : fs.lookup false p = .ok d) (hDir : fs.isDir d)
    (hEnd : fs.isDir e) (hLength : (p ++ slash :: q).length < pathMax) :
    fs.lookup false (p ++ slash :: q) = .ok e ↔ fs.directoryAt d (components q) = some e := by
  obtain ⟨hNil, -, hWalk⟩ := (lookup_eq_directory hLinks hDir).mp h
  obtain ⟨last, hWalk⟩ := directoryAt_eq_some.mp hWalk
  have hStart : fs.start fs.cwd (p ++ slash :: q) = fs.start fs.cwd p := by
    unfold start
    rw [isAbsolute_join q hNil]
  rw [lookup_eq_directory hLinks hEnd, and_iff_right (by simp), and_iff_right hLength, hStart,
    components_join, directoryAt_eq_some, directoryAt_eq_some, walk_append hWalk]
  -- how the directory was reached shows only where no name follows
  cases components q with
  | nil => simp [walk]
  | cons c rest => rw [walk_last last .root (List.cons_ne_nil c rest)]

/-- A directory is at the end of a path if it has the name there. -/
theorem lookup_slot (hSlot : fs.slot p = some (d, n)) (hDir : fs.isDir e) :
    fs.lookup false p = .ok e ↔ fs.entry d n = some e := by
  unfold slot at hSlot
  rw [namei_follow hLinks] at hSlot
  rw [lookup, namei_follow hLinks]
  cases hn : fs.namei true p with
  | error err => rw [hn] at hSlot; cases hSlot
  | ok f =>
    rw [hn] at hSlot
    have hFound := found_of_namei hn
    cases f with
    | dir i last =>
      cases last with
      | name d' n' =>
        obtain ⟨rfl, rfl⟩ := Prod.mk.inj (Option.some.inj hSlot)
        simp [hFound.2]
      | root | dot | dotdot => cases hSlot
    | leaf d' n' i =>
      -- what is there is no directory
      obtain ⟨rfl, rfl⟩ := Prod.mk.inj (Option.some.inj hSlot)
      have hNe : i ≠ e := fun hEq => by
        have hNot := hFound.2
        rw [hEq, hDir] at hNot
        cases hNot
      cases endsInSlash p <;> simp [hFound.1, hNe]
    | missing d' n' =>
      obtain ⟨rfl, rfl⟩ := Prod.mk.inj (Option.some.inj hSlot)
      simp [hFound.2.1]

end NoLinks

end FileSystem

end QuicNfs.Kernel

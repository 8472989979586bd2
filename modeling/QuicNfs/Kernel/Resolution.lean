import QuicNfs.Kernel.Namei

/-!
# QuicNfs — facts about path resolution

What the later proofs use of `walk`, `resolve` and `namei`:

* `FileSystem.parentOf_eq_some` — `..` leads to the directory that holds the
  name;
* `FileSystem.SameNames` — resolution sees names and kinds only, so a change
  of attributes or of file contents changes no path;
* `FileSystem.found_of_namei` — what resolution reports is what the tree says.
-/

namespace QuicNfs.Kernel

open List Tree

namespace FileSystem

/-! ## `..` -/

/-- The root is its own parent. -/
theorem parentOf_root (fs : FileSystem) : fs.parentOf fs.root = some fs.root := by
  simp [parentOf]

variable {fs fs' : FileSystem} {d : Ino} {cs rest : List Name} {follow : Bool} {last : Last}
  {r : Walk} {f : Found}

/-- `..` of a directory other than the root is the directory its name is in. -/
theorem parentOf_eq_some {p : Ino} (hDir : fs.isDir d) (hRoot : d ≠ fs.root) :
    fs.parentOf d = some p ↔ ∃ n, fs.entry p n = some d := by
  -- a hit of the search is an inode with an entry for `d`
  have hHit : ∀ x : Sigma fun _ : Ino => Inode, x ∈ fs.inodes.entries →
      ((x.2.content.entries.any fun e => e.2 == d) ↔ ∃ n, fs.entry x.1 n = some d) := by
    rintro ⟨q, x⟩ hx
    have hx' : fs.inode q = some x := AList.mem_lookup_iff.mpr hx
    simp only [any_eq_true, beq_iff_eq, entry_eq_some, hx', Option.some.injEq]
    constructor
    · rintro ⟨⟨n, i⟩, he, rfl⟩
      exact ⟨n, x, rfl, Content.mem_entries.mp he⟩
    · rintro ⟨n, y, rfl, he⟩
      exact ⟨(n, d), Content.mem_entries.mpr he, rfl⟩
  unfold parentOf
  rw [if_neg hRoot, Option.map_eq_some_iff]
  constructor
  · rintro ⟨x, hx, rfl⟩
    have hAny := find?_some hx
    exact (hHit x (mem_of_find?_eq_some hx)).mp hAny
  · rintro ⟨n, he⟩
    obtain ⟨y, hy, _⟩ := entry_eq_some.mp he
    have hMem : (⟨p, y⟩ : Sigma fun _ : Ino => Inode) ∈ fs.inodes.entries :=
      AList.mem_lookup_iff.mp hy
    have hSome : (fs.inodes.entries.find?
        fun x => x.2.content.entries.any fun e => e.2 == d).isSome :=
      find?_isSome.mpr ⟨_, hMem, (hHit _ hMem).mpr ⟨n, he⟩⟩
    obtain ⟨x, hx⟩ := Option.isSome_iff_exists.mp hSome
    -- whichever inode the search hits first, a directory has one name only
    have hAny := find?_some hx
    obtain ⟨m, hm⟩ := (hHit x (mem_of_find?_eq_some hx)).mp hAny
    exact ⟨x, hx, (fs.wf.dir_unique hm he hDir).1⟩

theorem isDir_parentOf {p : Ino} (hDir : fs.isDir d) (h : fs.parentOf d = some p) : fs.isDir p := by
  by_cases hRoot : d = fs.root
  · rw [hRoot, parentOf_root] at h
    exact Option.some.inj h ▸ fs.wf.root_isDir
  · obtain ⟨n, he⟩ := (parentOf_eq_some hDir hRoot).mp h
    exact isDir_of_entry he

/-! ## What resolution depends on -/

/-- Two file systems with the same names for objects of the same kinds. -/
structure SameNames (fs fs' : FileSystem) : Prop where
  root : fs'.root = fs.root
  cwd : fs'.cwd = fs.cwd
  entry (d : Ino) (n : Name) : fs'.entry d n = fs.entry d n
  kind (i : Ino) : fs'.kind i = fs.kind i

theorem SameNames.refl (fs : FileSystem) : fs.SameNames fs := ⟨rfl, rfl, fun _ _ => rfl, fun _ => rfl⟩

theorem SameNames.trans {fs'' : FileSystem} (h : fs.SameNames fs') (h' : fs'.SameNames fs'') :
    fs.SameNames fs'' :=
  ⟨h'.root.trans h.root, h'.cwd.trans h.cwd, fun d n => (h'.entry d n).trans (h.entry d n),
    fun i => (h'.kind i).trans (h.kind i)⟩

theorem SameNames.isDir (h : fs.SameNames fs') (i : Ino) :
    fs'.isDir i = fs.isDir i := isDir_eq_of_kind (h.kind i)

theorem SameNames.parentOf (h : fs.SameNames fs') (hDir : fs.isDir d) :
    fs'.parentOf d = fs.parentOf d := by
  by_cases hRoot : d = fs.root
  · rw [hRoot, parentOf_root, ← h.root, parentOf_root]
  · have hDir' : fs'.isDir d := (h.isDir d).trans hDir
    refine Option.ext fun p => ?_
    rw [parentOf_eq_some hDir hRoot, parentOf_eq_some hDir' (by rwa [h.root])]
    simp only [h.entry]

/-- A walk asks for kinds and entries only. -/
theorem SameNames.walk (h : fs.SameNames fs') (follow : Bool) (d : Ino) (last : Last)
    (cs : List Name) : fs'.walk follow d last cs = fs.walk follow d last cs := by
  induction cs generalizing d last with
  | nil => rfl
  | cons c rest ih =>
    simp only [Tree.walk, h.isDir, h.entry, h.kind]
    by_cases hDir : fs.isDir d = false
    · simp only [hDir, if_true]
    · rw [h.parentOf (by simpa using hDir)]
      simp only [ih]

theorem SameNames.resolve (h : fs.SameNames fs') (follow : Bool) (k : Nat) (mustDir : Bool)
    (d : Ino) (cs : List Name) :
    fs'.resolve follow k mustDir d cs = fs.resolve follow k mustDir d cs := by
  induction k generalizing mustDir d cs with
  | zero => simp only [Tree.resolve, h.walk]
  | succ k ih => simp only [Tree.resolve, h.walk, ih, Tree.start, h.root]

theorem SameNames.namei (h : fs.SameNames fs') (follow : Bool) (p : Path) :
    fs'.namei follow p = fs.namei follow p := by
  simp only [Tree.namei, h.resolve, Tree.start, h.root, h.cwd]

/-- So the same paths lead to the same objects. -/
theorem SameNames.lookup (h : fs.SameNames fs') (follow : Bool) (p : Path) :
    fs'.lookup follow p = fs.lookup follow p := by
  simp only [Tree.lookup, h.namei]

theorem sameNames_setAttr (fs : FileSystem) (i : Ino) (f : Attr → Attr) :
    fs.SameNames (fs.setAttr i f) :=
  ⟨root_setAttr fs i f, cwd_setAttr fs i f, fun d n => entry_setAttr fs i d f n,
    fun j => kind_setAttr fs i j f⟩

theorem sameNames_setData (fs : FileSystem) (i : Ino) (g : Bytes → Bytes) :
    fs.SameNames (fs.setData i g) :=
  ⟨root_setData fs i g, cwd_setData fs i g, fun d n => entry_setData fs i d g n,
    fun j => kind_setData fs i j g⟩

/-! ## What resolution reports -/

/-- A result of path resolution says what the tree says. -/
def FoundIn (fs : FileSystem) : Found → Prop
  | .dir i (.name p n) => fs.isDir i ∧ fs.entry p n = some i
  | .dir i _ => fs.isDir i
  | .leaf d n i => fs.entry d n = some i ∧ fs.isDir i = false
  | .missing d n => fs.isDir d ∧ fs.entry d n = none ∧ ValidName n

/-- Components of a path. -/
def AreComponents (cs : List Name) : Prop := ∀ c ∈ cs, c ≠ [] ∧ slash ∉ c

theorem areComponents_components (p : Path) : AreComponents (components p) :=
  fun _ h => ⟨component_ne_nil h, component_no_slash h⟩

theorem AreComponents.append {cs' : List Name} (h : AreComponents cs) (h' : AreComponents cs') :
    AreComponents (cs ++ cs') :=
  fun c hc => (mem_append.mp hc).elim (h c) (h' c)

theorem isDir_eq_false_of_kind {i : Ino} {k : Kind} (h : fs.kind i = some k) (hk : k ≠ .dir) :
    fs.isDir i = false := by
  rw [Bool.eq_false_iff]
  intro hDir
  rw [isDir_iff_kind.mp hDir] at h
  exact hk (Option.some.inj h).symm

/-- One step of a walk, at a component that is neither `.` nor `..`. -/
theorem walk_cons_name {c : Name} (hDir : fs.isDir d) (hLen : c.length ≤ nameMax) (hDot : c ≠ dot)
    (hDotdot : c ≠ dotdot) :
    fs.walk follow d last (c :: rest) =
      match fs.entry d c with
      | none => if rest = [] then .ok (.done (.missing d c)) else .error .enoent
      | some i =>
        match fs.kind i with
        | none => .error .enoent
        | some .dir => fs.walk follow i (.name d c) rest
        | some (.link target) =>
          if rest = [] ∧ follow = false then .ok (.done (.leaf d c i))
          else .ok (.link d target rest)
        | some .other => if rest = [] then .ok (.done (.leaf d c i)) else .error .enotdir := by
  rewrite [walk, if_neg (by simp [hDir]), if_neg (by omega), if_neg hDot, if_neg hDotdot]
  rfl

theorem walk_cons_dot (hDir : fs.isDir d) :
    fs.walk follow d last (dot :: rest) = fs.walk follow d .dot rest := by
  rw [walk, if_neg (by simp [hDir]), if_neg (by simp [dot, nameMax]), if_pos rfl]

theorem walk_cons_dotdot (hDir : fs.isDir d) :
    fs.walk follow d last (dotdot :: rest) =
      match fs.parentOf d with
      | none => .error .enoent
      | some p => fs.walk follow p .dotdot rest := by
  rewrite [walk, if_neg (by simp [hDir]), if_neg (by simp [dotdot, nameMax]),
    if_neg (by simp [dot, dotdot]), if_pos rfl]
  rfl

/-- A walk that does not fail starts in a directory, with a component that is not too long. -/
theorem isDir_of_walk_ok {c : Name} (h : fs.walk follow d last (c :: rest) = .ok r) :
    fs.isDir d ∧ c.length ≤ nameMax := by
  rw [walk] at h
  split at h
  · cases h
  · next hDir =>
    split at h
    · cases h
    · next hLen => exact ⟨by simpa using hDir, by omega⟩

/-- The induction over a walk, with its cases named: it stops, goes on in the
same directory, in the one above or in one below, ends at a missing name or at
an object, or stops at a symbolic link. -/
theorem walk_induction {P : Ino → Last → List Name → Walk → Prop}
    (hNil : ∀ d last, P d last [] (.done (.dir d last)))
    (hDot : ∀ d last rest r, fs.isDir d → P d .dot rest r → P d last (dot :: rest) r)
    (hDotdot : ∀ d last p rest r, fs.isDir d → fs.parentOf d = some p →
      P p .dotdot rest r → P d last (dotdot :: rest) r)
    (hDown : ∀ d last c i rest r, fs.isDir d → fs.entry d c = some i → fs.isDir i →
      P i (.name d c) rest r → P d last (c :: rest) r)
    (hMissing : ∀ d last c, fs.isDir d → c.length ≤ nameMax → c ≠ dot → c ≠ dotdot →
      fs.entry d c = none → P d last [c] (.done (.missing d c)))
    (hLeaf : ∀ d last c i, fs.isDir d → fs.entry d c = some i → fs.isDir i = false →
      (follow = true → ∀ target, fs.kind i ≠ some (.link target)) →
      P d last [c] (.done (.leaf d c i)))
    (hLink : ∀ d last c i target rest, fs.isDir d → fs.entry d c = some i →
      fs.kind i = some (.link target) → (rest ≠ [] ∨ follow = true) →
      P d last (c :: rest) (.link d target rest)) (h : fs.walk follow d last cs = .ok r) :
    P d last cs r := by
  induction cs generalizing d last with
  | nil =>
    rw [walk] at h
    cases h
    exact hNil d last
  | cons c rest ih =>
    obtain ⟨hDir, hLen⟩ := isDir_of_walk_ok h
    -- no entry of a directory has these two names
    by_cases h₁ : c = dot
    · subst h₁
      rw [walk_cons_dot hDir] at h
      exact hDot d last rest r hDir (ih h)
    by_cases h₂ : c = dotdot
    · subst h₂
      rw [walk_cons_dotdot hDir] at h
      cases hp : fs.parentOf d with
      | none => rw [hp] at h; cases h
      | some p =>
        rw [hp] at h
        exact hDotdot d last p rest r hDir hp (ih h)
    rw [walk_cons_name hDir hLen h₁ h₂] at h
    cases he : fs.entry d c with
    | none =>
      simp only [he] at h
      split at h
      · next hRest =>
        cases h
        subst hRest
        exact hMissing d last c hDir hLen h₁ h₂ he
      · cases h
    | some i =>
      simp only [he] at h
      cases hk : fs.kind i with
      | none => simp only [hk] at h; cases h
      | some k =>
        simp only [hk] at h
        cases k with
        | dir => exact hDown d last c i rest r hDir he (isDir_iff_kind.mpr hk) (ih h)
        | link target =>
          simp only at h
          split at h
          -- the last component, which is not to be followed
          · next hEnd =>
            cases h
            obtain ⟨rfl, hFollow⟩ := hEnd
            exact hLeaf d last c i hDir he (isDir_eq_false_of_kind hk (by simp))
              (fun hf => absurd hf (by simp [hFollow]))
          · next hEnd =>
            cases h
            refine hLink d last c i target rest hDir he hk ?_
            by_cases hRest : rest = []
            · exact Or.inr (by simpa [hRest] using hEnd)
            · exact Or.inl hRest
        | other =>
          simp only at h
          split at h
          · next hRest =>
            cases h
            subst hRest
            exact hLeaf d last c i hDir he (isDir_eq_false_of_kind hk (by simp))
              (fun _ target hLnk => by cases hk.symm.trans hLnk)
          · cases h

/-! ### Results are in the tree -/

/-- **Where a walk ends.** It has found an object of the tree, a free place, or a link. -/
theorem walk_found (h : fs.walk follow d last cs = .ok r) (hcs : AreComponents cs)
    (hStart : cs = [] → fs.FoundIn (.dir d last)) :
    (∀ f, r = .done f → fs.FoundIn f) ∧
      (∀ dir target rest, r = .link dir target rest → AreComponents rest ∧ fs.isDir dir) := by
  revert hcs hStart
  refine walk_induction (P := fun d last cs r => AreComponents cs →
    (cs = [] → fs.FoundIn (.dir d last)) →
    (∀ f, r = .done f → fs.FoundIn f) ∧
      (∀ dir target rest, r = .link dir target rest → AreComponents rest ∧ fs.isDir dir))
    ?_ ?_ ?_ ?_ ?_ ?_ ?_ h
  · intro d last _ hStart
    exact ⟨fun f hf => by cases hf; exact hStart rfl, fun _ _ _ hf => by cases hf⟩
  · intro d last rest r hDir ih hcs _
    exact ih (fun c hc => hcs c (mem_cons_of_mem _ hc)) fun _ => hDir
  · intro d last p rest r hDir hp ih hcs _
    exact ih (fun c hc => hcs c (mem_cons_of_mem _ hc)) fun _ => isDir_parentOf hDir hp
  · intro d last c i rest r _ he hi ih hcs _
    exact ih (fun c hc => hcs c (mem_cons_of_mem _ hc)) fun _ => ⟨hi, he⟩
  · intro d last c hDir hLen hDot hDotdot he hcs _
    obtain ⟨hNil, hSlash⟩ := hcs c (by simp)
    refine ⟨fun f hf => ?_, fun _ _ _ hf => by cases hf⟩
    cases hf
    exact ⟨hDir, he, ⟨⟨hNil, hSlash, hDot, hDotdot⟩, hLen⟩⟩
  · intro d last c i _ he hi _ _ _
    exact ⟨fun f hf => by cases hf; exact ⟨he, hi⟩, fun _ _ _ hf => by cases hf⟩
  · intro d last c i target rest hDir _ _ _ hcs _
    refine ⟨fun f hf => (by cases hf), fun _ _ _ hf => ?_⟩
    cases hf
    exact ⟨fun c hc => hcs c (mem_cons_of_mem _ hc), hDir⟩

theorem eq_of_settle {mustDir : Bool} {r : Found} (h : settle mustDir f = .ok r) : f = r := by
  cases f with
  | dir d last => exact Except.ok.inj h
  | leaf d n i | missing d n =>
    rw [settle] at h
    split at h <;> cases h
    rfl

/-- The induction over a resolution that succeeds: the walk ends there, or stops at a
symbolic link and the result is that of the walk behind it. -/
theorem resolve_induction {P : Nat → Bool → Ino → List Name → Prop}
    (hDone : ∀ k m d cs, fs.walk follow d .root cs = .ok (.done f) → settle m f = .ok f →
      P k m d cs)
    (hLink : ∀ k m d cs dir target rest, fs.walk follow d .root cs = .ok (.link dir target rest) →
      P k (m || (rest.isEmpty && endsInSlash target)) (fs.start dir target)
        (components target ++ rest) → P (k + 1) m d cs)
    {k : Nat} {m : Bool} (h : fs.resolve follow k m d cs = .ok f) : P k m d cs := by
  induction k generalizing m d cs with
  | zero =>
    rw [resolve] at h
    rcases hw : fs.walk follow d .root cs with e | f' | ⟨dir, target, rest⟩
    all_goals rw [hw] at h
    · cases h
    · obtain rfl := eq_of_settle h
      exact hDone 0 m d cs hw h
    · cases h
  | succ k ih =>
    rw [resolve] at h
    rcases hw : fs.walk follow d .root cs with e | f' | ⟨dir, target, rest⟩
    all_goals rw [hw] at h
    · cases h
    · obtain rfl := eq_of_settle h
      exact hDone _ m d cs hw h
    · exact hLink k m d cs dir target rest hw (ih h)

theorem isDir_start {p : Path} (h : isAbsolute p = false → fs.isDir d) :
    fs.isDir (fs.start d p) := by
  unfold start
  split
  · exact fs.wf.root_isDir
  · next hRel => exact h (by simpa using hRel)

/-- The links on the way change nothing about that. -/
theorem resolve_found {k : Nat} {mustDir : Bool} (h : fs.resolve follow k mustDir d cs = .ok f)
    (hcs : AreComponents cs) (hStart : cs = [] → fs.isDir d) : fs.FoundIn f := by
  revert hcs hStart
  refine resolve_induction (P := fun _ _ d cs => AreComponents cs → (cs = [] → fs.isDir d) →
    fs.FoundIn f) ?_ ?_ h
  · exact fun _ _ _ _ hw _ hcs hStart => (walk_found hw hcs hStart).1 f rfl
  · intro _ _ _ _ dir target rest hw ih hcs hStart
    obtain ⟨hRest, hDir⟩ := (walk_found hw hcs hStart).2 dir target rest rfl
    exact ih ((areComponents_components target).append hRest) fun _ => isDir_start fun _ => hDir

/-- Paths that are empty or too long are refused. -/
theorem namei_eq_ok {p : Path} : fs.namei follow p = .ok f ↔ p ≠ [] ∧ p.length < pathMax ∧
    fs.resolve follow maxLinks false (fs.start fs.cwd p) (components p) = .ok f := by
  unfold namei
  split
  · simp_all
  · split
    · simp only [reduceCtorEq, false_iff]
      rintro ⟨-, hLength, -⟩
      omega
    · simp_all

theorem length_of_namei {p : Path} (h : fs.namei follow p = .ok f) : p.length < pathMax :=
  (namei_eq_ok.mp h).2.1

/-- What `namei` reports is what the tree says. -/
theorem found_of_namei {p : Path} (h : fs.namei follow p = .ok f) : fs.FoundIn f := by
  obtain ⟨hNil, -, hr⟩ := namei_eq_ok.mp h
  exact resolve_found hr (areComponents_components p) fun hEmpty =>
    isDir_start fun hRel => absurd hEmpty (components_ne_nil hNil hRel)

end FileSystem

end QuicNfs.Kernel

import QuicNfs.Kernel.Below
import QuicNfs.Server.Complete

/-!
# QuicNfs — requests and the exported directories

Which objects can a client get at? Those below an exported directory, as long
as no name a client sends is a way out of its directory and no symbolic link
stands in one of the paths. The server checks neither.

* `Inside` — an object lies at or below an exported directory;
* `Confined` — what a request reads, changes, creates and stores lies inside;
* `Confinable` — when that is so: the names are single components, MNT is of an
  exported directory, and the paths of the request meet no symbolic link;
* `confined_of_run` — then it is so in every state a run of such requests reaches;
* `lookup_dotdot_escapes` — LOOKUP of `..` in an exported directory.
-/

namespace QuicNfs.Server

open Kernel Lib List FileSystem

/-! ## Inside the exported directories -/

/-- `q` is an exported path, or one with plain names behind it. -/
def Under (exports : Option Bytes) (q : Path) : Prop :=
  ∃ p cs, isExported exports p = true ∧ (∀ c ∈ cs, Plain c) ∧ q = p ++ joinNames cs

/-- In `fs`, the object `i` lies at or below a directory that is exported in `w`. -/
def Inside (w : World) (fs : FileSystem) (i : Ino) : Prop :=
  ∃ p e, isExported w.machine.exports p = true ∧ w.fs.lookup false p = .ok e ∧ w.fs.isDir e ∧
    fs.Below e i

/-- What a request reads, changes, creates and stores lies inside. The server's
own exports file is not counted. -/
structure Confined (w : World) (cred : Credential) (r : Request) : Prop where
  /-- Every path in the cache is below an exported one. -/
  cached {m : InodeCacheMapping} : m ∈ (w.afterRequest cred r).inodeCache →
    Under w.machine.exports m.absolutePath
  /-- A path that is stored leads to an object, or to a free name, inside. -/
  stored {m : InodeCacheMapping} : m ∈ (w.afterRequest cred r).inodeCache →
    m ∉ w.inodeCache → ∀ i, w.fs.leadsTo m.absolutePath = some i → Inside w w.fs i
  /-- What is read lies inside when it is read. -/
  reads {e : Event Op World} : e ∈ (serve cred r).trace w → ∀ i ∈ readBy e, Inside w e.state.fs i
  /-- What is changed or deleted lies inside before. -/
  changes {i : Ino} {x : Inode} : w.fs.inode i = some x →
    (w.afterRequest cred r).fs.inode i ≠ some x → Inside w w.fs i
  /-- What is created lies inside. -/
  creates {i : Ino} : w.fs.inode i = none → (w.afterRequest cred r).fs.inode i ≠ none →
    Inside w (w.afterRequest cred r).fs i

/-- The condition on a request, in the state it finds. -/
structure Confinable (w : World) (cred : Credential) (r : Request) : Prop where
  plain {i : Ino} {n : Bytes} : (i, n) ∈ r.names → Plain n
  /-- MNT is of an exported directory, or of nothing. -/
  mounted {p : Path} {i : Ino} : r.mountPath = some p → w.fs.lookup false p = .ok i →
    isExported w.machine.exports p = true ∧ w.fs.isDir i
  /-- A path below an exported one goes from an exported directory on without a
  symbolic link; at its end too if the request would follow that. -/
  clear {q : Path} : PathOf w r q → Under w.machine.exports q →
    ∃ p cs e, isExported w.machine.exports p = true ∧ q = p ++ joinNames cs ∧
      w.fs.ClearWay r.follows p cs e
  /-- A session that READDIR goes on with is of the directory at the path. -/
  stream {args : ReadDirArgs} {i : Ino} {cookie : Nat} {client : AuthSysParams} {p : Path}
    {s : ReadDirSession} : r = .readdir args → args.decode = some (i, cookie) →
    cred = .authSys client → w.inodeCache.getAbsolutePathFromInodeNumber i = some p →
    s ∈ w.readdirSessions → s.belongsTo client i = true →
    w.fs.lookup false p = .ok s.directoryStream

variable {p : Path} {n : Bytes} {fs fs' : FileSystem} {i d : Ino}

theorem Under.exported {exports : Option Bytes} (h : isExported exports p = true) :
    Under exports p :=
  ⟨p, [], h, by simp, by simp [joinNames]⟩

theorem Under.join {exports : Option Bytes} (h : Under exports p) (hn : Plain n) :
    Under exports (getFileAbsolutePath p n) := by
  obtain ⟨p', cs, hExported, hcs, rfl⟩ := h
  refine ⟨p', cs ++ [n], hExported, ?_, ?_⟩
  · intro c hc
    rcases mem_append.mp hc with hc | hc
    · exact hcs c hc
    · exact mem_singleton.mp hc ▸ hn
  · rw [joinNames_concat, ← append_assoc]
    rfl

theorem Inside.mono {w : World} (h : Inside w fs i)
    (hEntry : ∀ d n i, fs.entry d n = some i → fs'.entry d n = some i) : Inside w fs' i := by
  obtain ⟨p, e, hExported, hp, hDir, hBelow⟩ := h
  exact ⟨p, e, hExported, hp, hDir, hBelow.mono hEntry⟩

theorem Inside.entry {w : World} {n : Name} (h : Inside w fs d) (hn : fs.entry d n = some i) :
    Inside w fs i := by
  obtain ⟨p, e, hExported, hp, hDir, hBelow⟩ := h
  exact ⟨p, e, hExported, hp, hDir, hBelow.entry hn⟩

theorem Inside.isSome {w : World} (h : Inside w w.fs i) : (w.fs.inode i).isSome := by
  obtain ⟨p, e, _, _, hDir, hBelow⟩ := h
  exact isSome_of_below hDir hBelow

/-! ## Changes inside -/

section Requests

variable {w : World} {cred : Credential} {r : Request} {st : Kernel.Stat} {m : Name} {j : Ino}

/-- A new object is inside, since its directory is. -/
theorem inside_of_created {fs₁ : FileSystem} {x : Inode} (hd : Inside w w.fs d)
    (hCreated : w.fs.Created fs₁ d m j x) (hNames : fs₁.SameNames fs') : Inside w fs' j := by
  have hExtends := hCreated.extends
  have hd' : Inside w fs' d :=
    hd.mono fun _ _ _ he => (hNames.entry _ _).trans (hExtends.entry_of_some he)
  refine hd'.entry (n := m) ?_
  rw [hNames.entry, hExtends.entry, if_pos ⟨rfl, rfl⟩]

/-- The objects that were there and may have changed are inside before, those
that were not are inside after. -/
structure Footprint (w : World) (fs' : FileSystem) (old new : List Ino) : Prop where
  only : w.fs.Only fs' (old ++ new)
  old_inside : ∀ i ∈ old, Inside w w.fs i
  new_inside : ∀ i ∈ new, w.fs.inode i = none ∧ Inside w fs' i

theorem Footprint.nothing (w : World) : Footprint w w.fs [] [] :=
  ⟨fun _ _ => rfl, by simp, by simp⟩

/-- A change of an object that was there. -/
theorem Footprint.of_only {old : List Ino} (hOnly : w.fs.Only fs' old)
    (hOld : ∀ i ∈ old, Inside w w.fs i) : Footprint w fs' old [] :=
  ⟨hOnly.mono (by simp), hOld, by simp⟩

/-- A new object in a directory inside. -/
theorem Footprint.of_created {fs₁ : FileSystem} {x : Inode} (hd : Inside w w.fs d)
    (hCreated : w.fs.Created fs₁ d m j x) (hTouched : fs₁.Touched fs' j) :
    Footprint w fs' [d] [j] := by
  refine ⟨hCreated.only.trans (hTouched.only.mono (by simp)), ?_, ?_⟩
  · intro i hi
    exact mem_singleton.mp hi ▸ hd
  · intro i hi
    rw [mem_singleton.mp hi]
    exact ⟨hCreated.fresh, inside_of_created hd hCreated hTouched.names⟩

/-! ## The paths of a request -/

/-- The invariant of the cache. -/
def AllUnder (w : World) : Prop :=
  ∀ m ∈ w.inodeCache, Under w.machine.exports m.absolutePath

theorem AllUnder.cached (h : AllUnder w)
    (hp : w.inodeCache.getAbsolutePathFromInodeNumber i = some p) : Under w.machine.exports p := by
  obtain ⟨m, hm, _, rfl⟩ := InodeCache.mem_of_getAbsolutePath hp
  exact h m hm

variable (hUnder : AllUnder w) (hSafe : Confinable w cred r)
include hUnder hSafe

theorem under_of_pathOf {q : Path} (hq : PathOf w r q) : Under w.machine.exports q := by
  cases hq with
  | handle _ hp => exact hUnder.cached hp
  | name hName hp => exact (hUnder.cached hp).join (hSafe.plain hName)

/-- **What a path of the request leads to lies inside.** -/
theorem inside_of_lookup {q : Path} (hq : PathOf w r q) {follow : Bool}
    (hFollow : follow = true → r.follows = true) (hi : w.fs.lookup follow q = .ok i) : Inside w w.fs i := by
  obtain ⟨p, cs, e, hExported, rfl, hWay⟩ := hSafe.clear hq (under_of_pathOf hUnder hSafe hq)
  have hWay' : w.fs.ClearWay follow p cs e := by
    cases hr : r.follows with
    | true => exact (hr ▸ hWay).of_true follow
    | false =>
      cases follow with
      | false => exact hr ▸ hWay
      | true => exact absurd (hFollow rfl) (by simp [hr])
  exact ⟨p, e, hExported, hWay.start, hWay.isDir, hWay'.below hi⟩

/-- The directory of a name lies inside. -/
theorem inside_of_directory (hName : (i, n) ∈ r.names) (hDir : DirectoryAt w i p st) :
    Inside w w.fs st.ino :=
  inside_of_lookup hUnder hSafe (.directory hName hDir.cached) (by simp) (lstat_ok hDir.lstat).1

/-- So does the directory that the built path leads into, which is the same. -/
theorem inside_of_slot (hName : (i, n) ∈ r.names) (hDir : DirectoryAt w i p st)
    (hSlot : w.fs.slot (getFileAbsolutePath p n) = some (d, m)) : Inside w w.fs d := by
  obtain ⟨rfl, rfl⟩ := hDir.slot (hSafe.plain hName) hSlot
  exact inside_of_directory hUnder hSafe hName hDir

/-! ## What a request reads -/

theorem Reached.inside (h : Reached w cred r fs i) : Inside w fs i := by
  have hSame : w.fs.SameNames fs → ∀ {j}, Inside w w.fs j → Inside w fs j :=
    fun hNames _ hj => hj.mono fun d n _ he => (hNames.entry d n).trans he
  cases h with
  | named hp hNames hi => exact hSame hNames (inside_of_lookup hUnder hSafe hp (by simp) hi)
  | followed hFollows hp hNames hi =>
    exact hSame hNames (inside_of_lookup hUnder hSafe hp (fun _ => hFollows) hi)
  | new hName hDir hSlot hCreated hNames =>
    exact inside_of_created (inside_of_slot hUnder hSafe hName hDir hSlot) hCreated hNames
  | mounted hp hNames hi =>
    obtain ⟨hExported, hDir⟩ := hSafe.mounted hp hi
    exact hSame hNames ⟨_, _, hExported, hi, hDir, .refl⟩
  | stream hRequest hArgs hClient hp hs hBelongs hNames =>
    -- the stream is of the directory at the path
    have hd := hSafe.stream hRequest hArgs hClient hp hs hBelongs
    have hPath : PathOf w r _ := .handle (by simp [hRequest, Request.handles, hArgs]) hp
    exact hSame hNames (inside_of_lookup hUnder hSafe hPath (by simp) hd)

/-! ## What a request leaves behind -/

theorem Effect.footprint {ok : Bool} {cache : InodeCache} (h : Effect w cred r ok fs' cache) :
    ∃ old new, Footprint w fs' old new := by
  cases h with
  | nothing | mounted | lookedUp | forgotten => exact ⟨[], [], .nothing w⟩
  | @touched _ _ i p f _ hRequest hHandle hCached hFile hTouched _ =>
    have hFollows : r.follows = true := by
      cases r <;> simp_all [Request.altersFile, Request.follows]
    have hf := inside_of_lookup hUnder hSafe (.handle hHandle hCached) (fun _ => hFollows) hFile
    exact ⟨[f], [], .of_only hTouched.only (by simpa using hf)⟩
  | created hRequest hArgs hDir hSlot hCreated hTouched _ _ =>
    have hName := names_of_creation hRequest hArgs
    have hd := inside_of_slot hUnder hSafe hName hDir.toDirectoryAt hSlot
    exact ⟨_, _, .of_created hd hCreated hTouched⟩
  | symlinked hArgs hDir hSlot hCreated =>
    have hd := inside_of_slot hUnder hSafe (by simp [Request.names, hArgs])
      hDir.toDirectoryAt hSlot
    exact ⟨_, _, .of_created hd hCreated (.refl _ _)⟩
  | @linked args k i n q p st _ _ d m j hArgs hSource hFile hDir hSlot _ _ hOnly =>
    have hd := inside_of_slot hUnder hSafe (by simp [Request.names, hArgs])
      hDir.toDirectoryAt hSlot
    have hj := inside_of_lookup hUnder hSafe
      (.handle (by simp [Request.handles, hArgs]) hSource) (by simp) hFile
    exact ⟨[d, j], [], .of_only hOnly (by simp [hd, hj])⟩
  | @removed _ args i n p st _ _ d m j hRequest hArgs hDir hSlot hRemoved _ =>
    have hName : (i, n) ∈ r.names := by
      cases r <;> simp_all [Request.deletion, Request.names]
    have hd := inside_of_slot hUnder hSafe hName hDir.toDirectoryAt hSlot
    exact ⟨[d, j], [], .of_only hRemoved.only (by simp [hd, hd.entry hRemoved.named])⟩
  | @renamed args i i' n n' p p' st st' _ _ d d' m m' j target hArgs hFrom hTo hSlot hSlot'
      hNamed hTarget _ _ hRenamed =>
    rcases hRenamed with ⟨_, rfl⟩ | ⟨_, hRenamed⟩
    · exact ⟨[], [], .nothing w⟩
    have hd := inside_of_slot hUnder hSafe (by simp [Request.names, hArgs])
      hFrom.toDirectoryAt hSlot
    have hd' := inside_of_slot hUnder hSafe (by simp [Request.names, hArgs])
      hTo.toDirectoryAt hSlot'
    refine ⟨_, [], .of_only hRenamed.only ?_⟩
    intro k hk
    rcases mem_append.mp hk with hk | hk
    · simp only [mem_cons, not_mem_nil, or_false] at hk
      rcases hk with rfl | rfl | rfl
      · exact hd
      · exact hd.entry hNamed
      · exact hd'
    · -- the object that was replaced was in the directory too
      exact hd'.entry (hTarget.trans (Option.mem_toList.mp hk))

/-- The path built for a name leads to an object inside, or is free in a
directory inside. -/
theorem inside_of_built (hName : (i, n) ∈ r.names) (hDir : DirectoryAt w i p st)
    (hj : w.fs.leadsTo (getFileAbsolutePath p n) = some j) : Inside w w.fs j := by
  have hLookup := (lstat_ok hDir.lstat).1
  rcases leadsTo_join_plain hLookup hDir.isDir (hSafe.plain hName) hj with hj | rfl
  · exact inside_of_lookup hUnder hSafe (.name hName hDir.cached) (by simp) hj
  · exact inside_of_directory hUnder hSafe hName hDir

/-- A path that is below an exported one and leads inside. -/
def Storable (w : World) (q : Path) : Prop :=
  Under w.machine.exports q ∧ ∀ i, w.fs.leadsTo q = some i → Inside w w.fs i

theorem storable_built (hName : (i, n) ∈ r.names) (hDir : DirectoryAt w i p st) :
    Storable w (getFileAbsolutePath p n) :=
  ⟨(hUnder.cached hDir.cached).join (hSafe.plain hName),
    fun _ hj => inside_of_built hUnder hSafe hName hDir hj⟩

theorem Effect.stores {ok : Bool} {cache : InodeCache} (h : Effect w cred r ok fs' cache)
    {m : InodeCacheMapping} (hm : m ∈ cache) : m ∈ w.inodeCache ∨ Storable w m.absolutePath := by
  cases h with
  | nothing | touched | symlinked | linked => exact Or.inl hm
  | @mounted p st ts hExported hStat hDir =>
    rcases mem_cons.mp hm with rfl | hm
    · refine Or.inr ⟨.exported hExported, fun i hi => ?_⟩
      have hLookup := (lstat_ok hStat).1
      cases hi.symm.trans (leadsTo_of_lookup hLookup)
      exact ⟨p, st.ino, hExported, hLookup, hDir, .refl⟩
    · exact Or.inl hm
  | lookedUp _ hArgs hDir _ _ =>
    rcases mem_cons.mp hm with rfl | hm
    · exact Or.inr (storable_built hUnder hSafe (by simp [Request.names, hArgs]) hDir)
    · exact Or.inl hm
  | forgotten => exact Or.inl (eraseP_sublist.subset hm)
  | created hRequest hArgs hDir _ _ _ _ hCache =>
    rcases hCache with rfl | ⟨ts, _, rfl⟩
    · exact Or.inl hm
    · rcases mem_cons.mp hm with rfl | hm
      · exact Or.inr (storable_built hUnder hSafe (names_of_creation hRequest hArgs)
          hDir.toDirectoryAt)
      · exact Or.inl hm
  | removed => exact Or.inl (eraseP_sublist.subset hm)
  | renamed hArgs _ hTo _ _ _ _ _ _ _ =>
    rcases mem_modifyFirst hm with hm | ⟨m₀, _, _, rfl⟩
    · exact Or.inl hm
    · exact Or.inr (storable_built hUnder hSafe (by simp [Request.names, hArgs])
        hTo.toDirectoryAt)

/-- **One request**, in a state where the cache holds paths below exported ones. -/
theorem confined_of_request : Confined w cred r := by
  obtain ⟨hReads, hEffect⟩ := complete_serve w cred r
  obtain ⟨old, new, hFootprint⟩ := hEffect.footprint hUnder hSafe
  have hMem : ∀ {i}, (w.afterRequest cred r).fs.inode i ≠ w.fs.inode i → i ∈ old ∨ i ∈ new := by
    intro i hne
    by_contra hi
    exact hne (hFootprint.only i (by simpa using hi))
  constructor
  · intro m hm
    rcases hEffect.stores hUnder hSafe hm with hm | hStorable
    · exact hUnder m hm
    · exact hStorable.1
  · intro m hm hNew
    rcases hEffect.stores hUnder hSafe hm with hm | hStorable
    · exact absurd hm hNew
    · exact hStorable.2
  · intro e he i hi
    exact (hReads e he i hi).inside hUnder hSafe
  · intro i x hx hne
    rcases hMem (fun hEq => hne (hEq.trans hx)) with hi | hi
    · exact hFootprint.old_inside i hi
    · exact absurd hx (by simp [(hFootprint.new_inside i hi).1])
  · intro i hNone hne
    rcases hMem (fun hEq => hne (hEq.trans hNone)) with hi | hi
    · exact absurd (hFootprint.old_inside i hi).isSome (by simp [hNone])
    · exact (hFootprint.new_inside i hi).2

end Requests

/-! ## Runs -/

/-- The condition on an action; the sweep of ReadDir sessions has none. -/
def ConfinableAction (w : World) : Action → Prop
  | .request cred r => Confinable w cred r
  | .cleanUp => True

theorem allUnder_step (w : World) (a : Action) (hUnder : AllUnder w)
    (hSafe : ConfinableAction w a) : AllUnder (w.step a) := by
  intro m hm
  rw [(World.step_frame w a).1]
  cases a with
  | request cred r => exact (confined_of_request hUnder hSafe).cached hm
  | cleanUp => exact hUnder m ((effect_cleanUp w).2 ▸ hm)

/-- **Requests stay inside the exported directories**, in every state that a run
of confinable requests reaches from the start of the server. -/
theorem confined_of_run {w : World} (hFresh : w.Fresh) {run : List Action}
    (hRun : World.Along ConfinableAction w run) {cred : Credential} {r : Request}
    (hSafe : Confinable (w.steps run) cred r) : Confined (w.steps run) cred r := by
  have hStart : AllUnder w := by
    intro m hm
    rw [hFresh.inodeCache] at hm
    cases hm
  exact confined_of_request (World.invariant_steps allUnder_step hStart hRun) hSafe

/-! ### The small server -/

theorem confinable_mount : Confinable Sample.world (.authSys Sample.caller)
    (.mnt ⟨some (bytes "/exp")⟩) where
  plain h := absurd h (by simp [Request.names])
  mounted := by
    rintro p i ⟨⟩ hi
    have hLookup : Sample.world.fs.lookup false (bytes "/exp") = .ok 2 := by decide
    cases hi.symm.trans hLookup
    exact ⟨by decide, by decide⟩
  clear hq := by
    cases hq with
    | handle h _ => cases h
    | name h _ => cases h
  stream h := absurd h (by simp)

/-- A file that is created in the exported directory. -/
theorem confined_of_run_create :
    Confined (Sample.world.steps [Sample.mount]) (.authSys Sample.caller)
      (.create (Sample.newFile 2 "new" 1000)) := by
  have hHandles : (Request.create (Sample.newFile 2 "new" 1000)).handles = [2] := by decide
  have hNames : (Request.create (Sample.newFile 2 "new" 1000)).names = [(2, bytes "new")] := by
    decide
  have hCached : (Sample.world.steps [Sample.mount]).inodeCache.getAbsolutePathFromInodeNumber 2 =
      some (bytes "/exp") := by decide
  have hRun : World.Along ConfinableAction Sample.world [Sample.mount] := ⟨confinable_mount, trivial⟩
  refine confined_of_run (World.fresh_boot _ _ _ _) hRun
    ⟨fun h => ?_, fun h => absurd h (by simp [Request.mountPath]), fun hq _ => ?_,
      fun h => absurd h (by simp)⟩
  · rw [hNames] at h
    cases mem_singleton.mp h
    decide
  · refine ⟨bytes "/exp", ?_⟩
    cases hq with
    | handle h hp =>
      rw [hHandles] at h
      cases mem_singleton.mp h
      cases hCached.symm.trans hp
      exact ⟨[], 2, by decide, by decide, by decide, by decide, by simp, by decide⟩
    | name h hp =>
      rw [hNames] at h
      cases mem_singleton.mp h
      cases hCached.symm.trans hp
      exact ⟨[bytes "new"], 2, by decide, by decide, by decide, by decide, by decide, by decide⟩

/-- The one line of the exports file exports one path. -/
theorem eq_of_exported (h : isExported Sample.world.machine.exports p = true) :
    p = bytes "/exp" := by
  have hLines : exportLines 11 (bytes "/exp *(rw)\n") = [bytes "/exp *(rw)"] := by decide
  have hLine : lineExports p (bytes "/exp *(rw)") = true := by
    have h' : (exportLines 11 (bytes "/exp *(rw)\n")).any (lineExports p) = true := h
    rw [hLines] at h'
    simpa using h'
  -- the path is one of the prefixes of the line
  have hPrefix : p <+: bytes "/exp *(rw)" := by
    have h' := hLine
    rw [lineExports, Bool.and_eq_true] at h'
    exact isPrefixOf_iff_prefix.mp h'.1
  have hTake := prefix_iff_eq_take.mp hPrefix
  have hLength : p.length < 11 := Nat.lt_succ_of_le hPrefix.length_le
  have hAll : ∀ k < 11, lineExports ((bytes "/exp *(rw)").take k) (bytes "/exp *(rw)") = true →
      (bytes "/exp *(rw)").take k = bytes "/exp" := by decide
  rw [hTake] at hLine
  rw [hTake]
  exact hAll p.length hLength hLine

/-- **LOOKUP of `..` leaves the exported directory**: it is answered with a
handle of the root, of which only `/exp` is exported. -/
theorem lookup_dotdot_escapes :
    let w := Sample.world.steps [Sample.mount]
    let r : Request := .lookup (Sample.nameIn 2 "..")
    Sample.world.Fresh ∧ (w.answer (.authSys Sample.caller) r).isOk = true ∧
      (w.afterRequest (.authSys Sample.caller) r).inodeCache.getAbsolutePathFromInodeNumber 1 =
        some (bytes "/exp/..") ∧
      w.fs.leadsTo (bytes "/exp/..") = some 1 ∧ ¬Inside w w.fs 1 ∧
      ¬Confined w (.authSys Sample.caller) r := by
  intro w r
  have hCached : (w.afterRequest (.authSys Sample.caller) r).inodeCache.find?
      (fun m => m.absolutePath = bytes "/exp/..") ≠ none := by decide
  have hNew : ∀ m ∈ w.inodeCache, m.absolutePath ≠ bytes "/exp/.." := by decide
  have hLeads : w.fs.leadsTo (bytes "/exp/..") = some 1 := by decide
  have hOutside : ¬Inside w w.fs 1 := by
    rintro ⟨p, e, hExported, hp, _, hBelow⟩
    cases eq_of_exported hExported
    have hLookup : w.fs.lookup false (bytes "/exp") = .ok 2 := by decide
    cases hp.symm.trans hLookup
    -- nothing but the root is above the root
    have hRoot : w.fs.root = 1 := by decide
    have hEq : 2 = w.fs.root := eq_root_of_below (hRoot ▸ hBelow)
    rw [hRoot] at hEq
    exact absurd hEq (by decide)
  refine ⟨World.fresh_boot _ _ _ _, by decide, by decide, hLeads, hOutside, fun hConfined => ?_⟩
  obtain ⟨m, hm⟩ := Option.ne_none_iff_exists'.mp hCached
  have hPath : m.absolutePath = bytes "/exp/.." := by simpa using find?_some hm
  exact hOutside (hConfined.stored (mem_of_find?_eq_some hm) (fun hOld => hNew m hOld hPath) 1
    (hPath ▸ hLeads))

end QuicNfs.Server

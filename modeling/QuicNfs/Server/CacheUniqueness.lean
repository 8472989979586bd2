import QuicNfs.Server.Issuing

/-!
# QuicNfs — one mapping for each number and path

The functions of the inode cache look for the first mapping with a number or a path, as if there
were no other. MNT, CREATE and MKDIR add a mapping whatever is cached, LOOKUP one for a number that
is not cached, and RENAME rewrites a path in place; none of them looks for a mapping with the new
path.

* `Unique` — no two mappings have the same number or the same path;
* `Request.change` — what a request asks of the cache, from its arguments, the cache it finds and
  its answer;
* `records_serve` — the cache after a request is as that says;
* `CacheChange.Clashes` — a mapping is asked for that meets one that is there;
* `cache_unique_iff` — the mappings of a run are unique exactly if no request of it clashes.
-/

namespace QuicNfs.Server

open Kernel Lib InodeCache List

def InodeCacheMapping.inodeNumber (m : InodeCacheMapping) : Ino := m.nfsFilehandle.inodeNumber

structure Unique (cache : InodeCache) : Prop where
  numbers : (cache.map (·.inodeNumber)).Nodup
  paths : (cache.map (·.absolutePath)).Nodup

instance (cache : InodeCache) : Decidable (Unique cache) :=
  decidable_of_iff ((cache.map (·.inodeNumber)).Nodup ∧ (cache.map (·.absolutePath)).Nodup)
    ⟨fun h => ⟨h.1, h.2⟩, fun h => ⟨h.1, h.2⟩⟩

/-! ## What a request asks of the cache -/

inductive CacheChange where
  | add (number : Ino) (path : Path)
  | move (old new : Path)

/-- The path of a name in a directory that is cached. -/
def InodeCache.pathOf (cache : InodeCache) (d : Ino) (n : Bytes) : Option Path :=
  (cache.getAbsolutePathFromInodeNumber d).map (getFileAbsolutePath · n)

theorem InodeCache.pathOf_of_cached {cache : InodeCache} {d : Ino} {p : Path}
    (h : cache.getAbsolutePathFromInodeNumber d = some p) (n : Bytes) :
    cache.pathOf d n = some (getFileAbsolutePath p n) := by
  rw [InodeCache.pathOf, h]
  rfl

/-- The change that a request asks for once it is answered NFS_OK. The number of a new mapping is
that of the handle in the answer. -/
def Request.change (cache : InodeCache) : Request → Answer → Option CacheChange
  | .mnt dirpath, .fhStatus (.ok handle) => dirpath.path.map (.add handle.inodeNumber)
  | .lookup args, .dirOpRes (.ok body) =>
    -- the number is looked for, the path is not
    if body.file.inodeNumber ∈ cache.map (·.inodeNumber) then none
    else args.decode.bind fun (d, n) =>
      (cache.pathOf d n).map (.add body.file.inodeNumber)
  | .create args, .dirOpRes (.ok body) =>
    args.decode.bind fun (d, n, _) => (cache.pathOf d n).map (.add body.file.inodeNumber)
  | .mkdir args, .dirOpRes (.ok body) =>
    args.decode.bind fun (d, n, _) => (cache.pathOf d n).map (.add body.file.inodeNumber)
  | .rename args, .nfsStat (.ok _) =>
    args.decode.bind fun ((d, n), (d', n')) =>
      (cache.pathOf d n).bind fun old => (cache.pathOf d' n').map (.move old)
  | _, _ => none

def World.cacheChange (v : World) : Action → Option CacheChange
  | .request cred r => r.change v.inodeCache (v.answer cred r)
  | .cleanUp => none

/-- A mapping is to be added for a number or a path that has one, or a mapping is to get the path
of another. -/
def CacheChange.Clashes (cache : InodeCache) : CacheChange → Prop
  | .add number path =>
    number ∈ cache.map (·.inodeNumber) ∨ path ∈ cache.map (·.absolutePath)
  | .move old new =>
    old ≠ new ∧ old ∈ cache.map (·.absolutePath) ∧ new ∈ cache.map (·.absolutePath)

instance (cache : InodeCache) : DecidablePred (CacheChange.Clashes cache)
  | .add number path => inferInstanceAs (Decidable
      (number ∈ cache.map (·.inodeNumber) ∨ path ∈ cache.map (·.absolutePath)))
  | .move old new => inferInstanceAs (Decidable
      (old ≠ new ∧ old ∈ cache.map (·.absolutePath) ∧ new ∈ cache.map (·.absolutePath)))

/-- The request asks for a change that clashes with what is cached before it. -/
def World.Clashes (v : World) (action : Action) : Prop :=
  ∃ change ∈ v.cacheChange action, change.Clashes v.inodeCache

instance (v : World) (action : Action) : Decidable (v.Clashes action) :=
  inferInstanceAs (Decidable (∃ change ∈ v.cacheChange action, change.Clashes v.inodeCache))

/-! ## What becomes of it -/

/-- The cache after a request that asks for this change. Without one, mappings can only go. -/
def Records (cache : InodeCache) : Option CacheChange → InodeCache → Prop
  | none, cache' => cache'.Sublist cache
  | some (.add number path), cache' =>
    ∃ timestamp, cache' = cache.addInodeMapping ⟨number, timestamp⟩ path
  | some (.move old new), cache' =>
    cache' = cache.updateInodeMappingAbsolutePathByAbsolutePath old new

section Procedures

variable {w : World} {cred : Credential}

/-- The postcondition of a request: `wrap` makes the answer from the reply. -/
def RecordsOf {α : Type} (w : World) (r : Request) (wrap : α → Answer) (reply : α) (w' : World) :
    Prop :=
  Records w.inodeCache (r.change w.inodeCache (wrap reply)) w'.inodeCache

theorem records_of_failed {cache : InodeCache} {r : Request} {a : Answer} (h : a.isOk = false) :
    Records cache (r.change cache a) cache := by
  have hNone : r.change cache a = none := by
    -- a change is asked for in the answers of success only
    cases a with
    | fhStatus reply | attrStat reply | dirOpRes reply | readLinkRes reply | readRes reply
    | nfsStat reply | readDirRes reply | statFsRes reply =>
      cases reply with
      | ok body => cases h
      | systemErr | garbageArgs | err => cases r <;> rfl
  rw [hNone]
  exact .refl _

theorem records_mnt (dirpath : MsgPath) :
    Safe .none (RecordsOf w (.mnt dirpath) .fhStatus)
      (serveMntProcedure1AddMountEntry cred dirpath) w := by
  obtain ⟨_ | p⟩ := dirpath
  · exact safe_pure fun _ => records_of_failed rfl
  · exact safe_mnt (fun _ => trivial) (fun reply hReply _ => records_of_failed hReply)
      fun st ts mounts _ _ _ _ => ⟨ts, rfl⟩

theorem mem_numbers_iff {cache : InodeCache} {i : Ino} :
    i ∈ cache.map (·.inodeNumber) ↔ cache.getNfsFilehandleFromInodeNumber i ≠ none := by
  unfold getNfsFilehandleFromInodeNumber
  simp [hasInode, InodeCacheMapping.inodeNumber]

/-- A directory that is cached gives the path for the new object. -/
theorem records_new {cache : InodeCache} {d : Ino} {n : Bytes} {p : Path}
    (hp : cache.getAbsolutePathFromInodeNumber d = some p) (handle : NfsFileHandle) :
    Records cache ((cache.pathOf d n).map (.add handle.inodeNumber))
      (cache.addInodeMapping handle (getFileAbsolutePath p n)) := by
  rw [pathOf_of_cached hp]
  exact ⟨handle.timestamp, rfl⟩

theorem records_lookup (args : DirOpArgs) :
    Safe .none (RecordsOf w (.lookup args) .dirOpRes)
      (serveNfsProcedure4LookUpFileName cred args) w := by
  have hFail : FailSafe (RecordsOf w (.lookup args) .dirOpRes) w :=
    fun reply hReply _ => records_of_failed hReply
  refine safe_lookUpFileName hFail (fun _ _ _ _ _ => ⟨fun _ => trivial, fun _ => trivial⟩) ?_ ?_
  · -- a handle that is known is answered, or it is forgotten
    intro d n p stDir st handle h hHandle
    refine safe_answerWithHandle (fun _ => trivial) (fun _ => ?_) fun st' _ _ => ?_
    · exact eraseP_sublist
    · obtain ⟨m, hm, rfl⟩ := Option.map_eq_some_iff.mp hHandle
      have hMem : m.nfsFilehandle.inodeNumber ∈ w.inodeCache.map (·.inodeNumber) :=
        mem_map_of_mem (mem_of_find?_eq_some hm)
      rw [RecordsOf, Request.change, if_pos hMem]
      exact .refl _
  · intro d n p stDir st h hNew
    refine safe_answerNew (fun _ _ => trivial) hFail fun st' ts hst' _ => ?_
    cases h.file.symm.trans hst'
    have hNot : st.ino ∉ w.inodeCache.map (·.inodeNumber) := fun hMem => mem_numbers_iff.mp hMem hNew
    rw [RecordsOf, Request.change, if_neg hNot, h.args]
    exact records_new h.cached ⟨st.ino, ts⟩

theorem records_create (args : CreateArgs) :
    Safe .none (RecordsOf w (.create args) .dirOpRes)
      (serveNfsProcedure9CreateFile cred args) w := by
  refine safe_createFile (Q := fun reply => Records w.inodeCache
    ((Request.create args).change w.inodeCache (.dirOpRes reply)))
    (fun _ hReply => records_of_failed hReply) rfl fun i n a p hArgs hp body => ?_
  rw [Request.change, hArgs]
  exact records_new hp body.file

theorem records_mkdir (args : CreateArgs) :
    Safe .none (RecordsOf w (.mkdir args) .dirOpRes)
      (serveNfsProcedure14CreateDirectory cred args) w := by
  refine safe_createDirectory (Q := fun reply => Records w.inodeCache
    ((Request.mkdir args).change w.inodeCache (.dirOpRes reply)))
    (fun _ hReply => records_of_failed hReply) rfl fun i n a p hArgs hp body => ?_
  rw [Request.change, hArgs]
  exact records_new hp body.file

theorem records_rename (args : RenameArgs) :
    Safe .none (RecordsOf w (.rename args) .nfsStat)
      (serveNfsProcedure11RenameFile cred args) w := by
  have hFail : FailSafe (RecordsOf w (.rename args) .nfsStat) w :=
    fun reply hReply _ => records_of_failed hReply
  refine safe_orGarbageArgs hFail fun ((d, n), (d', n')) hArgs => ?_
  refine safe_withDirectory (fun _ _ _ => trivial) hFail fun p _ hp _ _ => ?_
  refine safe_withExisting (fun _ => trivial) hFail fun _ _ => ?_
  refine safe_withDirectory (fun _ _ _ => trivial) hFail fun p' _ hp' _ _ => ?_
  refine safe_withPermission hFail (checks_rename (fun _ => trivial) fun _ => trivial) fun _ => ?_
  refine safe_orReport_change (r := fun c => w.fs.rename (getFileAbsolutePath p n)
    (getFileAbsolutePath p' n') c.now) (fun _ => rfl) (fun _ => trivial) hFail fun c fs' _ => ?_
  refine safe_getInodeCache (safe_setInodeCache (safe_pure fun _ => ?_))
  rw [RecordsOf, Request.change, hArgs]
  show Records _ ((w.inodeCache.pathOf d n).bind fun old =>
    (w.inodeCache.pathOf d' n').map (.move old)) _
  rw [pathOf_of_cached hp, pathOf_of_cached hp']
  exact rfl

end Procedures

/-- The other requests add nothing and move nothing. -/
theorem Effect.sublist {w : World} {cred : Credential} {r : Request} {ok : Bool}
    {fs' : FileSystem} {cache : InodeCache} (h : Effect w cred r ok fs' cache)
    (hIssues : r.issues = false) (hRename : ∀ args, r ≠ .rename args) :
    cache.Sublist w.inodeCache := by
  cases h with
  | nothing | touched | symlinked | linked => exact .refl _
  | mounted | lookedUp | forgotten => cases hIssues
  | created hRequest => cases r <;> simp_all [Request.creation, Request.issues]
  | removed => exact eraseP_sublist
  | renamed => exact absurd rfl (hRename _)

/-- **The cache after a request** is what the request asks for. -/
theorem records_serve (w : World) (cred : Credential) (r : Request) :
    Records w.inodeCache (r.change w.inodeCache (w.answer cred r))
      (w.afterRequest cred r).inodeCache := by
  by_cases hOther : r.issues = false ∧ ∀ args, r ≠ .rename args
  · have hNone : r.change w.inodeCache (w.answer cred r) = none := by
      cases r <;> simp_all [Request.change, Request.issues]
    rw [hNone]
    exact (effect_serve w cred r).sublist hOther.1 hOther.2
  refine Safe.run (p := serve cred r) (Q := RecordsOf w r id) ?_
  cases r with
  | mnt args => exact safe_return (records_mnt args)
  | lookup args => exact safe_return (records_lookup args)
  | create args => exact safe_return (records_create args)
  | mkdir args => exact safe_return (records_mkdir args)
  | rename args => exact safe_return (records_rename args)
  | _ => simp [Request.issues] at hOther

/-! ## Uniqueness -/

/-- The update replaces a path in the list of paths. -/
theorem paths_update (p q : Path) (cache : InodeCache) :
    (cache.updateInodeMappingAbsolutePathByAbsolutePath p q).map (·.absolutePath) =
      modifyFirst (· == p) (fun _ => q) (cache.map (·.absolutePath)) := by
  induction cache with
  | nil => rfl
  | cons m cache ih =>
    rw [updateInodeMappingAbsolutePathByAbsolutePath] at ih ⊢
    rw [map_cons, modifyFirst, modifyFirst, hasPath]
    split
    · rfl
    · rw [map_cons, ih]

/-- A path in a list without repetitions is replaced by another one. -/
theorem nodup_replace {paths : List Path} (h : paths.Nodup) (p q : Path) :
    (modifyFirst (· == p) (fun _ => q) paths).Nodup ↔ ¬(p ≠ q ∧ p ∈ paths ∧ q ∈ paths) := by
  by_cases hp : p ∈ paths
  · obtain ⟨before, after, rfl⟩ := append_of_mem hp
    rw [nodup_middle, nodup_cons, mem_append, not_or] at h
    have hBefore : ∀ a ∈ before, (a == p) = false := fun a ha =>
      beq_eq_false_iff_ne.mpr fun hIs => h.1.1 (hIs ▸ ha)
    rw [modifyFirst_append hBefore (beq_self_eq_true p), nodup_middle, nodup_cons]
    by_cases hSame : p = q
    · simp [← hSame, h]
    · simp [h.2, hSame, Ne.symm hSame]
  · have hNone : ∀ a ∈ paths, (a == p) = false := fun a ha =>
      beq_eq_false_iff_ne.mpr fun hIs => hp (hIs ▸ ha)
    rw [modifyFirst_of_not hNone]
    simp [h, hp]

/-- From a cache without repetitions, the next one has none exactly if the change that is asked for
does not clash. -/
theorem unique_iff {cache cache' : InodeCache} {change : Option CacheChange} (h : Unique cache)
    (hRecords : Records cache change cache') : Unique cache' ↔ ¬∃ c ∈ change, c.Clashes cache := by
  cases change with
  | none =>
    refine iff_of_true ?_ (by simp)
    exact ⟨h.numbers.sublist (hRecords.map _), h.paths.sublist (hRecords.map _)⟩
  | some change =>
    simp only [Option.mem_some_iff, exists_eq_left']
    cases change with
    | add number path =>
      obtain ⟨timestamp, rfl⟩ := hRecords
      -- neither the number nor the path of the new mapping may be there
      rw [CacheChange.Clashes, not_or]
      constructor
      · exact fun hAfter => ⟨(nodup_cons.mp hAfter.numbers).1, (nodup_cons.mp hAfter.paths).1⟩
      · exact fun hNot => ⟨nodup_cons.mpr ⟨hNot.1, h.numbers⟩, nodup_cons.mpr ⟨hNot.2, h.paths⟩⟩
    | move old new =>
      obtain rfl := hRecords
      rw [CacheChange.Clashes, ← nodup_replace h.paths, ← paths_update]
      refine ⟨fun hAfter => hAfter.paths, fun hPaths => ⟨?_, hPaths⟩⟩
      rw [updateInodeMappingAbsolutePathByAbsolutePath, map_modifyFirst (by intro m; rfl)]
      exact h.numbers

theorem unique_step_iff {w : World} (h : Unique w.inodeCache) (action : Action) :
    Unique (w.step action).inodeCache ↔ ¬w.Clashes action := by
  cases action with
  | request cred r => exact unique_iff h (records_serve w cred r)
  | cleanUp =>
    have hRecords : Records w.inodeCache none (w.step .cleanUp).inodeCache := by
      rw [(effect_cleanUp w).2]
      exact .refl _
    exact unique_iff h hRecords

theorem unique_run_iff {w : World} (h : Unique w.inodeCache) (run : List Action) :
    w.Throughout (fun v => Unique v.inodeCache) run ↔
      w.Along (fun v action => ¬v.Clashes action) run := by
  induction run generalizing w with
  | nil => exact iff_of_true h trivial
  | cons action run ih =>
    rw [World.Throughout, World.Along, ← unique_step_iff h action]
    constructor
    · exact fun hRun => ⟨hRun.2.start, (ih hRun.2.start).mp hRun.2⟩
    · exact fun hRun => ⟨h, (ih hRun.1).mpr hRun.2⟩

end QuicNfs.Server

import QuicNfs.Server.Issuing

/-!
# QuicNfs — handles of objects that are still there

A client may use a handle for as long as its object has a name. The server
keeps one path for each handle and drops it with the name that REMOVE or RMDIR
takes away, also where the object has another name.

* `Retains` — the requests that the cache can follow, and that take the name at
  a mapped path away only if it is the last one of its object;
* `Effect.knows_of_retains` — such a request forgets no object that has a name;
* `live_handle_usable` — along every run of them, GETATTR with a handle that was
  issued answers with the attributes of its object;
* `live_handle_lost` — after LINK and REMOVE of the first name, and after RENAME
  of a directory above, it does not.
-/

namespace QuicNfs.Server

open Kernel Lib

/-- The object has a name somewhere in the tree, or is its root. A number is not
given to another object in the meantime: new objects get numbers that no object
has. -/
def Named (fs : FileSystem) (i : Ino) : Prop := i = fs.root ∨ fs.hasName i = true

instance (fs : FileSystem) (i : Ino) : Decidable (Named fs i) :=
  inferInstanceAs (Decidable (i = fs.root ∨ fs.hasName i = true))

/-- An object whose only name was removed has none. -/
theorem not_named_of_removed {fs fs' : FileSystem} {d : Ino} {n : Name} {i : Ino}
    (hRemoved : fs.Removed fs' d n i) (hCount : fs.nameCount i ≤ 1) : ¬Named fs' i := by
  rintro (hRoot | hName)
  · rw [hRemoved.root] at hRoot
    exact fs.wf.root_unnamed (hRoot ▸ hRemoved.named)
  · obtain ⟨e, m, he⟩ := Tree.hasName_iff.mp hName
    rw [hRemoved.entry] at he
    split at he
    · cases he
    · next hOther => exact hOther (Tree.entry_unique hCount he hRemoved.named)

/-! ## The condition on a request -/

/-- The path of the name that REMOVE or RMDIR takes away. -/
def World.deleting (w : World) (r : Request) : Option Path :=
  r.deletion.bind fun args => args.decode.bind w.built

/-- The cache can follow the request, and a name is taken away from a mapped path
only if its object has no other. A directory never has another one. -/
structure Retains (w : World) (r : Request) : Prop extends HandleSafe w r where
  last : ∀ q ∈ w.deleting r, (∃ m ∈ w.inodeCache, m.absolutePath = q) →
    ∀ j ∈ (w.fs.lookup false q).toOption, w.fs.nameCount j ≤ 1

instance (w : World) (r : Request) : Decidable (Retains w r) :=
  decidable_of_iff (HandleSafe w r ∧ ∀ q ∈ w.deleting r,
      (∃ m ∈ w.inodeCache, m.absolutePath = q) →
        ∀ j ∈ (w.fs.lookup false q).toOption, w.fs.nameCount j ≤ 1)
    ⟨fun ⟨h₁, h₂⟩ => ⟨h₁, h₂⟩, fun h => ⟨h.toHandleSafe, h.last⟩⟩

def RetainsAction (w : World) : Action → Prop
  | .request _ r => Retains w r
  | .cleanUp => True

instance (w : World) : ∀ a, Decidable (RetainsAction w a)
  | .request _ r => inferInstanceAs (Decidable (Retains w r))
  | .cleanUp => inferInstanceAs (Decidable True)

theorem RetainsAction.handleSafe {w : World} {a : Action} (h : RetainsAction w a) :
    HandleSafeAction w a := by
  cases a with
  | request cred r => exact h.toHandleSafe
  | cleanUp => trivial

/-! ## One action -/

variable {w : World} {i : Ino}

/-- **A request forgets no object that keeps a name.** -/
theorem Effect.knows_of_retains {cred : Credential} {r : Request} {ok : Bool}
    {fs' : FileSystem} {cache : InodeCache} (h : Effect w cred r ok fs' cache)
    (hr : r.issues = false) (hSound : Sound w.fs w.inodeCache) (hSafe : Retains w r)
    (hKnows : w.Knows i) (hNamed : Named fs' i) : 0 < cache.countP (InodeCache.hasInode i) := by
  cases h with
  | nothing | touched | symlinked | linked => exact hKnows
  | mounted | lookedUp | forgotten => cases hr
  | created hRequest =>
    cases r <;> simp_all [Request.creation, Request.issues]
  | renamed =>
    rw [InodeCache.countP_hasInode_update]
    exact hKnows
  | @removed _ args k n p st _ _ d m j hRequest hArgs hDir hSlot hRemoved _ =>
    obtain ⟨mapping, hMapping, hIno⟩ := List.countP_pos_iff.mp hKnows
    by_cases hPath : mapping.absolutePath = getFileAbsolutePath p n
    · -- the mapping that goes is that of the removed object, which has no name left
      have hPlain : Plain n := hSafe.plain (k, n) (by
        cases r <;> simp_all [Request.deletion, Request.names])
      have hLength := FileSystem.length_of_slot hSlot
      obtain ⟨rfl, rfl⟩ := hDir.slot hPlain hSlot
      have hq : w.fs.Spells (getFileAbsolutePath p m) j :=
        (hDir.toDirectoryAt.spells hSound).join hRemoved.named hLength
      have hij : i = j := by
        have hSpells := hSound.spells hMapping
        rw [hPath, beq_iff_eq.mp hIno] at hSpells
        exact hSpells.eq hq
      subst hij
      have hCount := hSafe.last _ (by simp [World.deleting, hRequest, hArgs, hDir.built])
        ⟨mapping, hMapping, hPath⟩ i (by rw [hq.lookup]; rfl)
      exact absurd hNamed (not_named_of_removed hRemoved hCount)
    · have hStays : mapping ∈
          w.inodeCache.removeInodeMappingByAbsolutePath (getFileAbsolutePath p n) :=
        (List.mem_eraseP_of_neg (by simpa [InodeCache.hasPath] using hPath)).mpr hMapping
      exact List.countP_pos_iff.mpr ⟨mapping, hStays, hIno⟩

theorem Quiet.knows_step (hw : Quiet w) (hSound : Sound w.fs w.inodeCache) {a : Action}
    (hSafe : RetainsAction w a) (hKnows : w.Knows i) (hNamed : Named (w.step a).fs i) :
    (w.step a).Knows i := by
  cases a with
  | cleanUp =>
    unfold World.Knows
    rw [(effect_cleanUp w).2]
    exact hKnows
  | request cred r =>
    cases hr : r.issues with
    | true => exact lt_of_lt_of_le hKnows (hw.issuing cred hr).sublist.countP_le
    | false => exact (effect_serve w cred r).knows_of_retains hr hSound hSafe hKnows hNamed

/-! ## Runs -/

/-- An object that keeps a name all along the run stays known. -/
theorem Quiet.knows_steps (hw : Quiet w) (hSound : Sound w.fs w.inodeCache) {run : List Action}
    (hRun : World.Along RetainsAction w run)
    (hNamed : World.Throughout (fun w => Named w.fs i) w run) (hKnows : w.Knows i) :
    Sound (w.steps run).fs (w.steps run).inodeCache ∧ (w.steps run).Knows i := by
  induction run generalizing w with
  | nil => exact ⟨hSound, hKnows⟩
  | cons a run ih =>
    obtain ⟨hSafe, hRun⟩ := hRun
    exact ih (hw.step a) (sound_step w a hSound hSafe.handleSafe) hRun hNamed.2
      (hw.knows_step hSound hSafe hKnows hNamed.2.start)

/-- **The handle of an object that keeps a name stays usable** along every run of
requests that retain what the cache knows, on a machine where no call fails for
a reason of its own: whatever happened since it was issued, GETATTR answers with
the attributes of its object. -/
theorem live_handle_usable (hFresh : w.Fresh) (hw : Quiet w) {before after : List Action}
    {cred : Credential} {r : Request} {handle : NfsFileHandle}
    (hRun : World.Along RetainsAction w (before ++ .request cred r :: after))
    (hIssued : ((w.steps before).answer cred r).handle = some handle)
    (hNamed : World.Throughout (fun w => Named w.fs handle.inodeNumber)
      ((w.steps before).afterRequest cred r) after) (caller : Credential) :
    let w' := w.steps (before ++ .request cred r :: after)
    ∃ st, w'.fs.stat w'.host handle.inodeNumber = .ok st ∧
      w'.answer caller (.getattr ⟨some handle⟩) = .attrStat (.ok (fattrOfStat st)) := by
  intro w'
  have hw' : w' = ((w.steps before).afterRequest cred r).steps after :=
    World.steps_append w before _
  obtain ⟨hBefore, hRequest, hAfter⟩ := World.along_append.mp hRun
  have hSound := sound_steps hFresh (hBefore.mono fun _ _ hSafe => hSafe.handleSafe)
  -- the request that issues the handle makes the object known
  have hQuiet := hw.steps before
  have hKnows := hQuiet.knows_of_issued hIssued
  have hSound' := sound_step _ (.request cred r) hSound (RetainsAction.handleSafe hRequest)
  have hEnd := Quiet.knows_steps (hQuiet.step (.request cred r)) hSound' hAfter hNamed
    hKnows
  rw [hw']
  exact Quiet.getattr_of_known ((hQuiet.step (.request cred r)).steps after) hEnd.1 hEnd.2
    caller

/-- The requests of a client that makes a file, gives it a second name, renames
it and takes the second name away again. -/
theorem live_handle_usable_renamed :
    let w := Sample.world.steps [Sample.mount,
      Sample.request (.create (Sample.newFile 2 "new" 1000)),
      Sample.request (.link ⟨some (Sample.handle 26), some (Sample.nameIn 2 "second")⟩),
      Sample.rename 2 "new" 2 "newer", Sample.request (.remove (Sample.nameIn 2 "second"))]
    ∃ st, w.fs.stat w.host 26 = .ok st ∧
      w.answer .authNone (.getattr (Sample.handle 26)) = .attrStat (.ok (fattrOfStat st)) :=
  @live_handle_usable Sample.world (World.fresh_boot _ _ _ _) ⟨fun _ => rfl, fun _ => rfl⟩
    [Sample.mount]
    [Sample.request (.link ⟨some (Sample.handle 26), some (Sample.nameIn 2 "second")⟩),
      Sample.rename 2 "new" 2 "newer", Sample.request (.remove (Sample.nameIn 2 "second"))]
    (.authSys Sample.caller) (.create (Sample.newFile 2 "new" 1000)) ⟨26, 0⟩ (by decide +kernel)
    (by decide +kernel) (by decide +kernel) .authNone

/-- **Handles of objects that are still there get lost.** A file is made, gets
a second name and loses its first one: it is still there under the second, but
its handle is refused. And the handle of a file is useless once a directory above
it was renamed. -/
theorem live_handle_lost :
    Sample.world.Fresh ∧ Quiet Sample.world ∧
    ((Sample.world.steps [Sample.mount]).answer (.authSys Sample.caller)
      (.create (Sample.newFile 2 "new" 1000))).handle = some ⟨26, 0⟩ ∧
    (let w := Sample.world.steps [Sample.mount,
        Sample.request (.create (Sample.newFile 2 "new" 1000)),
        Sample.request (.link ⟨some (Sample.handle 26), some (Sample.nameIn 2 "second")⟩),
        Sample.request (.remove (Sample.nameIn 2 "new"))]
     w.fs.entry 2 (bytes "second") = some 26 ∧
      w.answer (.authSys Sample.caller) (.getattr (Sample.handle 26)) =
        .attrStat (.err .nfserrNoent)) ∧
    (let w := Sample.world.steps [Sample.mount,
        Sample.request (.lookup (Sample.nameIn 2 "a")),
        Sample.request (.lookup (Sample.nameIn 3 "f")), Sample.rename 2 "a" 2 "b"]
     w.fs.lookup false (bytes "/exp/b/f") = .ok 4 ∧
      w.answer (.authSys Sample.caller) (.getattr (Sample.handle 4)) = .attrStat .systemErr) :=
  ⟨World.fresh_boot _ _ _ _, ⟨fun _ => rfl, fun _ => rfl⟩, by decide +kernel,
    by decide +kernel, by decide +kernel⟩

end QuicNfs.Server

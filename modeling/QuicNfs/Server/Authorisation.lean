import QuicNfs.Server.Complete

/-!
# QuicNfs — changes of names are authorised

The procedures that change names check the caller's write permission on the
directory of the handle. The system call is given that directory's path with
the name of the request behind it, and works where the whole path leads.

* `authorised_iff` — a request of a caller other than root that changes names
  changes them only in directories the caller may write in if and only if no
  name leads out of its directory into one where the caller may not;
* `permits_or_strays` — a name of the request leads into a directory the caller
  may write in, or out of the one it is a name in;
* `create_in_foreign_directory` — the name `a/new` does.
-/

namespace QuicNfs.Server

open Kernel Lib List

/-- An entry of directory `d` was added, removed or replaced. -/
def Changed (fs fs' : FileSystem) (d : Ino) : Prop := ∃ n, fs'.entry d n ≠ fs.entry d n

/-- The path that is built for the name `n` in the directory of handle `i` leads
to a name in `d`. -/
def LeadsInto (w : World) (i : Ino) (n : Bytes) (d : Ino) : Prop :=
  ∃ p m, w.inodeCache.getAbsolutePathFromInodeNumber i = some p ∧
    w.fs.slot (getFileAbsolutePath p n) = some (d, m)

/-- A name of the request leads into `d`, and `d` is not the directory that the
path of the handle names. -/
def Strays (w : World) (r : Request) (d : Ino) : Prop :=
  ∃ i n p, (i, n) ∈ r.names ∧ w.inodeCache.getAbsolutePathFromInodeNumber i = some p ∧
    LeadsInto w i n d ∧ w.fs.lookup false p ≠ .ok d

/-! ## What was checked -/

variable {w : World} {caller : AuthSysParams} {i d : Ino} {p : Path} {st : Kernel.Stat}
  {r : Request}

/-- The handle's directory passed the check. -/
theorem permits_of_authorised (hCaller : caller.uid ≠ 0)
    (h : Authorised w (.authSys caller) i p st) : permits w.fs .write st.ino caller = true :=
  permits_of_granted (h.granted rfl) hCaller (FileSystem.lstat_ok h.lstat).1

/-- Where a name of the request leads, the caller may write, or the name strays. -/
theorem permits_or_strays (hCaller : caller.uid ≠ 0) {n : Bytes} (hName : (i, n) ∈ r.names)
    (hDir : Authorised w (.authSys caller) i p st) (hLeads : LeadsInto w i n d) :
    permits w.fs .write d caller = true ∨ Strays w r d := by
  have hLookup := (FileSystem.lstat_ok hDir.lstat).1
  by_cases hEq : st.ino = d
  · exact Or.inl (hEq ▸ permits_of_authorised hCaller hDir)
  · refine Or.inr ⟨i, n, p, hName, hDir.cached, hLeads, ?_⟩
    rw [hLookup]
    exact fun h => hEq (Except.ok.inj h)

/-! ## What was changed -/

/-- The changes of a request: for each of its names, the directory it leads into
and no other. -/
structure NameChanges (w : World) (caller : AuthSysParams) (r : Request) (fs' : FileSystem) :
    Prop where
  /-- The directory of every name was checked. -/
  authorised {i : Ino} {n : Bytes} : (i, n) ∈ r.names →
    ∃ p st, Authorised w (.authSys caller) i p st
  /-- A changed directory is one that a name leads into. -/
  leads {d : Ino} : Changed w.fs fs' d → ∃ i n, (i, n) ∈ r.names ∧ LeadsInto w i n d
  /-- A directory that a name leads into is changed. -/
  changed {i : Ino} {n : Bytes} {d : Ino} : (i, n) ∈ r.names → LeadsInto w i n d →
    Changed w.fs fs' d

/-- A request with a single name, which is what it changes. -/
theorem nameChanges_single {fs' : FileSystem} {n : Bytes} {m : Name} {o : Option Ino}
    (hNames : r.names = [(i, n)]) (hDir : Authorised w (.authSys caller) i p st)
    (hSlot : w.fs.slot (getFileAbsolutePath p n) = some (d, m))
    (hEntry : ∀ e k, fs'.entry e k = if e = d ∧ k = m then o else w.fs.entry e k)
    (hNew : o ≠ w.fs.entry d m) : NameChanges w caller r fs' := by
  constructor
  · intro i' n' hName
    rw [hNames] at hName
    cases mem_singleton.mp hName
    exact ⟨p, st, hDir⟩
  · rintro e ⟨k, hk⟩
    rw [hEntry] at hk
    split at hk
    · next h => exact ⟨i, n, by simp [hNames], p, m, hDir.cached, h.1 ▸ hSlot⟩
    · exact absurd rfl hk
  · rintro i' n' e hName ⟨p', m', hp', hSlot'⟩
    rw [hNames] at hName
    cases mem_singleton.mp hName
    cases hDir.cached.symm.trans hp'
    cases hSlot.symm.trans hSlot'
    exact ⟨m, by rw [hEntry, if_pos ⟨rfl, rfl⟩]; exact hNew⟩

/-- **Whatever changed a name** worked on the places its names lead to. -/
theorem Effect.nameChanges {ok : Bool} {fs' : FileSystem} {cache : InodeCache}
    (h : Effect w (.authSys caller) r ok fs' cache) {e : Ino} (hChanged : Changed w.fs fs' e) :
    NameChanges w caller r fs' := by
  obtain ⟨k, hk⟩ := hChanged
  cases h with
  | nothing | mounted | lookedUp | forgotten => exact absurd rfl hk
  | touched _ _ _ _ hTouched _ => exact absurd (hTouched.names.entry e k) hk
  | @created _ args i n a p st _ fs₁ _ d m j x _ hRequest hArgs hDir hSlot hCreated hTouched _ _ =>
    have hNames : r.names = [(i, n)] := by
      cases r <;> simp_all [Request.creation, Request.names]
    refine nameChanges_single hNames hDir hSlot (o := some j) (fun e k => ?_) ?_
    · rw [hTouched.names.entry, hCreated.extends.entry]
    · rw [hCreated.free]
      simp
  | @symlinked args i n target p st _ _ d m j x hArgs hDir hSlot hCreated =>
    have hNames : (Request.symlink args).names = [(i, n)] := by simp [Request.names, hArgs]
    refine nameChanges_single hNames hDir hSlot hCreated.extends.entry ?_
    rw [hCreated.free]
    simp
  | @linked args k i n q p st _ _ d m j hArgs _ _ hDir hSlot hExtends _ _ =>
    have hNames : (Request.link args).names = [(i, n)] := by simp [Request.names, hArgs]
    refine nameChanges_single hNames hDir hSlot hExtends.entry ?_
    rw [hExtends.free]
    simp
  | @removed _ args i n p st _ _ d m j hRequest hArgs hDir hSlot hRemoved _ =>
    have hNames : r.names = [(i, n)] := by
      cases r <;> simp_all [Request.deletion, Request.names]
    refine nameChanges_single hNames hDir hSlot hRemoved.entry ?_
    rw [hRemoved.named]
    simp
  | @renamed args i i' n n' p p' st st' _ _ d d' m m' j target hArgs hFrom hTo hSlot hSlot'
      hNamed hTarget _ _ hRenamed =>
    have hNames : (Request.rename args).names = [(i, n), (i', n')] := by
      simp [Request.names, hArgs]
    rcases hRenamed with ⟨_, rfl⟩ | ⟨hne, hRenamed⟩
    · exact absurd rfl hk
    have hEntry := hRenamed.entry
    -- the two places differ, since the second one does not hold the object
    have hPlaces : ¬(d = d' ∧ m = m') := by
      rintro ⟨rfl, rfl⟩
      exact hne (hTarget.symm.trans hNamed)
    constructor
    · intro i₀ n₀ hName
      rw [hNames, mem_cons, mem_singleton] at hName
      rcases hName with hName | hName
      · cases hName
        exact ⟨p, st, hFrom⟩
      · cases hName
        exact ⟨p', st', hTo⟩
    · rintro e ⟨k, hk⟩
      rw [hEntry] at hk
      split at hk
      · next h => exact ⟨i', n', by simp [hNames], p', m', hTo.cached, h.1 ▸ hSlot'⟩
      split at hk
      · next h => exact ⟨i, n, by simp [hNames], p, m, hFrom.cached, h.1 ▸ hSlot⟩
      · exact absurd rfl hk
    · rintro i₀ n₀ e hName ⟨p₀, m₀, hp₀, hSlot₀⟩
      rw [hNames, mem_cons, mem_singleton] at hName
      rcases hName with hName | hName
      · cases hName
        cases hFrom.cached.symm.trans hp₀
        cases hSlot.symm.trans hSlot₀
        refine ⟨m, ?_⟩
        rw [hEntry, if_neg hPlaces, if_pos ⟨rfl, rfl⟩, hNamed]
        simp
      · cases hName
        cases hTo.cached.symm.trans hp₀
        cases hSlot'.symm.trans hSlot₀
        refine ⟨m', ?_⟩
        rw [hEntry, if_pos ⟨rfl, rfl⟩, hTarget]
        exact Ne.symm hne

/-! ## The permission and the change -/

/-- **Changes of names are authorised unless a name strays.** For every state,
every caller other than root and every request that changes a name: the caller
may write in each directory in which a name was added, removed or replaced if
and only if the caller may write in each directory that a name of the request
leads into from the directory of its handle. -/
theorem authorised_iff (w : World) (caller : AuthSysParams) (hCaller : caller.uid ≠ 0)
    (r : Request) (hChanged : ∃ d, Changed w.fs (w.afterRequest (.authSys caller) r).fs d) :
    (∀ d, Changed w.fs (w.afterRequest (.authSys caller) r).fs d →
      permits w.fs .write d caller = true) ↔
    ∀ d, Strays w r d → permits w.fs .write d caller = true := by
  obtain ⟨e, he⟩ := hChanged
  have hChanges := (effect_serve w (.authSys caller) r).nameChanges he
  constructor
  · rintro hAll d ⟨i, n, p, hName, _, hLeads, _⟩
    exact hAll d (hChanges.changed hName hLeads)
  · intro hStrays d hd
    obtain ⟨i, n, hName, hLeads⟩ := hChanges.leads hd
    obtain ⟨p, st, hDir⟩ := hChanges.authorised hName
    rcases permits_or_strays hCaller hName hDir hLeads with h | h
    · exact h
    · exact hStrays d h

/-- User 1000 creates `new` in `/exp`. -/
theorem authorised_iff_create :
    let w := Sample.world.steps [Sample.mount]
    let r : Request := .create (Sample.newFile 2 "new" 1000)
    (∀ d, Changed w.fs (w.afterRequest (.authSys Sample.caller) r).fs d →
      permits w.fs .write d Sample.caller = true) ↔
    ∀ d, Strays w r d → permits w.fs .write d Sample.caller = true :=
  authorised_iff (Sample.world.steps [Sample.mount]) Sample.caller (by decide)
    (.create (Sample.newFile 2 "new" 1000)) ⟨2, bytes "new", by decide⟩

/-- **A name with a slash.** User 1000 may write in `/exp` but not in `/exp/a`,
and creates `a/new` in `/exp`: the directory `/exp/a` gets a new entry. -/
theorem create_in_foreign_directory :
    let w := Sample.world.steps [Sample.mount]
    let r : Request := .create (Sample.newFile 2 "a/new" 1000)
    Sample.caller.uid ≠ 0 ∧ (w.answer (.authSys Sample.caller) r).isOk = true ∧
      w.fs.entry 3 (bytes "new") = none ∧
      (w.afterRequest (.authSys Sample.caller) r).fs.entry 3 (bytes "new") = some 26 ∧
      permits w.fs .write 3 Sample.caller = false := by
  decide

end QuicNfs.Server

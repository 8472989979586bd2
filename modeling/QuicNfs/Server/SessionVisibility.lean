import QuicNfs.Server.Listing
import QuicNfs.Server.Refusals

/-!
# QuicNfs — what a READDIR session shows

A session keeps the stream of a directory open from one READDIR request to the next. It
is found by the caller and the inode number of the handle; without one, a stream is
opened on what the path of the handle leads to. Once a renaming has made another
directory of that path, the two are not the same directory, and the answer says whether
there was a session.

* `World.shows` — the entries that a client is shown page by page, or why none;
* `Quiet.answer_readdir` — READDIR answers with a page of them;
* `readdir_invisible_iff` — two states with the same files and the same inode cache answer
  alike if and only if they show the same;
* `readdir_session_visible` — after a renaming, whether there was a session is seen.
-/

namespace QuicNfs.Server

open Kernel Lib List

/-- READDIR for the handle `⟨i, t⟩`. -/
def readdirRequest (i : Ino) (t cookie count : Nat) : Request :=
  .readdir ⟨some ⟨some ⟨i, t⟩⟩, some cookie, count⟩

namespace World

/-- The entries that a caller gets to see with a handle, or why it does not. -/
def shows (w : World) (cred : Credential) (i : Ino) :
    Except Refusal (List DirectoryEntry) := do
  let found ← w.directory i
  if permitted w.fs cred .read found.2 then
    match cred with
    -- sessions are kept for AUTH_SYS callers only
    | .authNone => .error .systemErr
    | .authSys client => .ok (w.entriesOf (w.streamOf client i found.2))
  else .error (.status .nfserrAcces)

/-- The cookies that the caller has got with a handle, with the 0 to begin with. -/
def cookies (w : World) (cred : Credential) (i : Ino) : List Nat :=
  0 :: match w.shows cred i with
    | .error _ => []
    | .ok entries => entries.map (·.cookie)

end World

/-- Only the sessions, the mounts and the clock of two states may differ. -/
structure SameFiles (w w' : World) : Prop where
  fs : w'.fs = w.fs
  host : w'.host = w.host
  inodeCache : w'.inodeCache = w.inodeCache

/-- No READDIR request of the caller with this handle tells the states apart. -/
def Invisible (w w' : World) (cred : Credential) (i : Ino) : Prop :=
  ∀ t count, ∀ cookie ∈ w.cookies cred i ++ w'.cookies cred i,
    w.answer cred (readdirRequest i t cookie count) =
      w'.answer cred (readdirRequest i t cookie count)

variable {w w' : World} {cred : Credential} {i : Ino}

theorem SameFiles.symm (h : SameFiles w w') : SameFiles w' w :=
  ⟨h.fs.symm, h.host.symm, h.inodeCache.symm⟩

variable {d : Ino} {client : AuthSysParams}

theorem SameFiles.listed (h : SameFiles w w') (hListed : w.Listed d) : w'.Listed d := by
  constructor <;> rw [h.fs, h.host]
  · exact hListed.positive
  · exact hListed.distinct

theorem SameFiles.directory (h : SameFiles w w') (i : Ino) : w'.directory i = w.directory i := by
  unfold World.directory World.file World.attributes World.view
  rw [h.fs, h.host, h.inodeCache]

/-! ## The answer -/

theorem exists_cookieAt {cookie : Nat} (h : cookie ∈ 0 :: (w.entriesOf d).map (·.cookie)) :
    ∃ k ≤ (w.fs.listing d).length, cookie = w.cookieAt d k := by
  rcases List.mem_cons.mp h with rfl | hMem
  · exact ⟨0, Nat.zero_le _, rfl⟩
  obtain ⟨entry, hEntry, rfl⟩ := List.mem_map.mp hMem
  obtain ⟨k, hk⟩ := List.getElem?_of_mem hEntry
  rw [getElem?_entriesOf] at hk
  obtain ⟨e, he, rfl⟩ := Option.map_eq_some_iff.mp hk
  obtain ⟨hLt, -⟩ := List.getElem?_eq_some_iff.mp he
  exact ⟨k + 1, hLt, rfl⟩

theorem length_listing_of_entriesOf {d' : Ino} (h : w.entriesOf d = w'.entriesOf d') :
    (w.fs.listing d).length = (w'.fs.listing d').length := by
  have hLength := congrArg length h
  unfold World.entriesOf at hLength
  rwa [length_mapIdx, length_mapIdx] at hLength

/-- Directories with the same entries have the same cookies. -/
theorem cookieAt_of_entriesOf {d' : Ino} (h : w.entriesOf d = w'.entriesOf d') {k : Nat}
    (hk : k ≤ (w.fs.listing d).length) : w.cookieAt d k = w'.cookieAt d' k := by
  cases k with
  | zero => rfl
  | succ k =>
    have hEntry := congrArg (fun l => l[k]?.map (·.cookie)) h
    have hk' : k < (w'.fs.listing d').length := by
      rw [← length_listing_of_entriesOf h]
      exact hk
    rw [getElem?_entriesOf, getElem?_entriesOf, getElem?_eq_getElem hk,
      getElem?_eq_getElem hk'] at hEntry
    exact Option.some.inj hEntry

/-- Where the directory is found and may be read. -/
theorem shows_eq_ok {entries : List DirectoryEntry}
    (h : w.shows (.authSys client) i = .ok entries) :
    ∃ p d, w.directory i = .ok (p, d) ∧ permitted w.fs (.authSys client) .read d = true ∧
      entries = w.entriesOf (w.streamOf client i d) := by
  unfold World.shows at h
  cases hFound : w.directory i with
  | error refusal =>
    rw [hFound] at h
    cases h
  | ok found =>
    rw [hFound] at h
    change (if permitted w.fs (.authSys client) .read found.2 then _ else _) = _ at h
    by_cases hRead : permitted w.fs (.authSys client) .read found.2 = true
    · rw [if_pos hRead] at h
      exact ⟨found.1, found.2, rfl, hRead, (Except.ok.inj h).symm⟩
    · rw [if_neg hRead] at h
      cases h

/-- A READDIR request that is answered gets a page of what the caller is shown. -/
theorem Quiet.answer_readdir (hw : Quiet w) (hListed : ∀ d, w.Listed d) {p : Path}
    (hFound : w.directory i = .ok (p, d))
    (hRead : permitted w.fs (.authSys client) .read d = true) {k : Nat}
    (hk : k ≤ (w.fs.listing (w.streamOf client i d)).length) (t count : Nat) :
    w.answer (.authSys client) (readdirRequest i t (w.cookieAt (w.streamOf client i d) k) count) =
      .readDirRes (.ok
        ⟨(page DirectoryEntry.packedSize count 0 ((w.entriesOf (w.streamOf client i d)).drop k)).1,
          (page DirectoryEntry.packedSize count 0
            ((w.entriesOf (w.streamOf client i d)).drop k)).2⟩) := by
  obtain ⟨hView, hLookup, hDir⟩ := directory_eq_ok hFound
  obtain ⟨sessions, dirs, n, hRun, -⟩ := hw.readdirStream client hView hLookup hDir
    (allowed_of_permitted hRead) rfl (hListed _) hk t count
  unfold World.answer readdirRequest serve
  rw [Prog.run_bind, hRun]
  rfl

/-- A request that is refused is refused whatever the cookie, the count and the
sessions are. -/
theorem Quiet.answer_readdir_of_refused (hw : Quiet w) {refusal : Refusal}
    (h : w.shows cred i = .error refusal) (t cookie count : Nat) :
    w.answer cred (readdirRequest i t cookie count) = .readDirRes refusal.reply := by
  unfold World.answer readdirRequest serve
  rw [Prog.run_bind]
  refine congrArg Answer.readDirRes ?_
  unfold serveNfsProcedure16ReadFromDirectory
  show ((withDirectory i _).run w).1 = _
  rw [hw.answer_withDirectory]
  unfold World.shows at h
  cases hFound : w.directory i with
  | error r =>
    rw [hFound] at h
    rw [orRefused_error, Except.error.inj h]
  | ok found =>
    obtain ⟨-, hLookup, -⟩ := directory_eq_ok (p := found.1) (d := found.2) hFound
    rw [hFound] at h
    change (if permitted w.fs cred .read found.2 then _ else _) = _ at h
    rw [orRefused_ok]
    unfold checkReaddirProcPermissions
    by_cases hRead : permitted w.fs cred .read found.2 = true
    · rw [if_pos hRead] at h
      rw [(hw.wait 5).run_withPermission hLookup (allowed_of_permitted hRead)]
      cases cred with
      | authNone =>
        rw [← Except.error.inj h]
        rfl
      -- a caller who may read is shown something
      | authSys client => cases h
    · rw [if_neg hRead] at h
      cases cred with
      -- nothing is asked of AUTH_NONE
      | authNone => exact absurd rfl hRead
      | authSys client =>
        rw [answer_withPermission_of_refused ((hw.wait 5).run_needs_of_not_permitted hLookup
          (Bool.eq_false_iff.mpr hRead)), ← Except.error.inj h]
        rfl

/-! ## Two states -/

/-- Whether a caller is refused does not depend on the sessions. -/
theorem SameFiles.refused (h : SameFiles w w') {refusal : Refusal}
    (hShows : w.shows cred i = .error refusal) : w'.shows cred i = .error refusal := by
  unfold World.shows at hShows ⊢
  rw [h.directory]
  cases hFound : w.directory i with
  | error r =>
    rw [hFound] at hShows
    exact hShows
  | ok found =>
    rw [hFound] at hShows
    change (if permitted w.fs cred .read found.2 then _ else _) = _ at hShows
    -- what is refused does not depend on the sessions
    show (if permitted w'.fs cred .read found.2 then _ else _) = _
    rw [h.fs]
    by_cases hRead : permitted w.fs cred .read found.2 = true
    · rw [if_pos hRead] at hShows ⊢
      cases cred with
      | authNone => exact hShows
      | authSys client => cases hShows
    · rw [if_neg hRead] at hShows ⊢
      exact hShows

theorem shows_authNone_ne_ok (w : World) (i : Ino) (entries : List DirectoryEntry) :
    w.shows .authNone i ≠ .ok entries := by
  intro h
  unfold World.shows at h
  cases hFound : w.directory i <;> rw [hFound] at h <;> cases h

/-- Two answers to the first request, with room for everything, are all that is shown. -/
theorem shows_of_invisible (hw : Quiet w) (hw' : Quiet w') (hListed : ∀ d, w.Listed d)
    (hListed' : ∀ d, w'.Listed d) {entries entries' : List DirectoryEntry}
    (hShows : w.shows (.authSys client) i = .ok entries)
    (hShows' : w'.shows (.authSys client) i = .ok entries')
    (h : Invisible w w' (.authSys client) i) : entries = entries' := by
  obtain ⟨p, d, hFound, hRead, rfl⟩ := shows_eq_ok hShows
  obtain ⟨p', d', hFound', hRead', rfl⟩ := shows_eq_ok hShows'
  generalize hTotal : ((w.entriesOf (w.streamOf client i d)).map DirectoryEntry.packedSize).sum =
    total
  generalize hTotal' :
    ((w'.entriesOf (w'.streamOf client i d')).map DirectoryEntry.packedSize).sum = total'
  have hFirst := h 0 (total + total' + 1) 0 (mem_append_left _ (mem_cons_self ..))
  have hAnswer := hw.answer_readdir hListed hFound hRead (Nat.zero_le _) 0 (total + total' + 1)
  have hAnswer' := hw'.answer_readdir hListed' hFound' hRead' (Nat.zero_le _) 0 (total + total' + 1)
  rw [drop_zero, page_of_lt (by omega)] at hAnswer hAnswer'
  have hEq := hAnswer.symm.trans (hFirst.trans hAnswer')
  simpa using hEq

/-- **READDIR sessions are seen exactly where they read another directory.** Two states
with the same files and the same inode cache answer every READDIR request of a caller for
a handle alike, if and only if the directory that the session of the caller reads, or
without a session the one the path of the handle leads to, has the same entries in
both. -/
theorem readdir_invisible_iff (w w' : World) (hw : Quiet w) (hw' : Quiet w')
    (hSame : SameFiles w w') (hListed : ∀ d, w.Listed d) (cred : Credential) (i : Ino) :
    Invisible w w' cred i ↔ w.shows cred i = w'.shows cred i := by
  have hListed' : ∀ d, w'.Listed d := fun d => hSame.listed (hListed d)
  cases hShows : w.shows cred i with
  | error refusal =>
    have hShows' := hSame.refused hShows
    refine iff_of_true (fun t count cookie _ => ?_) hShows'.symm
    rw [hw.answer_readdir_of_refused hShows, hw'.answer_readdir_of_refused hShows']
  | ok entries =>
    cases hShows' : w'.shows cred i with
    | error refusal =>
      rw [hSame.symm.refused hShows'] at hShows
      cases hShows
    | ok entries' =>
      cases cred with
      | authNone => exact absurd hShows (shows_authNone_ne_ok w i entries)
      | authSys client =>
        constructor
        · intro h
          rw [shows_of_invisible hw hw' hListed hListed' hShows hShows' h]
        · intro h t count cookie hCookie
          obtain rfl : entries = entries' := Except.ok.inj h
          unfold World.cookies at hCookie
          rw [hShows, hShows', mem_append, or_self] at hCookie
          -- the cookie stands for one position, whichever of the two streams is read
          obtain ⟨p, d, hFound, hRead, rfl⟩ := shows_eq_ok hShows
          obtain ⟨p', d', hFound', hRead', hEntries⟩ := shows_eq_ok hShows'
          obtain ⟨k, hk, rfl⟩ := exists_cookieAt hCookie
          rw [hw.answer_readdir hListed hFound hRead hk, cookieAt_of_entriesOf hEntries hk,
            hw'.answer_readdir hListed' hFound' hRead'
              (hk.trans (length_listing_of_entriesOf hEntries).le), hEntries]

/-- The sweep changes the sessions only. -/
theorem sameFiles_cleanUp (w : World) : SameFiles w (w.step .cleanUp) :=
  Safe.run (Q := fun _ w' => SameFiles w w') (safe_cleanUp fun _ _ _ _ => ⟨rfl, rfl, rfl⟩)

namespace Sample

/-- A hundred seconds pass with every call. -/
def slow : World :=
  .boot files host (some (bytes "/exp *(rw)\n")) fun t => { env t with now := ⟨100 * t, 0⟩ }

def superuser : Credential := .authSys ⟨0, bytes "client", 0, 0, []⟩

/-- A directory `b` with a file is made in `a`, and a client begins to read it. -/
def reading : List Action :=
  [.mnt ⟨some (bytes "/exp")⟩, .lookup (nameIn 2 "a"), .mkdir (newFile 3 "b" 0),
    .create (newFile 41 "f" 0), readdirRequest 41 0 0 1].map (.request superuser)

/-- Then `a` is renamed, and directories `a` and `b` are made anew. -/
def replacing : List Action :=
  [.rename ⟨some (nameIn 2 "a"), some (nameIn 2 "c")⟩, .mkdir (newFile 2 "a" 0),
    .mkdir (newFile 100 "b" 0)].map (.request superuser)

theorem quiet_slow (run : List Action) : Quiet (slow.steps run) :=
  Quiet.steps ⟨fun _ => rfl, fun _ => rfl⟩ run

theorem listed_slow (run : List Action) (d : Ino) : (slow.steps run).Listed d := by
  have hCookie : (slow.steps run).host.cookie = fun _ k => k :=
    congrArg Host.cookie (slow.host_steps run)
  constructor <;> rw [hCookie]
  · exact fun k hk _ => hk
  · exact fun j k _ _ h => h

end Sample

/-- Before the renaming the sweep of the session is not seen. -/
theorem readdir_invisible_before_renaming :
    Invisible (Sample.slow.steps Sample.reading)
      ((Sample.slow.steps Sample.reading).step .cleanUp) Sample.superuser 41 :=
  (readdir_invisible_iff _ _ (Sample.quiet_slow _) ((Sample.quiet_slow _).step _)
    (sameFiles_cleanUp _) (Sample.listed_slow _) _ _).mpr (by decide +kernel)

/-- After it, the session shows the file `f` of the directory that was renamed, and
without the session the new directory is read, which is empty. -/
theorem readdir_session_visible :
    Quiet (Sample.slow.steps (Sample.reading ++ Sample.replacing)) ∧
    SameFiles (Sample.slow.steps (Sample.reading ++ Sample.replacing))
      (Sample.slow.steps (Sample.reading ++ Sample.replacing ++ [.cleanUp])) ∧
    (Sample.slow.steps (Sample.reading ++ Sample.replacing)).answer Sample.superuser
        (readdirRequest 41 0 0 100) =
      .readDirRes (.ok ⟨[⟨41, bytes ".", 1⟩, ⟨3, bytes "..", 2⟩, ⟨59, bytes "f", 3⟩], true⟩) ∧
    (Sample.slow.steps (Sample.reading ++ Sample.replacing ++ [.cleanUp])).answer
        Sample.superuser (readdirRequest 41 0 0 100) =
      .readDirRes (.ok ⟨[⟨118, bytes ".", 1⟩, ⟨100, bytes "..", 2⟩], true⟩) := by
  refine ⟨Sample.quiet_slow _, ?_, by decide +kernel, by decide +kernel⟩
  rw [World.steps_append _ (Sample.reading ++ Sample.replacing)]
  exact sameFiles_cleanUp _

end QuicNfs.Server

import QuicNfs.Lib.Paging
import QuicNfs.Server.Service
import QuicNfs.Server.StreamRules

/-!
# QuicNfs — reading a directory that does not change

READDIR answers with the page of a directory that starts at a cookie. It goes through
the session of the client for the directory, which any other READDIR of the client moves
or closes, and which the sweep may close at any time; what it answers does not depend on
that.

* `World.Listed` — the cookies of the directory tell its positions apart;
* `World.streamOf` — which directory READDIR reads;
* `Quiet.readdirStream`, `Quiet.readdir` — the answer of READDIR;
* `Calm`, `calm_step` — READDIR requests of anyone and sweeps change only sessions.
-/

namespace QuicNfs.Server

open Kernel Lib List FileSystem Prog

/-! ## The entries -/

/-- The entries of a directory, as READDIR reports them. -/
def World.entriesOf (w : World) (d : Ino) : List DirectoryEntry :=
  (w.fs.listing d).mapIdx fun k e => ⟨e.2, e.1, w.host.cookie d (k + 1)⟩

/-- The cookie to go on with after the first `k` entries. -/
def World.cookieAt (w : World) (d : Ino) (k : Nat) : Nat :=
  if k = 0 then 0 else w.host.cookie d k

/-- The cookies of the directory are positive, and no two are the same. -/
structure World.Listed (w : World) (d : Ino) : Prop where
  positive (k : Nat) : 0 < k → k ≤ (w.fs.listing d).length → 0 < w.host.cookie d k
  distinct (j k : Nat) : j ≤ (w.fs.listing d).length → k ≤ (w.fs.listing d).length →
    w.host.cookie d j = w.host.cookie d k → j = k

theorem packedSize_pos (e : DirectoryEntry) : 0 < e.packedSize := by
  unfold DirectoryEntry.packedSize lengthDelimitedSize
  omega

variable {n k : Nat}

theorem varintSize_le (h : n < 2 ^ 64) : varintSize n ≤ 10 := by
  have hLog : n.log2 < 64 := by
    by_cases hZero : n = 0
    · rw [hZero]
      decide
    · exact (Nat.log2_lt hZero).mpr h
  unfold varintSize
  omega

theorem varintFieldSize_le (h : n < 2 ^ 64) : varintFieldSize n ≤ 11 := by
  have hSize := varintSize_le h
  unfold varintFieldSize
  split <;> omega

theorem lengthDelimitedSize_le (h : n < 2 ^ 14) : lengthDelimitedSize n ≤ 3 + n := by
  have hLog : n.log2 < 14 := by
    by_cases hZero : n = 0
    · rw [hZero]
      decide
    · exact (Nat.log2_lt hZero).mpr h
  unfold lengthDelimitedSize varintSize
  omega

/-- An entry with a name of at most 255 bytes fits into a page of the client. -/
theorem packedSize_le {e : DirectoryEntry} (hName : e.name.length ≤ 255) (hFile : e.fileid < 2 ^ 64)
    (hCookie : e.cookie < 2 ^ 64) : e.packedSize ≤ 286 := by
  have hFileid := varintFieldSize_le hFile
  have hCookieValue := varintFieldSize_le hCookie
  have hCookieField := lengthDelimitedSize_le (show varintFieldSize e.cookie < 2 ^ 14 by omega)
  have hInner := lengthDelimitedSize_le (show e.name.length < 2 ^ 14 by omega)
  have hNameField : lengthDelimitedSize
      (if e.name = [] then 0 else lengthDelimitedSize e.name.length) ≤ 261 := by
    refine (lengthDelimitedSize_le ?_).trans ?_ <;> split <;> omega
  unfold DirectoryEntry.packedSize
  omega

variable {w : World} {cred : Credential} {p : Path} {d : Ino}

theorem getElem?_entriesOf (w : World) (d : Ino) (k : Nat) :
    (w.entriesOf d)[k]? = (w.fs.listing d)[k]?.map fun e => ⟨e.2, e.1, w.host.cookie d (k + 1)⟩ :=
  getElem?_mapIdx

/-- The loop over the entries reads a page. Each entry takes at least one byte, so the fuel
lasts. -/
theorem Quiet.run_readEntries (hw : Quiet w) {byteCount fuel totalSize : Nat} (position : Nat)
    (hTotal : totalSize ≤ byteCount) (hFuel : byteCount < fuel + totalSize) :
    ∃ n, (readEntries d byteCount fuel position totalSize).run w =
      (some (page DirectoryEntry.packedSize byteCount totalSize ((w.entriesOf d).drop position)),
        w.wait n) := by
  induction fuel generalizing w position totalSize with
  | zero => omega
  | succ fuel ih =>
    have hAt : (w.entriesOf d)[position]? = (w.machine.fs.listing d)[position]?.map _ :=
      getElem?_entriesOf w d position
    unfold readEntries
    rw [run_answer rfl, hw.sees]
    cases hEntry : (w.machine.fs.listing d)[position]? with
    | none =>
      rw [hEntry, Option.map_none, getElem?_eq_none_iff] at hAt
      rw [drop_eq_nil_of_le hAt]
      exact ⟨1, rfl⟩
    | some e =>
      rw [hEntry, Option.map_some] at hAt
      obtain ⟨hLt, hGet⟩ := List.getElem?_eq_some_iff.mp hAt
      rw [List.drop_eq_getElem_cons hLt, hGet]
      dsimp only [Option.map_some]
      have hPos := packedSize_pos ⟨e.2, e.1, w.machine.host.cookie d (position + 1)⟩
      set entry : DirectoryEntry := ⟨e.2, e.1, w.machine.host.cookie d (position + 1)⟩
      show ∃ n, (if totalSize + entry.packedSize > byteCount then _
        else if totalSize + entry.packedSize < byteCount then _ else _ : Proc _).run _ =
          (some (page _ _ _ (entry :: _)), _)
      unfold page
      by_cases hOver : totalSize + entry.packedSize > byteCount
      · rw [if_pos hOver, if_pos hOver]
        exact ⟨1, rfl⟩
      rw [if_neg hOver, if_neg hOver]
      by_cases hUnder : totalSize + entry.packedSize < byteCount
      · rw [if_pos hUnder, if_pos hUnder]
        obtain ⟨n, hRest⟩ := ih (hw.wait 1) (position + 1) (by omega)
          (show byteCount < fuel + (totalSize + entry.packedSize) by omega)
        refine ⟨1 + n, ?_⟩
        rw [run_bind, hRest, World.wait_wait]
        rfl
      · rw [if_neg hUnder, if_neg hUnder]
        exact ⟨1, rfl⟩

/-- A cookie leads back to its position. -/
theorem seek_cookie (hListed : w.Listed d) (hk : k ≤ (w.fs.listing d).length) :
    w.machine.seek d (w.host.cookie d k) = k := by
  unfold Machine.seek
  cases hFind : (range ((w.machine.fs.listing d).length + 1)).find?
      fun j => w.machine.host.cookie d j == w.host.cookie d k with
  | none =>
    have hNone := find?_eq_none.mp hFind k (mem_range.mpr (Nat.lt_succ_of_le hk))
    exact absurd (beq_self_eq_true _) hNone
  | some j =>
    have hj : j ≤ (w.fs.listing d).length :=
      Nat.le_of_lt_succ (mem_range.mp (mem_of_find?_eq_some hFind))
    have hSame := find?_some hFind
    exact hListed.distinct j k hj hk (eq_of_beq hSame)

theorem run_seekCookie (hListed : w.Listed d) (hk : k ≤ (w.fs.listing d).length) :
    ∃ n, (seekCookie d (w.cookieAt d k)).run w = (k, w.wait n) := by
  unfold seekCookie World.cookieAt
  by_cases hZero : k = 0
  · rw [if_pos hZero, if_pos rfl, hZero]
    exact ⟨0, rfl⟩
  · have hPositive := hListed.positive k (Nat.pos_of_ne_zero hZero) hk
    rw [if_neg hZero, if_neg (Nat.ne_of_gt hPositive)]
    refine ⟨1, ?_⟩
    show (w.machine.seek d (w.host.cookie d k), _) = _
    rw [seek_cookie hListed hk]
    rfl

/-! ## Sessions -/

theorem Quiet.run_malloc (hw : Quiet w) {β : Type} (k : Bool → Proc β) :
    (sys .malloc >>= k).run w = (k true).run (w.wait 1) := by
  show (k (w.machine.env w.machine.tick).memory).run _ = _
  rw [hw.memory]
  rfl

theorem Quiet.run_opendir (hw : Quiet w) {β : Type} (k : Except Errno Ino → Proc β)
    (hLookup : w.fs.lookup false p = .ok d) (hDir : w.fs.isDir d) :
    (sys (.opendir p) >>= k).run w =
      (k (.ok d)).run ((w.withStreams w.readdirSessions (d :: w.machine.openDirs)).wait 1) := by
  have hTrue : w.machine.fs.lookup true p = .ok d :=
    lookup_true_of_false hLookup (Tree.kind_ne_link_of_isDir hDir)
  have hOpen : w.machine.fs.opendir p = .ok d := by
    unfold opendir
    rw [hTrue]
    exact if_pos hDir
  have hExec : w.machine.streamOpen p =
      (.ok d, { w.machine.next with openDirs := d :: w.machine.openDirs }) := by
    unfold Machine.streamOpen Machine.answer Machine.here
    rw [hw.fault, hOpen]
    rfl
  show (k (w.machine.streamOpen p).1).run { w with machine := (w.machine.streamOpen p).2 } = _
  rw [hExec]
  rfl

theorem Quiet.run_addNewReaddirSession (hw : Quiet w) (client : AuthSysParams) (i : Ino)
    (hLookup : w.fs.lookup false p = .ok d) (hDir : w.fs.isDir d) :
    ∃ s dirs, s.directoryInodeNumber = i ∧ s.directoryStream = d ∧
      (addNewReaddirSession client p i).run w =
        (some s, (w.withStreams (s :: w.readdirSessions) dirs).wait 4) := by
  refine ⟨⟨client, p, i, d, (w.machine.env (w.machine.tick + 2)).now.sec⟩,
    d :: w.machine.openDirs, rfl, rfl, ?_⟩
  unfold addNewReaddirSession createNewReaddirSession
  rw [run_bind, hw.run_malloc, if_pos rfl, (hw.wait 1).run_opendir _ hLookup hDir]
  -- the time is taken, and the new element of the list is allocated
  show (sys .malloc >>= _).run _ = _
  have hw' : Quiet (((w.withStreams w.readdirSessions (d :: w.machine.openDirs)).wait 2).wait 1) :=
    ⟨hw.fault, hw.memory⟩
  exact hw'.run_malloc _

/-- The directory that a READDIR request of the client for `i` reads, where the
path of `i` leads to `d`: an open session goes before the path. -/
def World.streamOf (w : World) (client : AuthSysParams) (i d : Ino) : Ino :=
  ((w.readdirSessions.find? (·.belongsTo client i)).map (·.directoryStream)).getD d

theorem streamOf_of_faithful (hFaithful : Faithful d w.readdirSessions) (client : AuthSysParams) :
    w.streamOf client d d = d := by
  unfold World.streamOf
  cases hFind : w.readdirSessions.find? (·.belongsTo client d) with
  | none => rfl
  | some s =>
    have hBelongs := find?_some hFind
    have hFor : s.directoryInodeNumber = d := eq_of_beq (Bool.and_eq_true_iff.mp hBelongs).1
    exact hFaithful s (mem_of_find?_eq_some hFind) hFor

/-- The session of the client, an old one or a new one. -/
theorem Quiet.run_findOrAddReaddirSession (hw : Quiet w) (client : AuthSysParams) (i : Ino)
    (hLookup : w.fs.lookup false p = .ok d) (hDir : w.fs.isDir d) :
    ∃ s sessions dirs n, (findOrAddReaddirSession client p i).run w =
        (some s, (w.withStreams sessions dirs).wait n) ∧
      s.directoryStream = w.streamOf client i d ∧ StaysFaithful w p i sessions := by
  unfold findOrAddReaddirSession World.streamOf
  rw [run_getReaddirSessions]
  cases hFind : w.readdirSessions.find? (·.belongsTo client i) with
  | some s =>
    exact ⟨s, w.readdirSessions, w.machine.openDirs, 0, rfl, rfl, fun _ _ h => h⟩
  | none =>
    obtain ⟨s, dirs, hFor, hStream, hRun⟩ := hw.run_addNewReaddirSession client i hLookup hDir
    refine ⟨s, s :: w.readdirSessions, dirs, 4, hRun, hStream, fun e hPath h => h.cons ?_⟩
    -- the new session reads what the path leads to
    intro he
    have hTrue := lookup_true_of_false hLookup (Tree.kind_ne_link_of_isDir hDir)
    rw [hStream]
    exact Except.ok.inj (hTrue.symm.trans (hPath (hFor.symm.trans he)))

/-- The directory of the session is read from the position of the cookie on. -/
theorem Quiet.run_readFromDirectory (hw : Quiet w) (client : AuthSysParams) (i : Ino)
    (hLookup : w.fs.lookup false p = .ok d) (hDir : w.fs.isDir d) {e : Ino}
    (hStreamOf : w.streamOf client i d = e) (hListed : w.Listed e)
    (hk : k ≤ (w.fs.listing e).length) (byteCount : Nat) :
    ∃ sessions dirs n, (readFromDirectory client p i (w.cookieAt e k) byteCount).run w =
        (some (page DirectoryEntry.packedSize byteCount 0 ((w.entriesOf e).drop k)),
          (w.withStreams sessions dirs).wait n) ∧ StaysFaithful w p i sessions := by
  obtain ⟨s, sessions, dirs, n, hFind, hStream, hSessions⟩ :=
    hw.run_findOrAddReaddirSession client i hLookup hDir
  rw [hStreamOf] at hStream
  let u := (w.withStreams sessions dirs).wait n
  have hu : Quiet u := ⟨hw.fault, hw.memory⟩
  obtain ⟨m, hSeek⟩ := run_seekCookie (w := u) ⟨hListed.positive, hListed.distinct⟩ hk
  obtain ⟨m', hRead⟩ := (hu.wait m).run_readEntries (d := e) k (Nat.zero_le byteCount)
    (Nat.lt_succ_self byteCount)
  rw [World.wait_wait, World.wait_wait] at hRead
  change _ = (some (page _ _ _ ((w.entriesOf e).drop k)), _) at hRead
  generalize page DirectoryEntry.packedSize byteCount 0 ((w.entriesOf e).drop k) = result
    at hRead ⊢
  obtain ⟨entries, endOfStream⟩ := result
  unfold readFromDirectory
  rw [run_bind, hFind]
  dsimp only
  rw [hStream, run_bind, show (seekCookie e (w.cookieAt e k)).run _ = _ from hSeek]
  dsimp only
  rw [run_bind, World.wait_wait, hRead]
  cases endOfStream with
  | true =>
    exact ⟨sessions.eraseP (·.belongsTo client i), dirs.erase s.directoryStream, n + m + m' + 2,
      rfl, fun e' hPath h => (hSessions e' hPath h).erase _⟩
  | false =>
    let timestamp := (w.machine.env (w.machine.tick + (n + m + m'))).now.sec
    exact ⟨_, dirs, n + m + m' + 1, rfl,
      fun e' hPath h => (hSessions e' hPath h).touch (·.belongsTo client i) timestamp⟩

/-- READDIR of a directory that the caller may read, through the session if there is
one. -/
theorem Quiet.readdirStream (hw : Quiet w) (client : AuthSysParams) {i e : Ino}
    (hView : w.view i = some p) (hLookup : w.fs.lookup false p = .ok d) (hDir : w.fs.isDir d)
    (hAllowed : Allowed w.fs (.authSys client) .read d) (hStreamOf : w.streamOf client i d = e)
    (hListed : w.Listed e) (hk : k ≤ (w.fs.listing e).length) (t byteCount : Nat) :
    ∃ sessions dirs n,
      (serveNfsProcedure16ReadFromDirectory (.authSys client)
          ⟨some ⟨some ⟨i, t⟩⟩, some (w.cookieAt e k), byteCount⟩).run w =
        (.ok ⟨(page DirectoryEntry.packedSize byteCount 0 ((w.entriesOf e).drop k)).1,
          (page DirectoryEntry.packedSize byteCount 0 ((w.entriesOf e).drop k)).2⟩,
          (w.withStreams sessions dirs).wait n) ∧ StaysFaithful w p i sessions := by
  let u := w.wait (5 + permissionCalls (.authSys client))
  have hu : Quiet u := hw.wait _
  obtain ⟨sessions, dirs, n, hRead, hSessions⟩ :=
    hu.run_readFromDirectory client i hLookup hDir hStreamOf
      ⟨hListed.positive, hListed.distinct⟩ hk byteCount
  refine ⟨sessions, dirs, 5 + permissionCalls (.authSys client) + n, ?_, hSessions⟩
  unfold serveNfsProcedure16ReadFromDirectory checkReaddirProcPermissions
  show (withDirectory i _).run w = _
  rw [hw.run_withDirectory hView hLookup hDir,
    Quiet.run_withPermission (hw.wait 5) hLookup hAllowed, World.wait_wait]
  dsimp only
  rw [run_bind, show (readFromDirectory client p i (w.cookieAt e k) byteCount).run _ = _
    from hRead]
  exact congrArg (Prod.mk _) (World.wait_wait (w.withStreams sessions dirs) _ n)

/-- READDIR where the path leads to the directory of the handle, and the sessions read it. -/
theorem Quiet.readdir (hw : Quiet w) (client : AuthSysParams) (hView : w.view d = some p)
    (hLookup : w.fs.lookup false p = .ok d) (hDir : w.fs.isDir d)
    (hAllowed : Allowed w.fs (.authSys client) .read d) (hFaithful : Faithful d w.readdirSessions)
    (hListed : w.Listed d) (hk : k ≤ (w.fs.listing d).length) (t byteCount : Nat) :
    ∃ sessions dirs n,
      (serveNfsProcedure16ReadFromDirectory (.authSys client)
          ⟨some ⟨some ⟨d, t⟩⟩, some (w.cookieAt d k), byteCount⟩).run w =
        (.ok ⟨(page DirectoryEntry.packedSize byteCount 0 ((w.entriesOf d).drop k)).1,
          (page DirectoryEntry.packedSize byteCount 0 ((w.entriesOf d).drop k)).2⟩,
          (w.withStreams sessions dirs).wait n) ∧ Faithful d sessions := by
  obtain ⟨sessions, dirs, n, hRun, hSessions⟩ := hw.readdirStream client hView hLookup hDir hAllowed
    (streamOf_of_faithful hFaithful client) hListed hk t byteCount
  have hTrue := lookup_true_of_false hLookup (Tree.kind_ne_link_of_isDir hDir)
  exact ⟨sessions, dirs, n, hRun, hSessions d (fun _ => hTrue) hFaithful⟩

/-! ## What others do meanwhile -/

/-- A READDIR request or the sweep. -/
def Action.readsDirectories : Action → Bool
  | .request _ (.readdir _) => true
  | .cleanUp => true
  | _ => false

/-- Only the sessions have changed, and those for `d` still read `d`. -/
structure Calm (d : Ino) (w w' : World) : Prop where
  fs : w'.fs = w.fs
  host : w'.host = w.host
  env : w'.machine.env = w.machine.env
  view : w'.view = w.view
  faithful : Faithful d w'.readdirSessions

theorem calm_withStreams (w : World) {sessions : List ReadDirSession} (dirs : List Ino) (t : Nat)
    (h : Faithful d sessions) : Calm d w ((w.withStreams sessions dirs).atTick t) :=
  ⟨rfl, rfl, rfl, rfl, h⟩

/-- A READDIR request of any client, for any directory, and whether or not it succeeds. -/
theorem calm_readdir (hFaithful : Faithful d w.readdirSessions)
    (hPath : ∀ p, w.view d = some p → w.fs.lookup true p = .ok d) (cred : Credential)
    (args : ReadDirArgs) : Calm d w (w.afterRequest cred (.readdir args)) := by
  have hFail : FailSafe (σ := Stat) (β := ReadDirOk) (fun _ w' => Calm d w w') w :=
    fun _ _ t => calm_withStreams w w.machine.openDirs t hFaithful
  refine Safe.run (Q := fun _ w' => Calm d w w') (safe_return ?_)
  refine safe_orGarbageArgs hFail fun a hArgs => ?_
  obtain ⟨i, cookie⟩ := a
  refine safe_withDirectory (fun _ _ _ => trivial) hFail fun p st hp _ _ => ?_
  refine safe_withPermission hFail (checks_needs fun _ => trivial) fun _ => ?_
  cases cred with
  | authNone => exact safe_systemErr hFail
  | authSys caller =>
    refine safe_bind (safe_readFromDirectory (fun _ _ _ _ _ _ => trivial) ?_)
    intro r sessions dirs t hStays
    have hSessions := hStays d (fun hi => hPath p (hi ▸ hp)) hFaithful
    cases r with
    | none | some => exact safe_pure fun t => calm_withStreams w dirs t hSessions

theorem calm_cleanUp (hFaithful : Faithful d w.readdirSessions) : Calm d w (w.step .cleanUp) := by
  refine Safe.run (Q := fun _ w' => Calm d w w') (safe_cleanUp fun sessions dirs t hSub => ?_)
  exact calm_withStreams w dirs t fun s hs => hFaithful s (hSub hs)

theorem calm_step (hFaithful : Faithful d w.readdirSessions)
    (hPath : ∀ p, w.view d = some p → w.fs.lookup true p = .ok d) {a : Action}
    (ha : a.readsDirectories = true) : Calm d w (w.step a) := by
  cases a with
  | cleanUp => exact calm_cleanUp hFaithful
  | request cred r =>
    cases r with
    | readdir args => exact calm_readdir hFaithful hPath cred args
    | _ => cases ha

/-- Any number of them. -/
theorem calm_steps (hFaithful : Faithful d w.readdirSessions)
    (hPath : ∀ p, w.view d = some p → w.fs.lookup true p = .ok d) {run : List Action}
    (hRun : ∀ a ∈ run, a.readsDirectories = true) : Calm d w (w.steps run) := by
  induction run generalizing w with
  | nil => exact ⟨rfl, rfl, rfl, rfl, hFaithful⟩
  | cons a run ih =>
    have hStep := calm_step hFaithful hPath (hRun a (.head _))
    have hRest := ih hStep.faithful (by rw [hStep.fs, hStep.view]; exact hPath)
      fun b hb => hRun b (.tail _ hb)
    exact ⟨hRest.fs.trans hStep.fs, hRest.host.trans hStep.host, hRest.env.trans hStep.env,
      hRest.view.trans hStep.view, hRest.faithful⟩

end QuicNfs.Server

import QuicNfs.Client.Listing

/-!
# QuicNfs — the listing of the REPL

`handle_ls` reads the working directory in pages of 50 bytes. An entry that is larger than
that is in no page, and the server says neither that the directory is at its end nor that
anything is wrong: `ls` asks for the same page again and again.

* `run_readFileNames_stuck` — the listing does not get past such an entry;
* `ls_lists_iff` — `ls` prints the directory if and only if there is none.
-/

namespace QuicNfs.Client

open Kernel Server Lib

section Directory

variable {client : AuthSysParams} {root : Ino} {way : List (Name × Ino)} {known : Ino → Path}
variable {origin w : World} {l : Link}
variable (hReadable : Readable client origin (destination root way))
include hReadable

/-- While entry `j` is too large for a page, the loop goes on before it. -/
theorem run_readFileNames_stuck (hClient : l.credential = .authSys client) (calls : Nat)
    (h : Steady known (Listable client root way known origin) { l with world := w, calls := calls })
    (hView : w.view (destination root way) = some (known (destination root way)))
    {byteCount j : Nat} {e : DirectoryEntry}
    (he : (origin.entriesOf (destination root way))[j]? = some e)
    (hLarge : byteCount < e.packedSize) {k : Nat} (hk : k ≤ j) (t fuel : Nat) (names : List Bytes) :
    ((readFileNames byteCount ⟨destination root way, t⟩ fuel
        (origin.cookieAt (destination root way) k) names).run
          { l with world := w, calls := calls }).1 = .runsOn := by
  -- the invariant: the cookie stands at an entry `k` that is not behind the large one
  induction fuel generalizing w calls k names with
  | zero => rfl
  | succ fuel ih =>
    have hj : j < (origin.entriesOf (destination root way)).length :=
      (List.getElem?_eq_some_iff.mp he).1
    -- the large entry is still ahead, so the page ends before it and without the end of the list
    have hRest : ((origin.entriesOf (destination root way)).drop k)[j - k]? = some e := by
      rw [List.getElem?_drop, Nat.add_sub_cancel' hk]
      exact he
    obtain ⟨m, hm, hPage⟩ := page_stops (fun e _ => packedSize_pos e) hRest hLarge
    obtain ⟨w', hSteady, hViewAfter, hRun⟩ := run_readFileNames_round hReadable hClient calls h hView
      (by rw [← length_entriesOf]; omega) t byteCount fuel names hPage
    -- the next cookie is the one behind the page, or the same again if the page is empty
    have hCookie : (((((origin.entriesOf (destination root way)).drop k).take m).getLast?.map
        (·.cookie)).getD (origin.cookieAt (destination root way) k)) =
        origin.cookieAt (destination root way) (k + m) := by
      rcases Nat.eq_zero_or_pos m with rfl | hPos
      · rw [List.take_zero]
        rfl
      · rw [cookie_getLast origin (destination root way) hPos (by omega)]
        rfl
    rw [hRun, if_neg Bool.false_ne_true, hCookie]
    exact ih _ hSteady hViewAfter (by omega) _

end Directory

/-- What `ls` makes of the end of its loop. -/
def lsResult : LoopEnd (List Bytes) → Outcome × Bytes
  | .runsOn => (.runsOn, [])
  | .failed => (.returns 1, [])
  | .err _ => (.returns 1, [])
  | .done filenamesList => (.returns 0, printedFileNames filenamesList)

theorem run_handleLs {l : Link} {state : ReplState} {fuel : Nat} {result : LoopEnd (List Bytes)}
    (h : ((readFileNames Repl.READDIR_BYTES_PER_RPC state.cwdNode.fhandle fuel 0 []).run l).1 =
      result) : ((handleLs (some state) fuel).run l).1 = lsResult result := by
  unfold handleLs
  dsimp only
  rw [Prog.run_bind, h]
  cases result <;> rfl

/-- The link of a client at a server where others only read directories. -/
theorem steady_link {w : World} {client : AuthSysParams} {d : Ino} {p : Path} (hQuiet : Quiet w)
    (hView : w.view d = some p) (hLookup : w.fs.lookup false p = .ok d)
    (hReadable : Readable client w d) (hSessions : Faithful d w.readdirSessions)
    {others : Nat → List Action} (hOthers : ∀ k, ∀ a ∈ others k, a.readsDirectories = true) :
    Steady (fun _ => p) (Listable client d [] (fun _ => p) w)
      (⟨w, .authSys client, 0, fun k v => v.steps (others k), fun _ => .delivered⟩ : Link) where
  now := ⟨⟨hQuiet, hView, trivial, hLookup⟩, rfl, rfl, hSessions⟩
  keep k _ hv := (hv.steps hReadable (hOthers k)).1
  view k _ x hv hx := (congrFun (hv.steps hReadable (hOthers k)).2 x).trans hx
  delivered _ := rfl

section Ls

variable (w : World) (client : AuthSysParams) (state : ReplState) (d : Ino) (t : Nat) (p : Path)
  (hCwd : state.cwdNode.fhandle = ⟨d, t⟩) (hQuiet : Quiet w) (hView : w.view d = some p)
  (hLookup : w.fs.lookup false p = .ok d) (hReadable : Readable client w d)
  (hSessions : Faithful d w.readdirSessions) (others : Nat → List Action)
  (hOthers : ∀ k, ∀ a ∈ others k, a.readsDirectories = true)
include hCwd hQuiet hView hLookup hReadable hSessions hOthers

/-- With an entry that is too large, `ls` does not come to an end. -/
theorem ls_runs_on {e : DirectoryEntry} (he : e ∈ w.entriesOf d)
    (hLarge : Repl.READDIR_BYTES_PER_RPC < e.packedSize) (fuel : Nat) :
    ((handleLs (some state) fuel).run (⟨w, .authSys client, 0, fun k v => v.steps (others k),
      fun _ => .delivered⟩ : Link)).1 = (.runsOn, []) := by
  set link : Link := ⟨w, .authSys client, 0, fun k v => v.steps (others k), fun _ => .delivered⟩
  have hSteady : Steady (fun _ => p) (Listable client d [] (fun _ => p) w)
      { link with world := w, calls := 0 } :=
    steady_link hQuiet hView hLookup hReadable hSessions hOthers
  have hDirectory : Readable client w (destination d []) := hReadable
  obtain ⟨j, hj⟩ := List.getElem?_of_mem he
  have hStuck : ((readFileNames Repl.READDIR_BYTES_PER_RPC state.cwdNode.fhandle fuel 0 []).run
      link).1 = .runsOn := by
    rw [hCwd]
    exact run_readFileNames_stuck (l := link) hDirectory rfl 0 hSteady hView hj hLarge
      (Nat.zero_le j) t fuel []
  exact run_handleLs hStuck

/-- Without one, it prints the names. -/
theorem ls_prints (hFits : ∀ e ∈ w.entriesOf d, e.packedSize ≤ Repl.READDIR_BYTES_PER_RPC) :
    ((handleLs (some state) ((w.fs.listing d).length + 1)).run
        (⟨w, .authSys client, 0, fun k v => v.steps (others k), fun _ => .delivered⟩ : Link)).1 =
      (.returns 0, printedFileNames ((w.fs.listing d).map (·.1))) := by
  set link : Link := ⟨w, .authSys client, 0, fun k v => v.steps (others k), fun _ => .delivered⟩
  have hSteady : Steady (fun _ => p) (Listable client d [] (fun _ => p) w)
      { link with world := w, calls := 0 } :=
    steady_link hQuiet hView hLookup hReadable hSessions hOthers
  have hDirectory : Readable client w (destination d []) := hReadable
  have hNames : ((readFileNames Repl.READDIR_BYTES_PER_RPC state.cwdNode.fhandle
      ((w.fs.listing d).length + 1) 0 []).run link).1 = .done ((w.fs.listing d).map (·.1)) := by
    rw [hCwd, ← names_entriesOf]
    exact run_readFileNames (l := link) hDirectory rfl 0 hSteady hView hFits (Nat.zero_le _)
      (Nat.lt_succ_self _) t
  exact run_handleLs hNames

end Ls

/-- **`ls` lists the working directory** if and only if each of its entries fits into a page
of 50 bytes. Other clients may read directories meanwhile, and the sweep may run. -/
theorem ls_lists_iff (w : World) (client : AuthSysParams) (state : ReplState) (d : Ino) (t : Nat)
    (p : Path) (hCwd : state.cwdNode.fhandle = ⟨d, t⟩) (hQuiet : Quiet w)
    (hView : w.view d = some p) (hLookup : w.fs.lookup false p = .ok d)
    (hReadable : Readable client w d) (hSessions : Faithful d w.readdirSessions)
    (others : Nat → List Action) (hOthers : ∀ k, ∀ a ∈ others k, a.readsDirectories = true) :
    (∃ fuel, ((handleLs (some state) fuel).run (⟨w, .authSys client, 0,
        fun k v => v.steps (others k), fun _ => .delivered⟩ : Link)).1 =
        (.returns 0, printedFileNames ((w.fs.listing d).map (·.1)))) ↔
      ∀ e ∈ w.entriesOf d, e.packedSize ≤ Repl.READDIR_BYTES_PER_RPC := by
  constructor
  · rintro ⟨fuel, hRun⟩ e he
    -- a listing that is printed contradicts the one that runs on, whatever the fuel
    by_contra hLarge
    rw [ls_runs_on w client state d t p hCwd hQuiet hView hLookup hReadable hSessions others
      hOthers he (Nat.lt_of_not_le hLarge) fuel] at hRun
    cases hRun
  · intro hFits
    -- every page has an entry, so one round for each entry is enough
    exact ⟨_, ls_prints w client state d t p hCwd hQuiet hView hLookup hReadable hSessions others
      hOthers hFits⟩

namespace Sample

theorem readable_root {w : World} (hHost : w.host = Server.Sample.host) (hIsDir : w.fs.isDir 2)
    (hEntry : ∀ e ∈ w.fs.listing 2, e.1.length ≤ 255 ∧ e.2 < 2 ^ 64)
    (hLength : (w.fs.listing 2).length < 2 ^ 64) :
    Readable ⟨0, bytes "client", 0, 0, []⟩ w 2 where
  isDir := hIsDir
  allowed := allowed_root _ _ _
  listed := ⟨fun _ h _ => by rw [hHost]; exact h, fun _ _ _ _ h => by rw [hHost] at h; exact h⟩
  name e he := (hEntry e he).1
  number e he := (hEntry e he).2
  cookie k hk := by rw [hHost]; exact lt_of_le_of_lt hk hLength

/-- The directory with a file whose name has 45 bytes. -/
def withLongName : World :=
  mounted.step (.request Server.Sample.root
    (.create (Server.Sample.newFile 2 "minutes-of-the-meeting-of-the-second-of-march" 0)))

end Sample

/-- `ls` at the root of the export. -/
theorem ls_lists_sample :
    ∃ fuel, ((handleLs (some Sample.atRoot) fuel).run (⟨Sample.mounted, Server.Sample.root, 0,
        fun _ v => v.steps [], fun _ => .delivered⟩ : Link)).1 =
      (.returns 0, bytes ". .. l a\n") := by
  have hPrinted : printedFileNames ((Sample.mounted.fs.listing 2).map (·.1)) =
      bytes ". .. l a\n" := by decide +kernel
  rw [← hPrinted]
  refine (ls_lists_iff Sample.mounted ⟨0, bytes "client", 0, 0, []⟩ Sample.atRoot 2 0
    (bytes "/exp") rfl ⟨fun _ => rfl, fun _ => rfl⟩ (by decide +kernel) (by decide +kernel)
    (Sample.readable_root rfl (by decide +kernel) (by decide +kernel) (by decide +kernel))
    (fun s hs => by rw [Sample.no_sessions] at hs; cases hs) (fun _ => []) (fun _ => by simp)).mpr ?_
  decide +kernel

/-- **A listing without end.** In a directory with a name of 45 bytes, `ls` prints nothing and
does not return. -/
theorem ls_never_returns :
    Sample.withLongName.fs.listing 2 ≠ Sample.mounted.fs.listing 2 ∧
    ∀ fuel, ((handleLs (some Sample.atRoot) fuel).run
      (⟨Sample.withLongName, Server.Sample.root, 0, fun _ v => v.steps [], fun _ => .delivered⟩ :
        Link)).1 = (.runsOn, []) := by
  refine ⟨by decide +kernel, fun fuel => ?_⟩
  have hLarge : ∃ e ∈ Sample.withLongName.entriesOf 2,
      Repl.READDIR_BYTES_PER_RPC < e.packedSize := by decide +kernel
  obtain ⟨e, he, hLarge⟩ := hLarge
  have hSessions : Sample.withLongName.readdirSessions = [] := by decide +kernel
  exact ls_runs_on Sample.withLongName ⟨0, bytes "client", 0, 0, []⟩ Sample.atRoot 2 0
    (bytes "/exp") rfl ⟨fun _ => rfl, fun _ => rfl⟩ (by decide +kernel) (by decide +kernel)
    (Sample.readable_root rfl (by decide +kernel) (by decide +kernel) (by decide +kernel))
    (fun s hs => by rw [hSessions] at hs; cases hs) (fun _ => []) (fun _ => by simp) he hLarge fuel

end QuicNfs.Client

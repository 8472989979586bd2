import QuicNfs.Client.Repl
import QuicNfs.Client.Resolution
import QuicNfs.Server.Listing

/-!
# QuicNfs — the listing of a directory

`blocking_readdir` reads a directory page by page, and goes on at the cookie of the last
entry it has got. Meanwhile the sessions of the server come and go: other clients read
directories, also this one and also under the same name, and the sweep closes what it
finds expired.

* `Readable` — a directory that the client may read, with usable cookies;
* `Listable` — the server can list the directory at the end of the way;
* `Listable.steps` — READDIR requests of others and sweeps leave it so;
* `readdir_lists_directory` — the names that are passed on are those of the directory.
-/

namespace QuicNfs.Client

open Kernel Server Lib List

/-- The client may read the directory. Its names have at most 255 bytes, its cookies are
positive and distinct, and they and the inode numbers fit into 64 bits. -/
structure Readable (client : AuthSysParams) (w : World) (d : Ino) : Prop where
  isDir : w.fs.isDir d
  allowed : Allowed w.fs (.authSys client) .read d
  listed : w.Listed d
  name (e : Name × Ino) : e ∈ w.fs.listing d → e.1.length ≤ 255
  number (e : Name × Ino) : e ∈ w.fs.listing d → e.2 < 2 ^ 64
  cookie (k : Nat) : k ≤ (w.fs.listing d).length → w.host.cookie d k < 2 ^ 64

/-- Every entry fits into a page. -/
theorem Readable.fits {client : AuthSysParams} {w : World} {d : Ino} (h : Readable client w d)
    {e : DirectoryEntry} (he : e ∈ w.entriesOf d) : e.packedSize ≤ READDIR_BYTES_PER_RPC := by
  obtain ⟨k, hk⟩ := List.getElem?_of_mem he
  rw [getElem?_entriesOf] at hk
  obtain ⟨x, hx, rfl⟩ := Option.map_eq_some_iff.mp hk
  have hMem := mem_of_getElem? hx
  have hIn := (List.getElem?_eq_some_iff.mp hx).1
  exact (packedSize_le (h.name x hMem) (h.number x hMem) (h.cookie (k + 1) hIn)).trans (by decide)

/-- The tree is that of `origin`, the path leads to the directory, and every session for it
reads it. -/
structure Listable (client : AuthSysParams) (root : Ino) (way : List (Name × Ino))
    (known : Ino → Path) (origin w : World) : Prop extends
    Passable (.authSys client) root way known w where
  fs : w.fs = origin.fs
  host : w.host = origin.host
  faithful : Faithful (destination root way) w.readdirSessions

variable {client : AuthSysParams} {root : Ino} {way : List (Name × Ino)} {known : Ino → Path}
variable {origin w w' : World} {l : Link}

/-- What the server learns does not matter. -/
theorem Listable.undisturbed (h : Listable client root way known origin w)
    (hSame : Undisturbed w w') (hView : ∀ x, w'.view x = w.view x ∨ w'.view x = some (known x)) :
    Listable client root way known origin w' where
  toPassable := h.toPassable.undisturbed hSame hView
  fs := hSame.fs.trans h.fs
  host := hSame.host.trans h.host
  faithful := by rw [hSame.sessions]; exact h.faithful

theorem Listable.calm (h : Listable client root way known origin w)
    (hCalm : Calm (destination root way) w w') : Listable client root way known origin w' where
  toPassable := h.toPassable.congr
    ⟨fun t => by rw [hCalm.env]; exact h.quiet.fault t,
      fun t => by rw [hCalm.env]; exact h.quiet.memory t⟩
    (by rw [hCalm.fs]; exact .refl _) (by rw [hCalm.fs]; exact sameModes_refl _)
    fun x => .inl (by rw [hCalm.view])
  fs := hCalm.fs.trans h.fs
  host := hCalm.host.trans h.host
  faithful := hCalm.faithful

/-- The pages are those of the directory as it was at the beginning. -/
theorem Listable.entriesOf (h : Listable client root way known origin w) (d : Ino) :
    w.entriesOf d = origin.entriesOf d := by
  unfold World.entriesOf
  rw [h.fs, h.host]

theorem Listable.cookieAt (h : Listable client root way known origin w) (d : Ino) (k : Nat) :
    w.cookieAt d k = origin.cookieAt d k := by
  unfold World.cookieAt
  rw [h.host]

theorem length_entriesOf (w : World) (d : Ino) : (w.entriesOf d).length = (w.fs.listing d).length :=
  length_mapIdx

theorem names_entriesOf (w : World) (d : Ino) :
    (w.entriesOf d).map (·.name) = (w.fs.listing d).map (·.1) := by
  refine ext_getElem? fun k => ?_
  rw [getElem?_map, getElem?_entriesOf, getElem?_map, Option.map_map]
  rfl

/-- The loop of `blocking_readdir` is that of `handle_ls` with larger pages. -/
theorem readDirectoryEntries_eq (fileFhandle : NfsFileHandle) (fuel cookie : Nat)
    (names : List Bytes) :
    readDirectoryEntries fileFhandle fuel cookie names =
      readFileNames READDIR_BYTES_PER_RPC fileFhandle fuel cookie names := by
  induction fuel generalizing cookie names with
  | zero => rfl
  | succ fuel ih =>
    unfold readDirectoryEntries readFileNames
    refine congrArg (Prog.bind _) (funext fun result => ?_)
    cases result with
    | failed => rfl
    | err stat => rfl
    | ok readdirok => exact if_congr Iff.rfl rfl (ih _ _)

variable {k : Nat}

/-- The cookie of the last of some entries is the one to go on with. -/
theorem cookie_getLast (w : World) (d : Ino) {m : Nat} (hm : 0 < m)
    (hkm : k + m ≤ (w.entriesOf d).length) :
    (((w.entriesOf d).drop k).take m).getLast?.map (·.cookie) = some (w.cookieAt d (k + m)) := by
  have hLength : (((w.entriesOf d).drop k).take m).length = m := by
    rw [length_take, length_drop]
    omega
  have hIn : k + (m - 1) < (w.fs.listing d).length := by
    rw [← length_entriesOf]
    omega
  rw [getLast?_eq_getElem?, hLength, getElem?_take_of_lt (by omega), getElem?_drop,
    getElem?_entriesOf, getElem?_eq_getElem hIn]
  show some (w.host.cookie d (k + (m - 1) + 1)) = _
  unfold World.cookieAt
  rw [if_neg (by omega), show k + (m - 1) + 1 = k + m by omega]

section Directory

variable (hReadable : Readable client origin (destination root way))
include hReadable

/-- READDIR requests of anyone and sweeps leave the directory listable. -/
theorem Listable.steps (h : Listable client root way known origin w) {run : List Action}
    (hRun : ∀ a ∈ run, a.readsDirectories = true) :
    Listable client root way known origin (w.steps run) ∧ (w.steps run).view = w.view := by
  have hDir : w.fs.isDir (destination root way) := by
    rw [h.fs]
    exact hReadable.isDir
  have hPath : ∀ p, w.view (destination root way) = some p →
      w.fs.lookup true p = .ok (destination root way) := by
    intro p hp
    rw [h.view_destination hp]
    exact FileSystem.lookup_true_of_false h.lookup (Tree.kind_ne_link_of_isDir hDir)
  have hCalm := calm_steps h.faithful hPath hRun
  exact ⟨h.calm hCalm, hCalm.view⟩

/-- READDIR of the directory. -/
theorem Listable.readdir (h : Listable client root way known origin w)
    (hView : w.view (destination root way) = some (known (destination root way)))
    (hk : k ≤ (origin.fs.listing (destination root way)).length) (t byteCount : Nat) :
    ∃ w', (serveNfsProcedure16ReadFromDirectory (.authSys client)
        ⟨some ⟨some ⟨destination root way, t⟩⟩, some (origin.cookieAt (destination root way) k),
          byteCount⟩).run w =
      (.ok ⟨(page DirectoryEntry.packedSize byteCount 0
          ((origin.entriesOf (destination root way)).drop k)).1,
        (page DirectoryEntry.packedSize byteCount 0
          ((origin.entriesOf (destination root way)).drop k)).2⟩, w') ∧
      Listable client root way known origin w' ∧ w'.view = w.view := by
  have hListed : w.Listed (destination root way) := by
    constructor <;> rw [h.fs, h.host]
    · exact hReadable.listed.positive
    · exact hReadable.listed.distinct
  have hk' : k ≤ (w.fs.listing (destination root way)).length := by
    rw [h.fs]
    exact hk
  obtain ⟨sessions, dirs, n, hRun, hSessions⟩ := h.quiet.readdir client hView h.lookup
    (by rw [h.fs]; exact hReadable.isDir) (by rw [h.fs]; exact hReadable.allowed) h.faithful hListed
    hk' t byteCount
  rw [h.cookieAt, h.entriesOf] at hRun
  exact ⟨_, hRun, h.calm (calm_withStreams w dirs _ hSessions), rfl⟩

/-- One round of the listing, at the cookie of entry `k`. -/
theorem run_readFileNames_round (hClient : l.credential = .authSys client) (calls : Nat)
    (h : Steady known (Listable client root way known origin) { l with world := w, calls := calls })
    (hView : w.view (destination root way) = some (known (destination root way)))
    (hk : k ≤ (origin.fs.listing (destination root way)).length) (t byteCount fuel : Nat)
    (names : List Bytes) {entries : List DirectoryEntry} {eof : Bool}
    (hPage : page DirectoryEntry.packedSize byteCount 0
      ((origin.entriesOf (destination root way)).drop k) = (entries, eof)) :
    ∃ w', Steady known (Listable client root way known origin)
        { l with world := w', calls := calls + 1 } ∧
      w'.view (destination root way) = some (known (destination root way)) ∧
      (readFileNames byteCount ⟨destination root way, t⟩ (fuel + 1)
          (origin.cookieAt (destination root way) k) names).run
            { l with world := w, calls := calls } =
        (if eof then pure (.done (names ++ entries.map (·.name)))
          else readFileNames byteCount ⟨destination root way, t⟩ fuel
            ((entries.getLast?.map (·.cookie)).getD (origin.cookieAt (destination root way) k))
            (names ++ entries.map (·.name))).run { l with world := w', calls := calls + 1 } := by
  have hBefore : Listable client root way known origin (l.others calls w) := h.before
  have hViewBefore := h.view calls w _ h.now hView
  obtain ⟨w', hServe, hListable, hView'⟩ := hBefore.readdir hReadable hViewBefore hk t byteCount
  rw [← hClient, hPage] at hServe
  refine ⟨w', h.served hListable, (congrFun hView' _).trans hViewBefore, ?_⟩
  conv_lhs => unfold readFileNames
  rw [run_nfsProcedure16ReadFromDirectory (h.delivered _) hServe]
  rfl

/-- The listing, when the first `k` entries are there and each entry fits into a page. -/
theorem run_readFileNames (hClient : l.credential = .authSys client) (calls : Nat)
    (h : Steady known (Listable client root way known origin) { l with world := w, calls := calls })
    (hView : w.view (destination root way) = some (known (destination root way))) {byteCount : Nat}
    (hFits : ∀ e ∈ origin.entriesOf (destination root way), e.packedSize ≤ byteCount) {fuel : Nat}
    (hk : k ≤ (origin.fs.listing (destination root way)).length)
    (hFuel : (origin.fs.listing (destination root way)).length - k < fuel) (t : Nat) :
    ((readFileNames byteCount ⟨destination root way, t⟩ fuel
        (origin.cookieAt (destination root way) k)
        (((origin.entriesOf (destination root way)).take k).map (·.name))).run
          { l with world := w, calls := calls }).1 =
      .done ((origin.entriesOf (destination root way)).map (·.name)) := by
  induction fuel generalizing w calls k with
  | zero => omega
  | succ fuel ih =>
    -- a page holds the rest, or at least one entry
    rcases page_cases (fun e he => hFits e (mem_of_mem_drop (i := k) he)) with
      hEnd | ⟨m, hm, hkm, hPart⟩
    · obtain ⟨w', -, -, hRun⟩ :=
        run_readFileNames_round hReadable hClient calls h hView hk t byteCount fuel _ hEnd
      rw [hRun, if_pos rfl, ← map_append, take_append_drop]
      rfl
    · obtain ⟨w', hSteady, hViewAfter, hRun⟩ :=
        run_readFileNames_round hReadable hClient calls h hView hk t byteCount fuel _ hPart
      rw [length_drop, length_entriesOf] at hkm
      have hCookie := cookie_getLast origin (destination root way) (k := k) hm
        (by rw [length_entriesOf]; omega)
      have hRest := ih _ hSteady hViewAfter (k := k + m) (by omega) (by omega)
      rw [take_add, map_append] at hRest
      rw [hRun, if_neg Bool.false_ne_true, hCookie]
      exact hRest

/-- The whole listing. -/
theorem run_nfsReaddir (hClient : l.credential = .authSys client)
    (h : Steady known (Listable client root way known origin) l) {path : Bytes}
    (hAbsolute : path.head? = some slash) (hPath : components path = way.map (·.1)) (t : Nat)
    {fuel : Nat} (hFuel : (origin.fs.listing (destination root way)).length < fuel) :
    ((nfsReaddir ⟨root, t⟩ fuel path).run l).1 =
      (.returns 0, (origin.fs.listing (destination root way)).map (·.1)) := by
  obtain ⟨t', ftype, w', c, hResolve, hListable, hView⟩ :=
    run_resolveAbsolutePath (fun _ h => by rw [hClient]; exact h.toPassable)
      (fun _ _ h hSame hView => h.undisturbed hSame hView) h hAbsolute hPath t
  have hEntries := run_readFileNames hReadable hClient c
    ⟨hListable, h.keep, h.view, h.delivered⟩ hView (fun e he => hReadable.fits he)
    (Nat.zero_le _) hFuel t'
  rw [names_entriesOf] at hEntries
  change ((readFileNames _ _ fuel 0 []).run _).1 = _ at hEntries
  rw [← readDirectoryEntries_eq] at hEntries
  unfold nfsReaddir
  rw [Prog.run_bind, hResolve]
  dsimp only
  rw [Prog.run_bind, hEntries]
  rfl

end Directory

/-- **The listing is complete.** Let a path lead to a directory that the client may read, on
a server where no call fails, and whose sessions for the directory read it. Whatever READDIR
requests other clients make between the calls, and whenever the sweep runs, the listing
comes to an end, and the names it passes on are those of the directory, each once and in
order. The checks that READDIR makes before it reads depend on nothing that READDIR or the
sweep changes, so it is enough that they happen between the calls. -/
theorem readdir_lists_directory (w : World) (client : AuthSysParams) (root : Ino) (t : Nat)
    (way : List (Name × Ino)) (known : Ino → Path)
    (hPassable : Passable (.authSys client) root way known w)
    (hReadable : Readable client w (destination root way))
    (hSessions : Faithful (destination root way) w.readdirSessions)
    (path : Bytes) (hAbsolute : path.head? = some slash) (hPath : components path = way.map (·.1))
    (others : Nat → List Action) (hOthers : ∀ k, ∀ a ∈ others k, a.readsDirectories = true)
    (fuel : Nat) (hFuel : (w.fs.listing (destination root way)).length < fuel) :
    ((nfsReaddir ⟨root, t⟩ fuel path).run
        (⟨w, .authSys client, 0, fun k v => v.steps (others k), fun _ => .delivered⟩ : Link)).1 =
      (.returns 0, (w.fs.listing (destination root way)).map (·.1)) := by
  refine run_nfsReaddir hReadable rfl ⟨⟨hPassable, rfl, rfl, hSessions⟩, ?_, ?_, fun _ => rfl⟩
    hAbsolute hPath t hFuel
  · intro k v hv
    exact (hv.steps hReadable (hOthers k)).1
  · intro k v x hv hView
    exact (congrFun (hv.steps hReadable (hOthers k)).2 x).trans hView

namespace Sample

/-- Another client reads the same directory under the same name, and the sweep runs. -/
def meanwhile : List Action :=
  [.request Server.Sample.root (.readdir ⟨some (Server.Sample.handle 3), some 0, 20⟩), .cleanUp]

/-- The directory `a` with two more files in it, whose names have 240 bytes. -/
def longNames : World :=
  mounted.withFs (mounted.fs
    |>.create 3 (replicate 240 98) 8 ⟨.regular [], Server.Sample.attr 0o644⟩ default
    |>.create 3 (replicate 240 99) 9 ⟨.regular [], Server.Sample.attr 0o644⟩ default)

theorem passable_directory :
    Passable Server.Sample.root 2 [(bytes "a", 3)] knownAs longNames where
  quiet := ⟨fun _ => rfl, fun _ => rfl⟩
  view := by decide +kernel
  leads := by
    refine ⟨⟨?_, ?_, allowed_root _ _ _, ?_, .inr ⟨?_, rfl⟩⟩, trivial⟩ <;> decide +kernel
  lookup := by decide +kernel

theorem no_sessions : mounted.readdirSessions = [] := by decide +kernel

theorem readable_directory : Readable ⟨0, bytes "client", 0, 0, []⟩ longNames 3 where
  isDir := by decide +kernel
  allowed := allowed_root _ _ _
  listed := ⟨fun _ hk _ => hk, fun _ _ _ _ h => h⟩
  name := by decide +kernel
  number := by decide +kernel
  cookie k hk := lt_of_le_of_lt hk (by decide +kernel)

end Sample

/-- The listing of a directory whose names fill more than a page: after the LOOKUP it takes two
READDIR calls. -/
theorem readdir_lists_directory_sample :
    let link : Link := ⟨Sample.longNames, Server.Sample.root, 0,
      fun _ v => v.steps Sample.meanwhile, fun _ => .delivered⟩
    let read := (nfsReaddir ⟨2, 0⟩ 6 (bytes "/a")).run link
    read.1 = (.returns 0, [bytes ".", bytes "..", replicate 240 99, replicate 240 98, bytes "f"]) ∧
    read.2.calls = 3 := by
  refine ⟨?_, by decide +kernel⟩
  have hNames : (Sample.longNames.fs.listing 3).map (·.1) =
      [bytes ".", bytes "..", replicate 240 99, replicate 240 98, bytes "f"] := by decide +kernel
  have hSessions : Sample.longNames.readdirSessions = [] := Sample.no_sessions
  rw [← hNames]
  exact readdir_lists_directory Sample.longNames ⟨0, bytes "client", 0, 0, []⟩ 2 0 [(bytes "a", 3)]
    Sample.knownAs Sample.passable_directory Sample.readable_directory
    (fun s hs => by rw [hSessions] at hs; cases hs) (bytes "/a") rfl (by decide)
    (fun _ => Sample.meanwhile) (fun _ => by decide) 6 (by decide +kernel)

end QuicNfs.Client

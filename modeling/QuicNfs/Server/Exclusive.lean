import QuicNfs.Kernel.NewFile
import QuicNfs.Lib.Interleaving
import QuicNfs.Server.Runs
import QuicNfs.Server.Server

/-!
# QuicNfs — CREATE by several threads

Every TCP connection has a thread of its own, and the threads work on the same
files. CREATE asks for the name with `lstat` and makes the file with an `open`
that is not exclusive, then sets the owner, the size and the times by path. Here
any number of CREATE requests for one name run side by side, one operation at a
time, in any order.

A request that has found the name free goes through to the end, whatever has
happened to the name since. So everything depends on who asks before the first
`open`:

* `createPact` — what the requests leave alone for each other;
* `keeps_create` — a request answers NFS_OK iff it found the name free, and
  NFSERR_EXIST otherwise, in every interleaving;
* `create_exclusive_iff` — CREATE is exclusive in exactly those runs in which at
  most one request found the name free.
-/

namespace QuicNfs.Server

open Kernel Lib List FileSystem Prog

/-! ## The race -/

structure CreateRequest where
  credential : Credential
  args : CreateArgs

def CreateRequest.program (r : CreateRequest) : Proc (NfsReply DirOpOk) :=
  serveNfsProcedure9CreateFile r.credential r.args

/-- The world the threads share, with a note of the requests that have asked for
the name while it was free. -/
structure Observed where
  world : World
  foundFree : List Nat

def Op.asksFor (file : Path) {β : Type} : Op β → Bool
  | .sys (.lstat p) => p == file
  | _ => false

def Observed.noted (file : Path) (s : Observed) (thread : Nat) {β : Type} (o : Op β) : List Nat :=
  if o.asksFor file ∧ (s.world.fs.lookup false file).toOption = none then thread :: s.foundFree
  else s.foundFree

def observing (file : Path) : Shared Op Observed where
  exec thread _ o s := ((s.world.exec o).1, ⟨(s.world.exec o).2, s.noted file thread o⟩)

/-- The requests before the first step. -/
def createRace (w : World) (requests : List CreateRequest) : Pool Op (NfsReply DirOpOk) Observed :=
  ⟨requests.map CreateRequest.program, ⟨w, []⟩⟩

/-- The owner, the size and the times of a file. -/
def profile (fs : FileSystem) (f : Ino) :
    Option (Nat × Nat × Nat × Timespec × Timespec × Timespec) :=
  (fs.inode f).map fun x =>
    (x.attr.uid, x.attr.gid, x.content.size, x.attr.atime, x.attr.mtime, x.attr.ctime)

section Race

variable (file : Path) (start : Pool Op (NfsReply DirOpOk) Observed)

/-- What thread `j` has answered when the schedule is through. -/
def answered (schedule : List Nat) (j : Nat) : Option (NfsReply DirOpOk) :=
  (start.run (observing file) schedule).answer j

def filesAfter (schedule : List Nat) : FileSystem :=
  (start.run (observing file) schedule).state.world.fs

/-- The requests that found the name free. -/
def findersOf (schedule : List Nat) : List Nat :=
  (start.run (observing file) schedule).state.foundFree

/-- At most one request answers NFS_OK, the others answer NFSERR_EXIST, and no
request touches the file that another one made. -/
structure Exclusive (schedule : List Nat) : Prop where
  one {j k : Nat} {a b : DirOpOk} : answered file start schedule j = some (.ok a) →
    answered file start schedule k = some (.ok b) → j = k
  others {j : Nat} {reply : NfsReply DirOpOk} : answered file start schedule j = some reply →
    (∃ a, reply = .ok a) ∨ reply = .err .nfserrExist
  undisturbed {before between after : List Nat} {j k : Nat} {f : Ino} :
    schedule = before ++ j :: between ++ k :: after → j ≠ k →
    (filesAfter file start before).inode f = none →
    ((filesAfter file start (before ++ [j])).inode f).isSome →
    profile (filesAfter file start (before ++ j :: between ++ [k])) f =
      profile (filesAfter file start (before ++ j :: between)) f

end Race

/-! ## Requests that could each be served -/

/-- Sizes and times that `truncate` and `utimes` take. -/
structure Attributes.Acceptable (a : Attributes) : Prop where
  size : a.size ≠ unchanged64 → a.size < 2 ^ 63
  times : a.setsTimes → a.atime.useconds < 1000000 ∧ a.mtime.useconds < 1000000

/-- The requests are for the name `n` in the directory `i`, whose path is `p`, and
nothing but the name could stand in the way of any of them. -/
structure CreateReady (w : World) (i : Ino) (n : Name) (p : Path)
    (requests : List CreateRequest) : Prop where
  quiet : Quiet w
  cached : w.inodeCache.getAbsolutePathFromInodeNumber i = some p
  leads : w.fs.lookup false p = .ok i
  isDir : w.fs.isDir i
  name : ValidName n
  length : (getFileAbsolutePath p n).length < pathMax
  /-- The kernel picks inode numbers that are not in use. -/
  fresh (t : Nat) : w.fs.inode (w.machine.env t).ino = none ∧
    (w.machine.env t).ino ∉ w.machine.openDirs
  request : ∀ r ∈ requests, ∃ a, r.args.decode = some (i, n, a) ∧ a.Acceptable ∧
    Allowed w.fs r.credential .write i

/-! ## What the requests leave alone for each other -/

section Pact

variable (w : World) (i : Ino) (n : Name) (p : Path)

/-- The file has been made. -/
def HasNew (v : World) : Prop := ∃ f, w.fs.NewFile v.fs i n f

/-- The world `v` is that of the beginning, but for the new file and its handles. -/
structure Standing (v : World) : Prop where
  env : v.machine.env = w.machine.env
  host : v.machine.host = w.machine.host
  openDirs : v.machine.openDirs = w.machine.openDirs
  cached : v.inodeCache.getAbsolutePathFromInodeNumber i = some p
  files : v.fs = w.fs ∨ HasNew w i n v

/-- What thread `j` sees of the steps of others. -/
structure Yields (j : Nat) (s s' : Observed) : Prop where
  standing : Standing w i n p s.world → Standing w i n p s'.world
  hasNew : HasNew w i n s.world → HasNew w i n s'.world
  found : j ∈ s'.foundFree ↔ j ∈ s.foundFree

/-- What a step of thread `j` may do. Who has not found the name free changes no
file. -/
structure Behaves (j : Nat) (s s' : Observed) : Prop where
  standing : Standing w i n p s.world → Standing w i n p s'.world
  hasNew : HasNew w i n s.world → HasNew w i n s'.world
  others : ∀ k, k ≠ j → (k ∈ s'.foundFree ↔ k ∈ s.foundFree)
  keeps : j ∈ s.foundFree → j ∈ s'.foundFree
  files : j ∉ s'.foundFree → s'.world.fs = s.world.fs

def createPact : Pact Observed where
  rely := Yields w i n p
  guarantee := Behaves w i n p
  refl _ _ := ⟨id, id, Iff.rfl⟩
  trans h h' := ⟨h'.standing ∘ h.standing, h'.hasNew ∘ h.hasNew, h'.found.trans h.found⟩
  compatible hne h := ⟨h.standing, h.hasNew, h.others _ hne⟩

/-- How far a request is: it has not asked for the name yet, it has found the name
free, it knows that the file is there. -/
inductive Phase where
  | asking | finder | maker
deriving DecidableEq

/-- What thread `j` knows in a phase. -/
structure At (phase : Phase) (j : Nat) (s : Observed) : Prop where
  standing : Standing w i n p s.world
  found : j ∈ s.foundFree ↔ phase ≠ .asking
  free : phase ≠ .asking → w.fs.entry i n = none
  made : phase = .maker → HasNew w i n s.world

theorem stable_at (phase : Phase) (j : Nat) :
    (createPact w i n p).Stable j (At w i n p phase j) := by
  intro s s' h hRely
  exact ⟨hRely.standing h.standing, hRely.found.trans h.found, h.free,
    fun hMaker => hRely.hasNew (h.made hMaker)⟩

end Pact

/-- Thread `j` keeps the pact with a program, and its answer meets `Q`. -/
abbrev Beside (w : World) (i : Ino) (n : Name) (p : Path) (j : Nat) {α : Type}
    (Q : α → Observed → Prop) (program : Proc α) (s : Observed) : Prop :=
  program.Keeps (observing (getFileAbsolutePath p n)) (createPact w i n p) j Q s

/-- The same from every state of a phase. -/
abbrev From (w : World) (i : Ino) (n : Name) (p : Path) (phase : Phase) (j : Nat) {α : Type}
    (Q : α → Observed → Prop) (program : Proc α) : Prop :=
  ∀ s, At w i n p phase j s → Beside w i n p j Q program s

/-! ## The world of a request -/

variable {cred : Credential}

section Facts

variable {w v : World} {i : Ino} {n : Name} {p : Path} {requests : List CreateRequest}
  (hReady : CreateReady w i n p requests) (hStanding : Standing w i n p v)
include hReady hStanding

theorem Standing.quiet : Quiet v := by
  refine ⟨fun t => ?_, fun t => ?_⟩
  · rw [hStanding.env]
    exact hReady.quiet.fault t
  · rw [hStanding.env]
    exact hReady.quiet.memory t

theorem Standing.leads : v.fs.lookup false p = .ok i := by
  rcases hStanding.files with hSame | ⟨f, hNew⟩
  · rw [hSame]
    exact hReady.leads
  · exact hNew.lookup_of_ok hReady.leads

theorem Standing.directory : ∃ st, v.fs.lstat v.host p = .ok st ∧ st.format = .dir := by
  obtain ⟨st, hStat, hIno⟩ := lstat_of_lookup v.host (hStanding.leads hReady)
  refine ⟨st, hStat, (isDir_of_format hStat).mpr ?_⟩
  rw [hIno]
  rcases hStanding.files with hSame | ⟨f, hNew⟩
  · rw [hSame]
    exact hReady.isDir
  · exact hNew.isDir_of hReady.isDir

omit hReady in
theorem Standing.allowed (h : Allowed w.fs cred .write i) :
    Allowed v.fs cred .write i := by
  intro caller hCaller hRoot
  obtain ⟨x, hx, hAllows⟩ := h caller hCaller hRoot
  rcases hStanding.files with hSame | ⟨f, hNew⟩
  · exact ⟨x, by rw [hSame, hx], hAllows⟩
  · obtain ⟨y, hy, hPerm, hUid, hGid⟩ := hNew.inode_dir hx
    exact ⟨y, hy, by rw [hPerm, hUid, hGid, hAllows]⟩

/-- Asking for the name tells whether it is free. -/
theorem Standing.asked :
    (v.fs.lookup false (getFileAbsolutePath p n) = .error .enoent ∧
      v.fs.lstat v.host (getFileAbsolutePath p n) = .error .enoent ∧ w.fs.entry i n = none) ∨
    (∃ f st, v.fs.lookup false (getFileAbsolutePath p n) = .ok f ∧
      v.fs.lstat v.host (getFileAbsolutePath p n) = .ok st) := by
  have hTaken : ∀ f, v.fs.lookup false (getFileAbsolutePath p n) = .ok f →
      ∃ f st, v.fs.lookup false (getFileAbsolutePath p n) = .ok f ∧
        v.fs.lstat v.host (getFileAbsolutePath p n) = .ok st := by
    intro f hf
    obtain ⟨st, hStat, -⟩ := lstat_of_lookup v.host hf
    exact ⟨f, st, hf, hStat⟩
  -- nobody has made the file yet, or one request has
  rcases hStanding.files with hSame | ⟨f, hNew⟩
  · cases hEntry : w.fs.entry i n with
    | none =>
      have hLookup := lookup_join_free hReady.leads hReady.isDir hReady.name
        hReady.length hEntry
      refine .inl ⟨by rw [hSame]; exact hLookup, ?_, rfl⟩
      unfold lstat getFileAbsolutePath
      rw [hSame, hLookup]
      rfl
    | some f =>
      refine .inr (hTaken f ?_)
      rw [hSame]
      exact lookup_join_taken hReady.leads hReady.isDir hReady.name hReady.length hEntry
  · exact .inr (hTaken f (hNew.leads hReady.leads hReady.name hReady.length false))

omit hStanding in
/-- The file that was made can be seen, and is not the directory. -/
theorem HasNew.seen (h : HasNew w i n v) :
    ∃ st, v.fs.lstat v.host (getFileAbsolutePath p n) = .ok st ∧ st.ino ≠ i := by
  obtain ⟨f, hNew⟩ := h
  obtain ⟨st, hStat, hIno⟩ := lstat_of_lookup v.host
    (hNew.leads hReady.leads hReady.name hReady.length false)
  refine ⟨st, hStat, ?_⟩
  rw [hIno]
  exact hNew.ne_dir.symm

end Facts

/-! ## The steps of a request -/

variable {s : Observed}

section Steps

variable {w : World} {i : Ino} {n : Name} {p : Path} {requests : List CreateRequest}
  (hReady : CreateReady w i n p requests) {phase : Phase} {j : Nat} {α β : Type}
  {Q : α → Observed → Prop}

/-- Two worlds that a request cannot tell apart. -/
structure Alike (v v' : World) : Prop where
  fs : v'.fs = v.fs
  inodeCache : v'.inodeCache = v.inodeCache
  env : v'.machine.env = v.machine.env
  host : v'.machine.host = v.machine.host
  openDirs : v'.machine.openDirs = v.machine.openDirs

theorem Standing.alike {v v' : World} (h : Standing w i n p v) (hAlike : Alike v v') :
    Standing w i n p v' where
  env := hAlike.env.trans h.env
  host := hAlike.host.trans h.host
  openDirs := hAlike.openDirs.trans h.openDirs
  cached := by
    rw [hAlike.inodeCache]
    exact h.cached
  files := by
    unfold HasNew
    rw [hAlike.fs]
    exact h.files

theorem HasNew.alike {v v' : World} (h : HasNew w i n v) (hAlike : Alike v v') :
    HasNew w i n v' := by
  unfold HasNew
  rw [hAlike.fs]
  exact h

/-- A step that looks, and may find the name free. -/
theorem behaves_of_alike {s' : Observed} (hAlike : Alike s.world s'.world)
    (hNoted : s'.foundFree = s.foundFree ∨ s'.foundFree = j :: s.foundFree) :
    Behaves w i n p j s s' where
  standing h := h.alike hAlike
  hasNew h := h.alike hAlike
  others k hk := by
    rcases hNoted with h | h
    · rw [h]
    · rw [h]
      simp [hk]
  keeps h := by
    rcases hNoted with h' | h'
    · rwa [h']
    · rw [h']
      exact mem_cons_of_mem j h
  files _ := hAlike.fs

theorem At.alike {s' : Observed} (h : At w i n p phase j s) (hAlike : Alike s.world s'.world)
    (hNoted : s'.foundFree = s.foundFree) : At w i n p phase j s' where
  standing := h.standing.alike hAlike
  found := by
    rw [hNoted]
    exact h.found
  free := h.free
  made hMaker := (h.made hMaker).alike hAlike

/-- A step that looks at something else, or at what is known to be there. -/
theorem keeps_look {o : Op β} {k : β → Proc α} (hAlike : ∀ v : World, Alike v (v.exec o).2)
    (hNoted : ∀ s, At w i n p phase j s → s.noted (getFileAbsolutePath p n) j o = s.foundFree)
    (hNext : ∀ s, At w i n p phase j s → From w i n p phase j Q (k (s.world.exec o).1)) :
    From w i n p phase j Q (call o >>= k) := by
  refine fun s => keeps_call (stable_at w i n p phase j) fun s hs => ?_
  exact ⟨behaves_of_alike (hAlike s.world) (.inl (hNoted s hs)),
    hNext s hs _ (hs.alike (hAlike s.world) (hNoted s hs))⟩

theorem from_pure {a : α} (h : ∀ s, At w i n p phase j s → Q a s) :
    From w i n p phase j Q (pure a) :=
  fun _ => keeps_pure (stable_at w i n p phase j) h

theorem noted_of_not_asks {file : Path} {o : Op β} (h : o.asksFor file = false) (s : Observed) :
    s.noted file j o = s.foundFree := by
  simp [Observed.noted, h]

theorem alike_sys {o : Sys β} (hNext : ∀ m : Machine, (m.exec o).2 = m.next) (v : World) :
    Alike v (v.exec (.sys o)).2 := by
  show Alike v { v with machine := (v.machine.exec o).2 }
  rw [hNext]
  exact ⟨rfl, rfl, rfl, rfl, rfl⟩

theorem next_lstat (path : Path) (m : Machine) : (m.exec (.lstat path)).2 = m.next :=
  Machine.answer_next m _

include hReady

theorem answer_lstat {v : World} (hStanding : Standing w i n p v) (path : Path) :
    (v.exec (.sys (.lstat path))).1 = v.fs.lstat v.host path :=
  (hStanding.quiet hReady).sees _

theorem keeps_lstat {path : Path} {k : Except Errno Kernel.Stat → Proc α}
    (hOther : path ≠ getFileAbsolutePath p n ∨ phase = .maker) (hNext : ∀ s, At w i n p phase j s →
      From w i n p phase j Q (k (s.world.fs.lstat s.world.host path))) :
    From w i n p phase j Q (sys (.lstat path) >>= k) := by
  refine keeps_look (alike_sys (next_lstat path)) (fun s hs => ?_) fun s hs => ?_
  · rcases hOther with hPath | rfl
    · exact noted_of_not_asks (by simpa [Op.asksFor] using hPath) s
    · -- the file is there, so nothing is noted
      obtain ⟨f, hNew⟩ := hs.made rfl
      have hLookup : s.world.fs.lookup false (getFileAbsolutePath p n) = .ok f :=
        hNew.leads hReady.leads hReady.name hReady.length false
      simp [Observed.noted, hLookup, Except.toOption]
  · rw [answer_lstat hReady hs.standing]
    exact hNext s hs

theorem keeps_allocate (m : Nat) :
    From w i n p phase j (fun b s => b = true ∧ At w i n p phase j s) (allocate m) := by
  induction m with
  | zero => exact from_pure fun s hs => ⟨rfl, hs⟩
  | succ m ih =>
    refine keeps_look (alike_sys fun _ => rfl) (fun s _ => noted_of_not_asks rfl s) fun s hs => ?_
    have hMemory : (s.world.exec (.sys .malloc)).1 = true :=
      (hs.standing.quiet hReady).memory s.world.machine.tick
    rw [hMemory]
    exact ih

/-- The attributes of a path that leads somewhere. -/
theorem keeps_getAttributes {path : Path} {F : Kernel.Stat → Prop}
    (hOther : path ≠ getFileAbsolutePath p n ∨ phase = .maker) (hStat : ∀ s, At w i n p phase j s →
      ∃ st, s.world.fs.lstat s.world.host path = .ok st ∧ F st) :
    From w i n p phase j
      (fun fattr s => (∃ st, fattr = some (fattrOfStat st) ∧ F st) ∧ At w i n p phase j s)
      (getAttributes path) := by
  refine keeps_lstat hReady hOther fun s hs s' hs' => ?_
  obtain ⟨st, hOk, hF⟩ := hStat s hs
  rw [hOk]
  refine keeps_bind (keeps_allocate hReady 4 s' hs') ?_
  rintro b s'' ⟨rfl, hs''⟩
  exact from_pure (fun s hs => ⟨⟨st, rfl, hF⟩, hs⟩) s'' hs''

/-- A change of the new file, by a thread that has found the name free. -/
theorem keeps_change {o : Sys (Except Errno Unit)} {r : Machine → Except Errno FileSystem}
    {report : Errno → Option Stat} {k : Unit → Proc (NfsReply β)}
    {Q : NfsReply β → Observed → Prop} (hExec : ∀ m : Machine, m.exec o = m.change (r m))
    (hNot : Op.asksFor (getFileAbsolutePath p n) (.sys o) = false) (hPhase : phase ≠ .asking)
    (hOk : ∀ s, At w i n p phase j s →
      ∃ fs' f, r s.world.machine = .ok fs' ∧ w.fs.NewFile fs' i n f)
    (hNext : From w i n p .maker j Q (k ())) :
    From w i n p phase j Q (orReport report (sys o) k) := by
  refine fun s => keeps_call (stable_at w i n p phase j) fun s hs => ?_
  obtain ⟨fs', f, hr, hNew⟩ := hOk s hs
  have hStep : (observing (getFileAbsolutePath p n)).exec j (.sys o) s = (.ok (),
      ⟨{ s.world with machine := { s.world.machine.next with fs := fs' } }, s.foundFree⟩) := by
    have hFault : s.world.machine.here.fault = none :=
      (hs.standing.quiet hReady).fault s.world.machine.tick
    have hChange : s.world.machine.exec o = (.ok (), { s.world.machine.next with fs := fs' }) := by
      rw [hExec]
      simp only [Machine.change, hFault, hr]
    show ((s.world.machine.exec o).1, Observed.mk { s.world with machine :=
      (s.world.machine.exec o).2 } (s.noted _ j (.sys o))) = _
    rw [hChange, noted_of_not_asks hNot]
  -- who changes the files has found the name free before
  have hFound : j ∈ s.foundFree := hs.found.mpr hPhase
  have hStanding : Standing w i n p
      { s.world with machine := { s.world.machine.next with fs := fs' } } :=
    ⟨hs.standing.env, hs.standing.host, hs.standing.openDirs, hs.standing.cached, .inr ⟨f, hNew⟩⟩
  rw [hStep]
  refine ⟨⟨fun _ => hStanding, fun _ => ⟨f, hNew⟩, fun _ _ => Iff.rfl, id, ?_⟩, hNext _ ?_⟩
  · intro hNotFound
    exact absurd hFound hNotFound
  · exact ⟨hStanding, iff_of_true hFound (by decide), fun _ => hs.free hPhase, fun _ => ⟨f, hNew⟩⟩

/-! ## The blocks of CREATE -/

variable {Q : NfsReply β → Observed → Prop}
variable {k : Proc (NfsReply β)}

/-- The question for the name. It is noted exactly if the answer is ENOENT. -/
theorem keeps_withFree (hTaken : ∀ s, At w i n p .asking j s → Q (.err .nfserrExist) s)
    (hNext : From w i n p .finder j Q k) :
    From w i n p .asking j Q (withFree (getFileAbsolutePath p n) k) := by
  refine fun s => keeps_call (stable_at w i n p .asking j) fun s hs => ?_
  have hAlike := alike_sys (next_lstat (getFileAbsolutePath p n)) s.world
  have hAnswer := answer_lstat hReady hs.standing (getFileAbsolutePath p n)
  -- the two answers of `lstat`; the free name is noted for this request
  rcases hs.standing.asked hReady with ⟨hLookup, hStat, hFree⟩ | ⟨f, st, hLookup, hStat⟩
  · have hNoted : s.noted (getFileAbsolutePath p n) j (.sys (.lstat (getFileAbsolutePath p n))) =
        j :: s.foundFree := by
      simp [Observed.noted, Op.asksFor, hLookup, Except.toOption]
    refine ⟨behaves_of_alike hAlike (.inr hNoted), ?_⟩
    rw [show ((observing (getFileAbsolutePath p n)).exec j
      (.sys (.lstat (getFileAbsolutePath p n))) s).1 = .error .enoent from hAnswer.trans hStat]
    refine hNext _ ⟨hs.standing.alike hAlike, ?_, fun _ => hFree, (by intro h; cases h)⟩
    refine iff_of_true ?_ (by decide)
    rw [show ((observing (getFileAbsolutePath p n)).exec j _ s).2.foundFree = _ from hNoted]
    exact mem_cons_self
  · have hNoted : s.noted (getFileAbsolutePath p n) j (.sys (.lstat (getFileAbsolutePath p n))) =
        s.foundFree := by
      simp [Observed.noted, hLookup, Except.toOption]
    refine ⟨behaves_of_alike hAlike (.inl hNoted), ?_⟩
    rw [show ((observing (getFileAbsolutePath p n)).exec j
      (.sys (.lstat (getFileAbsolutePath p n))) s).1 = .ok st from hAnswer.trans hStat]
    exact from_pure hTaken _ (hs.alike hAlike hNoted)

omit hReady in
theorem path_ne_file (p : Path) (n : Name) : p ≠ getFileAbsolutePath p n := by
  intro h
  have := congrArg length h
  simp [getFileAbsolutePath] at this

theorem keeps_withDirectory {k : Path → Proc (NfsReply β)}
    (hNext : From w i n p phase j Q (k p)) : From w i n p phase j Q (withDirectory i k) := by
  refine keeps_look (o := .getInodeCache) (fun v => ⟨rfl, rfl, rfl, rfl, rfl⟩)
    (fun s _ => noted_of_not_asks rfl s) fun s hs s' hs' => ?_
  have hCached : (s.world.exec .getInodeCache).1.getAbsolutePathFromInodeNumber i = some p :=
    hs.standing.cached
  rw [hCached]
  refine keeps_bind (keeps_getAttributes hReady (.inl (path_ne_file p n))
    (fun s hs => hs.standing.directory hReady) s' hs') ?_
  rintro fattr s'' ⟨⟨st, rfl, hFormat⟩, hs''⟩
  have hType : (fattrOfStat st).nfsFtype = .nfDir := by
    show decodeFileType st.format = .nfDir
    rw [hFormat]
    rfl
  show Beside w i n p j Q (if _ then _ else _) s''
  rw [if_pos hType]
  exact hNext s'' hs''

theorem keeps_checkPermission {caller : AuthSysParams}
    (hAllowed : Allowed w.fs cred .write i) (hCaller : cred = .authSys caller)
    (hRoot : caller.uid ≠ 0) :
    From w i n p phase j (fun verdict s => verdict = .granted ∧ At w i n p phase j s)
      (checkPermission .write p caller.uid caller.gid) := by
  refine keeps_lstat hReady (.inl (path_ne_file p n)) fun s hs => ?_
  obtain ⟨st, hStat, hIno⟩ := lstat_of_lookup s.world.host (hs.standing.leads hReady)
  obtain ⟨x, hx, hAllows⟩ := hs.standing.allowed hAllowed caller hCaller hRoot
  obtain ⟨-, y, hy, -, hPerm, hUid, hGid⟩ := lstat_ok hStat
  rw [hIno] at hy
  obtain rfl : x = y := Option.some.inj (hx.symm.trans hy)
  rw [hStat]
  dsimp only
  rw [hPerm, hUid, hGid, hAllows]
  exact from_pure fun s hs => ⟨rfl, hs⟩

theorem keeps_withPermission (hAllowed : Allowed w.fs cred .write i)
    (hNext : From w i n p phase j Q k) :
    From w i n p phase j Q (withPermission cred (checkCreateProcPermissions p) k) := by
  cases cred with
  | authNone => exact hNext
  | authSys caller =>
    unfold withPermission
    simp only [checkCreateProcPermissions, needs, unlessRoot]
    by_cases hRoot : caller.uid = 0
    · rw [if_pos hRoot]
      exact hNext
    · rw [if_neg hRoot]
      refine fun s hs => keeps_bind (keeps_checkPermission hReady hAllowed rfl hRoot s hs) ?_
      rintro verdict s' ⟨rfl, hs'⟩
      exact hNext s' hs'

/-! ### The new file -/

theorem keeps_open {report : Errno → Option Stat} {mode : Option Nat} {k : Unit → Proc (NfsReply β)}
    (hNext : From w i n p .maker j Q (k ())) :
    From w i n p .finder j Q
      (orReport report (sys (.openCreat (getFileAbsolutePath p n) mode)) k) := by
  refine keeps_change hReady (fun m => rfl) rfl (by decide) (fun s hs => ?_) hNext
  rcases hs.standing.files with hSame | ⟨f, hNew⟩
  · -- the name is still free
    have hFs : s.world.machine.fs = w.fs := hSame
    obtain ⟨hFresh, hBusy⟩ := hReady.fresh s.world.machine.tick
    rw [← hs.standing.env] at hFresh hBusy
    rw [← hs.standing.openDirs] at hBusy
    rw [hFs]
    obtain ⟨fs', hOk, hNew⟩ := openCreat_free hReady.leads hReady.isDir hReady.name
      hReady.length (hs.free (by decide)) hFresh hBusy s.world.machine.host
      (mode.getD s.world.machine.here.mode) s.world.machine.here.now
    exact ⟨fs', _, hOk, hNew⟩
  · -- another request has made the file by now, and is not noticed
    exact ⟨s.world.machine.fs, f,
      hNew.openCreat hReady.leads hReady.name hReady.length _ _ _ _ _, hNew⟩

section Settings

variable (hNext : From w i n p .maker j Q k) {a : Attributes} (ha : a.Acceptable)
include hNext

theorem keeps_setOwner (a : Attributes) :
    From w i n p .maker j Q (setOwner (getFileAbsolutePath p n) a k) := by
  unfold setOwner orSystemErr
  refine keeps_change hReady (fun m => rfl) rfl (by decide) (fun s hs => ?_) hNext
  obtain ⟨f, hNew⟩ := hs.made rfl
  obtain ⟨fs', hOk, hNew'⟩ := hNew.chown hReady.leads hReady.name hReady.length a.uid a.gid
    s.world.machine.here.now
  exact ⟨fs', f, hOk, hNew'⟩

include ha

theorem keeps_setSize : From w i n p .maker j Q (setSize (getFileAbsolutePath p n) a k) := by
  unfold setSize
  split
  · next hSets =>
    refine keeps_change hReady (fun m => rfl) rfl (by decide) (fun s hs => ?_) hNext
    obtain ⟨f, hNew⟩ := hs.made rfl
    obtain ⟨fs', hOk, hNew'⟩ := hNew.truncate hReady.leads hReady.name hReady.length (ha.size hSets)
      s.world.machine.here.now
    exact ⟨fs', f, hOk, hNew'⟩
  · exact hNext

theorem keeps_setTimes : From w i n p .maker j Q (setTimes (getFileAbsolutePath p n) a k) := by
  unfold setTimes
  split
  · next hSets =>
    refine keeps_change hReady (fun m => rfl) rfl (by decide) (fun s hs => ?_) hNext
    obtain ⟨f, hNew⟩ := hs.made rfl
    obtain ⟨fs', hOk, hNew'⟩ := hNew.utimes hReady.leads hReady.name hReady.length
      ⟨a.atime.seconds, a.atime.useconds⟩ ⟨a.mtime.seconds, a.mtime.useconds⟩ (ha.times hSets).1
      (ha.times hSets).2 s.world.machine.here.now
    exact ⟨fs', f, hOk, hNew'⟩
  · exact hNext

end Settings

omit hReady in
/-- A cache that knows the directory may replace another one. -/
theorem keeps_setInodeCache {cache : InodeCache} {k : Unit → Proc α} {Q : α → Observed → Prop}
    (hCached : cache.getAbsolutePathFromInodeNumber i = some p)
    (hNext : From w i n p phase j Q (k ())) :
    From w i n p phase j Q (call (.setInodeCache cache) >>= k) := by
  refine fun s => keeps_call (stable_at w i n p phase j) fun s hs => ?_
  have hStanding : Standing w i n p s.world →
      Standing w i n p { s.world with inodeCache := cache } :=
    fun h => ⟨h.env, h.host, h.openDirs, hCached, h.files⟩
  have hNoted : s.noted (getFileAbsolutePath p n) j (.setInodeCache cache) = s.foundFree :=
    noted_of_not_asks rfl s
  show Behaves w i n p j s ⟨{ s.world with inodeCache := cache }, s.noted _ j _⟩ ∧
    Beside w i n p j Q (k ()) ⟨{ s.world with inodeCache := cache }, s.noted _ j _⟩
  rw [hNoted]
  exact ⟨⟨hStanding, id, fun _ _ => Iff.rfl, id, fun _ => rfl⟩,
    hNext _ ⟨hStanding hs.standing, hs.found, hs.free, hs.made⟩⟩

/-- A handle for the file. The cache that is written back may be an old one, but
the directory is in every one of them. -/
theorem keeps_createNfsFilehandle :
    From w i n p .maker j (fun handle s => handle.isSome ∧ At w i n p .maker j s)
      (createNfsFilehandle (getFileAbsolutePath p n)) := by
  refine keeps_lstat hReady (.inr rfl) fun s₁ hs₁ => ?_
  obtain ⟨st, hStat, hNe⟩ := (hs₁.made rfl).seen hReady
  rw [hStat]
  refine keeps_look (o := .sys .time) (alike_sys fun _ => rfl) (fun s _ => noted_of_not_asks rfl s)
    fun _ _ s₂ hs₂ => keeps_bind (keeps_allocate hReady 3 s₂ hs₂) ?_
  rintro b s₃ ⟨rfl, hs₃⟩
  refine keeps_look (o := .getInodeCache) (fun v => ⟨rfl, rfl, rfl, rfl, rfl⟩)
    (fun s _ => noted_of_not_asks rfl s) (fun s₄ hs₄ => keeps_setInodeCache ?_ ?_) s₃ hs₃
  · -- the file is not the directory, so the directory is found behind it
    show ((⟨⟨st.ino, _⟩, _⟩ :: s₄.world.inodeCache : InodeCache).find? _).map _ = _
    rw [find?_cons_of_neg (by simpa [InodeCache.hasInode] using hNe)]
    exact hs₄.standing.cached
  · exact from_pure fun s hs => ⟨rfl, hs⟩

theorem keeps_answer {Q : NfsReply DirOpOk → Observed → Prop}
    (hOk : ∀ a s, At w i n p .maker j s → Q (.ok a) s) :
    From w i n p .maker j Q (withNewHandle (getFileAbsolutePath p n)
      (answerWithHandle (getFileAbsolutePath p n))) := by
  refine fun s hs => keeps_bind (keeps_createNfsFilehandle hReady s hs) ?_
  rintro handle s₁ ⟨hSome, hs₁⟩
  obtain ⟨handle, rfl⟩ := Option.isSome_iff_exists.mp hSome
  refine keeps_bind (keeps_getAttributes (F := fun _ => True) hReady (.inr rfl)
    (fun s hs => ?_) s₁ hs₁) ?_
  · obtain ⟨st, hStat, -⟩ := (hs.made rfl).seen hReady
    exact ⟨st, hStat, trivial⟩
  · rintro fattr s₂ ⟨⟨st, rfl, -⟩, hs₂⟩
    exact from_pure (hOk _) s₂ hs₂

end Steps

/-- The reply of thread `j` tells whether it found the name free. -/
structure Tells (j : Nat) (reply : NfsReply DirOpOk) (s : Observed) : Prop where
  ok : j ∈ s.foundFree → ∃ a, reply = .ok a
  exist : j ∉ s.foundFree → reply = .err .nfserrExist

/-- **A request that has found the name free goes through.** Whatever the other
requests do meanwhile, it answers NFS_OK; the ones that found the name taken
answer NFSERR_EXIST. -/
theorem keeps_create {w : World} {i : Ino} {n : Name} {p : Path} {requests : List CreateRequest}
    (hReady : CreateReady w i n p requests) {r : CreateRequest} (hr : r ∈ requests) (j : Nat) :
    From w i n p .asking j (Tells j) r.program := by
  obtain ⟨a, hArgs, hAcceptable, hAllowed⟩ := hReady.request r hr
  have hOk : ∀ b s, At w i n p .maker j s → Tells j (.ok b) s := fun b s hs =>
    ⟨fun _ => ⟨b, rfl⟩, fun hNot => absurd (hs.found.mpr (by decide)) hNot⟩
  have hExist : ∀ s, At w i n p .asking j s → Tells j (.err .nfserrExist) s := fun s hs =>
    ⟨fun hFound => absurd rfl (hs.found.mp hFound), fun _ => rfl⟩
  unfold CreateRequest.program serveNfsProcedure9CreateFile orGarbageArgs
  rw [hArgs]
  -- block by block, in the order of the procedure
  refine keeps_withDirectory hReady ?_
  rw [if_neg (by have := hReady.name.length_le; simp only [nameMax, NFS_MAXNAMLEN] at this ⊢; omega)]
  refine keeps_withFree hReady hExist ?_
  refine keeps_withPermission hReady hAllowed ?_
  refine keeps_open hReady ?_
  refine keeps_setOwner hReady ?_ a
  refine keeps_setSize hReady ?_ hAcceptable
  refine keeps_setTimes hReady ?_ hAcceptable
  exact keeps_answer hReady hOk

/-! ## Whole runs -/

section Runs

variable {w : World} {i : Ino} {n : Name} {p : Path} {requests : List CreateRequest}
  (hReady : CreateReady w i n p requests)
include hReady

theorem kept_createRace : (createRace w requests).Kept (observing (getFileAbsolutePath p n))
    (createPact w i n p) Tells := by
  intro j program hThread
  obtain ⟨r, hr, rfl⟩ := mem_map.mp (mem_of_getElem? hThread)
  refine keeps_create hReady hr j _ ⟨⟨rfl, rfl, rfl, hReady.cached, .inl rfl⟩, ?_, ?_, ?_⟩
  · exact iff_of_false (by simp [createRace]) (by simp)
  · exact fun h => absurd rfl h
  · intro h
    cases h

/-- A finder stays one. -/
theorem findersOf_append {before : List Nat} {k : Nat}
    (hk : k ∈ findersOf (getFileAbsolutePath p n) (createRace w requests) before)
    (after : List Nat) :
    k ∈ findersOf (getFileAbsolutePath p n) (createRace w requests) (before ++ after) := by
  unfold findersOf at hk ⊢
  rw [Pool.run_append]
  refine ((kept_createRace hReady).run before).invariant (I := fun s => k ∈ s.foundFree) hk ?_ after
  intro j s s' _ hFound hBehaves
  by_cases hj : k = j
  · rw [hj] at hFound ⊢
    exact hBehaves.keeps hFound
  · exact (hBehaves.others k hj).mpr hFound

/-- Only requests ask. -/
theorem lt_of_mem_findersOf {schedule : List Nat} {k : Nat}
    (hk : k ∈ findersOf (getFileAbsolutePath p n) (createRace w requests) schedule) :
    k < (createRace w requests).threads.length := by
  refine (kept_createRace hReady).invariant
    (I := fun s => ∀ k ∈ s.foundFree, k < (createRace w requests).threads.length) ?_ ?_ schedule k hk
  · intro k hNone
    cases hNone
  · intro j s s' hj hAll hBehaves k hk
    by_cases hEq : k = j
    · rw [hEq]
      exact hj
    · exact hAll k ((hBehaves.others k hEq).mp hk)

/-- Who changes a file has found the name free. -/
theorem mem_findersOf_of_change (before : List Nat) (j : Nat)
    (hChange : filesAfter (getFileAbsolutePath p n) (createRace w requests) (before ++ [j]) ≠
      filesAfter (getFileAbsolutePath p n) (createRace w requests) before) :
    j ∈ findersOf (getFileAbsolutePath p n) (createRace w requests) (before ++ [j]) := by
  unfold filesAfter at hChange
  unfold findersOf
  rw [Pool.run_concat] at hChange ⊢
  rcases ((kept_createRace hReady).run before).guarantee j with hIdle | ⟨-, hBehaves⟩
  · rw [hIdle] at hChange
    exact absurd rfl hChange
  · by_contra hNot
    exact hChange (hBehaves.files hNot)

/-- **CREATE under concurrency.** Any number of CREATE requests for one name,
each of which could be served alone, run side by side until all have answered.
They exclude each other as they should exactly if at most one of them asked for
the name before it was taken. -/
theorem create_exclusive_iff {schedule : List Nat}
    (hDone : ((createRace w requests).run (observing (getFileAbsolutePath p n)) schedule).Completed) :
    Exclusive (getFileAbsolutePath p n) (createRace w requests) schedule ↔
      ∀ j ∈ findersOf (getFileAbsolutePath p n) (createRace w requests) schedule,
        ∀ k ∈ findersOf (getFileAbsolutePath p n) (createRace w requests) schedule, j = k := by
  have hKept := (kept_createRace hReady).run schedule
  constructor
  · intro hExclusive j hj k hk
    -- both have answered, and both with NFS_OK
    have hOk : ∀ l ∈ findersOf (getFileAbsolutePath p n) (createRace w requests) schedule,
        ∃ a, answered (getFileAbsolutePath p n) (createRace w requests) schedule l =
          some (.ok a) := by
      intro l hl
      obtain ⟨reply, hReply⟩ := Option.isSome_iff_exists.mp
        (hDone l (by rw [Pool.length_run]; exact lt_of_mem_findersOf hReady hl))
      obtain ⟨a, rfl⟩ := (hKept.answer hReply).ok hl
      exact ⟨a, hReply⟩
    obtain ⟨a, ha⟩ := hOk j hj
    obtain ⟨b, hb⟩ := hOk k hk
    exact hExclusive.one ha hb
  · intro hOne
    have hFinder : ∀ {l a}, answered (getFileAbsolutePath p n) (createRace w requests) schedule l =
        some (.ok a) → l ∈ findersOf (getFileAbsolutePath p n) (createRace w requests) schedule := by
      intro l a hAnswer
      by_contra hNot
      have := (hKept.answer hAnswer).exist hNot
      cases this
    refine ⟨fun ha hb => hOne _ (hFinder ha) _ (hFinder hb), fun {l reply} hAnswer => ?_, ?_⟩
    · by_cases hl : l ∈ findersOf (getFileAbsolutePath p n) (createRace w requests) schedule
      · exact .inl ((hKept.answer hAnswer).ok hl)
      · exact .inr ((hKept.answer hAnswer).exist hl)
    · -- one step makes the file and another one changes it: two finders
      intro before between after j k f hSchedule hjk hNone hSome
      by_contra hProfile
      have hj := mem_findersOf_of_change hReady before j (by
        intro hSame
        rw [hSame, hNone] at hSome
        cases hSome)
      have hk := mem_findersOf_of_change hReady (before ++ j :: between) k (by
        intro hSame
        exact hProfile (by rw [hSame]))
      have hj' := findersOf_append hReady hj (between ++ k :: after)
      have hk' := findersOf_append hReady hk after
      rw [show before ++ [j] ++ (between ++ k :: after) = schedule by simp [hSchedule]] at hj'
      rw [show before ++ j :: between ++ [k] ++ after = schedule by simp [hSchedule]] at hk'
      exact hjk (hOne j hj' k hk')

end Runs

namespace Sample

/-- Two requests for the name x in /exp, for different owners. -/
def creators : List CreateRequest :=
  [⟨.authSys caller, newFile 2 "x" 1000⟩, ⟨.authSys caller, newFile 2 "x" 2000⟩]

def exported : World := world.step mount

def newPath : Path := getFileAbsolutePath (bytes "/exp") (bytes "x")

/-- One request after the other. -/
def inTurn : List Nat := List.replicate 40 0 ++ List.replicate 40 1

/-- The second request as a whole, right after the first one has asked for the
name. -/
def crossed : List Nat := List.replicate 7 0 ++ List.replicate 40 1 ++ List.replicate 40 0

theorem createReady_creators :
    CreateReady exported 2 (bytes "x") (bytes "/exp") creators where
  quiet := ⟨fun _ => rfl, fun _ => rfl⟩
  cached := by decide +kernel
  leads := by decide +kernel
  isDir := by decide +kernel
  name := by decide +kernel
  length := by decide +kernel
  fresh := by
    -- the numbers that the kernel chooses start above those in use
    have hKeys : ∀ a ∈ exported.fs.inodes.keys, a < 7 := by decide +kernel
    intro t
    refine ⟨AList.lookup_eq_none.mpr fun hMem => ?_, ?_⟩
    · have hLt : t + 7 < 7 := hKeys _ (AList.mem_keys.mp hMem)
      omega
    · have hNone : exported.machine.openDirs = [] := by decide +kernel
      rw [hNone]
      simp
  request := by
    have hAllows : ∃ x, exported.fs.inode 2 = some x ∧
        allows .write x.attr.perm x.attr.uid x.attr.gid caller.uid caller.gid = true := by
      cases hx : exported.fs.inode 2 with
      | none => exact absurd hx (by decide +kernel)
      | some x =>
        refine ⟨x, rfl, ?_⟩
        have hAny : (exported.fs.inode 2).all fun x =>
            allows .write x.attr.perm x.attr.uid x.attr.gid caller.uid caller.gid := by
          decide +kernel
        rwa [hx] at hAny
    have hAllowed : Allowed exported.fs (.authSys caller) .write 2 := by
      rintro _ ⟨⟩ -
      exact hAllows
    intro r hr
    simp only [creators, mem_cons, not_mem_nil, or_false] at hr
    rcases hr with rfl | rfl
    · exact ⟨_, rfl, ⟨fun h => absurd rfl h, fun h => absurd rfl h.1⟩, hAllowed⟩
    · exact ⟨_, rfl, ⟨fun h => absurd rfl h, fun h => absurd rfl h.1⟩, hAllowed⟩

end Sample

/-- One after the other the two requests exclude each other. -/
theorem create_exclusive_in_turn :
    Exclusive Sample.newPath (createRace Sample.exported Sample.creators) Sample.inTurn :=
  (create_exclusive_iff Sample.createReady_creators (by decide +kernel)).mpr (by decide +kernel)

theorem exists_ok_of_isOk {answer : Option (NfsReply DirOpOk)}
    (h : answer.any Reply.isOk = true) : ∃ a, answer = some (.ok a) := by
  cases answer with
  | none => cases h
  | some reply =>
    cases reply with
    | ok a => exact ⟨a, rfl⟩
    | err | garbageArgs | systemErr => cases h

/-- Crossed, both requests answer NFS_OK, and the second one's file changes its
owner once more. -/
theorem create_not_exclusive :
    ¬ Exclusive Sample.newPath (createRace Sample.exported Sample.creators) Sample.crossed ∧
    (filesAfter Sample.newPath (createRace Sample.exported Sample.creators)
      (List.replicate 7 0 ++ List.replicate 40 1)).lookup false Sample.newPath = .ok 32 ∧
    (filesAfter Sample.newPath (createRace Sample.exported Sample.creators)
      (List.replicate 7 0 ++ List.replicate 40 1)).owner 32 = some (2000, 2000) ∧
    (filesAfter Sample.newPath (createRace Sample.exported Sample.creators)
      Sample.crossed).owner 32 = some (1000, 1000) := by
  have hFirst : (answered Sample.newPath (createRace Sample.exported Sample.creators)
      Sample.crossed 0).any Reply.isOk = true := by decide +kernel
  have hSecond : (answered Sample.newPath (createRace Sample.exported Sample.creators)
      Sample.crossed 1).any Reply.isOk = true := by decide +kernel
  refine ⟨fun hExclusive => ?_, by decide +kernel, by decide +kernel, by decide +kernel⟩
  obtain ⟨a, ha⟩ := exists_ok_of_isOk hFirst
  obtain ⟨b, hb⟩ := exists_ok_of_isOk hSecond
  exact absurd (hExclusive.one ha hb) (by decide)

end QuicNfs.Server

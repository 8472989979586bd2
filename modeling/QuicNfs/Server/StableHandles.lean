import QuicNfs.Server.Frame
import QuicNfs.Server.Issuing

/-!
# QuicNfs — LOOKUP answers with the same handle again

LOOKUP adds a mapping only for an object that has none, at the head of a list that is searched
from its head. So the first mapping of a known object stays the first one, whatever is looked
up in between, as long as no LOOKUP takes a mapping away.

* `reliable` — an `lstat` of a path that leads somewhere and the allocations do not fail;
* `LookedUp` — what such a LOOKUP can do to the cache (`lookedUp`);
* `find_step`, `find_steps` — the first mapping of an object stays, over one request and over
  a run;
* `lookup_stable` — two LOOKUPs that reach one object answer with one handle.
-/

namespace QuicNfs.Server

open Kernel Lib InodeCache

/-- Every call but these two kinds may fail. -/
def reliably {β : Type} : Sys β → World → Bool
  | .lstat p, w => !(w.fs.lookup false p).toBool || w.machine.here.fault.isNone
  | .malloc, w => w.machine.here.memory
  | _, _ => true

def reliable : Demand where
  assumes o w := reliably o w = true
  holds _ _ := True
  silent _ _ _ := trivial

instance {β : Type} (w : World) : (o : Op β) → Decidable (reliable.contract.assumes o w)
  | .sys o => inferInstanceAs (Decidable (reliably o w = true))
  | .getInodeCache => isTrue trivial
  | .setInodeCache _ => isTrue trivial
  | .getMountList => isTrue trivial
  | .setMountList _ => isTrue trivial
  | .getReaddirSessions => isTrue trivial
  | .setReaddirSessions _ => isTrue trivial

/-- The calls of the request that may not fail do not fail. -/
def World.Reliable (w : World) (cred : Credential) (r : Request) : Prop :=
  ∀ e ∈ (serve cred r).trace w, reliable.contract.assumes e.op e.state

instance (w : World) (cred : Credential) (r : Request) : Decidable (w.Reliable cred r) :=
  inferInstanceAs (Decidable (∀ e ∈ (serve cred r).trace w, reliable.contract.assumes e.op e.state))

/-- The object that the name in the directory of the handle leads to. -/
def World.reaches (w : World) (args : DirOpArgs) : Option Ino :=
  (args.decode.bind w.built).bind fun q => (w.fs.lookup false q).toOption

/-! ## One LOOKUP -/

section Rules

variable {β : Type} {w : World} {p : Path} {st : Kernel.Stat}

theorem safe_lstat_reliable {Q : β → World → Prop} {k : Except Errno Kernel.Stat → Proc β}
    (hStat : w.fs.lstat w.host p = .ok st) (h : Safe reliable Q (k (.ok st)) w) :
    Safe reliable Q (sys (.lstat p) >>= k) w := by
  intro t
  refine ⟨trivial, fun hReliable => ?_⟩
  have hReliable : reliably (.lstat p) (w.atTick t) = true := hReliable
  have hClear : (w.atTick t).machine.here.fault = none := by
    simpa [reliably, (FileSystem.lstat_ok hStat).1, Except.toBool] using hReliable
  show (k ((w.atTick t).machine.answer (w.fs.lstat w.host p)).1).Sat reliable.contract Q
    { w with machine := ((w.atTick t).machine.answer (w.fs.lstat w.host p)).2 }
  unfold Machine.answer
  rw [hClear, hStat]
  exact h (t + 1)

theorem safe_allocate_reliable {Q : β → World → Prop} {k : Bool → Proc β} {n : Nat}
    (h : Safe reliable Q (k true) w) : Safe reliable Q (allocate n >>= k) w := by
  induction n with
  | zero => exact h
  | succ n ih =>
    intro t
    refine ⟨trivial, fun hReliable => ?_⟩
    have hMemory : (w.atTick t).machine.here.memory = true := hReliable
    show ((if (w.atTick t).machine.here.memory then allocate n else pure false : Proc Bool) >>=
      k).Sat reliable.contract Q (w.atTick (t + 1))
    rw [hMemory]
    exact ih (t + 1)

/-- The handle of a known object is answered with, and not forgotten. -/
theorem safe_answerWithHandle_reliable {handle : NfsFileHandle}
    {Q : NfsReply DirOpOk → World → Prop} (hStat : w.fs.lstat w.host p = .ok st)
    (h : ∀ t, Q (.ok ⟨handle, fattrOfStat st⟩) (w.atTick t)) :
    Safe reliable Q (answerWithHandle p handle) w :=
  safe_bind (safe_lstat_reliable hStat (safe_allocate_reliable (safe_pure fun _ => safe_pure h)))

end Rules

/-- What LOOKUP can do to the cache, with what it answers. -/
inductive LookedUp (w : World) (args : DirOpArgs) : NfsReply DirOpOk → InodeCache → Prop where
  | refused {reply : NfsReply DirOpOk} (hRefused : reply.isOk = false) :
      LookedUp w args reply w.inodeCache
  | known {i : Ino} {m : InodeCacheMapping} {fattr : FAttr} (hReaches : w.reaches args = some i)
      (hKnown : w.inodeCache.find? (InodeCache.hasInode i) = some m) :
      LookedUp w args (.ok ⟨m.nfsFilehandle, fattr⟩) w.inodeCache
  | new {i : Ino} {timestamp : Nat} {q : Path} {fattr : FAttr} (hReaches : w.reaches args = some i)
      (hNew : w.inodeCache.find? (InodeCache.hasInode i) = none) :
      LookedUp w args (.ok ⟨⟨i, timestamp⟩, fattr⟩) (w.inodeCache.addInodeMapping ⟨i, timestamp⟩ q)

variable {cred : Credential}

section Lookup

variable {w : World} {args : DirOpArgs} {reply : NfsReply DirOpOk} {cache : InodeCache} {i : Ino}
  {m : InodeCacheMapping}

/-- **The list is complete.** -/
theorem lookedUp (h : w.Reliable cred (.lookup args)) :
    ∃ reply, w.answer cred (.lookup args) = .dirOpRes reply ∧
      LookedUp w args reply (w.afterRequest cred (.lookup args)).inodeCache := by
  have hFail : FailSafe (fun reply w' => LookedUp w args reply w'.inodeCache) w :=
    fun _ hRefused _ => .refused hRefused
  have hSafe : Safe reliable (fun reply w' => LookedUp w args reply w'.inodeCache)
      (serveNfsProcedure4LookUpFileName cred args) w := by
    have hReaches : ∀ {d n p stDir st}, LooksUp w args d n p stDir st →
        w.reaches args = some st.ino := by
      intro d n p stDir st h
      simp [World.reaches, h.args, World.built, h.cached, (FileSystem.lstat_ok h.file).1,
        Except.toOption]
    -- the handle that is answered is the first one of the inode, or a new one
    refine safe_lookUpFileName hFail (fun _ _ _ _ _ => ⟨fun _ => trivial, fun _ => trivial⟩) ?_ ?_
    · intro d n p stDir st handle h hHandle
      obtain ⟨m, hFind, rfl⟩ := Option.map_eq_some_iff.mp hHandle
      exact safe_answerWithHandle_reliable h.file fun _ => .known (hReaches h) hFind
    · intro d n p stDir st h hHandle
      refine safe_answerNew (fun _ _ => trivial) hFail fun st' ts hStat' _ => ?_
      cases h.file.symm.trans hStat'
      exact .new (hReaches h) (Option.map_eq_none_iff.mp hHandle)
  have hServe : Safe reliable (fun answer w' => ∃ reply, answer = .dirOpRes reply ∧
      LookedUp w args reply w'.inodeCache) (serve cred (.lookup args)) w :=
    safe_return (hSafe.mono fun reply _ hReply => ⟨reply, rfl, hReply⟩)
  exact (hServe.trace h).2

theorem lookedUp_of_handle {handle : NfsFileHandle} (h : w.Reliable cred (.lookup args))
    (hHandle : (w.answer cred (.lookup args)).handle = some handle) :
    ∃ body, LookedUp w args (.ok body) (w.afterRequest cred (.lookup args)).inodeCache ∧
      body.file = handle := by
  obtain ⟨reply, hReply, hLookedUp⟩ := lookedUp h
  rw [hReply] at hHandle
  cases reply with
  | ok body => exact ⟨body, hLookedUp, Option.some.inj hHandle⟩
  | systemErr | garbageArgs | err => cases hHandle

/-- The first mapping of an object stays the first one. -/
theorem LookedUp.find (h : LookedUp w args reply cache)
    (hFirst : w.inodeCache.find? (hasInode i) = some m) : cache.find? (hasInode i) = some m := by
  cases h with
  | refused => exact hFirst
  | known => exact hFirst
  | @new j ts q fattr _ hNew =>
    have hOther : j ≠ i := by
      rintro rfl
      cases hNew.symm.trans hFirst
    rw [addInodeMapping, List.find?_cons_of_neg (by simpa [hasInode] using hOther)]
    exact hFirst

/-- The handle that LOOKUP answers with is that of the first mapping. -/
theorem LookedUp.answered {body : DirOpOk} (h : LookedUp w args (.ok body) cache) :
    ∃ i m, w.reaches args = some i ∧ cache.find? (hasInode i) = some m ∧
      m.nfsFilehandle = body.file := by
  cases h with
  | refused hRefused => cases hRefused
  | known hReaches hKnown => exact ⟨_, _, hReaches, hKnown, rfl⟩
  | new hReaches =>
    refine ⟨_, _, hReaches, List.find?_cons_of_pos ?_, rfl⟩
    exact beq_self_eq_true _

/-- A known object brings no new mapping. -/
theorem LookedUp.again {body : DirOpOk} (h : LookedUp w args (.ok body) cache)
    (hReaches : w.reaches args = some i) (hFirst : w.inodeCache.find? (hasInode i) = some m) :
    body.file = m.nfsFilehandle ∧ cache = w.inodeCache := by
  cases h with
  | refused hRefused => cases hRefused
  | known hReaches' hKnown =>
    cases hReaches.symm.trans hReaches'
    cases hFirst.symm.trans hKnown
    exact ⟨rfl, rfl⟩
  | new hReaches' hNew =>
    cases hReaches.symm.trans hReaches'
    cases hNew.symm.trans hFirst

end Lookup

/-! ## Runs -/

/-- LOOKUP, GETATTR, READ, READLINK and READDIR. -/
def Request.inspects : Request → Bool
  | .lookup _ => true
  | .getattr _ => true
  | .read _ => true
  | .readlink _ => true
  | .readdir _ => true
  | _ => false

/-- What may happen between two LOOKUPs. -/
def Inspects (w : World) : Action → Prop
  | .request cred r => r.inspects = true ∧ w.Reliable cred r
  | .cleanUp => True

instance (w : World) : ∀ a, Decidable (Inspects w a)
  | .request cred r =>
    inferInstanceAs (Decidable (r.inspects = true ∧ w.Reliable cred r))
  | .cleanUp => inferInstanceAs (Decidable True)

section Runs

variable {w : World} {i : Ino} {m : InodeCacheMapping}

theorem find_lookup {cred : Credential} {args : DirOpArgs} (h : w.Reliable cred (.lookup args))
    (hFirst : w.inodeCache.find? (hasInode i) = some m) :
    (w.afterRequest cred (.lookup args)).inodeCache.find? (hasInode i) = some m := by
  obtain ⟨reply, -, hLookedUp⟩ := lookedUp h
  exact hLookedUp.find hFirst

theorem find_step {a : Action} (h : Inspects w a)
    (hFirst : w.inodeCache.find? (hasInode i) = some m) :
    (w.step a).inodeCache.find? (hasInode i) = some m := by
  cases a with
  | cleanUp =>
    rw [(effect_cleanUp w).2]
    exact hFirst
  | request cred r =>
    have hSame : r.readOnly = true → r.introduces = false →
        (w.step (.request cred r)).inodeCache = w.inodeCache :=
      (effect_serve w cred r).sameCache
    -- LOOKUP is the only one of the five that can add a mapping
    cases r with
    | lookup args => exact find_lookup h.2 hFirst
    | getattr | read | readlink | readdir =>
      rw [hSame rfl rfl]
      exact hFirst
    | _ => cases h.1

theorem find_steps {run : List Action} (h : World.Along Inspects w run)
    (hFirst : w.inodeCache.find? (hasInode i) = some m) :
    (w.steps run).inodeCache.find? (hasInode i) = some m :=
  World.invariant_steps
    (I := fun w => w.inodeCache.find? (hasInode i) = some m)
    (fun _ _ hFirst h => find_step h hFirst) hFirst h

end Runs

/-- **LOOKUP is stable.** It leaves the paths of known objects as they are, and a second
LOOKUP that reaches the same object, with any inspection of files in between, answers with
the same handle and leaves the cache as it is. -/
theorem lookup_stable (w : World) (cred : Credential) (args : DirOpArgs)
    (hReliable : w.Reliable cred (.lookup args)) :
    (∀ i p, w.view i = some p → (w.afterRequest cred (.lookup args)).view i = some p) ∧
    ∀ (first second : NfsFileHandle) (run : List Action) (cred' : Credential)
      (args' : DirOpArgs), (w.answer cred (.lookup args)).handle = some first →
      World.Along Inspects (w.afterRequest cred (.lookup args)) run →
      let w' := (w.afterRequest cred (.lookup args)).steps run
      w'.Reliable cred' (.lookup args') →
      (w'.answer cred' (.lookup args')).handle = some second →
      w'.reaches args' = w.reaches args →
      second = first ∧ (w'.afterRequest cred' (.lookup args')).inodeCache = w'.inodeCache := by
  constructor
  · intro i p hView
    obtain ⟨m, hFirst, rfl⟩ := Option.map_eq_some_iff.mp hView
    exact Option.map_eq_some_iff.mpr ⟨m, find_lookup hReliable hFirst, rfl⟩
  · intro first second run cred' args' hFirst hRun w' hReliable' hSecond hSame
    obtain ⟨body, hLookedUp, rfl⟩ := lookedUp_of_handle hReliable hFirst
    obtain ⟨body', hLookedUp', rfl⟩ := lookedUp_of_handle hReliable' hSecond
    obtain ⟨i, m, hReaches, hFind, hHandle⟩ := hLookedUp.answered
    -- the mapping of the first request is still the first of its inode
    rw [← hHandle]
    exact hLookedUp'.again (hSame.trans hReaches) (find_steps hRun hFind)

/-- The file `/exp/a/f` and its other name `/exp/g`, after GETATTR of the one and LOOKUP of
something else. -/
theorem lookup_stable_link :
    let w := Sample.world.steps [Sample.mount, Sample.request (.lookup (Sample.nameIn 2 "a")),
      Sample.request (.lookup (Sample.nameIn 3 "f")),
      Sample.request (.link ⟨some (Sample.handle 4), some (Sample.nameIn 2 "g")⟩)]
    let run := [Sample.request (.getattr (Sample.handle 4)),
      Sample.request (.lookup (Sample.nameIn 2 "l")), .cleanUp]
    let w' := (w.afterRequest (.authSys Sample.caller) (.lookup (Sample.nameIn 3 "f"))).steps run
    w.view 3 = some (bytes "/exp/a") ∧
      (w'.afterRequest (.authSys Sample.caller) (.lookup (Sample.nameIn 2 "g"))).inodeCache =
        w'.inodeCache := by
  intro w run w'
  refine ⟨by decide +kernel, ?_⟩
  have hStable := lookup_stable w (.authSys Sample.caller) (Sample.nameIn 3 "f") (by decide +kernel)
  exact (hStable.2 ⟨4, 0⟩ ⟨4, 0⟩ run (.authSys Sample.caller) (Sample.nameIn 2 "g")
    (by decide +kernel) (by decide +kernel) (by decide +kernel) (by decide +kernel)
    (by decide +kernel)).2

end QuicNfs.Server

import QuicNfs.Server.Effect
import QuicNfs.Server.Settings

/-!
# QuicNfs — CREATE and MKDIR, all or nothing

The two make the object first and then set its attributes, make a handle for it and read its
attributes. Nothing is undone where one of these later steps fails: the new object stays, in
a reply that says that there is none.

* `Request.making`, `Request.dress` — the call that makes the object, and what comes after it;
* `CreationMade` — the request has come as far as that, and the call has succeeded;
* `World.Answers` — a handle can be made for an object and its attributes can be read;
* `creation_atomic_iff` — the request is all or nothing if and only if everything that
  comes after the call succeeds.
-/

namespace QuicNfs.Server

open Kernel Lib

/-- The call by which CREATE or MKDIR makes its object. -/
def Request.making (q : Path) (a : Attributes) : Request → Sys (Except Errno Unit)
  | .mkdir _ => .mkdir q (if a.mode ≠ unchanged32 then a.mode else 0o700)
  | _ => .openCreat q (if a.mode ≠ unchanged32 then some a.mode else none)

/-- What the two do with the object. -/
def Request.dress (q : Path) (a : Attributes) : Request → Proc (NfsReply DirOpOk)
  | .mkdir _ =>
    setOwner q a <|
    if a.size ≠ unchanged64 then pure (.err .nfserrIsdir)
    else setTimes q a <| withNewHandle q (answerWithHandle q)
  | _ => setOwner q a <| setSize q a <| setTimes q a <| withNewHandle q (answerWithHandle q)

def Request.newFormat : Request → Format
  | .mkdir _ => .dir
  | _ => .reg

/-- Both procedures in one. -/
theorem serve_creation {r : Request} {args : CreateArgs} (h : r.creation = some args)
    (cred : Credential) :
    ∃ report, serve cred r = (do
      return .dirOpRes (← orGarbageArgs args.decode fun (i, n, a) =>
        withNewName (needs .write) cred i n fun q =>
          orReport report (sys (r.making q a)) fun () => r.dress q a)) := by
  cases r with
  | create args' =>
    cases h
    exact ⟨reportCreate, rfl⟩
  | mkdir args' =>
    cases h
    exact ⟨reportMkdir, rfl⟩
  | _ => cases h

/-! ## The new object -/

/-- A handle can be made for the object at a path, and its attributes can be read. -/
structure World.Answers (w : World) : Prop where
  clear : w.Clear
  supplied : (w.wait 2).Supplied 3
  described : (w.wait 5).Describes

/-- The object `f` is at `q`, whether or not symbolic links are followed. -/
structure StandsAt (fs : FileSystem) (q : Path) (f : Ino) (format : Format) : Prop where
  lookup (follow : Bool) : fs.lookup follow q = .ok f
  inode : ∃ x, fs.inode f = some x ∧ x.content.format = format

section Dressing

variable {w : World} {q : Path} {f : Ino} {a : Attributes} {r : Request}

theorem isOk_answerNew (hLookup : w.fs.lookup false q = .ok f) :
    ((withNewHandle q (answerWithHandle q)).run w).1.isOk = true ↔ w.Answers := by
  obtain ⟨st, hStat, -⟩ := FileSystem.lstat_of_lookup w.host hLookup
  unfold withNewHandle
  rw [Prog.run_bind]
  by_cases hHandle : w.Clear ∧ (w.wait 2).Supplied 3
  · obtain ⟨t, ht⟩ := run_createNfsFilehandle hStat hHandle.1 hHandle.2
    let v := (w.remember st.ino t q).wait 5
    -- the new mapping does not count for the calls that follow
    have hSame : v.Describes ↔ (w.wait 5).Describes :=
      ⟨fun h => ⟨h.clear, h.supplied⟩, fun h => ⟨h.clear, h.supplied⟩⟩
    rw [ht]
    show ((answerWithHandle q ⟨st.ino, t⟩).run v).1.isOk = true ↔ _
    by_cases hDescribes : v.Describes
    · rw [run_answerWithHandle (w := v) hStat hDescribes]
      exact iff_of_true rfl ⟨hHandle.1, hHandle.2, hSame.mp hDescribes⟩
    · obtain ⟨t', ht'⟩ := run_answerWithHandle_of_not (w := v) hDescribes
      rw [ht']
      exact iff_of_false Bool.false_ne_true fun h => hDescribes (hSame.mpr h.described)
  · obtain ⟨t, ht⟩ := run_createNfsFilehandle_of_not (p := q) hHandle
    rw [ht]
    exact iff_of_false Bool.false_ne_true fun h => hHandle ⟨h.clear, h.supplied⟩

/-- Making the handle touches no file. -/
theorem fs_answerNew : ((withNewHandle q (answerWithHandle q)).run w).2.fs = w.fs :=
  Safe.run (p := withNewHandle q (answerWithHandle q)) (Q := fun _ w' => w'.fs = w.fs)
    (safe_answerNew (fun _ _ => trivial) (fun _ _ _ => rfl) fun _ _ _ _ => rfl)

theorem answers_withFs {fs : FileSystem} : (w.withFs fs).Answers ↔ w.Answers :=
  ⟨fun h => ⟨h.clear, h.supplied, h.described.clear, h.described.supplied⟩,
    fun h => ⟨h.clear, h.supplied, h.described.clear, h.described.supplied⟩⟩

/-- **The steps that come after the call.** They end well if all of them succeed; the object
is there in any case. -/
theorem initial_outcome {format : Format} (h : StandsAt w.fs q f format) :
    let after := (inOrder q a.initial (withNewHandle q (answerWithHandle q))).run w
    (after.1.isOk = true ↔ GoThrough format a.initial w ∧ (w.wait a.initial.length).Answers) ∧
      (after.2.fs.inode f).isSome := by
  intro after
  obtain ⟨x, hx, rfl⟩ := h.inode
  obtain ⟨fs', hTouched, hInode, hRun⟩ :=
    run_inOrder a.initial (withNewHandle q (answerWithHandle q)) (h.lookup true) hx
  have hSome : (fs'.inode f).isSome := by
    rw [hInode]
    rfl
  split at hRun
  · next hThrough =>
    -- the handle is made for the object as the calls have left it
    have hLookup : fs'.lookup false q = .ok f := by
      rw [hTouched.names.lookup]
      exact h.lookup false
    have hOk := isOk_answerNew (w := (w.wait a.initial.length).withFs fs') hLookup
    rw [answers_withFs] at hOk
    rw [show after = _ from hRun]
    refine ⟨hOk.trans (and_iff_right hThrough).symm, ?_⟩
    rw [fs_answerNew]
    exact hSome
  · next hNot =>
    obtain ⟨reply, t, hReply, hRun⟩ := hRun
    rw [show after = _ from hRun, hReply]
    exact ⟨iff_of_false Bool.false_ne_true fun hBoth => hNot hBoth.1, hSome⟩

/-- A directory has no size that can be set. -/
theorem not_goThrough_of_size (hSize : a.size ≠ unchanged64) (w : World) :
    ¬GoThrough .dir a.initial w := by
  intro h
  have hRest := h.2
  unfold Attributes.sizeSetting at hRest
  rw [if_pos hSize] at hRest
  cases hRest.1.1.1

theorem dress_outcome (h : StandsAt w.fs q f r.newFormat) :
    (((r.dress q a).run w).1.isOk = true ↔
      GoThrough r.newFormat a.initial w ∧ (w.wait a.initial.length).Answers) ∧
      (((r.dress q a).run w).2.fs.inode f).isSome := by
  by_cases hMkdir : (∃ args, r = .mkdir args) ∧ a.size ≠ unchanged64
  · obtain ⟨⟨args, rfl⟩, hSize⟩ := hMkdir
    obtain ⟨x, hx, -⟩ := h.inode
    have hDress : (Request.mkdir args).dress q a =
        inOrder q [.owner a.uid a.gid] (pure (.err .nfserrIsdir)) := by
      dsimp only [Request.dress]
      rw [if_pos hSize]
      rfl
    obtain ⟨fs', -, hInode, hRun⟩ :=
      run_inOrder [.owner a.uid a.gid] (pure (.err .nfserrIsdir)) (h.lookup true) hx
    rw [← hDress] at hRun
    -- the owner may be set or not, the reply is not a success
    obtain ⟨reply, t, hReply, hRun⟩ : ∃ reply t, reply.isOk = false ∧
        ((Request.mkdir args).dress q a).run w = (reply, (w.withFs fs').atTick t) := by
      split at hRun
      · exact ⟨_, _, rfl, hRun⟩
      · exact hRun
    rw [hRun, hReply]
    refine ⟨iff_of_false Bool.false_ne_true fun hBoth => not_goThrough_of_size hSize w hBoth.1, ?_⟩
    show (fs'.inode f).isSome
    rw [hInode]
    rfl
  · have hDress : r.dress q a = inOrder q a.initial (withNewHandle q (answerWithHandle q)) := by
      rw [← initial_eq]
      cases r with
      | mkdir args =>
        have hSize : a.size = unchanged64 := by
          by_contra hSize
          exact hMkdir ⟨⟨args, rfl⟩, hSize⟩
        unfold Request.dress setSize
        rw [hSize]
        rfl
      | _ => rfl
    rw [hDress]
    exact initial_outcome h

end Dressing

/-! ## The call that makes the object -/

theorem change_eq_ok {m : Machine} {result : Except Errno FileSystem} :
    (m.change result).1 = .ok () ↔ m.here.fault = none ∧ ∃ fs', result = .ok fs' := by
  unfold Machine.change
  cases hFault : m.here.fault with
  | some f => exact iff_of_false (by simp) fun h => by cases h.1
  | none =>
    cases result with
    | error e => exact iff_of_false (by simp) fun ⟨_, _, h⟩ => by cases h
    | ok fs' => exact iff_of_true rfl ⟨rfl, fs', rfl⟩

theorem standsAt_new {fs fs' : FileSystem} {d : Ino} {n : Name} {f : Ino} {x : Inode} {q : Path}
    (hCreated : fs.Created fs' d n f x) (hFree : fs.namei false q = .ok (.missing d n))
    (hLink : ∀ target, x.content.kind ≠ .link target)
    (hSlash : endsInSlash q = true → fs'.isDir f) : StandsAt fs' q f x.content.format := by
  refine ⟨hCreated.extends.lookup_new (fun target hKind => ?_) hSlash hFree,
    x, hCreated.inode_new, rfl⟩
  rw [hCreated.kind_new] at hKind
  exact hLink target (Option.some.inj hKind)

/-- Where nothing was at the path, the call makes a new object there. -/
theorem making_result (r : Request) (q : Path) (a : Attributes) (m : Machine)
    (hFree : m.fs.lstat m.host q = .error .enoent) :
    ∃ result, m.exec (r.making q a) = m.change result ∧ ∀ fs', result = .ok fs' →
      ∃ f, m.fs.inode f = none ∧ StandsAt fs' q f r.newFormat := by
  cases r with
  | mkdir args =>
    refine ⟨_, rfl, fun fs' hResult => ?_⟩
    obtain ⟨d, n, x, hx, hMissing, hCreated⟩ := FileSystem.mkdir_ok hResult
    have hStands := standsAt_new hCreated hMissing (by simp [hx, Content.kind]) fun _ => by
      simp [Tree.isDir, hCreated.inode_new, hx, Content.isDir]
    rw [hx] at hStands
    exact ⟨_, hCreated.fresh, hStands⟩
  | _ =>
    refine ⟨_, rfl, fun fs' hResult => ?_⟩
    obtain ⟨hSlash, d, n, x, hx, hMissing, hCreated⟩ := FileSystem.openCreat_ok_of_free hFree hResult
    have hStands := standsAt_new hCreated hMissing (by simp [hx, Content.kind]) (by simp [hSlash])
    rw [hx] at hStands
    exact ⟨_, hCreated.fresh, hStands⟩

/-! ## All or nothing -/

/-- A request that is not answered with success leaves everything as it was. -/
def World.Atomic (w : World) (cred : Credential) (r : Request) : Prop :=
  (w.answer cred r).isOk = false →
    (w.afterRequest cred r).fs = w.fs ∧ (w.afterRequest cred r).inodeCache = w.inodeCache

/-- CREATE or MKDIR with the attributes `a` passes its tests, and the call that makes the
object succeeds. -/
def CreationMade (w : World) (cred : Credential) (r : Request) (a : Attributes) : Prop :=
  ∃ args i n p, r.creation = some args ∧ args.decode = some (i, n, a) ∧
    FreeName w cred i n p ∧
    ((w.wait (nameCalls cred)).machine.exec (r.making (getFileAbsolutePath p n) a)).1 = .ok ()

/-- The calls that set the attributes succeed, and so do those for the handle and the reply. -/
structure CreationFinishes (w : World) (cred : Credential) (r : Request) (a : Attributes) :
    Prop where
  set : GoThrough r.newFormat a.initial (w.wait (nameCalls cred + 1))
  answered : (w.wait (nameCalls cred + 1 + a.initial.length)).Answers

section Creation

variable {w : World} {cred : Credential} {r : Request} {args : CreateArgs} {i : Ino} {n : Bytes}
  {a : Attributes} {p : Path}

/-- The object is made, and then the rest follows. -/
theorem dressed_outcome (report : Errno → Option Stat) {v : World}
    {fs' : FileSystem} {f : Ino} {q : Path}
    (hExec : v.machine.exec (r.making q a) = v.machine.change (.ok fs')) (hClear : v.Clear)
    (hFresh : v.fs.inode f = none) (hStands : StandsAt fs' q f r.newFormat) :
    let after := (orReport report (sys (r.making q a)) fun () => r.dress q a).run v
    (after.1.isOk = true ↔ GoThrough r.newFormat a.initial (v.wait 1) ∧
      (v.wait (1 + a.initial.length)).Answers) ∧ after.2.fs ≠ v.fs := by
  intro after
  have hAfter : after = (r.dress q a).run ((v.wait 1).withFs fs') := run_changed hExec hClear rfl
  obtain ⟨hOk, hSome⟩ := dress_outcome (a := a) (w := (v.wait 1).withFs fs') hStands
  rw [hAfter]
  constructor
  · rw [hOk, goThrough_withFs, ← World.wait_wait]
    exact and_congr_right' (answers_withFs (w := (v.wait 1).wait a.initial.length))
  · intro hSame
    rw [hSame, hFresh] at hSome
    cases hSome

/-- The request from the call that makes the object on. -/
theorem run_creation (hr : r.creation = some args) (hArgs : args.decode = some (i, n, a))
    (hFree : FreeName w cred i n p) :
    ∃ report, let calls := orReport report (sys (r.making (getFileAbsolutePath p n) a)) fun () =>
        r.dress (getFileAbsolutePath p n) a
      (serve cred r).run w = (.dirOpRes (calls.run (w.wait (nameCalls cred))).1,
        (calls.run (w.wait (nameCalls cred))).2) := by
  obtain ⟨report, hServe⟩ := serve_creation hr cred
  refine ⟨report, ?_⟩
  rw [hServe, run_return, hArgs]
  dsimp only [orGarbageArgs]
  rw [(goesOn_withNewName hFree).run]

/-- Once the object is there, only a success is right. -/
theorem atomic_iff_of_made (hMade : CreationMade w cred r a) :
    w.Atomic cred r ↔ CreationFinishes w cred r a := by
  obtain ⟨args, i, n, p, hr, hArgs, hFree, hCall⟩ := hMade
  obtain ⟨result, hExec, hNew⟩ := making_result r (getFileAbsolutePath p n) a
    (w.wait (nameCalls cred)).machine hFree.free
  rw [hExec, change_eq_ok] at hCall
  obtain ⟨hClear, fs', rfl⟩ := hCall
  obtain ⟨f, hFresh, hStands⟩ := hNew fs' rfl
  obtain ⟨report, hRun⟩ := run_creation hr hArgs hFree
  obtain ⟨hOk, hChanged⟩ := dressed_outcome (a := a) report hExec hClear hFresh hStands
  rw [World.wait_wait, World.wait_wait, ← Nat.add_assoc] at hOk
  unfold World.Atomic World.answer World.afterRequest
  rw [hRun]
  dsimp only [Answer.isOk]
  constructor
  · intro hAtomic
    by_contra hNot
    -- the reply would be a failure, with the new object in the file system
    refine hChanged (hAtomic (Bool.eq_false_iff.mpr fun h => ?_)).1
    exact hNot ⟨(hOk.mp h).1, (hOk.mp h).2⟩
  · intro hFinishes hFailed
    rw [hOk.mpr ⟨hFinishes.set, hFinishes.answered⟩] at hFailed
    cases hFailed

/-- A request that does not come as far as that has changed nothing. -/
theorem atomic_of_not_made (hr : r.creation = some args)
    (h : ¬∃ a, CreationMade w cred r a) : w.Atomic cred r := by
  intro _
  cases hArgs : args.decode with
  | none =>
    -- arguments that lack a part
    obtain ⟨report, hServe⟩ := serve_creation hr cred
    unfold World.afterRequest
    rw [hServe, run_return, hArgs]
    exact ⟨rfl, rfl⟩
  | some x =>
    obtain ⟨i, n, a⟩ := x
    by_cases hFree : ∃ p, FreeName w cred i n p
    · obtain ⟨p, hFree⟩ := hFree
      obtain ⟨result, hExec, -⟩ := making_result r (getFileAbsolutePath p n) a
        (w.wait (nameCalls cred)).machine hFree.free
      -- the call has failed, or the object would have been made
      have hCall : ¬((w.wait (nameCalls cred)).Clear ∧ ∃ fs', result = .ok fs') := by
        intro hCall
        refine h ⟨a, args, i, n, p, hr, hArgs, hFree, ?_⟩
        rw [hExec]
        exact change_eq_ok.mpr hCall
      obtain ⟨report, hRun⟩ := run_creation hr hArgs hFree
      obtain ⟨reply, -, hFailed⟩ : ∃ reply, reply.isOk = false ∧
          (orReport report (sys (r.making (getFileAbsolutePath p n) a)) fun () =>
            r.dress (getFileAbsolutePath p n) a).run (w.wait (nameCalls cred)) =
          (reply, (w.wait (nameCalls cred)).wait 1) := run_not_changed hExec hCall
      unfold World.afterRequest
      rw [hRun, hFailed]
      exact ⟨rfl, rfl⟩
    · -- the request goes no further than its tests
      obtain ⟨report, hServe⟩ := serve_creation hr cred
      obtain ⟨t, ht⟩ := (stops_withNewName (k := fun q =>
        orReport report (sys (r.making q a)) fun () => r.dress q a) hFree).still
      unfold World.afterRequest
      rw [hServe, run_return, hArgs]
      dsimp only [orGarbageArgs]
      rw [ht]
      exact ⟨rfl, rfl⟩

theorem CreationMade.unique {a' : Attributes} (h : CreationMade w cred r a)
    (h' : CreationMade w cred r a') : a' = a := by
  obtain ⟨args, i, n, p, hr, hArgs, -⟩ := h
  obtain ⟨args', i', n', p', hr', hArgs', -⟩ := h'
  cases hr.symm.trans hr'
  cases hArgs.symm.trans hArgs'
  rfl

theorem atomic_iff_of_creation (hr : r.creation = some args) :
    w.Atomic cred r ↔ ∀ a, CreationMade w cred r a → CreationFinishes w cred r a := by
  by_cases hMade : ∃ a, CreationMade w cred r a
  · obtain ⟨a, hMade⟩ := hMade
    rw [atomic_iff_of_made hMade]
    constructor
    · intro hFinishes a' hMade'
      rwa [hMade.unique hMade']
    · intro hAll
      exact hAll a hMade
  · exact iff_of_true (atomic_of_not_made hr hMade) fun a h => absurd ⟨a, h⟩ hMade

end Creation

/-- **CREATE and MKDIR are all or nothing** if and only if everything that comes after the
creating call succeeds: what comes before it only looks, and nothing undoes it. -/
theorem creation_atomic_iff (w : World) (cred : Credential) (args : CreateArgs) :
    (w.Atomic cred (.create args) ↔ ∀ a, CreationMade w cred (.create args) a →
      CreationFinishes w cred (.create args) a) ∧
    (w.Atomic cred (.mkdir args) ↔ ∀ a, CreationMade w cred (.mkdir args) a →
      CreationFinishes w cred (.mkdir args) a) :=
  ⟨atomic_iff_of_creation rfl, atomic_iff_of_creation rfl⟩

/-- A name in `/exp`, with a size and with times. -/
def Sample.newDressed (size useconds : Nat) : CreateArgs where
  location := some (nameIn 2 "d")
  attributes := some ⟨0o755, unchanged32, unchanged32, size, some ⟨useconds, useconds⟩,
    some ⟨useconds, useconds⟩⟩

/-- **A request that failed leaves an object behind.** MKDIR with a size is told that a
directory cannot have one, and CREATE with a million microseconds that something went wrong;
there is a directory and a file `/exp/d` afterwards. No call fails for a reason of its own. -/
theorem creation_not_atomic :
    let w := Sample.world.step Sample.mount
    let mkdir := Request.mkdir (Sample.newDressed 0 unchanged64)
    let create := Request.create (Sample.newDressed unchanged64 1000000)
    w.fs.lookup false (bytes "/exp/d") = .error .enoent ∧
      w.answer (.authSys Sample.caller) mkdir = .dirOpRes (.err .nfserrIsdir) ∧
      (w.afterRequest (.authSys Sample.caller) mkdir).fs.lookup false (bytes "/exp/d") = .ok 26 ∧
      w.answer (.authSys Sample.caller) create = .dirOpRes .systemErr ∧
      (w.afterRequest (.authSys Sample.caller) create).fs.lookup false (bytes "/exp/d") = .ok 26 := by
  decide +kernel

end QuicNfs.Server

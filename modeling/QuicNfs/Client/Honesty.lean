import QuicNfs.Client.Handlers
import QuicNfs.Lib.Conversation
import QuicNfs.Server.Statuses

/-!
# QuicNfs — what the FUSE handlers return

A handler returns a number of bytes, or an error number with its sign changed. Whether it
can be believed depends on the replies to its calls, which are arbitrary here: a call may fail,
its results may be invalid, and they may have any status.

* `Replies` — an environment that answers with a given sequence of replies;
* `Exchange.status` — the status with which a call was answered, if it was answered at all;
* `Believable` — the number of bytes if all calls were answered NFS_OK, or an error number;
* `Exchange.ReadsFreed`, `EndSeen` — the replies after which that is undefined, or never comes;
* `meets_writeChunks`, `meets_readChunks` — how the loops end, and after which replies;
* `fuse_believable_iff` — after which replies `nfs_write`, `nfs_read` and `nfs_mknod` return what
  they should;
* `name_handlers_report` — the calls of the handlers that change names, and what they return.
-/

namespace QuicNfs.Client

open Kernel Server Lib Prog List

/-! ## Replies -/

/-- The replies to the calls of a client, in their order. A call without an answer has failed, or
its results are invalid. Results with NFS_OK and no body are invalid. -/
structure Replies where
  answers : Nat → Option Answer
  honest (k : Nat) (answer : Answer) : answers k = some answer → answer.Honest

def Replies.rest (s : Replies) : Replies :=
  ⟨fun k => s.answers (k + 1), fun k => s.honest (k + 1)⟩

instance : Handler Rpc Replies where
  exec
    | .call _, s => (s.answers 0, s.rest)

/-- An answer that a client can get. -/
def Acceptable : {β : Type} → Rpc β → β → Prop
  | _, .call _, answer => ∀ a, answer = some a → a.Honest

theorem acceptable_exec {β : Type} (o : Rpc β) (s : Replies) :
    Acceptable o (Handler.exec o s).1 := by
  cases o
  exact s.honest 0

/-- The status of results, if there are results. -/
def replyStatus {β : Type} : NfsReply β → Option Server.Stat
  | .ok _ => some .nfsOk
  | .err stat => some stat
  -- the call itself was rejected: there are no results to have a status
  | .garbageArgs | .systemErr => none

/-- The status with which a call of a handler is answered: there is none if the results are not
those of its procedure. -/
def statusOf : Request → Answer → Option Server.Stat
  | .lookup _, .dirOpRes reply => replyStatus reply
  | .read _, .readRes reply => replyStatus reply
  | .write _, .attrStat reply => replyStatus reply
  | .create _, .dirOpRes reply => replyStatus reply
  | _, _ => none

namespace Exchange

def request : Exchange Rpc → Request
  | ⟨.call r, _⟩ => r

def status : Exchange Rpc → Option Server.Stat
  | ⟨.call r, answer⟩ => answer.bind (statusOf r)

/-- The bytes that a READ has brought. -/
def data : Exchange Rpc → Bytes
  | ⟨.call (.read _), some (.readRes (.ok body))⟩ => body.nfsdata
  | _ => []

/-- The size of the file that the reply to a READ reports. -/
def fileSize : Exchange Rpc → Option Nat
  | ⟨.call (.read _), some (.readRes (.ok body))⟩ => some body.attributes.size
  | _ => none

/-- The number of bytes that a WRITE has written, as far as the client knows. -/
def acknowledged : Exchange Rpc → Nat
  | ⟨.call (.write args), some (.attrStat (.ok _))⟩ => (args.nfsdata.getD []).length
  | _ => 0

def IsLookup (e : Exchange Rpc) : Prop := ∃ args, request e = .lookup args
def IsRead (e : Exchange Rpc) : Prop := ∃ args, request e = .read args
def IsWrite (e : Exchange Rpc) : Prop := ∃ args, request e = .write args
def IsCreate (e : Exchange Rpc) : Prop := ∃ args, request e = .create args

/-- The reply has a status that a handler looks up in the message after freeing it: neither
NFS_OK nor NFSERR_ACCES. -/
def ReadsFreed (e : Exchange Rpc) : Prop :=
  ∃ stat, status e = some stat ∧ stat ≠ .nfsOk ∧ stat ≠ .nfserrAcces

end Exchange

/-- Every call was answered NFS_OK. -/
def AllOk (log : List (Exchange Rpc)) : Prop := ∀ e ∈ log, Exchange.status e = some .nfsOk

def received (log : List (Exchange Rpc)) : Bytes := log.flatMap Exchange.data

def acknowledged (log : List (Exchange Rpc)) : Nat := (log.map Exchange.acknowledged).sum

/-- With the bytes `before`, some READ fills a buffer of this size, or reports a size of the file
that is not beyond what has come until then. -/
def EndSeen (size offset : Nat) : Bytes → List (Exchange Rpc) → Prop
  | _, [] => False
  | before, e :: log =>
    (∃ fileSize, Exchange.fileSize e = some fileSize ∧ (size ≤ (before ++ Exchange.data e).length ∨
      fileSize ≤ offset + (before ++ Exchange.data e).length)) ∨
    EndSeen size offset (before ++ Exchange.data e) log

/-! ## Results -/

/-- The error numbers that the client knows. -/
def errorNumbers : List Int :=
  [EPERM, ENOENT, EIO, ENXIO, EACCES, EEXIST, ENODEV, ENOTDIR, EISDIR, EINVAL, EFBIG, ENOSPC, EROFS,
    ENAMETOOLONG, ENOTEMPTY, ESTALE, EDQUOT]

def NegativeErrno (v : Int) : Prop := -v ∈ errorNumbers

instance (v : Int) : Decidable (NegativeErrno v) := inferInstanceAs (Decidable (-v ∈ errorNumbers))

/-- The handler returns the number of bytes, and all its calls were answered NFS_OK; or it
returns a negative error number. -/
def Believable (outcome : Outcome) (count : Nat) (log : List (Exchange Rpc)) : Prop :=
  ∃ v, outcome = .returns v ∧ (v = count ∧ AllOk log ∨ NegativeErrno v)

/-- The handler returns 0, and CREATE was answered NFS_OK; or it returns a negative error
number. -/
def BelievableMknod (outcome : Outcome) (log : List (Exchange Rpc)) : Prop :=
  ∃ v, outcome = .returns v ∧
    (v = 0 ∧ (∃ e ∈ log, Exchange.IsCreate e ∧ Exchange.status e = some .nfsOk) ∨ NegativeErrno v)

/-! ## Stubs -/

variable {log log' : List (Exchange Rpc)}

section Stubs

variable {α β : Type} {Q : α → List (Exchange Rpc) → Prop}

/-- The rest of a handler, after the call `r`, does what it should: if the call fails or its
results are invalid, if they report a failure, and if they are there. -/
structure Handles (r : Request) (wrap : NfsReply β → Answer) (k : StubResult β → Remote α)
    (Q : α → List (Exchange Rpc) → Prop) : Prop where
  failed (answer : Option Answer) : answer.bind (statusOf r) = none →
    (k .failed).Meets Acceptable fun a log => Q a (⟨.call r, answer⟩ :: log)
  err (answer : Option Answer) (stat : Server.Stat) : stat ≠ .nfsOk →
    answer.bind (statusOf r) = some stat →
    (k (.err stat)).Meets Acceptable fun a log => Q a (⟨.call r, answer⟩ :: log)
  ok (body : β) : (k (.ok body)).Meets Acceptable fun a log =>
    Q a (⟨.call r, some (wrap (.ok body))⟩ :: log)

/-- One stub for all: what differs is the type of the results. -/
theorem meets_stub {r : Request} {wrap : NfsReply β → Answer}
    {rest : Option Answer → Remote (StubResult β)} {k : StubResult β → Remote α}
    (hStatus : ∀ reply, statusOf r (wrap reply) = replyStatus reply)
    (hHonest : ∀ reply, (wrap reply).Honest → NfsReply.Honest reply)
    (hRest : ∀ reply, rest (some (wrap reply)) = pure (.of reply))
    (hOther : ∀ answer, (∀ reply, answer ≠ some (wrap reply)) →
      rest answer = pure .failed ∧ answer.bind (statusOf r) = none)
    (h : Handles r wrap k Q) : (Prog.call (.call r) >>= rest >>= k).Meets Acceptable Q := by
  rw [Prog.bind_assoc]
  refine meets_call fun answer hAnswer => ?_
  by_cases hReply : ∃ reply, answer = some (wrap reply)
  · obtain ⟨reply, rfl⟩ := hReply
    rw [hRest]
    cases reply with
    -- the server has not run the procedure
    | garbageArgs | systemErr => exact h.failed _ (hStatus _)
    | err stat =>
      -- a failure is not reported with NFS_OK
      refine h.err _ stat ?_ (hStatus _)
      rintro rfl
      exact hHonest _ (hAnswer _ rfl) rfl
    | ok body => exact h.ok body
  · obtain ⟨hEq, hNone⟩ := hOther answer fun reply hIs => hReply ⟨reply, hIs⟩
    rw [hEq]
    exact h.failed answer hNone

theorem meets_nfsProcedure4LookUpFileName {args : DirOpArgs} {k : StubResult DirOpOk → Remote α}
    (h : Handles (.lookup args) .dirOpRes k Q) :
    (nfsProcedure4LookUpFileName args >>= k).Meets Acceptable Q := by
  refine meets_stub (fun _ => rfl) (fun _ => id) (fun _ => rfl) ?_ h
  rintro (_ | _ | _ | reply | _) hNot
  all_goals first | exact ⟨rfl, rfl⟩ | exact absurd rfl (hNot reply)

theorem meets_nfsProcedure6ReadFromFile {args : ReadArgs} {k : StubResult ReadResBody → Remote α}
    (h : Handles (.read args) .readRes k Q) :
    (nfsProcedure6ReadFromFile args >>= k).Meets Acceptable Q := by
  refine meets_stub (fun _ => rfl) (fun _ => id) (fun _ => rfl) ?_ h
  rintro (_ | _ | _ | _ | _ | reply | _) hNot
  all_goals first | exact ⟨rfl, rfl⟩ | exact absurd rfl (hNot reply)

theorem meets_nfsProcedure8WriteToFile {args : WriteArgs} {k : StubResult FAttr → Remote α}
    (h : Handles (.write args) .attrStat k Q) :
    (nfsProcedure8WriteToFile args >>= k).Meets Acceptable Q := by
  refine meets_stub (fun _ => rfl) (fun _ => id) (fun _ => rfl) ?_ h
  rintro (_ | _ | reply | _) hNot
  all_goals first | exact ⟨rfl, rfl⟩ | exact absurd rfl (hNot reply)

theorem meets_nfsProcedure9CreateFile {args : CreateArgs} {k : StubResult DirOpOk → Remote α}
    (h : Handles (.create args) .dirOpRes k Q) :
    (nfsProcedure9CreateFile args >>= k).Meets Acceptable Q := by
  refine meets_stub (fun _ => rfl) (fun _ => id) (fun _ => rfl) ?_ h
  rintro (_ | _ | _ | reply | _) hNot
  all_goals first | exact ⟨rfl, rfl⟩ | exact absurd rfl (hNot reply)

end Stubs

/-! ## Resolution -/

/-- How the resolution of a path ends, after these LOOKUP calls. -/
structure Resolved (result : Except Int (NfsFileHandle × FType)) (log : List (Exchange Rpc)) :
    Prop where
  lookups : ∀ e ∈ log, Exchange.IsLookup e
  error (code : Int) : result = .error code → code ∈ errorNumbers
  ok (found : NfsFileHandle × FType) : result = .ok found → AllOk log

theorem Resolved.of_error {code : Int}
    (hLookups : ∀ e ∈ log, Exchange.IsLookup e) (hCode : code ∈ errorNumbers) :
    Resolved (.error code) log where
  lookups := hLookups
  error code' hIs := by
    obtain rfl := Except.error.inj hIs
    exact hCode
  ok _ hIs := by cases hIs

/-- One more LOOKUP before, answered NFS_OK. -/
theorem Resolved.cons {result : Except Int (NfsFileHandle × FType)}
    (h : Resolved result log) {e : Exchange Rpc} (hLookup : Exchange.IsLookup e)
    (hOk : Exchange.status e = some .nfsOk) : Resolved result (e :: log) where
  lookups := forall_mem_cons.mpr ⟨hLookup, h.lookups⟩
  error := h.error
  ok found hIs := forall_mem_cons.mpr ⟨hOk, h.ok found hIs⟩

theorem meets_lookUpComponents (fhandle : NfsFileHandle) (ftype : FType) (names : List Bytes) :
    (lookUpComponents fhandle ftype names).Meets Acceptable Resolved := by
  -- on the components that are left
  induction names generalizing fhandle ftype with
  | nil =>
    refine meets_pure ⟨?_, ?_, ?_⟩
    · exact forall_mem_nil _
    · rintro code ⟨⟩
    · exact fun _ _ => forall_mem_nil _
  | cons name rest ih =>
    unfold lookUpComponents
    by_cases hDir : ftype ≠ .nfDir
    · rw [if_pos hDir]
      exact Resolved.of_error (forall_mem_nil _) (by decide)
    · rw [if_neg hDir]
      -- the last LOOKUP is the one that fails
      refine meets_nfsProcedure4LookUpFileName ⟨?_, ?_, ?_⟩
      · intro answer _
        exact Resolved.of_error (forall_mem_singleton.mpr ⟨_, rfl⟩) (by decide)
      -- whatever the status, `resolve_absolute_path` has a number of its own for it
      · intro answer stat _ _
        cases stat <;> exact Resolved.of_error (forall_mem_singleton.mpr ⟨_, rfl⟩) (by decide)
      · intro diropok
        refine (ih _ _).mono ?_
        intro result log hResolved
        exact hResolved.cons ⟨_, rfl⟩ rfl

theorem meets_resolveAbsolutePath (root : NfsFileHandle) (path : Bytes) :
    (resolveAbsolutePath root path).Meets Acceptable Resolved := by
  unfold resolveAbsolutePath
  split
  · exact Resolved.of_error (forall_mem_nil _) (by decide)
  · exact meets_lookUpComponents root .nfDir (components path)

/-! ## Loops -/

/-- A loop of calls goes on while they are answered NFS_OK, and ends with the first that
is not. -/
def Follows {α : Type} (log : List (Exchange Rpc)) : LoopEnd α → Prop
  | .runsOn | .done _ => AllOk log
  | .failed => ∃ front e, log = front ++ [e] ∧ AllOk front ∧ Exchange.status e = none
  | .err stat => ∃ front e, log = front ++ [e] ∧ AllOk front ∧ stat ≠ .nfsOk ∧
      Exchange.status e = some stat

theorem Follows.cons {α : Type} {result : LoopEnd α}
    (h : Follows log result) {e : Exchange Rpc} (hOk : Exchange.status e = some .nfsOk) :
    Follows (e :: log) result := by
  cases result with
  | runsOn | done => exact forall_mem_cons.mpr ⟨hOk, h⟩
  | failed =>
    obtain ⟨front, last, rfl, hFront, hLast⟩ := h
    exact ⟨e :: front, last, rfl, forall_mem_cons.mpr ⟨hOk, hFront⟩, hLast⟩
  | err stat =>
    obtain ⟨front, last, rfl, hFront, hLast⟩ := h
    exact ⟨e :: front, last, rfl, forall_mem_cons.mpr ⟨hOk, hFront⟩, hLast⟩

theorem not_readsFreed_of_allOk (h : AllOk log) : ∀ e ∈ log, ¬Exchange.ReadsFreed e := by
  rintro e he ⟨stat, hStatus, hNotOk, -⟩
  exact hNotOk (Option.some.inj (hStatus.symm.trans (h e he)))

/-- A status that is read too late is the one that ends the loop. -/
theorem Follows.readsFreed_iff {α : Type} {result : LoopEnd α} (h : Follows log result) :
    (∀ e ∈ log, ¬Exchange.ReadsFreed e) ↔ ∀ stat, result = .err stat → stat = .nfserrAcces := by
  cases result with
  | runsOn | done => exact iff_of_true (not_readsFreed_of_allOk h) (by simp)
  | failed =>
    obtain ⟨front, last, rfl, hFront, hLast⟩ := h
    refine iff_of_true (forall_mem_append.mpr ⟨not_readsFreed_of_allOk hFront, ?_⟩) (by simp)
    rintro e he ⟨stat, hStatus, -⟩
    rw [mem_singleton.mp he, hLast] at hStatus
    cases hStatus
  | err stat =>
    obtain ⟨front, last, rfl, hFront, hStat, hLast⟩ := h
    rw [forall_mem_append, and_iff_right (not_readsFreed_of_allOk hFront), forall_mem_singleton]
    simp [Exchange.ReadsFreed, hLast, hStat]

/-- After a failure not every call was answered NFS_OK. -/
theorem Follows.not_allOk {α : Type} {result : LoopEnd α}
    (h : Follows log result) (hRuns : result ≠ .runsOn) (hDone : ∀ a, result ≠ .done a) :
    ¬AllOk log := by
  intro hAll
  cases result with
  | runsOn => exact hRuns rfl
  | done a => exact hDone a rfl
  | failed =>
    obtain ⟨front, last, rfl, -, hLast⟩ := h
    cases hLast.symm.trans (hAll last (by simp))
  | err stat =>
    obtain ⟨front, last, rfl, -, hStat, hLast⟩ := h
    exact hStat (Option.some.inj (hLast.symm.trans (hAll last (by simp))))

/-- How the loop of WRITE calls ends that has `n` bytes of the buffer behind it. -/
structure Wrote (buffer : Bytes) (fuel n : Nat) (result : LoopEnd Nat)
    (log : List (Exchange Rpc)) : Prop where
  follows : Follows log result
  writes : ∀ e ∈ log, Exchange.IsWrite e
  done (k : Nat) : result = .done k → k = buffer.length ∧ k = n + acknowledged log
  runsOn : result = .runsOn → fuel ≤ buffer.length - n

theorem meets_writeChunks (fhandle : NfsFileHandle) (buffer : Bytes) (offset fuel : Nat) {n : Nat}
    (hn : n ≤ buffer.length) :
    (writeChunks fhandle buffer offset fuel n).Meets Acceptable (Wrote buffer fuel n) := by
  -- each round writes at least one byte: `fuel` is compared with what is left of the buffer
  induction fuel generalizing n with
  | zero =>
    refine meets_pure ⟨?_, ?_, ?_, ?_⟩
    · exact forall_mem_nil _
    · exact forall_mem_nil _
    · rintro k ⟨⟩
    · exact fun _ => Nat.zero_le _
  | succ fuel ih =>
    unfold writeChunks
    by_cases hMore : n < buffer.length
    · rw [if_pos hMore]
      refine meets_nfsProcedure8WriteToFile ⟨?_, ?_, ?_⟩
      · intro answer hNone
        refine meets_pure ⟨?_, ?_, ?_, ?_⟩
        · exact ⟨[], _, rfl, forall_mem_nil _, hNone⟩
        · exact forall_mem_singleton.mpr ⟨_, rfl⟩
        · rintro k ⟨⟩
        · rintro ⟨⟩
      · intro answer stat hStat hStatus
        refine meets_pure ⟨?_, ?_, ?_, ?_⟩
        · exact ⟨[], _, rfl, forall_mem_nil _, hStat, hStatus⟩
        · exact forall_mem_singleton.mpr ⟨_, rfl⟩
        · rintro k ⟨⟩
        · rintro ⟨⟩
      · intro attributes
        -- at least one byte is written, and not more than there are
        set nfsdata := (buffer.drop n).take WRITE_BYTES_PER_RPC with hData
        have hLength : 0 < nfsdata.length ∧ n + nfsdata.length ≤ buffer.length := by
          rw [hData, length_take, length_drop]
          unfold WRITE_BYTES_PER_RPC
          omega
        refine (ih hLength.2).mono fun result log hWrote => ?_
        refine ⟨hWrote.follows.cons rfl, ?_, ?_, ?_⟩
        · exact forall_mem_cons.mpr ⟨⟨_, rfl⟩, hWrote.writes⟩
        · intro k hk
          obtain ⟨hEnd, hSum⟩ := hWrote.done k hk
          refine ⟨hEnd, ?_⟩
          show k = n + (nfsdata.length + acknowledged log)
          omega
        · intro hRuns
          have hFuel := hWrote.runsOn hRuns
          omega
    · rw [if_neg hMore]
      refine meets_pure ⟨?_, ?_, ?_, ?_⟩
      · exact forall_mem_nil _
      · exact forall_mem_nil _
      · intro k hk
        obtain rfl := LoopEnd.done.inj hk
        exact ⟨by omega, rfl⟩
      · rintro ⟨⟩

/-- How the loop of READ calls ends that has these bytes behind it. -/
structure Fetched (size offset fuel : Nat) (before : Bytes) (result : LoopEnd Bytes)
    (log : List (Exchange Rpc)) : Prop where
  follows : Follows log result
  reads : ∀ e ∈ log, Exchange.IsRead e
  done (buffer : Bytes) : result = .done buffer → buffer = (before ++ received log).take size
  ends (buffer : Bytes) : result = .done buffer → EndSeen size offset before log
  unending : result = .runsOn → ¬EndSeen size offset before log
  made : 0 < fuel → log ≠ []
  runsOn : result = .runsOn → (∀ e ∈ log, Exchange.data e ≠ []) → fuel ≤ size - before.length

/-- A READ that is not answered NFS_OK ends the loop at once. -/
theorem Fetched.of_failure {size offset fuel : Nat} {before : Bytes} {result : LoopEnd Bytes}
    {e : Exchange Rpc} (hFollows : Follows [e] result) (hRead : Exchange.IsRead e)
    (hDone : ∀ buffer, result ≠ .done buffer) (hRuns : result ≠ .runsOn) :
    Fetched size offset fuel before result [e] where
  follows := hFollows
  reads := forall_mem_singleton.mpr hRead
  done buffer hIs := absurd hIs (hDone buffer)
  ends buffer hIs := absurd hIs (hDone buffer)
  unending hIs := absurd hIs hRuns
  made _ := cons_ne_nil _ _
  runsOn hIs := absurd hIs hRuns

theorem meets_readChunks (fhandle : NfsFileHandle) (size offset fuel : Nat) (before : Bytes) :
    (readChunks fhandle size offset fuel (before.take size)).Meets Acceptable
      (Fetched size offset fuel before) := by
  -- the invariant: the buffer holds the first `size` bytes of all that has come so far
  induction fuel generalizing before with
  | zero =>
    refine meets_pure ⟨?_, ?_, ?_, ?_, ?_, ?_, ?_⟩
    · exact forall_mem_nil _
    · exact forall_mem_nil _
    · rintro buffer ⟨⟩
    · rintro buffer ⟨⟩
    · exact fun _ => id
    · exact fun hFuel => absurd hFuel (Nat.lt_irrefl 0)
    · exact fun _ _ => Nat.zero_le _
  | succ fuel ih =>
    unfold readChunks
    refine meets_nfsProcedure6ReadFromFile ⟨?_, ?_, ?_⟩
    · intro answer hNone
      refine meets_pure (Fetched.of_failure ?_ ⟨_, rfl⟩ (by simp) (by simp))
      exact ⟨[], _, rfl, forall_mem_nil _, hNone⟩
    · intro answer stat hStat hStatus
      refine meets_pure (Fetched.of_failure ?_ ⟨_, rfl⟩ (by simp) (by simp))
      exact ⟨[], _, rfl, forall_mem_nil _, hStat, hStatus⟩
    · intro body
      -- what is left of the buffer is filled with what has come
      have hFilled : before.take size ++ body.nfsdata.take (size - (before.take size).length) =
          (before ++ body.nfsdata).take size := by
        rw [take_append, length_take]
        congr 2
        omega
      -- the test of the loop is whether this reply shows its end
      have hTest : (((before ++ body.nfsdata).take size).length < size ∧
          offset + ((before ++ body.nfsdata).take size).length < body.attributes.size) ↔
          ¬(size ≤ (before ++ body.nfsdata).length ∨
            body.attributes.size ≤ offset + (before ++ body.nfsdata).length) := by
        rw [length_take]
        omega
      dsimp only
      rw [hFilled]
      by_cases hMore : ((before ++ body.nfsdata).take size).length < size ∧
          offset + ((before ++ body.nfsdata).take size).length < body.attributes.size
      · rw [if_pos hMore]
        refine (ih (before ++ body.nfsdata)).mono fun result log hFetched => ?_
        refine ⟨hFetched.follows.cons rfl, ?_, ?_, ?_, ?_, fun _ => cons_ne_nil _ _, ?_⟩
        · exact forall_mem_cons.mpr ⟨⟨_, rfl⟩, hFetched.reads⟩
        · intro buffer hDone
          rw [hFetched.done buffer hDone, append_assoc]
          rfl
        · exact fun buffer hDone => .inr (hFetched.ends buffer hDone)
        · rintro hRuns (⟨fileSize, ⟨⟩, hEnd⟩ | hLater)
          · exact hTest.mp hMore hEnd
          · exact hFetched.unending hRuns hLater
        -- a READ that brings nothing would not bring the loop nearer to its end
        · intro hRuns hData
          obtain ⟨hFirst, hRest⟩ := forall_mem_cons.mp hData
          have hSome : 0 < body.nfsdata.length := length_pos_iff.mpr hFirst
          have hFuel := hFetched.runsOn hRuns hRest
          have hShort := hMore.1
          rw [length_take, length_append] at hShort
          rw [length_append] at hFuel
          omega
      · rw [if_neg hMore]
        refine meets_pure ⟨?_, ?_, ?_, ?_, ?_, fun _ => cons_ne_nil _ _, ?_⟩
        · exact forall_mem_singleton.mpr rfl
        · exact forall_mem_singleton.mpr ⟨_, rfl⟩
        · intro buffer hDone
          obtain rfl := LoopEnd.done.inj hDone
          show _ = (before ++ (body.nfsdata ++ [])).take size
          rw [append_nil]
        · exact fun _ _ => .inl ⟨_, rfl, not_not.mp (mt hTest.mpr hMore)⟩
        · rintro ⟨⟩
        · rintro ⟨⟩

/-! ## Handlers -/

theorem acknowledged_append : acknowledged (log ++ log') = acknowledged log + acknowledged log' := by
  unfold acknowledged
  rw [map_append, sum_append]

theorem received_append : received (log ++ log') = received log ++ received log' :=
  flatMap_append

theorem allOk_append : AllOk (log ++ log') ↔ AllOk log ∧ AllOk log' := forall_mem_append

/-- LOOKUP calls write nothing. -/
theorem acknowledged_lookups (h : ∀ e ∈ log, Exchange.IsLookup e) : acknowledged log = 0 := by
  refine List.sum_eq_zero_iff_forall_eq_nat.mpr ?_
  intro n hn
  obtain ⟨⟨op, answer⟩, he, rfl⟩ := List.mem_map.mp hn
  obtain ⟨args, hArgs⟩ := h _ he
  cases op with
  | call r =>
    obtain rfl : r = .lookup args := hArgs
    rfl

theorem received_lookups (h : ∀ e ∈ log, Exchange.IsLookup e) : received log = [] := by
  refine flatMap_eq_nil_iff.mpr ?_
  rintro ⟨op, answer⟩ he
  obtain ⟨args, hArgs⟩ := h _ he
  cases op with
  | call r =>
    obtain rfl : r = .lookup args := hArgs
    rfl

/-- A call of another procedure is not one of a resolution. -/
theorem not_kind_of_lookups {α : Type} {make : α → Request} (hMake : ∀ a args, make a ≠ .lookup args)
    (h : ∀ e ∈ log, Exchange.IsLookup e) : ∀ e ∈ log, ¬∃ a, Exchange.request e = make a := by
  rintro e he ⟨a, hKind⟩
  obtain ⟨args, hLookup⟩ := h e he
  exact hMake a args (hKind.symm.trans hLookup)

/-- After the calls of a resolution, those of one other procedure. -/
theorem forall_kind_iff {kind P : Exchange Rpc → Prop} (hNot : ∀ e ∈ log, ¬kind e)
    (hAll : ∀ e ∈ log', kind e) : (∀ e ∈ log ++ log', kind e → P e) ↔ ∀ e ∈ log', P e := by
  rw [forall_mem_append, and_iff_right fun e he hKind => absurd hKind (hNot e he)]
  exact forall₂_congr fun e he => imp_iff_right (hAll e he)

theorem negativeErrno_neg {code : Int} (h : code ∈ errorNumbers) : NegativeErrno (-code) := by
  unfold NegativeErrno
  rwa [neg_neg]

/-- Of the failures that are reported, the handlers have a number of their own for one. -/
theorem returns_refused_iff {stat : Server.Stat} :
    (∃ v, refused stat = .returns v ∧ NegativeErrno v) ↔ stat = .nfserrAcces := by
  cases stat <;> simp [refused, show NegativeErrno (-EACCES) by decide]

/-- What `refused` returns is never a number of bytes. -/
theorem believable_refused_iff {stat : Server.Stat} {count : Nat}
    (hNotOk : ¬AllOk log) : Believable (refused stat) count log ↔ stat = .nfserrAcces := by
  rw [← returns_refused_iff]
  exact exists_congr fun v => and_congr_right fun _ => or_iff_right fun h => hNotOk h.2

/-- `nfs_write` is believable unless it has to read a status that was freed. -/
theorem meets_nfsWrite (root : NfsFileHandle) (fuel : Nat) (path buffer : Bytes) (offset : Nat)
    (hFuel : buffer.length < fuel) (hSize : buffer.length < 2 ^ 31) :
    (nfsWrite root fuel path buffer offset).Meets Acceptable fun outcome log =>
      Believable outcome (acknowledged log) log ↔
        ∀ e ∈ log, Exchange.IsWrite e → ¬Exchange.ReadsFreed e := by
  unfold nfsWrite
  refine meets_bind (meets_resolveAbsolutePath root path) fun resolution log hResolved => ?_
  have hNot : ∀ e ∈ log, ¬Exchange.IsWrite e :=
    not_kind_of_lookups (fun _ _ => nofun) hResolved.lookups
  cases resolution with
  | error code =>
    refine meets_pure (iff_of_true ⟨-code, rfl, .inr ?_⟩ ?_)
    · exact negativeErrno_neg (hResolved.error code rfl)
    · rw [append_nil]
      exact fun e he hWrite => absurd hWrite (hNot e he)
  | ok found =>
    have hResolvedOk := hResolved.ok found rfl
    refine meets_bind (meets_writeChunks found.1 buffer offset fuel (Nat.zero_le _)) ?_
    intro result log' hWrote
    -- no WRITE has such a status unless the loop ends with it
    have hReported : (∀ e ∈ log ++ (log' ++ []), Exchange.IsWrite e → ¬Exchange.ReadsFreed e) ↔
        ∀ stat, result = .err stat → stat = .nfserrAcces := by
      rw [append_nil, forall_kind_iff hNot hWrote.writes]
      exact hWrote.follows.readsFreed_iff
    cases result with
    -- each WRITE makes progress, so that the fuel is enough
    | runsOn =>
      have := hWrote.runsOn rfl
      omega
    | failed =>
      refine meets_pure ?_
      rw [hReported]
      exact iff_of_true ⟨- EIO, rfl, .inr (by decide)⟩ (by simp)
    | err stat =>
      refine meets_pure ?_
      rw [hReported]
      have hNotOk : ¬AllOk (log ++ (log' ++ [])) := by
        rw [append_nil, allOk_append]
        exact fun hAll => hWrote.follows.not_allOk (by simp) (by simp) hAll.2
      rw [believable_refused_iff hNotOk]
      simp
    | done k =>
      refine meets_pure ?_
      rw [hReported]
      obtain ⟨hEnd, hSum⟩ := hWrote.done k rfl
      refine iff_of_true ⟨_, rfl, .inl ⟨?_, ?_⟩⟩ (by simp)
      -- the result is an `int`, and the LOOKUP calls have acknowledged nothing
      · rw [toInt_of_lt (by omega), append_nil, acknowledged_append,
          acknowledged_lookups hResolved.lookups, hSum]
      · rw [append_nil, allOk_append]
        exact ⟨hResolvedOk, hWrote.follows⟩

/-- The calls of a resolution do not end the loop, and they bring nothing. -/
theorem endSeen_lookups {size offset : Nat} (h : ∀ e ∈ log, Exchange.IsLookup e) :
    EndSeen size offset [] (log ++ log') ↔ EndSeen size offset [] log' := by
  induction log with
  | nil => exact Iff.rfl
  | cons e log ih =>
    obtain ⟨⟨args, hArgs⟩, hRest⟩ := forall_mem_cons.mp h
    obtain ⟨op, answer⟩ := e
    cases op with
    | call r =>
      obtain rfl : r = .lookup args := hArgs
      rw [cons_append, ← ih hRest]
      exact or_iff_right (by rintro ⟨fileSize, ⟨⟩, -⟩)

/-- `nfs_read` is believable if every READ is answered NFS_OK and some READ shows the end. None
fails to, if no READ is answered with nothing. -/
theorem meets_nfsRead (root : NfsFileHandle) (fuel : Nat) (path : Bytes) (size offset : Nat)
    (hFuel : 0 < fuel) (hSize : size < 2 ^ 31) :
    (nfsRead root fuel path size offset).Meets Acceptable fun result log =>
      (Believable result.1 ((received log).take size).length log ↔
        (∀ e ∈ log, Exchange.IsRead e → Exchange.status e = some .nfsOk) ∧
          ((∃ e ∈ log, Exchange.IsRead e) → EndSeen size offset [] log)) ∧
      (size < fuel → (∀ e ∈ log, Exchange.IsRead e → Exchange.data e ≠ []) →
        result.1 ≠ .runsOn) := by
  unfold nfsRead
  refine meets_bind (meets_resolveAbsolutePath root path) fun resolution log hResolved => ?_
  have hNot : ∀ e ∈ log, ¬Exchange.IsRead e :=
    not_kind_of_lookups (fun _ _ => nofun) hResolved.lookups
  cases resolution with
  | error code =>
    refine meets_pure ⟨iff_of_true ⟨-code, rfl, .inr ?_⟩ ⟨?_, ?_⟩, by simp⟩
    · exact negativeErrno_neg (hResolved.error code rfl)
    · rw [append_nil]
      exact fun e he hRead => absurd hRead (hNot e he)
    · rw [append_nil]
      rintro ⟨e, he, hRead⟩
      exact absurd hRead (hNot e he)
  | ok found =>
    have hResolvedOk := hResolved.ok found rfl
    have hLoop := meets_readChunks found.1 size offset fuel []
    rw [take_nil] at hLoop
    refine meets_bind hLoop fun result log' hFetched => ?_
    have hReads : (∀ e ∈ log ++ (log' ++ []), Exchange.IsRead e →
        Exchange.status e = some .nfsOk) ↔ AllOk log' := by
      rw [append_nil, forall_kind_iff hNot hFetched.reads]
      exact Iff.rfl
    have hEnd : EndSeen size offset [] (log ++ (log' ++ [])) ↔ EndSeen size offset [] log' := by
      rw [append_nil, endSeen_lookups hResolved.lookups]
    cases result with
    | runsOn =>
      refine meets_pure ?_
      rw [hReads, hEnd]
      refine ⟨iff_of_false ?_ ?_, ?_⟩
      -- no result at all, and the end is not in the replies
      · rintro ⟨v, ⟨⟩, _⟩
      · rintro ⟨-, hSeen⟩
        obtain ⟨e, he⟩ := exists_mem_of_ne_nil _ (hFetched.made hFuel)
        exact hFetched.unending rfl (hSeen ⟨e, by simp [he], hFetched.reads e he⟩)
      -- with data in every reply this does not happen
      · intro hFuel hData
        rw [append_nil, forall_kind_iff hNot hFetched.reads] at hData
        have := hFetched.runsOn rfl hData
        omega
    -- after a READ that has failed, the stack is freed and nothing is returned
    | failed =>
      refine meets_pure ?_
      rw [hReads]
      refine ⟨iff_of_false (by rintro ⟨v, ⟨⟩, _⟩) fun h => ?_, by simp⟩
      exact hFetched.follows.not_allOk (by simp) (by simp) h.1
    | err stat =>
      refine meets_pure ?_
      rw [hReads]
      refine ⟨iff_of_false (by rintro ⟨v, ⟨⟩, _⟩) fun h => ?_, by simp⟩
      exact hFetched.follows.not_allOk (by simp) (by simp) h.1
    | done buffer =>
      have hBuffer : buffer = (received log').take size := hFetched.done buffer rfl
      refine meets_pure ?_
      rw [hReads, hEnd]
      refine ⟨iff_of_true ⟨_, rfl, .inl ⟨?_, ?_⟩⟩
        ⟨hFetched.follows, fun _ => hFetched.ends buffer rfl⟩, by simp⟩
      · have hLength : buffer.length ≤ size := by
          rw [hBuffer]
          exact length_take_le _ _
        rw [toInt_of_lt (by omega), append_nil, received_append,
          received_lookups hResolved.lookups, nil_append, hBuffer]
      · rw [append_nil, allOk_append]
        exact ⟨hResolvedOk, hFetched.follows⟩

/-- `nfs_mknod` is believable unless it has to read a status that was freed. -/
theorem meets_nfsMknod (root : NfsFileHandle) (authSys : AuthSysParams) (path : Bytes)
    (mode : Nat) :
    (nfsMknod root authSys path mode).Meets Acceptable fun outcome log =>
      BelievableMknod outcome log ↔ ∀ e ∈ log, Exchange.IsCreate e → ¬Exchange.ReadsFreed e := by
  unfold nfsMknod
  refine meets_bind (meets_resolveAbsolutePath root _) fun resolution log hResolved => ?_
  have hNot : ∀ e ∈ log, ¬Exchange.IsCreate e :=
    not_kind_of_lookups (fun _ _ => nofun) hResolved.lookups
  cases resolution with
  | error code =>
    refine meets_pure (iff_of_true ⟨-code, rfl, .inr ?_⟩ ?_)
    · exact negativeErrno_neg (hResolved.error code rfl)
    · rw [append_nil]
      exact fun e he hCreate => absurd hCreate (hNot e he)
  | ok found =>
    -- the one CREATE decides
    have hReported : ∀ {answer : Option Answer} {args : CreateArgs},
        (∀ e ∈ log ++ [⟨.call (.create args), answer⟩], Exchange.IsCreate e →
          ¬Exchange.ReadsFreed e) ↔ ∀ stat, answer.bind (statusOf (.create args)) = some stat →
            stat = .nfsOk ∨ stat = .nfserrAcces := by
      intro answer args
      rw [forall_kind_iff hNot (forall_mem_singleton.mpr ⟨_, rfl⟩), forall_mem_singleton]
      simp [Exchange.ReadsFreed, Exchange.status, or_iff_not_imp_left]
    refine meets_nfsProcedure9CreateFile ⟨?_, ?_, ?_⟩
    · intro answer hNone
      refine meets_pure ?_
      rw [hReported, hNone]
      exact iff_of_true ⟨- EIO, rfl, .inr (by decide)⟩ (by simp)
    -- a failure is not taken for the 0 of success
    · intro answer stat hStat hStatus
      refine meets_pure ?_
      have hOne : (∀ stat', some stat = some stat' → stat' = .nfsOk ∨ stat' = .nfserrAcces) ↔
          stat = .nfserrAcces := by simp [hStat]
      rw [hReported, hStatus, hOne, ← returns_refused_iff]
      refine exists_congr fun v => and_congr_right fun hv => or_iff_right ?_
      rintro ⟨rfl, -⟩
      cases stat <;> cases hv
    · intro diropok
      refine meets_pure ?_
      rw [hReported]
      refine iff_of_true ⟨0, rfl, .inl ⟨rfl, ?_⟩⟩ fun stat hIs => .inl (Option.some.inj hIs).symm
      exact ⟨_, mem_append_right _ (mem_singleton_self _), ⟨_, rfl⟩, rfl⟩

/-- **After which replies a result can be believed.** For every sequence of replies, every path,
size below 2^31 and offset: `nfs_write` returns the number of bytes acknowledged, all calls
answered NFS_OK, or a negative error number, if and only if no WRITE is answered with a status
other than NFS_OK and NFSERR_ACCES. With `nfs_read` and the bytes received, that is so if and
only if every READ is answered NFS_OK and one of them fills the buffer or reports a size of
the file that is not beyond what has come; the loop does come to an end if every READ
brings something. `nfs_mknod` returns 0 after a CREATE answered NFS_OK, or a negative error
number, if and only if CREATE is not answered with a status other than these two. -/
theorem fuse_believable_iff (replies : Replies) (root : NfsFileHandle) (fuel : Nat) (path : Bytes) :
    (∀ (buffer : Bytes) (offset : Nat), buffer.length < fuel → buffer.length < 2 ^ 31 →
      let write := nfsWrite root fuel path buffer offset
      let log := write.exchanges replies
      (Believable (write.run replies).1 (acknowledged log) log ↔
        ∀ e ∈ log, Exchange.IsWrite e → ¬Exchange.ReadsFreed e)) ∧
    (∀ size offset : Nat, 0 < fuel → size < 2 ^ 31 →
      let read := nfsRead root fuel path size offset
      let log := read.exchanges replies
      let outcome := (read.run replies).1.1
      (Believable outcome ((received log).take size).length log ↔
        (∀ e ∈ log, Exchange.IsRead e → Exchange.status e = some .nfsOk) ∧
          ((∃ e ∈ log, Exchange.IsRead e) → EndSeen size offset [] log)) ∧
      (size < fuel → (∀ e ∈ log, Exchange.IsRead e → Exchange.data e ≠ []) → outcome ≠ .runsOn)) ∧
    ∀ (authSys : AuthSysParams) (mode : Nat),
      let mknod := nfsMknod root authSys path mode
      let log := mknod.exchanges replies
      (BelievableMknod (mknod.run replies).1 log ↔
        ∀ e ∈ log, Exchange.IsCreate e → ¬Exchange.ReadsFreed e) := by
  refine ⟨?_, ?_, ?_⟩
  · intro buffer offset hFuel hSize
    exact (meets_nfsWrite root fuel path buffer offset hFuel hSize).run replies acceptable_exec
  · intro size offset hFuel hSize
    exact (meets_nfsRead root fuel path size offset hFuel hSize).run replies acceptable_exec
  · intro authSys mode
    exact (meets_nfsMknod root authSys path mode).run replies acceptable_exec

namespace Sample

/-- These replies, and no more. -/
def replies (answers : List Answer) (h : ∀ a ∈ answers, a.Honest) : Replies where
  answers k := answers[k]?
  honest _ a hAnswer := h a (List.mem_of_getElem? hAnswer)

def fileAttributes : FAttr :=
  ⟨.nfReg, 0o100644, 1, 0, 0, 4, 4096, 0, 1, 1, 4, ⟨0, 0⟩, ⟨0, 0⟩, ⟨0, 0⟩⟩

/-- The file `f` is found, and then this is answered. -/
def foundThen (answer : Answer) (h : answer.Honest) : Replies :=
  replies [.dirOpRes (.ok ⟨⟨4, 0⟩, fileAttributes⟩), answer]
    (List.forall_mem_cons.mpr ⟨nofun, List.forall_mem_singleton.mpr h⟩)

def writeFile : Remote Outcome := nfsWrite ⟨2, 0⟩ 9 (bytes "/f") (bytes "data") 0

def readFile : Remote (Outcome × Bytes) := nfsRead ⟨2, 0⟩ 9 (bytes "/f") 4 0

def makeNode : Remote Outcome := nfsMknod ⟨2, 0⟩ Server.Sample.caller (bytes "/d/f") 0o644

end Sample

/-- A WRITE that is answered NFS_OK, and one that is refused; a READ that fills the buffer. -/
theorem fuse_believable_sample :
    (let replies := Sample.foundThen (.attrStat (.ok Sample.fileAttributes)) nofun
      let log := Sample.writeFile.exchanges replies
      Believable (Sample.writeFile.run replies).1 (acknowledged log) log) ∧
    (let replies := Sample.foundThen (.attrStat (.err .nfserrAcces)) nofun
      let log := Sample.writeFile.exchanges replies
      Believable (Sample.writeFile.run replies).1 (acknowledged log) log) ∧
    let replies := Sample.foundThen (.readRes (.ok ⟨Sample.fileAttributes, bytes "data"⟩)) nofun
    let log := Sample.readFile.exchanges replies
    Believable (Sample.readFile.run replies).1.1 ((received log).take 4).length log := by
  have hSafe : ∀ {log : List (Exchange Rpc)},
      (∀ o ∈ log.map Exchange.status, o = some .nfsOk ∨ o = some .nfserrAcces) →
      ∀ e ∈ log, Exchange.IsWrite e → ¬Exchange.ReadsFreed e := by
    rintro log hAll e he - ⟨stat, hStatus, hNotOk, hNotAcces⟩
    have hOne := hAll _ (mem_map_of_mem he)
    rw [hStatus, Option.some.injEq, Option.some.injEq] at hOne
    exact hOne.elim hNotOk hNotAcces
  have hIff := fun replies => fuse_believable_iff replies ⟨2, 0⟩ 9 (bytes "/f")
  refine ⟨?_, ?_, ?_⟩
  · exact ((hIff _).1 (bytes "data") 0 (by decide) (by decide)).mpr (hSafe (by decide +kernel))
  · exact ((hIff _).1 (bytes "data") 0 (by decide) (by decide)).mpr (hSafe (by decide +kernel))
  · refine (((hIff _).2.1 4 0 (by decide) (by decide)).1).mpr ⟨?_, fun _ => ?_⟩
    · intro e he _
      have hAll : ∀ o ∈ (Sample.readFile.exchanges (Sample.foundThen (.readRes
          (.ok ⟨Sample.fileAttributes, bytes "data"⟩)) nofun)).map Exchange.status,
          o = some .nfsOk := by decide +kernel
      exact hAll _ (mem_map_of_mem he)
    -- the READ comes after the LOOKUP
    · exact .inr (.inl ⟨4, rfl, .inl (by decide +kernel)⟩)

/-- **Failures that are not reported as such.** A WRITE and a CREATE are answered NFSERR_NXIO: the
handlers read the status from a message that they have freed, and where it is still there they
return 6, more than `nfs_write` had to write. A READ that is refused makes `nfs_read` free an
object of the stack. -/
theorem fuse_not_believable :
    (let replies := Sample.foundThen (.attrStat (.err .nfserrNxio)) nofun;
      (Sample.writeFile.exchanges replies).map Exchange.status = [some .nfsOk, some .nfserrNxio] ∧
        (Sample.writeFile.run replies).1 = .mapsFreed .nfserrNxio) ∧
    (let replies := Sample.foundThen (.dirOpRes (.err .nfserrNxio)) nofun;
      (Sample.makeNode.exchanges replies).map Exchange.status = [some .nfsOk, some .nfserrNxio] ∧
        (Sample.makeNode.run replies).1 = .mapsFreed .nfserrNxio) ∧
    mapNfsError .nfserrNxio = 6 ∧
    let replies := Sample.foundThen (.readRes (.err .nfserrAcces)) nofun;
    (Sample.readFile.exchanges replies).map Exchange.status = [some .nfsOk, some .nfserrAcces] ∧
      (Sample.readFile.run replies).1.1 = .aborts := by
  decide +kernel

/-! ## Handlers that change names -/

/-- A resolution has failed, and no other call was made; or the call was made, once, after LOOKUP
calls that were all answered NFS_OK, and its reply says what is returned. -/
def Reports (isCall : Request → Prop) (outcome : Outcome) (log : List (Exchange Rpc)) : Prop :=
  ∃ lookups, (∀ e ∈ lookups, Exchange.IsLookup e) ∧
    ((log = lookups ∧ ∃ code, outcome = .returns code ∧ NegativeErrno code) ∨
      ∃ r answer, log = lookups ++ [⟨.call r, answer⟩] ∧ AllOk lookups ∧ isCall r ∧
        outcome = report answer)

def NameOf (path : Bytes) (name : DirOpArgs) : Prop := name.name = some ⟨some (basename path)⟩

section Names

variable {root : NfsFileHandle} {path : Bytes} {isCall : Request → Prop}

theorem meets_resolving {rest : FHandle → Remote Outcome}
    (h : ∀ dir, (rest dir).Meets Acceptable (Reports isCall)) :
    (resolving root path rest).Meets Acceptable (Reports isCall) := by
  refine meets_bind (meets_resolveAbsolutePath root path) fun resolution log hResolved => ?_
  cases resolution with
  | error code =>
    refine meets_pure ⟨log, hResolved.lookups, .inl ⟨List.append_nil log, -code, rfl, ?_⟩⟩
    exact negativeErrno_neg (hResolved.error code rfl)
  | ok found =>
    -- these LOOKUP calls come before those of the rest
    refine (h _).mono fun outcome log' ⟨lookups, hLookups, hEnd⟩ => ?_
    refine ⟨log ++ lookups, List.forall_mem_append.mpr ⟨hResolved.lookups, hLookups⟩, ?_⟩
    rcases hEnd with ⟨rfl, hCode⟩ | ⟨r, answer, rfl, hOk, hCall⟩
    · exact .inl ⟨rfl, hCode⟩
    · exact .inr ⟨r, answer, (List.append_assoc ..).symm,
        allOk_append.mpr ⟨hResolved.ok found rfl, hOk⟩, hCall⟩

theorem meets_naming {rest : DirOpArgs → Remote Outcome}
    (h : ∀ a, NameOf path a → (rest a).Meets Acceptable (Reports isCall)) :
    (naming root path rest).Meets Acceptable (Reports isCall) :=
  meets_resolving fun _ => h _ rfl

theorem meets_reporting {r : Request} (h : isCall r) :
    (reporting r).Meets Acceptable (Reports isCall) :=
  meets_call fun answer _ => ⟨[], List.forall_mem_nil _,
    .inr ⟨r, answer, rfl, List.forall_mem_nil _, h, rfl⟩⟩

end Names

/-- **One call, and what it says.** Whatever is replied, a handler makes only LOOKUP calls before
the one that it is for, and that one with the last name of its path. If a path is not resolved it
returns a negative error number. Otherwise the reply decides, as `report` says: NFS_OK gives 0,
NFSERR_ACCES its error number, no valid reply that of EIO; for any other status
`map_nfs_error` is called with what is then in a message that has been freed. -/
theorem name_handlers_report (root : NfsFileHandle) (path target : Bytes) :
    (nfsUnlink root path).Meets Acceptable (Reports fun r => ∃ a, NameOf path a ∧ r = .remove a) ∧
    (nfsRmdir root path).Meets Acceptable (Reports fun r => ∃ a, NameOf path a ∧ r = .rmdir a) ∧
    (nfsRename root path target).Meets Acceptable
      (Reports fun r => ∃ a b, NameOf path a ∧ NameOf target b ∧ r = .rename ⟨some a, some b⟩) ∧
    (nfsLink root path target).Meets Acceptable
      (Reports fun r => ∃ a file, NameOf path a ∧ r = .link ⟨some file, some a⟩) ∧
    (nfsSymlink root path target).Meets Acceptable
      (Reports fun r => ∃ a x, NameOf path a ∧ r = .symlink ⟨some a, some ⟨some target⟩, x⟩) := by
  refine ⟨?_, ?_, ?_, ?_, ?_⟩
  · exact meets_naming fun a hName => meets_reporting ⟨a, hName, rfl⟩
  · exact meets_naming fun a hName => meets_reporting ⟨a, hName, rfl⟩
  · exact meets_naming fun a hOld => meets_naming fun b hNew =>
      meets_reporting ⟨a, b, hOld, hNew, rfl⟩
  · exact meets_naming fun a hName => meets_resolving fun file =>
      meets_reporting ⟨a, file, hName, rfl⟩
  · exact meets_naming fun a hName => meets_reporting ⟨a, _, hName, rfl⟩

end QuicNfs.Client

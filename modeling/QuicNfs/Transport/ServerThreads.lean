import Mathlib.Logic.Function.Basic
import Mathlib.Data.List.Count
import QuicNfs.Lib.Runs

/-!
# QuicNfs — the list of the server's threads

`run_server_tcp` (`tcp_rpc_server.c`) starts a thread for every connection and then adds an
entry for it to a list (`nfs_server_threads.c`); the thread, `handle_client_tcp`, removes its
entry when it ends because of an error. A mutex protects the list.

* `addServerThread`, `removeServerThread` — the critical sections on the list;
* `ServerThreads.step` — what the thread that accepts and the threads that serve do. A critical
  section is one step, since who else wants the mutex waits for its end. What is read outside,
  the head of the list in `add_server_thread`, is read in a step of its own;
* `Consistent` — the mutex is free, no pointer has led astray, and between the operations the
  list has one entry for each thread that serves.
* `consistent_iff` — which runs stay consistent.
-/

namespace QuicNfs.Transport

open Lib List Function

/-- A `pthread_t`. The threads are never joined while the server runs, so none is used
again. -/
abbrev Thread := Nat

/-- An entry of the list, at the address where it was allocated. -/
structure ThreadEntry where
  address : Nat
  serverThread : Thread
deriving DecidableEq, Repr

/-! ## The critical sections -/

/-- The entries from a pointer on; `none` if it points to none of them. -/
def entriesFrom (list : List ThreadEntry) : Option Nat → Option (List ThreadEntry)
  | none => some []
  | some address =>
    -- a pointer to an entry that was freed leads nowhere
    match list.dropWhile (fun e => e.address ≠ address) with
    | [] => none
    | first :: rest => some (first :: rest)

/-- The end of `add_server_thread`: the new entry, whose `next` was set before, becomes the
head. -/
def addServerThread (list : List ThreadEntry) (entry : ThreadEntry) (next : Option Nat) :
    Option (List ThreadEntry) :=
  (entriesFrom list next).map (entry :: ·)

/-- The loop of `remove_server_thread`, over the entries behind the first. -/
def removeBehind (thread : Thread) : List ThreadEntry → Option (List ThreadEntry)
  | [] => none
  | current :: rest =>
    -- `prev->next` skips the entry, which is freed
    if current.serverThread = thread then some rest
    else (removeBehind thread rest).map (current :: ·)

/-- The list and the mutex when `remove_server_thread` returns. -/
structure Removal where
  list : List ThreadEntry
  unlocks : Bool
deriving DecidableEq, Repr

/-- `remove_server_thread` once it has the mutex; `none` where it reads through the null
pointer of an empty list. -/
def removeServerThread (thread : Thread) : List ThreadEntry → Option Removal
  | [] => none
  | first :: rest =>
    -- the entry we want to remove is the first in the list: the mutex is not given back
    if first.serverThread = thread then some ⟨rest, false⟩
    else
      match removeBehind thread rest with
      | some rest' => some ⟨first :: rest', true⟩
      -- no entry of the thread was found, and the mutex is given back
      | none => some ⟨first :: rest, true⟩

/-! ## The threads -/

/-- Where `run_server_tcp` is in its loop. -/
inductive Acceptor where
  | accepting
  /-- The thread is started. -/
  | created (thread : Thread)
  /-- `add_server_thread` has read the head of the list, and waits for the mutex. -/
  | linked (entry : ThreadEntry) (next : Option Nat)
deriving DecidableEq, Repr

/-- Where `handle_client_tcp` is. -/
inductive Handler where
  | absent
  | running
  /-- `remove_server_thread` waits for the mutex. -/
  | removing
  | ended
deriving DecidableEq, Repr

structure ServerThreads where
  list : List ThreadEntry
  /-- Whether the mutex is held, while no critical section is executed. -/
  mutexHeld : Bool
  acceptor : Acceptor
  handlers : Thread → Handler
  /-- Whether a null pointer or one to a freed entry was used. -/
  strayed : Bool

/-- The server at its start. -/
def ServerThreads.start : ServerThreads where
  list := []
  mutexHeld := false
  acceptor := .accepting
  handlers := fun _ => .absent
  strayed := false

/-- What one round of the loop of `handle_client_tcp` comes to, by the results of
`is_tcp_connection_closed` and `process_single_rpc_tcp`. -/
def handleClientTcp (status : Int) (errorCode : Nat) : Handler :=
  -- the state of the connection could not be told
  if status < 0 then .removing
  -- client-side socket has been closed, so terminate this server thread
  else if status = 0 then .ended
  -- the call could not be processed
  else if errorCode > 0 then .removing
  else .running

inductive ThreadEvent where
  /-- A connection is accepted and its thread created. -/
  | accept (thread : Thread)
  /-- A new entry is allocated, and its `next` is set. -/
  | link (address : Nat)
  | insert
  /-- One round of a thread that serves. -/
  | serve (thread : Thread) (status : Int) (errorCode : Nat)
  | remove (thread : Thread)
deriving DecidableEq, Repr

namespace ServerThreads

/-- The handler of a thread changes. -/
def setHandler (s : ServerThreads) (thread : Thread) (handler : Handler) : ServerThreads :=
  { s with handlers := Function.update s.handlers thread handler }

/-- What happens next; an event that cannot happen changes nothing. -/
def step (s : ServerThreads) : ThreadEvent → ServerThreads
  | .accept thread =>
    -- the new thread can run, and fail, before it is in the list
    if s.acceptor = .accepting ∧ s.handlers thread = .absent then
      { s.setHandler thread .running with acceptor := .created thread }
    else s
  | .link address =>
    match s.acceptor with
    | .created thread =>
      -- `new_entry->next` is set before the mutex is locked
      { s with acceptor := .linked ⟨address, thread⟩ (s.list.head?.map (·.address)) }
    | _ => s
  | .insert =>
    match s.acceptor with
    | .linked entry next =>
      -- the mutex is waited for
      if s.mutexHeld then s
      else
        match addServerThread s.list entry next with
        | some list => { s with list := list, acceptor := .accepting }
        | none => { s with acceptor := .accepting, strayed := true }
    | _ => s
  | .serve thread status errorCode =>
    -- a thread that has left its loop does not come back
    if s.handlers thread = .running then s.setHandler thread (handleClientTcp status errorCode)
    else s
  | .remove thread =>
    if s.handlers thread = .removing ∧ s.mutexHeld = false then
      match removeServerThread thread s.list with
      | some removal =>
        { s.setHandler thread .ended with list := removal.list, mutexHeld := !removal.unlocks }
      | none => { s.setHandler thread .ended with strayed := true }
    else s

/-- No connection is being registered, and no entry removed. -/
def Settled (s : ServerThreads) : Prop :=
  s.acceptor = .accepting ∧ ∀ thread, s.handlers thread ≠ .removing

/-- How many entries the list has for a thread. -/
def entriesOf (s : ServerThreads) (thread : Thread) : Nat :=
  s.list.countP fun e => e.serverThread = thread

structure Consistent (s : ServerThreads) : Prop where
  mutexFree : s.mutexHeld = false
  /-- In particular, no entry was searched for in an empty list. -/
  notStrayed : s.strayed = false
  exact : s.Settled → ∀ thread, s.entriesOf thread = if s.handlers thread = .running then 1 else 0

end ServerThreads

/-! ## What the sections do to the list -/

/-- The thread has an entry behind the first one, which is another thread's. -/
def Behind (thread : Thread) : List ThreadEntry → Prop
  | [] => False
  | first :: rest => first.serverThread ≠ thread ∧ ∃ e ∈ rest, e.serverThread = thread

instance (thread : Thread) : ∀ list, Decidable (Behind thread list)
  | [] => inferInstanceAs (Decidable False)
  | first :: rest =>
    inferInstanceAs (Decidable (first.serverThread ≠ thread ∧ ∃ e ∈ rest, e.serverThread = thread))

variable {list : List ThreadEntry}

theorem Behind.mem {thread : Thread} (h : Behind thread list) :
    ∃ e ∈ list, e.serverThread = thread := by
  cases list with
  | nil => exact h.elim
  | cons first rest =>
    obtain ⟨-, e, he, hEq⟩ := h
    exact ⟨e, .tail _ he, hEq⟩

/-- The head of the list leads to all of it. -/
theorem entriesFrom_head (list : List ThreadEntry) :
    entriesFrom list (list.head?.map (·.address)) = some list := by
  cases list with
  | nil => rfl
  | cons first rest =>
    show entriesFrom (first :: rest) (some first.address) = _
    unfold entriesFrom
    dsimp only
    rw [dropWhile_cons_of_neg (by simp)]

theorem removeBehind_of_not_mem {thread : Thread} (h : ¬∃ e ∈ list, e.serverThread = thread) :
    removeBehind thread list = none := by
  induction list with
  | nil => rfl
  | cons current rest ih =>
    have hCurrent : current.serverThread ≠ thread := fun hEq => h ⟨current, .head _, hEq⟩
    have hRest : ¬∃ e ∈ rest, e.serverThread = thread := by
      rintro ⟨e, he, hEq⟩
      exact h ⟨e, .tail _ he, hEq⟩
    rw [removeBehind, if_neg hCurrent, ih hRest]
    rfl

/-- One entry of the thread is taken out, the entries of others stay. -/
theorem removeBehind_of_mem {thread : Thread} (h : ∃ e ∈ list, e.serverThread = thread) :
    ∃ list', removeBehind thread list = some list' ∧ ∀ t,
      list.countP (fun e => e.serverThread = t) =
        list'.countP (fun e => e.serverThread = t) + if thread = t then 1 else 0 := by
  induction list with
  | nil =>
    obtain ⟨e, he, -⟩ := h
    cases he
  | cons current rest ih =>
    rw [removeBehind]
    by_cases hCurrent : current.serverThread = thread
    · refine ⟨rest, if_pos hCurrent, fun t => ?_⟩
      rw [countP_cons, hCurrent]
      simp only [decide_eq_true_eq]
    · have hRest : ∃ e ∈ rest, e.serverThread = thread := by
        obtain ⟨e, he, hEq⟩ := h
        rcases mem_cons.mp he with rfl | he
        · exact absurd hEq hCurrent
        · exact ⟨e, he, hEq⟩
      obtain ⟨rest', hRemove, hCount⟩ := ih hRest
      refine ⟨current :: rest', ?_, fun t => ?_⟩
      · rw [if_neg hCurrent, hRemove]
        rfl
      · rw [countP_cons, countP_cons, hCount t]
        omega

/-- The four ways of `remove_server_thread`. -/
inductive Removes (thread : Thread) (list : List ThreadEntry) : Option Removal → Prop where
  | null (hEmpty : list = []) : Removes thread list none
  | first {rest : List ThreadEntry} (hNot : ¬Behind thread list) :
      Removes thread list (some ⟨rest, false⟩)
  | behind {list' : List ThreadEntry} (hBehind : Behind thread list)
      (hHead : list'.head? = list.head?)
      (hCount : ∀ t, list.countP (fun e => e.serverThread = t) =
        list'.countP (fun e => e.serverThread = t) + if thread = t then 1 else 0) :
      Removes thread list (some ⟨list', true⟩)
  | missing (hNone : ¬∃ e ∈ list, e.serverThread = thread) :
      Removes thread list (some ⟨list, true⟩)

theorem removes (thread : Thread) (list : List ThreadEntry) :
    Removes thread list (removeServerThread thread list) := by
  cases list with
  | nil => exact .null rfl
  | cons first rest =>
    rw [removeServerThread]
    by_cases hFirst : first.serverThread = thread
    · rw [if_pos hFirst]
      exact .first fun hBehind => hBehind.1 hFirst
    · rw [if_neg hFirst]
      by_cases hRest : ∃ e ∈ rest, e.serverThread = thread
      · obtain ⟨rest', hRemove, hCount⟩ := removeBehind_of_mem hRest
        rw [hRemove]
        refine .behind ⟨hFirst, hRest⟩ rfl fun t => ?_
        rw [countP_cons, countP_cons, hCount t]
        omega
      · rw [removeBehind_of_not_mem hRest]
        refine .missing ?_
        rintro ⟨e, he, hEq⟩
        rcases mem_cons.mp he with rfl | he
        · exact hFirst hEq
        · exact hRest ⟨e, he, hEq⟩

/-! ## Runs that keep the list -/

/-- The thread that is being registered. -/
def Acceptor.thread : Acceptor → Option Thread
  | accepting => none
  | created thread => some thread
  | linked entry _ => some entry.serverThread

/-- The thread has started and not ended. -/
def Handler.isAlive : Handler → Bool
  | running | removing => true
  | absent | ended => false

namespace ServerThreads

/-- What is asked of an event: a thread ends because of an error only, and when it removes its
entry, the entry is in the list, behind that of a thread that was added later. -/
def Orderly (s : ServerThreads) : ThreadEvent → Prop
  | .serve thread status _ => s.handlers thread = .running → status ≠ 0
  | .remove thread =>
    s.handlers thread = .removing → s.mutexHeld = false → Behind thread s.list
  | _ => True

instance (s : ServerThreads) : ∀ e, Decidable (s.Orderly e)
  | .serve thread status _ =>
    inferInstanceAs (Decidable (s.handlers thread = .running → status ≠ 0))
  | .remove thread => inferInstanceAs
    (Decidable (s.handlers thread = .removing → s.mutexHeld = false → Behind thread s.list))
  | .accept _ | .link _ | .insert => inferInstanceAs (Decidable True)

/-- The `next` of an entry that is about to be inserted is still the head of the list. -/
def Current (s : ServerThreads) : Prop :=
  ∀ entry next, s.acceptor = .linked entry next → next = s.list.head?.map (·.address)

structure Inv (s : ServerThreads) : Prop where
  mutexFree : s.mutexHeld = false
  notStrayed : s.strayed = false
  current : s.Current
  registering (t : Thread) : s.acceptor.thread = some t → (s.handlers t).isAlive = true
  listed (t : Thread) : s.entriesOf t =
    if (s.handlers t).isAlive = true ∧ s.acceptor.thread ≠ some t then 1 else 0

theorem inv_start : start.Inv where
  mutexFree := rfl
  notStrayed := rfl
  current := by
    intro entry next h
    cases h
  registering := by
    intro t h
    cases h
  listed := fun _ => rfl

/-- Between the operations, the threads that are alive are those that serve. -/
theorem Inv.consistent {s : ServerThreads} (h : s.Inv) : s.Consistent where
  mutexFree := h.mutexFree
  notStrayed := h.notStrayed
  exact := by
    intro hSettled t
    obtain ⟨hAccepting, hNoneRemoving⟩ := hSettled
    rw [h.listed t, hAccepting]
    cases hPhase : s.handlers t with
    | removing => exact absurd hPhase (hNoneRemoving t)
    | absent | running | ended => rfl

/-! ### What an event does -/

/-- The effects that an event can have. -/
inductive Effect (s : ServerThreads) : ThreadEvent → ServerThreads → Prop where
  /-- The event cannot happen now. -/
  | nothing {e : ThreadEvent} (hOrderly : s.Orderly e) : Effect s e s
  | accepted {thread : Thread} (hAccepting : s.acceptor = .accepting) (hAbsent : s.handlers thread = .absent) :
      Effect s (.accept thread) { s.setHandler thread .running with acceptor := .created thread }
  | linked {thread : Thread} {address : Nat} (hCreated : s.acceptor = .created thread) :
      Effect s (.link address)
        { s with acceptor := .linked ⟨address, thread⟩ (s.list.head?.map (·.address)) }
  | inserted {entry : ThreadEntry} {next : Option Nat} {rest : List ThreadEntry}
      (hLinked : s.acceptor = .linked entry next) (hRest : entriesFrom s.list next = some rest) :
      Effect s .insert { s with list := entry :: rest, acceptor := .accepting }
  | misled {entry : ThreadEntry} {next : Option Nat} (hLinked : s.acceptor = .linked entry next)
      (hStray : entriesFrom s.list next = none) :
      Effect s .insert { s with acceptor := .accepting, strayed := true }
  | served {thread : Thread} {status : Int} {errorCode : Nat}
      (hRunning : s.handlers thread = .running) :
      Effect s (.serve thread status errorCode)
        (s.setHandler thread (handleClientTcp status errorCode))
  | removed {thread : Thread} {removal : Removal} (hRemoving : s.handlers thread = .removing)
      (hRemoves : Removes thread s.list (some removal)) :
      Effect s (.remove thread)
        { s.setHandler thread .ended with list := removal.list, mutexHeld := !removal.unlocks }
  | crashed {thread : Thread} (hRemoving : s.handlers thread = .removing) (hEmpty : s.list = []) :
      Effect s (.remove thread) { s.setHandler thread .ended with strayed := true }

variable {s : ServerThreads} {thread : Thread}

theorem effect_remove (s : ServerThreads) (thread : Thread) :
    s.Effect (.remove thread) (s.step (.remove thread)) := by
  have hRemoves := removes thread s.list
  dsimp only [step]
  by_cases hReady : s.handlers thread = .removing ∧ s.mutexHeld = false
  · rw [if_pos hReady]
    cases hResult : removeServerThread thread s.list with
    | none =>
      rw [hResult] at hRemoves
      cases hRemoves with
      -- the head is NULL, and its thread is compared all the same
      | null hEmpty => exact .crashed hReady.1 hEmpty
    | some removal =>
      rw [hResult] at hRemoves
      exact .removed hReady.1 hRemoves
  · rw [if_neg hReady]
    exact .nothing fun hRemoving hFree => absurd ⟨hRemoving, hFree⟩ hReady

theorem effect_insert (s : ServerThreads) : s.Effect .insert (s.step .insert) := by
  dsimp only [step]
  cases hAcceptor : s.acceptor with
  | accepting | created => exact .nothing trivial
  | linked entry next =>
    dsimp only
    by_cases hHeld : s.mutexHeld = true
    · rw [if_pos hHeld]
      exact .nothing trivial
    · rw [if_neg hHeld]
      unfold addServerThread
      cases hNext : entriesFrom s.list next with
      -- the entry it points to was removed in between
      | none => exact .misled hAcceptor hNext
      | some rest => exact .inserted hAcceptor hNext

theorem effect_step (s : ServerThreads) (e : ThreadEvent) : s.Effect e (s.step e) := by
  cases e with
  | accept thread =>
    dsimp only [step]
    by_cases hFree : s.acceptor = .accepting ∧ s.handlers thread = .absent
    · rw [if_pos hFree]
      exact .accepted hFree.1 hFree.2
    · rw [if_neg hFree]
      exact .nothing trivial
  | link address =>
    dsimp only [step]
    cases hAcceptor : s.acceptor with
    | created thread => exact .linked hAcceptor
    | accepting | linked => exact .nothing trivial
  | insert => exact effect_insert s
  | serve thread status errorCode =>
    dsimp only [step]
    by_cases hRunning : s.handlers thread = .running
    · rw [if_pos hRunning]
      exact .served hRunning
    · rw [if_neg hRunning]
      exact .nothing fun hEq => absurd hEq hRunning
  | remove thread => exact effect_remove s thread

@[simp] theorem handlers_setHandler (s : ServerThreads) (thread : Thread) (handler : Handler)
    (t : Thread) :
    (s.setHandler thread handler).handlers t = if t = thread then handler else s.handlers t :=
  update_apply s.handlers thread handler t

/-! ### Orderly events keep the invariant -/

theorem isAlive_handleClientTcp {status : Int} (h : status ≠ 0) (errorCode : Nat) :
    (handleClientTcp status errorCode).isAlive = true := by
  unfold handleClientTcp
  rw [if_neg h]
  split
  · rfl
  · split <;> rfl

theorem Inv.accepted (h : s.Inv) (hAccepting : s.acceptor = .accepting)
    (hAbsent : s.handlers thread = .absent) :
    Inv { s.setHandler thread .running with acceptor := .created thread } := by
  refine ⟨h.mutexFree, h.notStrayed, ?_, ?_, ?_⟩
  · intro entry next hLinked
    cases hLinked
  · intro t ht
    obtain rfl : thread = t := Option.some.inj ht
    simp [Handler.isAlive]
  · intro t
    -- the new thread has no entry yet: it is being registered
    have hListed := h.listed t
    rw [hAccepting] at hListed
    show s.entriesOf t = _
    rw [hListed, handlers_setHandler]
    by_cases ht : t = thread
    · rw [ht, hAbsent]
      simp [Handler.isAlive, Acceptor.thread]
    · simp [ht, Acceptor.thread, Ne.symm ht]

theorem Inv.linked (h : s.Inv) (hCreated : s.acceptor = .created thread) (address : Nat) :
    Inv { s with acceptor := .linked ⟨address, thread⟩ (s.list.head?.map (·.address)) } := by
  refine ⟨h.mutexFree, h.notStrayed, ?_, ?_, ?_⟩
  · intro entry next hLinked
    obtain ⟨-, rfl⟩ := Acceptor.linked.inj hLinked
    rfl
  · intro t ht
    exact h.registering t (by rw [hCreated]; exact ht)
  · intro t
    have hListed := h.listed t
    rw [hCreated] at hListed
    exact hListed

theorem Inv.inserted (h : s.Inv) {entry : ThreadEntry} {next : Option Nat}
    (hLinked : s.acceptor = .linked entry next) :
    Inv { s with list := entry :: s.list, acceptor := .accepting } := by
  have hAlive := h.registering entry.serverThread (by rw [hLinked]; rfl)
  refine ⟨h.mutexFree, h.notStrayed, ?_, ?_, ?_⟩
  · intro entry' next' hLinked'
    cases hLinked'
  · intro t ht
    cases ht
  · intro t
    have hListed := h.listed t
    rw [hLinked] at hListed
    -- the entry is counted now, and its thread is not being registered any more
    unfold entriesOf at hListed ⊢
    rw [countP_cons, hListed]
    by_cases ht : entry.serverThread = t
    · subst ht
      simp [hAlive, Acceptor.thread]
    · simp [ht, Acceptor.thread]

theorem Inv.served (h : s.Inv) {status : Int} (hStatus : status ≠ 0)
    (hRunning : s.handlers thread = .running) (errorCode : Nat) :
    (s.setHandler thread (handleClientTcp status errorCode)).Inv := by
  -- the thread goes on, or it is going to remove its entry; it is alive in both cases
  have hAlive : ∀ t, ((s.setHandler thread (handleClientTcp status errorCode)).handlers t).isAlive =
      (s.handlers t).isAlive := by
    intro t
    rw [handlers_setHandler]
    by_cases ht : t = thread
    · rw [if_pos ht, ht, hRunning, isAlive_handleClientTcp hStatus]
      rfl
    · rw [if_neg ht]
  refine ⟨h.mutexFree, h.notStrayed, h.current, ?_, ?_⟩
  · intro t ht
    rw [hAlive]
    exact h.registering t ht
  · intro t
    rw [hAlive]
    exact h.listed t

theorem Inv.removed (h : s.Inv) (hRemoving : s.handlers thread = .removing)
    {list' : List ThreadEntry} (hHead : list'.head? = s.list.head?)
    (hCount : ∀ t, s.list.countP (fun e => e.serverThread = t) =
      list'.countP (fun e => e.serverThread = t) + if thread = t then 1 else 0) :
    Inv { s.setHandler thread .ended with list := list', mutexHeld := false } := by
  -- the thread has its one entry, so it is not being registered any more
  have hRegistered : s.acceptor.thread ≠ some thread := by
    intro hThread
    have hListed := h.listed thread
    unfold entriesOf at hListed
    rw [hCount, if_pos rfl, if_neg fun hBoth => hBoth.2 hThread] at hListed
    omega
  refine ⟨rfl, h.notStrayed, ?_, ?_, ?_⟩
  · intro entry next hLinked
    show next = list'.head?.map _
    rw [hHead]
    exact h.current entry next hLinked
  · intro t ht
    have hOther : t ≠ thread := by
      rintro rfl
      exact hRegistered ht
    show ((s.setHandler thread .ended).handlers t).isAlive = true
    rw [handlers_setHandler, if_neg hOther]
    exact h.registering t ht
  · intro t
    have hListed := h.listed t
    unfold entriesOf at hListed ⊢
    rw [hCount] at hListed
    show list'.countP _ = if ((s.setHandler thread .ended).handlers t).isAlive = true ∧ _ then 1 else 0
    rw [handlers_setHandler]
    by_cases ht : t = thread
    · subst ht
      rw [hRemoving, if_pos rfl, if_pos ⟨rfl, hRegistered⟩] at hListed
      rw [if_pos rfl, if_neg (by simp [Handler.isAlive])]
      omega
    · rw [if_neg (Ne.symm ht), Nat.add_zero] at hListed
      rw [if_neg ht]
      exact hListed

variable {e : ThreadEvent}

theorem Inv.step (h : s.Inv) (hOrderly : s.Orderly e) : (s.step e).Inv := by
  have hEffect := s.effect_step e
  generalize s.step e = s' at hEffect
  cases hEffect with
  | nothing => exact h
  | accepted hAccepting hAbsent => exact h.accepted hAccepting hAbsent
  | linked hCreated => exact h.linked hCreated _
  | inserted hLinked hRest =>
    -- the pointer that was read without the mutex still leads to the whole list
    rw [h.current _ _ hLinked, entriesFrom_head] at hRest
    obtain rfl := Option.some.inj hRest
    exact h.inserted hLinked
  | misled hLinked hStray =>
    rw [h.current _ _ hLinked, entriesFrom_head] at hStray
    cases hStray
  | served hRunning => exact h.served (hOrderly hRunning) hRunning _
  | removed hRemoving hRemoves =>
    have hBehind := hOrderly hRemoving h.mutexFree
    cases hRemoves with
    | first hNot => exact absurd hBehind hNot
    | behind _ hHead hCount => exact h.removed hRemoving hHead hCount
    | missing hNone => exact absurd hBehind.mem hNone
  | crashed hRemoving hEmpty =>
    have hBehind := hOrderly hRemoving h.mutexFree
    rw [hEmpty] at hBehind
    exact hBehind.elim

/-! ### Other events doom the list -/

/-- The thread has ended, but its entry is in the list or will be. -/
structure Doomed (s : ServerThreads) (t : Thread) : Prop where
  ended : s.handlers t = .ended
  present : s.acceptor.thread = some t ∨ 0 < s.entriesOf t
  current : s.Current

variable {t : Thread}

/-- Between the operations, the list has an entry too many. -/
theorem Doomed.not_consistent (h : s.Doomed t) (hSettled : s.Settled) : ¬s.Consistent := by
  intro hConsistent
  have hExact := hConsistent.exact hSettled t
  rw [h.ended] at hExact
  rcases h.present with hThread | hPositive
  · rw [hSettled.1] at hThread
    cases hThread
  · simp only [reduceCtorEq, if_false] at hExact
    omega

/-- A thread that has not ended is another one. -/
theorem Doomed.ne {thread : Thread} (h : s.Doomed t) (hHandler : s.handlers thread ≠ .ended) :
    t ≠ thread := by
  rintro rfl
  exact hHandler h.ended

theorem Doomed.ended_setHandler {thread : Thread} (h : s.Doomed t)
    (hHandler : s.handlers thread ≠ .ended) (handler : Handler) :
    (s.setHandler thread handler).handlers t = .ended := by
  rw [handlers_setHandler, if_neg (h.ne hHandler)]
  exact h.ended

/-- The entry is inserted, or it stays behind the one that is. -/
theorem Doomed.inserted {entry : ThreadEntry} {next : Option Nat} (h : s.Doomed t)
    (hLinked : s.acceptor = .linked entry next) :
    Doomed { s with list := entry :: s.list, acceptor := .accepting } t := by
  refine ⟨h.ended, .inr ?_, ?_⟩
  · unfold entriesOf
    show 0 < (entry :: s.list).countP _
    rw [countP_cons]
    rcases h.present with hThread | hPositive
    · rw [hLinked] at hThread
      rw [if_pos (decide_eq_true (Option.some.inj hThread))]
      omega
    · exact Nat.lt_of_lt_of_le hPositive (Nat.le_add_right _ _)
  · intro entry' next' hLinked'
    cases hLinked'

/-- Nothing but the thread itself could have removed its entry. -/
theorem Doomed.step (h : s.Doomed t) (hGood : (s.step e).Consistent) : (s.step e).Doomed t := by
  have hEffect := s.effect_step e
  generalize s.step e = s' at hEffect hGood
  cases hEffect with
  | nothing => exact h
  | accepted hAccepting hAbsent =>
    refine ⟨h.ended_setHandler (by simp [hAbsent]) _, ?_, ?_⟩
    · refine .inr (h.present.resolve_left ?_)
      rw [hAccepting]
      intro hThread
      cases hThread
    · intro entry next hLinked
      cases hLinked
  | linked hCreated =>
    refine ⟨h.ended, ?_, ?_⟩
    · refine h.present.imp_left fun hThread => ?_
      rw [hCreated] at hThread
      exact hThread
    · intro entry next hLinked
      obtain ⟨-, rfl⟩ := Acceptor.linked.inj hLinked
      rfl
  | inserted hLinked hRest =>
    rw [h.current _ _ hLinked, entriesFrom_head] at hRest
    obtain rfl := Option.some.inj hRest
    exact h.inserted hLinked
  | misled hLinked hStray =>
    rw [h.current _ _ hLinked, entriesFrom_head] at hStray
    cases hStray
  | served hRunning => exact ⟨h.ended_setHandler (by simp [hRunning]) _, h.present, h.current⟩
  | @removed thread removal hRemoving hRemoves =>
    have hAlive : s.handlers thread ≠ .ended := by simp [hRemoving]
    cases hRemoves with
    | first => cases hGood.mutexFree
    | missing => exact ⟨h.ended_setHandler hAlive _, h.present, h.current⟩
    | @behind list' _ hHead hCount =>
      refine ⟨h.ended_setHandler hAlive _, h.present.imp_right fun hPositive => ?_, ?_⟩
      · -- the entry that is gone is the other thread's
        unfold entriesOf at hPositive ⊢
        rw [hCount, if_neg (Ne.symm (h.ne hAlive))] at hPositive
        exact hPositive
      · intro entry next hLinked
        show next = list'.head?.map _
        rw [hHead]
        exact h.current entry next hLinked
  | crashed => cases hGood.notStrayed

/-- An event that is not orderly breaks the consistency at once, or dooms the list. -/
theorem Inv.doomed (h : s.Inv) (hNot : ¬s.Orderly e) (hGood : (s.step e).Consistent) :
    ∃ t, (s.step e).Doomed t := by
  have hEffect := s.effect_step e
  generalize s.step e = s' at hEffect hGood
  -- a thread that is alive is in the list, or it is being registered
  have hPresent : ∀ t, (s.handlers t).isAlive = true →
      s.acceptor.thread = some t ∨ 0 < s.entriesOf t := by
    intro t hAlive
    by_cases hThread : s.acceptor.thread = some t
    · exact .inl hThread
    · rw [h.listed t, if_pos ⟨hAlive, hThread⟩]
      exact .inr Nat.one_pos
  cases hEffect with
  | nothing hOrderly => exact absurd hOrderly hNot
  | accepted | linked | inserted | misled => exact absurd trivial hNot
  | @served thread status errorCode hRunning =>
    have hClosed : status = 0 := by
      by_contra hStatus
      exact hNot fun _ => hStatus
    refine ⟨thread, ?_, hPresent thread (by rw [hRunning]; rfl), h.current⟩
    rw [handlers_setHandler, if_pos rfl, hClosed]
    rfl
  | @removed thread removal hRemoving hRemoves =>
    cases hRemoves with
    | first => cases hGood.mutexFree
    | behind hBehind => exact absurd (fun _ _ => hBehind) hNot
    | missing hNone =>
      refine ⟨thread, ?_, hPresent thread (by rw [hRemoving]; rfl), h.current⟩
      show (s.setHandler thread .ended).handlers thread = .ended
      rw [handlers_setHandler, if_pos rfl]
  | crashed => cases hGood.notStrayed

/-- **Which runs keep the list of threads consistent.** A run in which threads end because of
errors only, and every thread removes its entry from behind the entry of a thread that was added
later, is consistent throughout; and a run that ends between the operations is consistent
throughout only if it is such a run. -/
theorem consistent_iff (run : List ThreadEvent) :
    (Obeys step Orderly start run → Always step Consistent start run) ∧
      ((run.foldl step start).Settled →
        (Always step Consistent start run ↔ Obeys step Orderly start run)) := by
  have hKeeps : Obeys step Orderly start run → Always step Consistent start run :=
    always_of_obeys (I := Inv) (fun s e h hOrderly => h.step hOrderly) (fun s h => h.consistent)
      inv_start
  refine ⟨hKeeps, fun hSettled => ⟨fun hAlways => ?_, hKeeps⟩⟩
  refine obeys_of_always (I := Inv) (D := fun s => ∃ t, s.Doomed t)
    (fun s e h hOrderly => h.step hOrderly) (fun s e h hNot hGood => h.doomed hNot hGood)
    (fun s e hGood hDoomed => hDoomed.imp fun t ht => ht.step hGood) inv_start hAlways ?_
  rintro ⟨t, ht⟩
  exact ht.not_consistent hSettled hAlways.finish

-- the older of two threads fails, and removes its entry
example : Obeys step Orderly start
    [.accept 1, .link 10, .insert, .accept 2, .link 20, .insert, .serve 1 (-1) 0, .remove 1] := by
  decide

/-- The only thread fails, and keeps the mutex. -/
def failing : ServerThreads :=
  [.accept 1, .link 10, .insert, .serve 1 1 1, .remove 1].foldl step start

/-- A thread fails before its entry is added. -/
def hasty : ServerThreads := [.accept 1, .serve 1 1 1, .remove 1].foldl step start

/-- A client closes its connection. -/
def closing : ServerThreads := [.accept 1, .link 10, .insert, .serve 1 0 0].foldl step start

theorem settled_closing : closing.Settled := by
  refine ⟨rfl, fun thread => ?_⟩
  show update (update (fun _ => Handler.absent) 1 .running) 1
    (handleClientTcp 0 0) thread ≠ .removing
  rw [update_idem, update_apply]
  split <;> decide

/-- One connection is enough to break each of the three properties. -/
theorem threads_inconsistent :
    failing.mutexHeld = true ∧ failing.handlers 1 = .ended ∧
      hasty.strayed = true ∧
      closing.Settled ∧ closing.handlers 1 = .ended ∧ closing.entriesOf 1 = 1 := by
  refine ⟨by decide, by decide, by decide, settled_closing, by decide, by decide⟩

end ServerThreads

end QuicNfs.Transport

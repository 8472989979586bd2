import Mathlib.Logic.Function.Basic
import QuicNfs.Lib.FirstMatch
import QuicNfs.Transport.Lossless
import QuicNfs.Transport.QuicReceiving

/-!
# QuicNfs — assembling the records of many QUIC streams

The server keeps one receiving context for each stream with a record under way,
in a list that all connections share (`quic_record_marking.c`), and hands a record
over when it is complete (`server_on_stream_readable` in `quic_rpc_server.c`).

* `serverOnStreamReadable` — one callback; `serverRun` — a sequence of them;
* `contextOf` — the context of a stream, or the one it would get;
* `serverOnStreamReadable_contextOf` — what a callback does, in terms of the
  context of its stream.
-/

namespace QuicNfs.Transport

open Kernel Lib RecordMarkingReceivingContext List Option

variable {Conn : Type} [DecidableEq Conn]

/-! ## The list of contexts -/

abbrev Contexts (Conn : Type) := List (RecordMarkingReceivingContext Conn)

/-- Is this the context of the stream? -/
def isFor (key : Conn × Nat) (context : RecordMarkingReceivingContext Conn) : Bool :=
  context.key = key

def addNewRmReceivingContext (conn : Conn) (streamId : Nat) (contexts : Contexts Conn) :
    Contexts Conn :=
  createRmReceivingContext conn streamId :: contexts

/-- 0 if the context of the stream is in the list, and 1 otherwise. -/
def findRmReceivingContext (conn : Conn) (streamId : Nat) (contexts : Contexts Conn) : Nat :=
  if contexts.any (isFor (conn, streamId)) then 0 else 1

def getRmReceivingContext (conn : Conn) (streamId : Nat) (contexts : Contexts Conn) :
    Option (RecordMarkingReceivingContext Conn) :=
  contexts.find? (isFor (conn, streamId))

/-- The error code and the list without the first context of the stream. The
source reads the first entry before it knows that there is one. -/
def removeRmReceivingContext (conn : Conn) (streamId : Nat) (contexts : Contexts Conn) :
    Option (Nat × Contexts Conn) :=
  if contexts = [] then none
  else if contexts.any (isFor (conn, streamId)) then
    some (0, contexts.eraseP (isFor (conn, streamId)))
  else some (4, contexts)

/-! ## The callback -/

/-- What a callback leaves behind. -/
structure Readable (Conn : Type) where
  contexts : Contexts Conn
  /-- An error was found and the callback given up. -/
  failed : Bool
  /-- What `handle_client_quic` was called with. -/
  handedOver : Option Bytes
deriving DecidableEq, Repr

def serverOnStreamReadable (conn : Conn) (streamId : Nat) (reads : List Bytes)
    (contexts : Contexts Conn) : Option (Readable Conn) := do
  -- a new stream gets a context
  let contexts :=
    if findRmReceivingContext conn streamId contexts > 0 then
      addNewRmReceivingContext conn streamId contexts
    else contexts
  match getRmReceivingContext conn streamId contexts with
  -- the context could not be created
  | none => return ⟨contexts, true, none⟩
  | some context =>
    let (errorCode, context, _) ← receiveAvailableBytesQuic context reads
    let contexts := modifyFirst (isFor (conn, streamId)) (fun _ => context) contexts
    -- the context stays in the list as the failed read left it
    if errorCode > 0 then return ⟨contexts, true, none⟩
    if context.recordFullyReceived then
      -- a complete RPC was received on this stream
      let (_, contexts) ← removeRmReceivingContext conn streamId contexts
      return ⟨contexts, false, some context.accumulatedPayloads⟩
    return ⟨contexts, false, none⟩

/-- A callback: the stream, and what its calls of `quic_stream_read` return. -/
abbrev Callback (Conn : Type) := (Conn × Nat) × List Bytes

/-- A sequence of callbacks: the contexts at the end, and for each callback if it
failed and what it handed over. -/
def serverRun (contexts : Contexts Conn) :
    List (Callback Conn) → Option (Contexts Conn × List (Bool × Option Bytes))
  | [] => some (contexts, [])
  | ((conn, streamId), reads) :: callbacks => do
    let readable ← serverOnStreamReadable conn streamId reads contexts
    let (contexts, handedOver) ← serverRun readable.contexts callbacks
    return (contexts, (readable.failed, readable.handedOver) :: handedOver)

variable {contexts : Contexts Conn} {key : Conn × Nat}
  {context : RecordMarkingReceivingContext Conn}

theorem serverRun_append {contexts₁ contexts₂ : Contexts Conn}
    {callbacks more : List (Callback Conn)} {results results' : List (Bool × Option Bytes)}
    (h : serverRun contexts callbacks = some (contexts₁, results))
    (h' : serverRun contexts₁ more = some (contexts₂, results')) :
    serverRun contexts (callbacks ++ more) = some (contexts₂, results ++ results') := by
  induction callbacks generalizing contexts results with
  | nil =>
    cases h
    exact h'
  | cons callback callbacks ih =>
    obtain ⟨⟨conn, streamId⟩, reads⟩ := callback
    simp only [serverRun, bind_eq_bind, bind_eq_some_iff, Prod.exists,
      Option.pure_def, Option.some.injEq, Prod.mk.injEq] at h
    obtain ⟨readable, hReadable, _, others, hRest, rfl, rfl⟩ := h
    simp [serverRun, hReadable, ih hRest]

/-! ## The context of a stream -/

/-- The context of a stream, or the one it would get. -/
def contextOf (contexts : Contexts Conn) (key : Conn × Nat) : RecordMarkingReceivingContext Conn :=
  (contexts.find? (isFor key)).getD (createRmReceivingContext key.1 key.2)

theorem isFor_iff : isFor key context = true ↔ context.key = key := by
  simp [isFor]

theorem key_contextOf (contexts : Contexts Conn) (key : Conn × Nat) :
    (contextOf contexts key).key = key := by
  unfold contextOf
  cases hFind : contexts.find? (isFor key) with
  | none => rfl
  | some context => exact isFor_iff.mp (find?_some hFind)

/-- What is in the list for a stream does not depend on the contexts of another. -/
theorem find?_congr {contexts' : Contexts Conn} {other : Conn × Nat} (hne : other ≠ key)
    (h : contexts'.filter (fun c => !isFor key c) = contexts.filter (fun c => !isFor key c)) :
    contexts'.find? (isFor other) = contexts.find? (isFor other) := by
  -- dropping the contexts of one stream is not seen by a search for another's
  have hFilter : ∀ cs : Contexts Conn,
      (cs.filter fun c => !isFor key c).find? (isFor other) = cs.find? (isFor other) := by
    intro cs
    rw [find?_filter]
    congr 1
    funext c
    by_cases hc : isFor other c
    · have hKey : isFor key c = false := by
        rw [Bool.eq_false_iff, Ne, isFor_iff, isFor_iff.mp hc]
        exact hne
      simp [hc, hKey]
    · simp [hc]
  rw [← hFilter contexts', h, hFilter contexts]

theorem contextOf_congr {contexts' : Contexts Conn} {other : Conn × Nat} (hne : other ≠ key)
    (h : contexts'.filter (fun c => !isFor key c) = contexts.filter (fun c => !isFor key c)) :
    contextOf contexts' other = contextOf contexts other := by
  unfold contextOf
  rw [find?_congr hne h]

theorem contextOf_filter (contexts : Contexts Conn) (key : Conn × Nat) :
    contextOf (contexts.filter fun c => !isFor key c) key =
      createRmReceivingContext key.1 key.2 := by
  unfold contextOf
  rw [find?_eq_none.mpr]
  · rfl
  · intro c hc
    simpa using (mem_filter.mp hc).2

/-- At most one context for each stream. -/
def Single (contexts : Contexts Conn) : Prop := ∀ key, contexts.countP (isFor key) ≤ 1

/-- The list with a context for the stream, as the callback has it. -/
def present (contexts : Contexts Conn) (key : Conn × Nat) : Contexts Conn :=
  if findRmReceivingContext key.1 key.2 contexts > 0 then
    addNewRmReceivingContext key.1 key.2 contexts
  else contexts

theorem find?_present (contexts : Contexts Conn) (key : Conn × Nat) :
    (present contexts key).find? (isFor key) = some (contextOf contexts key) := by
  unfold present findRmReceivingContext contextOf
  by_cases hAny : contexts.any (isFor key)
  · obtain ⟨c, hc, hKey⟩ := any_eq_true.mp hAny
    obtain ⟨c', hc'⟩ := isSome_iff_exists.mp (find?_isSome.mpr ⟨c, hc, hKey⟩)
    simp [hAny, hc']
  -- a new context goes to the front, so the search finds it first
  · have hNone : contexts.find? (isFor key) = none :=
      find?_eq_none.mpr fun c hc hKey => hAny (any_eq_true.mpr ⟨c, hc, hKey⟩)
    rw [if_neg hAny, if_pos (by decide), hNone]
    exact find?_cons_of_pos (by simp [isFor, createRmReceivingContext, RecordMarkingReceivingContext.key])

theorem filter_present (contexts : Contexts Conn) (key : Conn × Nat) :
    ((present contexts key).filter fun c => !isFor key c) =
      contexts.filter fun c => !isFor key c := by
  unfold present
  split
  · exact filter_cons_of_neg
      (by simp [isFor, createRmReceivingContext, RecordMarkingReceivingContext.key])
  · rfl

theorem single_present (h : Single contexts) (key : Conn × Nat) :
    Single (present contexts key) := by
  unfold present findRmReceivingContext
  by_cases hAny : contexts.any (isFor key)
  · simpa [hAny] using h
  · rw [if_neg hAny, if_pos (by decide)]
    intro other
    have hCreated : (createRmReceivingContext key.1 key.2).key = key := rfl
    rw [addNewRmReceivingContext, countP_cons]
    by_cases hOther : other = key
    · -- the stream had no context before
      subst hOther
      have hNone : contexts.countP (isFor other) = 0 :=
        countP_eq_zero.mpr fun c hc hKey => hAny (any_eq_true.mpr ⟨c, hc, hKey⟩)
      rw [hNone]
      split <;> omega
    · rw [if_neg (by rw [isFor_iff, hCreated]; exact Ne.symm hOther)]
      exact h other

theorem Single.filter (h : Single contexts) (p : RecordMarkingReceivingContext Conn → Bool) :
    Single (contexts.filter p) :=
  fun key => Nat.le_trans (filter_sublist.countP_le) (h key)

/-- What a callback does to the list: the context of its stream is replaced by what the
reads make of it, and dropped with the hand-over when it is complete; the contexts of the
other streams stay as they are. -/
theorem serverOnStreamReadable_updated (hSingle : Single contexts) {reads unread : List Bytes}
    {errorCode : Nat} (hReceive : receiveAvailableBytesQuic (contextOf contexts key) reads =
      some (errorCode, context, unread)) (hKey : context.key = key) :
    ∃ updated : Contexts Conn, Single updated ∧ updated.find? (isFor key) = some context ∧
      (updated.filter fun c => !isFor key c) = (contexts.filter fun c => !isFor key c) ∧
      serverOnStreamReadable key.1 key.2 reads contexts =
        if errorCode > 0 then some ⟨updated, true, none⟩
        else if context.recordFullyReceived then
          some ⟨contexts.filter fun c => !isFor key c, false, some context.accumulatedPayloads⟩
        else some ⟨updated, false, none⟩ := by
  -- the list after the reads, with the context in place of the one that was found
  obtain ⟨updated, hUpdated⟩ : ∃ updated, updated =
      modifyFirst (isFor key) (fun _ => context) (present contexts key) := ⟨_, rfl⟩
  have hFor : isFor key context = true := isFor_iff.mpr hKey
  have hFind : updated.find? (isFor key) = some context := by
    rw [hUpdated]
    exact find?_modifyFirst_self (find?_present contexts key) hFor
  have hOthers : (updated.filter fun c => !isFor key c) = contexts.filter fun c => !isFor key c := by
    rw [hUpdated, filter_modifyFirst (by simp) (by simp [hFor]), filter_present]
  -- the context that was put in has the key of the one it replaces
  have hSingle' : Single updated := by
    intro other
    have hSame : ∀ c, isFor key c → isFor other context = isFor other c := by
      intro c hc
      rw [isFor, isFor, hKey, isFor_iff.mp hc]
    rw [hUpdated, countP_modifyFirst hSame]
    exact single_present hSingle key other
  have hAny : updated.any (isFor key) := any_eq_true.mpr ⟨context, mem_of_find?_eq_some hFind, hFor⟩
  -- there is one context of the stream, so dropping the first drops all
  have hRemove : removeRmReceivingContext key.1 key.2 updated =
      some (0, contexts.filter fun c => !isFor key c) := by
    have hne : updated ≠ [] := by
      rintro rfl
      cases hFind
    rw [removeRmReceivingContext, if_neg hne, if_pos hAny, eraseP_eq_filter (hSingle' key), hOthers]
  refine ⟨updated, hSingle', hFind, hOthers, ?_⟩
  have hGet : getRmReceivingContext key.1 key.2 (present contexts key) =
      some (contextOf contexts key) := find?_present contexts key
  unfold present at hGet hUpdated
  unfold serverOnStreamReadable
  simp only [hGet, hReceive, ← hUpdated, hRemove, bind_eq_bind, bind_some]
  rfl

/-- **One callback without an error.** In terms of the context of its stream: it is replaced
by what the reads make of it, and dropped with the hand-over when it is complete; the
contexts of the other streams stay as they are. -/
theorem serverOnStreamReadable_contextOf (hSingle : Single contexts) {reads unread : List Bytes}
    (hReceive : receiveAvailableBytesQuic (contextOf contexts key) reads =
      some (0, context, unread)) (hKey : context.key = key) :
    if context.recordFullyReceived then
      serverOnStreamReadable key.1 key.2 reads contexts =
        some ⟨contexts.filter fun c => !isFor key c, false, some context.accumulatedPayloads⟩
    else
      ∃ contexts', serverOnStreamReadable key.1 key.2 reads contexts =
          some ⟨contexts', false, none⟩ ∧
        Single contexts' ∧ contextOf contexts' key = context ∧
        (contexts'.filter fun c => !isFor key c) = contexts.filter fun c => !isFor key c := by
  obtain ⟨updated, hUpdated, hFind, hOthers, hRun⟩ :=
    serverOnStreamReadable_updated hSingle hReceive hKey
  rw [if_neg (lt_irrefl 0)] at hRun
  split
  · next hFull => rw [hRun, if_pos hFull]
  · next hFull =>
    refine ⟨updated, by rw [hRun, if_neg hFull], hUpdated, ?_, hOthers⟩
    rw [contextOf, hFind]
    rfl

end QuicNfs.Transport

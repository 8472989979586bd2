import Mathlib.Algebra.Order.BigOperators.Group.Finset
import QuicNfs.Client.ByteArray
import QuicNfs.Lib.Serial
import QuicNfs.Server.PermissionBits

/-!
# QuicNfs — appending to a file

`append_to_file` asks for the size of the file and then writes there, in one call or several. If
two clients do so at the same time, the one writes over what the other has written.

* `Holding` — the server can serve the file, which has these bytes;
* `clients` — clients that take turns with their calls, each of which is atomic;
* `holding_of_appendToFile` — one client, with nobody else at work;
* `appends_kept_of_serial` — appends that do not overlap are all there in the end;
* `append_lost` — one of two that do is lost.
-/

namespace QuicNfs.Client

open Kernel Server Lib List

/-! ## One client alone -/

/-- The server knows the file `f`, which has these bytes, under the path `p`, and no call of the
machine fails. -/
structure Holding (f : Ino) (p : Path) (data : Bytes) (w : World) : Prop where
  quiet : Quiet w
  view : w.view f = some p
  lookup : w.fs.lookup false p = .ok f
  holds : w.fs.Holds f data

/-- Nobody else acts, and no call is lost. -/
structure Alone (l : Link) : Prop where
  others (k : Nat) (w : World) : l.others k w = w
  delivered (k : Nat) : l.fate k = .delivered

theorem Alone.before {l : Link} (h : Alone l) : l.before = l.world := h.others l.calls l.world

theorem Alone.served {l : Link} (h : Alone l) (w : World) : Alone (l.served w) :=
  ⟨h.others, h.delivered⟩

section Append

variable {f : Ino} {p : Path} {data : Bytes} {w : World} {l l' : Link}

/-- A WRITE stores the bytes, or it is refused. -/
theorem Holding.write (h : Holding f p data w) (cred : Credential) {chunk : Bytes}
    (hChunk : chunk.length ≤ NFS_MAXDATA) (t offset : Nat) :
    (∃ fattr w', Holding f p (overwrite offset chunk data) w' ∧
      (serveNfsProcedure8WriteToFile cred ⟨some ⟨some ⟨f, t⟩⟩, offset, some chunk⟩).run w =
        (.ok fattr, w')) ∨
    ((serveNfsProcedure8WriteToFile cred
      ⟨some ⟨some ⟨f, t⟩⟩, offset, some chunk⟩).run w).1.isOk = false := by
  -- nothing but the permission can be in the way
  by_cases hPermitted : permitted w.fs cred .write f = true
  · obtain ⟨fattr, w', hHolds, hNames, -, hQuiet, hView, hServe⟩ := h.quiet.write h.view h.lookup
      h.holds (allowed_of_permitted hPermitted) hChunk t offset
    refine .inl ⟨fattr, w', ⟨hQuiet, ?_, ?_, hHolds⟩, hServe⟩
    · rw [hView]
      exact h.view
    · rw [hNames.lookup]
      exact h.lookup
  · refine .inr (Bool.eq_false_iff.mpr fun hOk => hPermitted ?_)
    exact (decidedBy_write h.view h.lookup rfl).ok hOk

/-- If the loop of WRITE calls comes to its end, all of the buffer is in the file. -/
theorem holding_of_writeChunks {buffer : Bytes} {offset t fuel n k : Nat}
    (hFits : offset + buffer.length ≤ 2 ^ 32) (hAlone : Alone l)
    (h : Holding f p (overwrite offset (buffer.take n) data) l.world)
    (hRun : (writeChunks ⟨f, t⟩ buffer offset fuel n).run l = (.done k, l')) :
    Holding f p (overwrite offset buffer data) l'.world := by
  -- the invariant: the first `n` bytes of the buffer are in the file
  induction fuel generalizing n l with
  | zero => cases hRun
  | succ fuel ih =>
    unfold writeChunks at hRun
    by_cases hMore : n < buffer.length
    · have hLength := length_chunk buffer n
      have hChunk : ((buffer.drop n).take WRITE_BYTES_PER_RPC).length ≤ NFS_MAXDATA := by
        rw [hLength]
        exact (Nat.min_le_left _ _).trans (by decide)
      rw [if_pos hMore] at hRun
      dsimp only at hRun
      rw [← hAlone.before] at h
      rcases h.write l.credential hChunk t ((offset + n) % 2 ^ 32) with
        ⟨fattr, w', hHolding, hServe⟩ | hRefused
      · rw [run_nfsProcedure8WriteToFile (hAlone.delivered _) hServe] at hRun
        -- the chunk goes on where the part before it ends
        rw [overwrite_chunk hMore hFits] at hHolding
        exact ih (hAlone.served w') hHolding hRun
      · -- after a refusal the loop is not done
        rw [run_nfsProcedure8WriteToFile (hAlone.delivered _) rfl] at hRun
        generalize (serveNfsProcedure8WriteToFile l.credential _).run l.before = served
          at hRun hRefused
        obtain ⟨reply, w'⟩ := served
        cases reply with
        | ok body => cases hRefused
        | _ => cases hRun
    · rw [if_neg hMore] at hRun
      cases hRun
      rw [take_of_length_le (by omega)] at h
      exact h

theorem overwrite_nil (offset : Nat) (data : Bytes) : overwrite offset [] data = data := if_pos rfl

/-- Bytes that are written at the end of a file are appended to it. -/
theorem overwrite_end {block data : Bytes} (hBlock : block ≠ []) :
    overwrite data.length block data = data ++ block := by
  unfold overwrite resize
  rw [if_neg hBlock, take_length, Nat.sub_self, drop_of_length_le (by omega)]
  simp

/-- **One client.** If nobody else is at work and the call returns 0, then the text is at the end
of the file, after a newline. -/
theorem holding_of_appendToFile {text : Bytes} {t fuel : Nat}
    (hFits : data.length + (text.length + 1) ≤ 2 ^ 32) (hAlone : Alone l)
    (h : Holding f p data l.world)
    (hRun : (appendToFile ⟨f, t⟩ fuel text).run l = (.returns 0, l')) :
    Holding f p (data ++ 10 :: text) l'.world := by
  have hBefore := h
  rw [← hAlone.before] at hBefore
  obtain ⟨fattr, w', hSize, hSame, hView, hServe⟩ :=
    hBefore.quiet.getattr l.credential hBefore.view hBefore.lookup hBefore.holds t
  have hAfter : Holding f p data w' := by
    refine ⟨hSame.quiet hBefore.quiet, ?_, ?_, ?_⟩
    · rw [hView]
      exact hBefore.view
    · rw [hSame.fs]
      exact hBefore.lookup
    · rw [hSame.fs]
      exact hBefore.holds
  unfold appendToFile at hRun
  rw [run_nfsProcedure1GetFileAttributes (hAlone.delivered _) hServe] at hRun
  dsimp only [StubResult.of] at hRun
  rw [hSize, Prog.run_bind] at hRun
  -- 0 is returned only after the loop has come to its end
  generalize hLoop : (writeChunks ⟨f, t⟩ (10 :: text) data.length fuel 0).run (l.served w') = ended
    at hRun
  obtain ⟨result, l₁⟩ := ended
  cases result with
  | done k =>
    obtain rfl : l₁ = l' := congrArg Prod.snd hRun
    have hStart : Holding f p (overwrite data.length (take 0 (10 :: text)) data) w' := by
      rw [take_zero, overwrite_nil]
      exact hAfter
    -- the size asked for is still the size when the loop begins: nobody else is there
    have hEnd := holding_of_writeChunks hFits (hAlone.served w') hStart hLoop
    rwa [overwrite_end (cons_ne_nil _ _)] at hEnd
  | runsOn | failed | err => cases hRun

end Append

/-! ## Many clients -/

/-- Clients whose calls the server carries out one at a time. -/
def clients (cred : Nat → Credential) : Shared Rpc World where
  exec i _
    | .call r, w => (some (w.answer (cred i) r), w.afterRequest (cred i) r)

/-- A client that runs alone, with its own link. -/
def soleClient (cred : Credential) (calls : Nat) (w : World) : Link :=
  ⟨w, cred, calls, fun _ w => w, fun _ => .delivered⟩

theorem runAs_clients {α : Type} (cred : Nat → Credential) (i : Nat) (p : Remote α)
    (calls : Nat) (w : World) :
    p.runAs (clients cred) i w =
      ((p.run (soleClient (cred i) calls w)).1, (p.run (soleClient (cred i) calls w)).2.world) := by
  -- call by call; the counter of the link is not looked at by the server
  induction p generalizing calls w with
  | ret a => rfl
  | op o k ih =>
    cases o with
    | call r => exact ih _ (calls + 1) _

/-- `n` clients, each of which appends a text of its own to the file `f`. -/
def appenders (f : Ino) (timestamp : Nat → Nat) (fuel : Nat) (text : Nat → Bytes) (n : Nat)
    (w : World) : Pool Rpc Outcome World where
  threads := (List.range n).map fun i => appendToFile ⟨f, timestamp i⟩ fuel (text i)
  state := w

/-- What the clients append, in this order. -/
def appended (text : Nat → Bytes) (order : List Nat) : Bytes :=
  (order.map fun i => 10 :: text i).flatten

section Many

variable {f : Ino} {p : Path} {data : Bytes} {w : World} {timestamp : Nat → Nat} {fuel n : Nat}
  {text : Nat → Bytes}

theorem length_appenders : (appenders f timestamp fuel text n w).threads.length = n := by
  simp [appenders]

variable {i : Nat}

/-- An append is not over before it begins. -/
theorem answer_appenders (hi : i < n) : (appenders f timestamp fuel text n w).answer i = none := by
  have hThread : (appenders f timestamp fuel text n w).threads[i]? =
      some (appendToFile ⟨f, timestamp i⟩ fuel (text i)) := by
    simp [appenders, hi]
  unfold Pool.answer
  rw [hThread]
  rfl

theorem threads_appenders {program : Remote Outcome}
    (h : (appenders f timestamp fuel text n w).threads[i]? = some program) :
    i < n ∧ program = appendToFile ⟨f, timestamp i⟩ fuel (text i) := by
  obtain ⟨hLt, hEq⟩ := List.getElem?_eq_some_iff.mp h
  have hi : i < n := by simpa [appenders] using hLt
  exact ⟨hi, by rw [← hEq]; simp [appenders]⟩

theorem length_appended (text : Nat → Bytes) (order : List Nat) :
    (appended text order).length = (order.map fun i => (text i).length + 1).sum := by
  unfold appended
  rw [length_flatten, map_map]
  rfl

/-- Different clients do not append more than all of them. -/
theorem sum_le_of_nodup {order : List Nat} (hNodup : order.Nodup) (hLt : ∀ i ∈ order, i < n)
    (size : Nat → Nat) : (order.map size).sum ≤ ∑ i ∈ Finset.range n, size i := by
  rw [← sum_toFinset size hNodup]
  refine Finset.sum_le_sum_of_subset fun i hi => ?_
  exact Finset.mem_range.mpr (hLt i (mem_toFinset.mp hi))

/-- The file after the turns of these clients: nothing else is in it. -/
structure Appended (f : Ino) (p : Path) (data : Bytes) (text : Nat → Bytes) (n : Nat)
    (order : List Nat) (w : World) : Prop where
  holding : Holding f p (data ++ appended text order) w
  nodup : order.Nodup
  lt : ∀ i ∈ order, i < n

/-- One more client has its turn. -/
theorem Appended.turn {order : List Nat} {cred : Nat → Credential} {w' : World}
    (h : Appended f p data text n order w) (hi : i < n) (hFresh : i ∉ order)
    (hFits : data.length + ∑ j ∈ Finset.range n, ((text j).length + 1) ≤ 2 ^ 32)
    (hRun : (appendToFile ⟨f, timestamp i⟩ fuel (text i)).runAs (clients cred) i w =
      (.returns 0, w')) : Appended f p data text n (order ++ [i]) w' := by
  have hNodup : (order ++ [i]).Nodup := by
    rw [nodup_append]
    refine ⟨h.nodup, nodup_singleton i, ?_⟩
    rintro a ha b hb rfl
    rw [mem_singleton] at hb
    exact hFresh (hb ▸ ha)
  have hLt : ∀ j ∈ order ++ [i], j < n := forall_mem_append.mpr ⟨h.lt, forall_mem_singleton.mpr hi⟩
  refine ⟨?_, hNodup, hLt⟩
  -- there is room for it
  have hSum := sum_le_of_nodup hNodup hLt fun j => (text j).length + 1
  rw [map_append, sum_append, ← length_appended] at hSum
  have hRoom : (data ++ appended text order).length + ((text i).length + 1) ≤ 2 ^ 32 := by
    rw [length_append]
    simp only [map_cons, map_nil, sum_cons, sum_nil] at hSum
    omega
  rw [runAs_clients cred i _ 0] at hRun
  obtain ⟨hResult, rfl⟩ := Prod.mk.inj hRun
  have hAppend := holding_of_appendToFile hRoom ⟨fun _ _ => rfl, fun _ => rfl⟩ h.holding
    (Prod.ext hResult rfl)
  have hBytes : data ++ appended text (order ++ [i]) =
      data ++ appended text order ++ 10 :: text i := by
    unfold appended
    rw [map_append, flatten_append, ← append_assoc]
    simp
  rw [hBytes]
  exact hAppend

/-- **Appends that do not overlap.** Let the server know a file, and let the machine's calls not
fail. If no client begins before the one at work has returned, if all of them return 0, and if the
file stays below 4 GiB, then the file begins with what was in it, and every text is
there, after a newline. -/
theorem appends_kept_of_serial (hHolding : Holding f p data w) (timestamp : Nat → Nat)
    (fuel : Nat) (text : Nat → Bytes) (n : Nat) (cred : Nat → Credential)
    (hFits : data.length + ∑ i ∈ Finset.range n, ((text i).length + 1) ≤ 2 ^ 32)
    (schedule : List Nat)
    (hSerial : (appenders f timestamp fuel text n w).Serial (clients cred) schedule)
    (hReturns : ∀ i < n, ((appenders f timestamp fuel text n w).run (clients cred)
      schedule).answer i = some (.returns 0)) :
    ∃ final, ((appenders f timestamp fuel text n w).run (clients cred)
        schedule).state.fs.Holds f final ∧
      data <+: final ∧ ∀ i < n, 10 :: text i <:+: final := by
  have hBegin : Appended f p data text n [] w :=
    ⟨by rwa [appended, map_nil, flatten_nil, append_nil], nodup_nil, forall_mem_nil _⟩
  have hCompleted : ((appenders f timestamp fuel text n w).run (clients cred)
      schedule).Completed := by
    intro i hi
    rw [Pool.length_run, length_appenders] at hi
    rw [hReturns i hi]
    rfl
  -- every client takes the file from one list of appended texts to a longer one
  obtain ⟨order, hAppended, hAll⟩ := hSerial.invariant hBegin (by
    intro done i program s a s' hFresh hProgram hDone hRun hAnswer
    obtain ⟨hi, rfl⟩ := threads_appenders hProgram
    obtain rfl := Option.some.inj ((hReturns i hi).symm.trans hAnswer)
    exact hDone.turn hi hFresh hFits hRun) hCompleted
  refine ⟨_, hAppended.holding.holds, prefix_append _ _, fun i hi => ?_⟩
  -- every client has had its turn, since none had answered at the beginning
  have hIn : i ∈ order := hAll i (by rw [length_appenders]; exact hi) (answer_appenders hi)
  have hBlock : 10 :: text i ∈ order.map fun j => 10 :: text j := mem_map_of_mem hIn
  exact (infix_of_mem_flatten hBlock).trans (suffix_append _ _).isInfix

end Many

namespace Sample

/-- The server knows the file `a/f`. -/
def fileKnown : World :=
  (mounted.step (.request Server.Sample.root (.lookup (Server.Sample.nameIn 2 "a")))).step
    (.request Server.Sample.root (.lookup (Server.Sample.nameIn 3 "f")))

theorem holding_fileKnown : Holding 4 (bytes "/exp/a/f") (bytes "data") fileKnown where
  quiet := ⟨fun _ => rfl, fun _ => rfl⟩
  view := by decide +kernel
  lookup := by decide +kernel
  holds := by decide +kernel

def texts : Nat → Bytes
  | 0 => bytes "one"
  | _ => bytes "two"

/-- Two clients, along a schedule. -/
def twoAppend (schedule : List Nat) : Pool Rpc Outcome World :=
  (appenders 4 (fun _ => 0) 9 texts 2 fileKnown).run (clients fun _ => Server.Sample.root) schedule

end Sample

/-- The second client begins when the first has returned. -/
theorem appends_kept_two :
    ∃ final, (Sample.twoAppend [0, 0, 1, 1]).state.fs.Holds 4 final ∧
      bytes "data" <+: final ∧ ∀ i < 2, 10 :: Sample.texts i <:+: final :=
  appends_kept_of_serial Sample.holding_fileKnown (fun _ => 0) 9 Sample.texts 2
    (fun _ => Server.Sample.root) (by decide) [0, 0, 1, 1] (by decide +kernel) (by decide +kernel)

/-- **An append that is lost.** Two clients ask for the size of the file before either of them has
written, and write to the same place. Both return 0, and the first text is gone. -/
theorem append_lost :
    (Sample.twoAppend [0, 1, 0, 1]).answer 0 = some (.returns 0) ∧
      (Sample.twoAppend [0, 1, 0, 1]).answer 1 = some (.returns 0) ∧
      (Sample.twoAppend [0, 1, 0, 1]).state.fs.Holds 4 (bytes "data\ntwo") ∧
      ¬10 :: bytes "one" <:+: bytes "data\ntwo" := by
  decide +kernel

end QuicNfs.Client

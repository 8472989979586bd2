import QuicNfs.Client.Resolution

/-!
# QuicNfs — a remote file as an array of bytes

`nfs_read` and `nfs_write` cut a transfer into calls of at most 5000 bytes. To the
process that uses them, the file behaves like an array of bytes all the same: a write
places its buffer, a read gets a slice.

* `Serves` — the path leads to the file, LOOKUP by LOOKUP, and the caller may read and
  write it;
* `Considerate` — what the other clients may do in between: they leave the file and the
  way to it alone;
* `Ready` — a link to such a server, on which no call gets lost;
* `storeChunks`, `fetchChunks` — what the loops of calls amount to;
* `fuse_refines_array` — any sequence of reads and writes.
-/

namespace QuicNfs.Client

open Kernel Server Lib List Prog

/-! ## The file -/

section File

variable (cred : Credential) (root : Ino) (way : List (Name × Ino)) (known : Ino → Path)

/-- The server can serve the file at the end of the way, which has the bytes `data`. -/
structure Serves (w : World) (data : Bytes) : Prop extends
    Passable cred root way known w where
  holds : w.fs.Holds (destination root way) data
  mayRead : Allowed w.fs cred .read (destination root way)
  mayWrite : Allowed w.fs cred .write (destination root way)

/-- What leaves the file and the way to it alone. -/
structure Considerate (f : World → World) : Prop where
  serves (w : World) (data : Bytes) :
    Serves cred root way known w data → Serves cred root way known (f w) data
  view (w : World) (data : Bytes) (x : Ino) : Serves cred root way known w data →
    w.view x = some (known x) → (f w).view x = some (known x)

/-- The client can work on the file. -/
structure Ready (l : Link) (data : Bytes) : Prop where
  serves : Serves l.credential root way known l.world data
  others (k : Nat) : Considerate l.credential root way known (l.others k)
  delivered (k : Nat) : l.fate k = .delivered

end File

variable {cred : Credential} {root : Ino} {way : List (Name × Ino)} {known : Ino → Path}
variable {w w' : World} {l : Link} {data : Bytes}

/-- A world in which only the server has learned something serves the file as before. -/
theorem Serves.undisturbed (h : Serves cred root way known w data) (hSame : Undisturbed w w')
    (hView : ∀ x, w'.view x = w.view x ∨ w'.view x = some (known x)) :
    Serves cred root way known w' data where
  toPassable := h.toPassable.undisturbed hSame hView
  holds := by rw [hSame.fs]; exact h.holds
  mayRead := by rw [hSame.fs]; exact h.mayRead
  mayWrite := by rw [hSame.fs]; exact h.mayWrite

theorem Ready.steady (h : Ready root way known l data) :
    Steady known (Serves l.credential root way known · data) l :=
  ⟨h.serves, fun k w => (h.others k).serves w data, fun k w => (h.others k).view w data,
    h.delivered⟩

theorem Ready.before (h : Ready root way known l data) :
    Serves l.credential root way known l.before data :=
  h.steady.before

theorem Ready.served {data' : Bytes} (h : Ready root way known l data)
    (hServes : Serves l.credential root way known w' data') :
    Ready root way known (l.served w') data' :=
  ⟨hServes, h.others, h.delivered⟩

/-- What the server knows stays known while the others act. -/
theorem Ready.view_before (h : Ready root way known l data) {x : Ino}
    (hView : l.world.view x = some (known x)) : l.before.view x = some (known x) :=
  (h.others l.calls).view l.world data x h.serves hView

variable {path : Bytes} {fuel n : Nat}

/-- The path leads to the file. -/
theorem Ready.resolve (h : Ready root way known l data) (hAbsolute : path.head? = some slash)
    (hPath : components path = way.map (·.1)) (t : Nat) :
    ∃ t' ftype l', (resolveAbsolutePath ⟨root, t⟩ path).run l =
        (.ok (⟨destination root way, t'⟩, ftype), l') ∧ Ready root way known l' data ∧
      l'.world.view (destination root way) = some (known (destination root way)) := by
  obtain ⟨t', ftype, w', c, hRun, hServes, hView⟩ :=
    run_resolveAbsolutePath (fun _ h => h.toPassable) (fun _ _ h hSame hView => h.undisturbed hSame hView)
      h.steady hAbsolute hPath t
  exact ⟨t', ftype, _, hRun, ⟨hServes, h.others, h.delivered⟩, hView⟩

/-! ## The loops -/

/-- The bytes of a file after the calls of `blocking_write` that are left. -/
def storeChunks (writeBuffer : Bytes) (offset : Nat) : Nat → Nat → Bytes → Bytes
  | 0, _, data => data
  | fuel + 1, bytesWritten, data =>
    if bytesWritten < writeBuffer.length then
      let chunk := (writeBuffer.drop bytesWritten).take WRITE_BYTES_PER_RPC
      storeChunks writeBuffer offset fuel (bytesWritten + chunk.length)
        (overwrite ((offset + bytesWritten) % 2 ^ 32) chunk data)
    else data

/-- What the calls of `blocking_read` fetch from a file with the bytes `data`. -/
def fetchChunks (data : Bytes) (bytesToRead offset : Nat) : Nat → Bytes → Bytes
  | 0, readBuffer => readBuffer
  | fuel + 1, readBuffer =>
    let count := min (bytesToRead - readBuffer.length) READ_BYTES_PER_RPC
    let readBuffer := readBuffer ++ (data.drop ((offset + readBuffer.length) % 2 ^ 32)).take count
    if readBuffer.length < bytesToRead ∧ offset + readBuffer.length < data.length then
      fetchChunks data bytesToRead offset fuel readBuffer
    else readBuffer

theorem length_chunk (buffer : Bytes) (n : Nat) :
    ((buffer.drop n).take WRITE_BYTES_PER_RPC).length = min 5000 (buffer.length - n) := by
  rw [length_take, length_drop]
  rfl

/-- A WRITE of a chunk. -/
theorem run_writeCall {α : Type} (h : Ready root way known l data)
    (hView : l.world.view (destination root way) = some (known (destination root way)))
    {chunk : Bytes} (hChunk : chunk.length ≤ NFS_MAXDATA) (t offset : Nat)
    (k : StubResult FAttr → Remote α) :
    ∃ fattr l', (nfsProcedure8WriteToFile ⟨some ⟨some ⟨destination root way, t⟩⟩, offset,
        some chunk⟩ >>= k).run l = (k (.ok fattr)).run l' ∧
      Ready root way known l' (overwrite offset chunk data) ∧
      l'.world.view (destination root way) = some (known (destination root way)) := by
  have hBefore := h.before
  obtain ⟨fattr, w', hHolds, hNames, hModes, hQuiet, hSame, hServe⟩ :=
    hBefore.quiet.write (h.view_before hView) hBefore.lookup hBefore.holds hBefore.mayWrite hChunk
      t offset
  refine ⟨fattr, l.served w', run_nfsProcedure8WriteToFile (h.delivered _) hServe k,
    h.served ?_, ?_⟩
  · exact {
      toPassable := hBefore.congr hQuiet hNames hModes fun x => .inl (by rw [hSame])
      holds := hHolds
      mayRead := hModes.allowed hBefore.mayRead
      mayWrite := hModes.allowed hBefore.mayWrite }
  · show w'.view _ = _
    rw [hSame]
    exact h.view_before hView

/-- A READ of a chunk. -/
theorem run_readCall {α : Type} (h : Ready root way known l data)
    (hView : l.world.view (destination root way) = some (known (destination root way)))
    (t offset count : Nat) (k : StubResult ReadResBody → Remote α) :
    ∃ fattr l', fattr.size = data.length ∧
      (nfsProcedure6ReadFromFile ⟨some ⟨some ⟨destination root way, t⟩⟩, offset, count⟩ >>= k).run l =
        (k (.ok ⟨fattr, (data.drop offset).take (min count NFS_MAXDATA)⟩)).run l' ∧
      Ready root way known l' data ∧
      l'.world.view (destination root way) = some (known (destination root way)) := by
  have hBefore := h.before
  obtain ⟨fattr, w', hSize, hSame, hView', hServe⟩ :=
    hBefore.quiet.read (h.view_before hView) hBefore.lookup hBefore.holds hBefore.mayRead t offset count
  refine ⟨fattr, l.served w', hSize, run_stub (h.delivered _) rfl (fun _ => rfl) hServe k,
    h.served (hBefore.undisturbed hSame fun x => .inl (by rw [hView'])), ?_⟩
  show w'.view _ = _
  rw [hView']
  exact h.view_before hView

/-- The loop of `blocking_write` stores all of its buffer, somewhere. -/
theorem run_writeChunks (h : Ready root way known l data)
    (hView : l.world.view (destination root way) = some (known (destination root way)))
    (writeBuffer : Bytes) (offset t : Nat) (hn : n ≤ writeBuffer.length)
    (hFuel : writeBuffer.length - n < fuel) :
    ∃ l', (writeChunks ⟨destination root way, t⟩ writeBuffer offset fuel n).run l =
        (.done writeBuffer.length, l') ∧
      Ready root way known l' (storeChunks writeBuffer offset fuel n data) := by
  induction fuel generalizing l data n with
  | zero => omega
  | succ fuel ih =>
    unfold writeChunks storeChunks
    by_cases hMore : n < writeBuffer.length
    · rw [if_pos hMore, if_pos hMore]
      have hLength := length_chunk writeBuffer n
      set chunk := (writeBuffer.drop n).take WRITE_BYTES_PER_RPC
      have hChunk : chunk.length ≤ NFS_MAXDATA := by
        rw [hLength]
        exact (Nat.min_le_left _ _).trans (by decide)
      obtain ⟨fattr, l₁, hRun, hReady, hView₁⟩ :=
        run_writeCall h hView hChunk t ((offset + n) % 2 ^ 32) _
      rw [hRun]
      exact ih hReady hView₁ (by omega) (by omega)
    · -- all is written: the loop is left without another call
      rw [if_neg hMore, if_neg hMore]
      exact ⟨l, by rw [show n = writeBuffer.length by omega]; rfl, h⟩

/-- The bytes that a READ of the loop adds, and that it cannot stand still. -/
theorem length_fetched {bytesToRead offset : Nat} (hMore : offset + n < data.length)
    (hn : n < bytesToRead) :
    0 < ((data.drop ((offset + n) % 2 ^ 32)).take
      (min (bytesToRead - n) READ_BYTES_PER_RPC)).length := by
  have hMod : (offset + n) % 2 ^ 32 ≤ offset + n := Nat.mod_le _ _
  have hCount : 0 < min (bytesToRead - n) READ_BYTES_PER_RPC := by
    rw [READ_BYTES_PER_RPC]
    omega
  rw [length_take, length_drop]
  omega

/-- The loop of `blocking_read` comes to an end. -/
theorem run_readChunks (h : Ready root way known l data)
    (hView : l.world.view (destination root way) = some (known (destination root way)))
    (t bytesToRead offset : Nat) (readBuffer : Bytes)
    (hFuel : bytesToRead - readBuffer.length < fuel) :
    ∃ l', (readChunks ⟨destination root way, t⟩ bytesToRead offset fuel readBuffer).run l =
        (.done (fetchChunks data bytesToRead offset fuel readBuffer), l') ∧
      Ready root way known l' data := by
  induction fuel generalizing l readBuffer with
  | zero => omega
  | succ fuel ih =>
    unfold readChunks fetchChunks
    set left := bytesToRead - readBuffer.length with hLeft
    set count := if left < READ_BYTES_PER_RPC then left else READ_BYTES_PER_RPC with hCountEq
    have hCount : count = min left READ_BYTES_PER_RPC := by
      rw [hCountEq]
      split <;> omega
    obtain ⟨fattr, l₁, hSize, hRun, hReady, hView₁⟩ :=
      run_readCall h hView t ((offset + readBuffer.length) % 2 ^ 32) count _
    have hMax : min count NFS_MAXDATA = count := by
      rw [hCount, READ_BYTES_PER_RPC, NFS_MAXDATA]
      omega
    have hTake : ((data.drop ((offset + readBuffer.length) % 2 ^ 32)).take count).take left =
        (data.drop ((offset + readBuffer.length) % 2 ^ 32)).take (min left READ_BYTES_PER_RPC) := by
      rw [take_take, hCount]
      congr 1
      omega
    dsimp only
    rw [hRun]
    dsimp only
    rw [hMax, hTake, hSize]
    have hGrows (hMore : offset + readBuffer.length < data.length)
        (hn : readBuffer.length < bytesToRead) := length_fetched hMore hn
    set fetched := (data.drop ((offset + readBuffer.length) % 2 ^ 32)).take
      (min left READ_BYTES_PER_RPC)
    have hLength : (readBuffer ++ fetched).length = readBuffer.length + fetched.length :=
      length_append
    by_cases hAgain : (readBuffer ++ fetched).length < bytesToRead ∧
        offset + (readBuffer ++ fetched).length < data.length
    · rw [if_pos hAgain, if_pos hAgain]
      have hFetched : 0 < fetched.length := hGrows (by omega) (by omega)
      exact ih hReady hView₁ (readBuffer ++ fetched) (by omega)
    · rw [if_neg hAgain, if_neg hAgain]
      exact ⟨l₁, rfl, hReady⟩

/-! ## The handlers -/

/-- `nfs_write` reports all of its buffer as written. -/
theorem run_nfsWrite (h : Ready root way known l data) (hAbsolute : path.head? = some slash)
    (hPath : components path = way.map (·.1)) (t : Nat) (buffer : Bytes) (offset : Nat)
    (hFuel : buffer.length < fuel) :
    ∃ l', (nfsWrite ⟨root, t⟩ fuel path buffer offset).run l =
        (.returns (toInt buffer.length), l') ∧
      Ready root way known l' (storeChunks buffer offset fuel 0 data) := by
  obtain ⟨t', ftype, l₁, hResolve, hReady, hView⟩ := h.resolve hAbsolute hPath t
  obtain ⟨l₂, hWrite, hReady₂⟩ :=
    run_writeChunks hReady hView buffer offset t' (Nat.zero_le _) (by omega)
  refine ⟨l₂, ?_, hReady₂⟩
  unfold nfsWrite
  rw [run_bind, hResolve]
  dsimp only
  rw [run_bind, hWrite]
  rfl

/-- `nfs_read` reports how much it has fetched. -/
theorem run_nfsRead (h : Ready root way known l data) (hAbsolute : path.head? = some slash)
    (hPath : components path = way.map (·.1)) (t : Nat) (size offset : Nat) (hFuel : size < fuel) :
    ∃ l', (nfsRead ⟨root, t⟩ fuel path size offset).run l =
        ((.returns (toInt (fetchChunks data size offset fuel []).length),
          fetchChunks data size offset fuel []), l') ∧
      Ready root way known l' data := by
  obtain ⟨t', ftype, l₁, hResolve, hReady, hView⟩ := h.resolve hAbsolute hPath t
  obtain ⟨l₂, hRead, hReady₂⟩ := run_readChunks hReady hView t' size offset [] hFuel
  refine ⟨l₂, ?_, hReady₂⟩
  unfold nfsRead
  rw [run_bind, hResolve]
  dsimp only
  rw [run_bind, hRead]
  rfl

/-! ## Where the chunks go -/

/-- What is written so far and the next chunk are again the beginning of the buffer, as long
as the chunk starts below 4 GiB. -/
theorem overwrite_chunk {buffer : Bytes} {offset : Nat} (hMore : n < buffer.length)
    (hFits : offset + buffer.length ≤ 2 ^ 32) (data : Bytes) :
    overwrite ((offset + n) % 2 ^ 32) ((buffer.drop n).take WRITE_BYTES_PER_RPC)
        (overwrite offset (buffer.take n) data) =
      overwrite offset
        (buffer.take (n + ((buffer.drop n).take WRITE_BYTES_PER_RPC).length)) data := by
  have hLength := length_chunk buffer n
  set chunk := (buffer.drop n).take WRITE_BYTES_PER_RPC with hChunkEq
  have hTaken : (buffer.take n).length = n := by
    rw [length_take]
    omega
  have hTake : buffer.take n ++ chunk = buffer.take (n + chunk.length) := by
    rw [take_add, hLength, hChunkEq]
    congr 1
    rw [WRITE_BYTES_PER_RPC, ← take_take, ← length_drop, take_length]
  rw [Nat.mod_eq_of_lt (by omega), ← hTake]
  rw [overwrite_eq_splice, overwrite_eq_splice, overwrite_eq_splice, splice_append, hTaken]

/-- As long as every chunk starts below 4 GiB, the chunks fit together. -/
theorem storeChunks_eq {buffer : Bytes} {offset : Nat} (hn : n ≤ buffer.length)
    (hFuel : buffer.length - n < fuel) (hFits : offset + buffer.length ≤ 2 ^ 32) (data : Bytes) :
    storeChunks buffer offset fuel n (overwrite offset (buffer.take n) data) =
      overwrite offset buffer data := by
  induction fuel generalizing n with
  | zero => omega
  | succ fuel ih =>
    unfold storeChunks
    by_cases hMore : n < buffer.length
    · have hLength := length_chunk buffer n
      rw [if_pos hMore]
      dsimp only
      rw [overwrite_chunk hMore hFits]
      exact ih (by omega) (by omega)
    · rw [if_neg hMore, show n = buffer.length by omega, take_length]

/-- As long as every chunk starts below 4 GiB, `blocking_read` fetches a slice. -/
theorem fetchChunks_eq (data : Bytes) {size offset fuel n : Nat} (hn : n < size)
    (hMore : n = 0 ∨ offset + n < data.length) (hFuel : size - n < fuel)
    (hFits : offset + size ≤ 2 ^ 32) :
    fetchChunks data size offset fuel ((data.drop offset).take n) = (data.drop offset).take size := by
  induction fuel generalizing n with
  | zero => omega
  | succ fuel ih =>
    have hLength : ((data.drop offset).take n).length = n := by
      rw [length_take, length_drop]
      omega
    unfold fetchChunks
    rw [hLength, Nat.mod_eq_of_lt (by omega)]
    set count := min (size - n) READ_BYTES_PER_RPC with hCount
    have hPositive : 0 < count := by
      rw [hCount, READ_BYTES_PER_RPC]
      omega
    have hTake : (data.drop offset).take n ++ (data.drop (offset + n)).take count =
        (data.drop offset).take (n + count) := by
      rw [take_add, drop_drop]
    dsimp only
    rw [hTake]
    have hLength' : ((data.drop offset).take (n + count)).length =
        min (n + count) (data.length - offset) := by
      rw [length_take, length_drop]
    by_cases hAgain : ((data.drop offset).take (n + count)).length < size ∧
        offset + ((data.drop offset).take (n + count)).length < data.length
    · rw [if_pos hAgain]
      exact ih (by omega) (.inr (by omega)) (by omega)
    · rw [if_neg hAgain]
      -- either the size is reached or the end of the file is
      by_cases hSize : n + count = size
      · rw [hSize]
      · rw [take_of_length_le (by rw [length_drop]; omega),
          take_of_length_le (by rw [length_drop]; omega)]

/-! ## Sequences of calls -/

/-- A call of the file system, for one file. -/
inductive FileCall where
  | write (buffer : Bytes) (offset : Nat)
  | read (size offset : Nat)
deriving DecidableEq, Repr

/-- How many bytes a call is for, and where they are. -/
def FileCall.size : FileCall → Nat
  | write buffer _ => buffer.length
  | read size _ => size

def FileCall.offset : FileCall → Nat
  | write _ offset => offset
  | read _ offset => offset

/-- The handler of the call: its result, and the bytes it has put into the buffer. -/
def FileCall.handle (filesystemRootFhandle : NfsFileHandle) (fuel : Nat) (path : Bytes) :
    FileCall → Remote (Outcome × Bytes)
  | write buffer offset => do return (← nfsWrite filesystemRootFhandle fuel path buffer offset, [])
  | read size offset => nfsRead filesystemRootFhandle fuel path size offset

/-- A sequence of calls. -/
def handleAll (filesystemRootFhandle : NfsFileHandle) (fuel : Nat) (path : Bytes) :
    List FileCall → Remote (List (Outcome × Bytes))
  | [] => return []
  | c :: rest => do
    let result ← c.handle filesystemRootFhandle fuel path
    return result :: (← handleAll filesystemRootFhandle fuel path rest)

/-- The call on an array of bytes: how many bytes were transferred, the bytes that were
read, and the array after it. -/
def FileCall.onArray (data : Bytes) : FileCall → (Nat × Bytes) × Bytes
  | write buffer offset => ((buffer.length, []), overwrite offset buffer data)
  | read size offset => ((((data.drop offset).take size).length, (data.drop offset).take size), data)

/-- The results of a sequence of calls on an array of bytes. -/
def resultsOnArray (data : Bytes) : List FileCall → List (Nat × Bytes)
  | [] => []
  | c :: rest => (c.onArray data).1 :: resultsOnArray (c.onArray data).2 rest

/-- The array after a sequence of calls. -/
def arrayAfter (data : Bytes) : List FileCall → Bytes
  | [] => data
  | c :: rest => arrayAfter (c.onArray data).2 rest

/-- What the process sees of such a result. -/
def returned (result : Nat × Bytes) : Outcome × Bytes := (.returns result.1, result.2)

/-- One call. -/
theorem run_handle (h : Ready root way known l data) (hAbsolute : path.head? = some slash)
    (hPath : components path = way.map (·.1)) (t : Nat) (hFuel : 2 ^ 31 ≤ fuel) {c : FileCall}
    (hSize : 0 < c.size ∧ c.size < 2 ^ 31) (hFits : c.offset + c.size ≤ 2 ^ 32) :
    ∃ l', (c.handle ⟨root, t⟩ fuel path).run l = (returned (c.onArray data).1, l') ∧
      Ready root way known l' (c.onArray data).2 := by
  cases c with
  | write buffer offset =>
    have hLength : buffer.length < 2 ^ 31 := hSize.2
    have hEnough : buffer.length - 0 < fuel := by omega
    obtain ⟨l', hRun, hReady⟩ := run_nfsWrite h hAbsolute hPath t buffer offset hEnough
    have hStore : storeChunks buffer offset fuel 0 data = overwrite offset buffer data :=
      storeChunks_eq (Nat.zero_le _) hEnough hFits data
    rw [hStore] at hReady
    refine ⟨l', ?_, hReady⟩
    show (nfsWrite _ fuel path buffer offset >>= _).run l = _
    rw [run_bind, hRun, toInt_of_lt hLength]
    rfl
  | read size offset =>
    have hPositive : 0 < size := hSize.1
    have hLength : size < 2 ^ 31 := hSize.2
    have hEnough : size - 0 < fuel := by omega
    obtain ⟨l', hRun, hReady⟩ := run_nfsRead h hAbsolute hPath t size offset hEnough
    have hFetch : fetchChunks data size offset fuel [] = (data.drop offset).take size :=
      fetchChunks_eq data hPositive (.inl rfl) hEnough hFits
    refine ⟨l', ?_, hReady⟩
    show (nfsRead _ fuel path size offset).run l = _
    rw [hRun, hFetch, toInt_of_lt (by rw [length_take]; omega)]
    rfl

/-- **A file is an array of bytes.** Let a path lead to a regular file that the caller
may read and write, on a server where no call fails, and let the others leave the file
and the way to it alone. Then in every sequence of reads and writes, of 1 to `2 ^ 31 - 1`
bytes each and below 4 GiB, every call ends; a write reports its whole size and a read
what the array holds between its offset and the smaller of the end of the request and the
end of the array; and the file has the bytes of the array afterwards. A write behind the
end fills the gap with zeros (`overwrite_eq_splice`, `getElem?_splice`). -/
theorem fuse_refines_array (l : Link) (data : Bytes) (root : Ino) (t : Nat)
    (way : List (Name × Ino)) (known : Ino → Path) (hReady : Ready root way known l data)
    (path : Bytes) (hAbsolute : path.head? = some slash) (hPath : components path = way.map (·.1))
    (fuel : Nat) (hFuel : 2 ^ 31 ≤ fuel) (calls : List FileCall)
    (hSize : ∀ c ∈ calls, 0 < c.size ∧ c.size < 2 ^ 31)
    (hFits : ∀ c ∈ calls, c.offset + c.size ≤ 2 ^ 32) :
    ∃ l', (handleAll ⟨root, t⟩ fuel path calls).run l =
        ((resultsOnArray data calls).map returned, l') ∧
      l'.world.fs.Holds (destination root way) (arrayAfter data calls) := by
  induction calls generalizing l data with
  | nil => exact ⟨l, rfl, hReady.serves.holds⟩
  | cons c rest ih =>
    obtain ⟨l₁, hRun, hReady₁⟩ := run_handle hReady hAbsolute hPath t hFuel
      (hSize c (.head _)) (hFits c (.head _))
    obtain ⟨l₂, hRest, hHolds⟩ := ih l₁ (c.onArray data).2 hReady₁
      (fun c' hc' => hSize c' (.tail _ hc')) (fun c' hc' => hFits c' (.tail _ hc'))
    refine ⟨l₂, ?_, hHolds⟩
    unfold handleAll
    rw [run_bind, hRun]
    dsimp only
    rw [run_bind, hRest]
    rfl

namespace Sample

theorem ready_link : Ready 2 wayToFile knownAs link (bytes "data") where
  serves := {
    toPassable := passable_mounted
    holds := by decide +kernel
    mayRead := allowed_root _ _ _
    mayWrite := allowed_root _ _ _ }
  others _ := ⟨fun _ _ h => h, fun _ _ _ _ h => h⟩
  delivered _ := rfl

end Sample

/-- A write over the end of the file, and a read that asks for more than there is. -/
theorem fuse_refines_array_sample :
    ∃ l', (handleAll ⟨2, 0⟩ (2 ^ 31) (bytes "/a/f")
        [.write (bytes "new bytes") 2, .read 20 1]).run Sample.link =
          ([(.returns 9, []), (.returns 10, bytes "anew bytes")], l') ∧
      l'.world.fs.Holds 4 (bytes "danew bytes") :=
  fuse_refines_array Sample.link (bytes "data") 2 0 Sample.wayToFile Sample.knownAs Sample.ready_link
    (bytes "/a/f") rfl (by decide) (2 ^ 31) (Nat.le_refl _)
    [.write (bytes "new bytes") 2, .read 20 1] (by decide) (by decide)

end QuicNfs.Client

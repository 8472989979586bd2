import QuicNfs.Transport.RecordMarking

/-!
# QuicNfs — sending and receiving records

The loops that move the bytes of a record: `tcp_record_marking.c`, and the
sending half of `quic_record_marking.c`. They call `send`, `recv` and
`quic_stream_write`, which are parameters here: a call answers and changes the
state of the transport, or never returns.

The results of these calls are signed; the loops keep them in a `size_t`, so a
negative one becomes a number close to `2 ^ 64` (`toSize`), and the check for a
negative one never holds.

The fuel of a loop bounds its rounds; a loop that runs out of it does not return.
-/

namespace QuicNfs.Transport

open Kernel

/-- A call of the transport, or a function built from such calls. -/
abbrev Call (τ : Type) := StateT τ Option

/-- An `ssize_t` converted to `size_t`. -/
def toSize (n : Int) : Nat := (n % 2 ^ 64).toNat

/-- What `recv` answers: the bytes it stored, or an error. -/
inductive RecvResult where
  | received (data : Bytes)
  | failed (errorCode : Nat)
deriving DecidableEq, Repr

namespace RecvResult

/-- The result as the `ssize_t` that `recv` returns. -/
def count : RecvResult → Int
  | received data => data.length
  | failed errorCode => -(errorCode : Int) - 1

def data : RecvResult → Bytes
  | received data => data
  | failed _ => []

end RecvResult

variable {τ : Type}

/-! ## Single buffers -/

/-- Offers the rest of the buffer to `write` until it is used up. -/
def sendBytes (write : Bytes → Call τ Int) (sourceBuffer : Bytes) : Nat → Nat → Call τ Nat
  | 0, _ => failure
  | fuel + 1, totalBytesSent => do
    if totalBytesSent < sourceBuffer.length then
      let bytesSent := toSize (← write (sourceBuffer.drop totalBytesSent))
      -- a `size_t` is not negative: the test is that of the source, and it never holds
      if bytesSent < 0 then return 1
      if bytesSent = 0 then return 2 -- to avoid infinite loops
      sendBytes write sourceBuffer fuel ((totalBytesSent + bytesSent) % 2 ^ 64)
    else return 0

def sendBytesTcp {Socket : Type} (send : Socket → Bytes → Call τ Int) (socketFd : Socket)
    (sourceBuffer : Bytes) (fuel : Nat) : Call τ Nat :=
  sendBytes (send socketFd) sourceBuffer fuel 0

def sendBytesQuic {Conn : Type} (quicStreamWrite : Conn → Nat → Bytes → Call τ Int) (conn : Conn)
    (streamId : Nat) (sourceBuffer : Bytes) (fuel : Nat) : Call τ Nat :=
  sendBytes (quicStreamWrite conn streamId) sourceBuffer fuel 0

/-- A buffer with `data` written at an offset. -/
def store (buffer : Bytes) (offset : Nat) (data : Bytes) : Bytes :=
  buffer.take offset ++ data ++ buffer.drop (offset + data.length)

/-- Asks `recv` for what is still missing until the buffer is full. -/
def receiveBytes (recv : Nat → Call τ RecvResult) (bytesToRead : Nat) :
    Nat → Nat → Bytes → Call τ (Nat × Bytes)
  | 0, _, _ => failure
  | fuel + 1, totalBytesRead, destinationBuffer => do
    if totalBytesRead < bytesToRead then
      let result ← recv (bytesToRead - totalBytesRead)
      -- `recv` has written to the buffer before its result is looked at
      let destinationBuffer := store destinationBuffer totalBytesRead result.data
      let bytesRead := toSize result.count
      if bytesRead < 0 then return (1, destinationBuffer)
      if bytesRead = 0 then return (2, destinationBuffer) -- to avoid infinite loops
      receiveBytes recv bytesToRead fuel ((totalBytesRead + bytesRead) % 2 ^ 64) destinationBuffer
    else return (0, destinationBuffer)

def receiveBytesTcp {Socket : Type} (recv : Socket → Nat → Call τ RecvResult) (socketFd : Socket)
    (bytesToRead : Nat) (destinationBuffer : Bytes) (fuel : Nat) : Call τ (Nat × Bytes) :=
  receiveBytes (recv socketFd) bytesToRead fuel 0 destinationBuffer

/-! ## Records -/

/-- Sends what is left of a record, fragment after fragment. -/
def sendRmRecord (sendBytes : Bytes → Call τ Nat) : Nat → Bytes → Call τ Nat
  | 0, _ => failure
  | rounds + 1, left => do
    if 0 < left.length then
      let fragmentSize := nextFragmentSize left.length
      -- the bit of the last fragment
      let header := fragmentHeader (left.length = fragmentSize) fragmentSize
      if (← sendBytes header) > 0 then return 1
      if (← sendBytes (left.take fragmentSize)) > 0 then return 2
      sendRmRecord sendBytes rounds (left.drop fragmentSize)
    else return 0

def sendRmRecordTcp {Socket : Type} (send : Socket → Bytes → Call τ Int) (socketFd : Socket)
    (rmRecordData : Bytes) (fuel : Nat) : Call τ Nat :=
  sendRmRecord (fun buffer => sendBytesTcp send socketFd buffer fuel) fuel rmRecordData

def sendRmRecordQuic {Conn : Type} (quicStreamWrite : Conn → Nat → Bytes → Call τ Int)
    (conn : Conn) (streamId : Nat) (rmRecordData : Bytes) (fuel : Nat) : Call τ Nat :=
  sendRmRecord (fun buffer => sendBytesQuic quicStreamWrite conn streamId buffer fuel) fuel
    rmRecordData

/-- A buffer that nobody has written to yet. The argument is whatever the memory
happens to hold. -/
def uninitialised (memory : Nat → UInt8) (size : Nat) : Bytes := (List.range size).map memory

@[simp] theorem length_uninitialised (memory : Nat → UInt8) (size : Nat) :
    (uninitialised memory size).length = size := by
  simp [uninitialised]

/-- Receives fragments up to the last one of a record; `none` is the NULL of a
failure. Neither the header buffer nor the new part of the data buffer is
initialised. -/
def receiveRmRecord (receiveBytes : Nat → Bytes → Call τ (Nat × Bytes))
    (memory : Nat → Nat → UInt8) : Nat → Bytes → Call τ (Option Bytes)
  | 0, _ => failure
  | rounds + 1, rmRecordData => do
    let (errorCode, header) ← receiveBytes RM_FRAGMENT_HEADER_SIZE
      (uninitialised (memory (2 * rounds)) RM_FRAGMENT_HEADER_SIZE)
    if errorCode > 0 then return none
    let (errorCode, payload) ← receiveBytes (fragmentSize header)
      (uninitialised (memory (2 * rounds + 1)) (fragmentSize header))
    if errorCode > 0 then return none
    if isLastFragment header then return some (rmRecordData ++ payload)
    receiveRmRecord receiveBytes memory rounds (rmRecordData ++ payload)

def receiveRmRecordTcp {Socket : Type} (recv : Socket → Nat → Call τ RecvResult)
    (socketFd : Socket) (memory : Nat → Nat → UInt8) (fuel : Nat) : Call τ (Option Bytes) :=
  receiveRmRecord (fun bytesToRead buffer => receiveBytesTcp recv socketFd bytesToRead buffer fuel)
    memory fuel []

/-- The same loop with the pointer to the data: `realloc` says whether there is a buffer after
a call, from whether there was one and the size that is asked for. The loop never looks at the
pointer before it returns it. -/
def receiveRmRecordInto (realloc : Bool → Nat → Bool)
    (receiveBytes : Nat → Bytes → Call τ (Nat × Bytes)) (memory : Nat → Nat → UInt8) :
    Nat → Bool → Bytes → Call τ (Option Bytes)
  | 0, _, _ => failure
  | rounds + 1, buffer, rmRecordData => do
    let (errorCode, header) ← receiveBytes RM_FRAGMENT_HEADER_SIZE
      (uninitialised (memory (2 * rounds)) RM_FRAGMENT_HEADER_SIZE)
    if errorCode > 0 then return none
    -- the result goes into the same variable, so that after a failure the old buffer is lost
    let buffer := realloc buffer (rmRecordData.length + fragmentSize header)
    let (errorCode, payload) ← receiveBytes (fragmentSize header)
      (uninitialised (memory (2 * rounds + 1)) (fragmentSize header))
    if errorCode > 0 then return none
    if isLastFragment header then return if buffer then some (rmRecordData ++ payload) else none
    receiveRmRecordInto realloc receiveBytes memory rounds buffer (rmRecordData ++ payload)

/-- While every allocation succeeds, the pointer makes no difference. -/
theorem receiveRmRecord_eq_into (receiveBytes : Nat → Bytes → Call τ (Nat × Bytes))
    (memory : Nat → Nat → UInt8) (rounds : Nat) (buffer : Bool) (rmRecordData : Bytes) :
    receiveRmRecord receiveBytes memory rounds rmRecordData =
      receiveRmRecordInto (fun _ _ => true) receiveBytes memory rounds buffer rmRecordData := by
  induction rounds generalizing buffer rmRecordData with
  | zero => rfl
  | succ rounds ih =>
    rw [receiveRmRecord, receiveRmRecordInto]
    simp only [ih true, if_true]

/-! ## One round of a loop

A call that returns has gone through its rounds one after the other. Each lemma
below lists what the next one can be. -/

theorem run_bind_eq_some {α β : Type} {x : Call τ α} {f : α → Call τ β} {s t : τ} {b : β} :
    (x >>= f).run s = some (b, t) ↔
      ∃ a s', x.run s = some (a, s') ∧ (f a).run s' = some (b, t) := by
  rw [StateT.run_bind]
  simp [Option.bind_eq_some_iff]

section Rounds

variable {write : Bytes → Call τ Int} {recv : Nat → Call τ RecvResult} {s s' : τ}
variable {total : Nat}

theorem sendBytes_done {buffer : Bytes} (h : buffer.length ≤ total) (fuel : Nat) (s : τ) :
    (sendBytes write buffer (fuel + 1) total).run s = some (0, s) := by
  rw [sendBytes, if_neg (by omega)]
  rfl

theorem sendBytes_round {buffer : Bytes} (h : total < buffer.length) {n : Int}
    (hWrite : (write (buffer.drop total)).run s = some (n, s')) (fuel : Nat) :
    (sendBytes write buffer (fuel + 1) total).run s =
      if toSize n = 0 then some (2, s')
      else (sendBytes write buffer fuel ((total + toSize n) % 2 ^ 64)).run s' := by
  rw [sendBytes, if_pos h, StateT.run_bind, hWrite]
  simp only [Option.bind_eq_bind, Option.bind_some, Nat.not_lt_zero, if_false]
  split <;> rfl

theorem receiveBytes_done {bytesToRead : Nat} (h : bytesToRead ≤ total) (fuel : Nat)
    (buffer : Bytes) (s : τ) :
    (receiveBytes recv bytesToRead (fuel + 1) total buffer).run s = some ((0, buffer), s) := by
  rw [receiveBytes, if_neg (by omega)]
  rfl

theorem receiveBytes_round {bytesToRead : Nat} (h : total < bytesToRead) {r : RecvResult}
    (hRecv : (recv (bytesToRead - total)).run s = some (r, s')) (fuel : Nat) (buffer : Bytes) :
    (receiveBytes recv bytesToRead (fuel + 1) total buffer).run s =
      if toSize r.count = 0 then some ((2, store buffer total r.data), s')
      else (receiveBytes recv bytesToRead fuel ((total + toSize r.count) % 2 ^ 64)
        (store buffer total r.data)).run s' := by
  rw [receiveBytes, if_pos h, StateT.run_bind, hRecv]
  simp only [Option.bind_eq_bind, Option.bind_some, Nat.not_lt_zero, if_false]
  split <;> rfl

/-- A round of `sendRmRecord`: the header and the data of one fragment. -/
theorem sendRmRecord_round {send : Bytes → Call τ Nat} {left : Bytes} (hne : left ≠ []) {n : Nat}
    (hn : n = nextFragmentSize left.length) (rounds : Nat) :
    sendRmRecord send (rounds + 1) left = (do
      if (← send (fragmentHeader (left.length = n) n)) > 0 then return 1
      if (← send (left.take n)) > 0 then return 2
      sendRmRecord send rounds (left.drop n)) := by
  rw [sendRmRecord, if_pos (List.length_pos_iff.mpr hne), hn]

end Rounds

end QuicNfs.Transport

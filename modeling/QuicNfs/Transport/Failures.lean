import QuicNfs.Transport.Lossless

/-!
# QuicNfs — are transport failures reported?

The loops of `Transport/RecordTransfer.lean` under any sequence of answers: short
counts, zero, and negative error codes at any position.

* `Script` — a transport that gives the answers of a list;
* `sendBytes_used`, `receiveBytes_used`, `sendRmRecord_used`,
  `receiveRmRecord_used` — each function in terms of the answers it was given: it
  fails if and only if one of them was zero;
* `failures_reported_iff` — failures are reported exactly when there is none, or
  when a call answers zero;
* `errors_unreported` — failed calls that are not reported.
-/

namespace QuicNfs.Transport

open Kernel List

/-! ## Scripted transports -/

/-- A transport that gives the answers of a list in turn, and the bytes it has
moved so far. After the last answer it does not return. -/
structure Script (ρ : Type) where
  results : List ρ
  moved : Bytes := []
deriving DecidableEq, Repr

/-- A call of `send` or `quic_stream_write`. It takes no more than it was offered. -/
def Script.write (data : Bytes) : Call (Script Int) Int := fun s =>
  match s.results with
  | [] => none
  | r :: results =>
    let bytesSent := min r data.length
    some (bytesSent, ⟨results, s.moved ++ data.take bytesSent.toNat⟩)

/-- At most `n` bytes of what was received. -/
def RecvResult.truncate (n : Nat) : RecvResult → RecvResult
  | received data => received (data.take n)
  | failed errorCode => failed errorCode

/-- A call of `recv`. It stores no more than it was asked for. -/
def Script.recv (n : Nat) : Call (Script RecvResult) RecvResult := fun s =>
  match s.results with
  | [] => none
  | r :: results => some (r.truncate n, ⟨results, s.moved ++ (r.truncate n).data⟩)

/-- The answers are values of type `ssize_t`. -/
def Words (rs : List Int) : Prop := ∀ r ∈ rs, -2 ^ 63 ≤ r

/-- No call fails, or one of them does nothing. -/
def NoErrorOrZero (rs : List Int) : Prop := (∀ r ∈ rs, 0 ≤ r) ∨ 0 ∈ rs

theorem toSize_eq_zero {n : Int} (hLow : -2 ^ 63 ≤ n) (hHigh : n < 2 ^ 64) :
    toSize n = 0 ↔ n = 0 := by
  unfold toSize
  omega

theorem toSize_of_nonneg {n : Int} (hLow : 0 ≤ n) (hHigh : n < 2 ^ 64) : toSize n = n.toNat := by
  unfold toSize
  omega

/-! ## The answers a function was given -/

section Used

variable {ρ : Type} {count : ρ → Int} {s s₁ s' : Script ρ} {used used' : List ρ}
  {failed failed' : Prop}

/-- A function used these answers, and fails if and only if one of them is zero. -/
structure Used (count : ρ → Int) (s s' : Script ρ) (used : List ρ) (failed : Prop) : Prop where
  results : s.results = used ++ s'.results
  zero : failed ↔ 0 ∈ used.map count

theorem Used.nil (h : ¬failed) : Used count s s [] failed :=
  ⟨rfl, iff_of_false h (by simp)⟩

theorem Used.append (h : Used count s s₁ used failed) (hOk : ¬failed)
    (h' : Used count s₁ s' used' failed') : Used count s s' (used ++ used') failed' := by
  have hNoZero : 0 ∉ used.map count := fun hMem => hOk (h.zero.mpr hMem)
  refine ⟨by rw [h.results, h'.results, append_assoc], ?_⟩
  rw [h'.zero, map_append, mem_append]
  exact ⟨Or.inr, fun hMem => hMem.resolve_left hNoZero⟩

theorem Used.congr (h : Used count s s' used failed) (hIff : failed ↔ failed') :
    Used count s s' used failed' :=
  ⟨h.results, hIff.symm.trans h.zero⟩

/-- The next answer, then the others. -/
theorem Used.cons {r : ρ} {results : List ρ} {moved : Bytes} (hr : count r ≠ 0)
    (h : Used count ⟨results, moved⟩ s' used failed) {moved₀ : Bytes} :
    Used count ⟨r :: results, moved₀⟩ s' (r :: used) failed := by
  refine ⟨by rw [cons_append, ← h.results], ?_⟩
  rw [h.zero, map_cons, mem_cons]
  exact ⟨Or.inr, fun hMem => hMem.resolve_left (Ne.symm hr)⟩

theorem Used.zero_last {r : ρ} {results : List ρ} {moved moved₀ : Bytes} (hr : count r = 0)
    (hFail : failed) : Used count ⟨r :: results, moved₀⟩ ⟨results, moved⟩ [r] failed :=
  ⟨rfl, iff_of_true hFail (by simp [hr])⟩

theorem Used.words (h : Used count s s' used failed) (hWords : Words (s.results.map count)) :
    Words (s'.results.map count) := by
  intro r hr
  rw [h.results, map_append] at hWords
  exact hWords r (mem_append_right _ hr)

end Used

/-! ## Sending -/

/-- The bytes of a buffer were sent, unless something went wrong. -/
structure Sent (s s' : Script Int) (used : List Int) (code : Nat) (data : Bytes) : Prop
    extends Used id s s' used (code ≠ 0) where
  moved : (∀ r ∈ used, 0 ≤ r) → code = 0 → s'.moved = s.moved ++ data

variable {code : Nat}

/-- One buffer after another. -/
theorem Sent.append {s s₁ s' : Script Int} {used used' : List Int} {data data' : Bytes}
    (h : Sent s s₁ used 0 data) (h' : Sent s₁ s' used' code data') :
    Sent s s' (used ++ used') code (data ++ data') := by
  refine ⟨h.toUsed.append (by simp) h'.toUsed, fun hNonneg hCode => ?_⟩
  rw [h'.moved (fun r hr => hNonneg r (mem_append_right _ hr)) hCode,
    h.moved (fun r hr => hNonneg r (mem_append_left _ hr)) rfl, append_assoc]

/-- A failure ends the sequence. -/
theorem Sent.fail {s s' : Script Int} {used : List Int} {code' : Nat} {data : Bytes}
    (h : Sent s s' used code data) (hCode : code ≠ 0) (hCode' : code' ≠ 0) (data' : Bytes) :
    Sent s s' used code' data' :=
  ⟨h.toUsed.congr ⟨fun _ => hCode', fun _ => hCode⟩, fun _ hZero => absurd hZero hCode'⟩

theorem sendBytes_used {buffer : Bytes} (hSize : buffer.length < 2 ^ 64) {fuel total : Nat}
    {s s' : Script Int} (hWords : Words (s.results.map id))
    (hRun : (sendBytes Script.write buffer fuel total).run s = some (code, s')) :
    ∃ used, Sent s s' used code (buffer.drop total) := by
  induction fuel generalizing total s with
  | zero => cases hRun
  | succ fuel ih =>
    by_cases hDone : buffer.length ≤ total
    · rw [sendBytes_done hDone] at hRun
      cases hRun
      refine ⟨[], Used.nil (by simp), fun _ _ => ?_⟩
      rw [drop_eq_nil_of_le hDone, append_nil]
    · have hLeft : total < buffer.length := Nat.lt_of_not_le hDone
      rcases s with ⟨_ | ⟨r, results⟩, moved⟩
      · -- the transport has no answer
        rw [sendBytes, if_pos hLeft] at hRun
        cases hRun
      · have hr : -2 ^ 63 ≤ r := hWords r (by simp)
        rw [sendBytes_round hLeft rfl, length_drop] at hRun
        obtain ⟨n, hn⟩ : ∃ n, n = min r ((buffer.length - total : Nat) : Int) := ⟨_, rfl⟩
        rw [← hn] at hRun
        have hZero : toSize n = 0 ↔ n = 0 := toSize_eq_zero (by omega) (by omega)
        split at hRun
        · next h =>
          cases hRun
          have hrZero : r = 0 := by omega
          exact ⟨[r], Used.zero_last hrZero (by decide), fun _ hCode => by cases hCode⟩
        · next h =>
          obtain ⟨used, hRest⟩ := ih (fun t ht => hWords t (mem_cons_of_mem _ ht)) hRun
          have hrZero : r ≠ 0 := by omega
          refine ⟨r :: used, hRest.toUsed.cons hrZero, fun hNonneg hCode => ?_⟩
          -- without an error the counter does not wrap
          have hrPos : 0 ≤ r := hNonneg r (by simp)
          have hNext : (total + toSize n) % 2 ^ 64 = total + n.toNat := by
            rw [toSize_of_nonneg (by omega) (by omega)]
            exact Nat.mod_eq_of_lt (by omega)
          rw [hRest.moved (fun t ht => hNonneg t (mem_cons_of_mem _ ht)) hCode, hNext,
            ← drop_drop, append_assoc, take_append_drop]

theorem sendRmRecord_used {send : Bytes → Call (Script Int) Nat}
    (hSend : ∀ {buffer s s' code}, buffer.length < 2 ^ 64 → Words (s.results.map id) →
      (send buffer).run s = some (code, s') → ∃ used, Sent s s' used code buffer) {rounds : Nat}
    {left : Bytes} (hSize : left.length < 2 ^ 64) {s s' : Script Int}
    (hWords : Words (s.results.map id))
    (hRun : (sendRmRecord send rounds left).run s = some (code, s')) :
    ∃ used, Sent s s' used code (encodeRecord left) := by
  induction rounds generalizing left s with
  | zero => cases hRun
  | succ rounds ih =>
    by_cases hne : left = []
    · subst hne
      cases hRun
      exact ⟨[], Used.nil (by simp), fun _ _ => (append_nil _).symm⟩
    · obtain ⟨n, hn⟩ : ∃ n, n = nextFragmentSize left.length := ⟨_, rfl⟩
      rw [sendRmRecord_round hne hn] at hRun
      -- the header
      obtain ⟨c₁, s₁, hRun₁, hRun⟩ := run_bind_eq_some.mp hRun
      obtain ⟨used₁, hSent₁⟩ := hSend (by rw [length_fragmentHeader]; decide) hWords hRun₁
      split at hRun
      · next hFail =>
        cases hRun
        exact ⟨used₁, hSent₁.fail (Nat.ne_of_gt hFail) (by decide) _⟩
      next hOk₁ =>
      obtain rfl : c₁ = 0 := Nat.eq_zero_of_not_pos hOk₁
      have hWords₁ := hSent₁.words hWords
      -- the data
      obtain ⟨c₂, s₂, hRun₂, hRun⟩ := run_bind_eq_some.mp hRun
      obtain ⟨used₂, hSent₂⟩ := hSend (by rw [length_take]; omega) hWords₁ hRun₂
      split at hRun
      · next hFail =>
        cases hRun
        exact ⟨_, (hSent₁.append hSent₂).fail (Nat.ne_of_gt hFail) (by decide) _⟩
      next hOk₂ =>
      obtain rfl : c₂ = 0 := Nat.eq_zero_of_not_pos hOk₂
      have hWords₂ := hSent₂.words hWords₁
      -- the other fragments
      obtain ⟨used₃, hSent₃⟩ := ih (by rw [length_drop]; omega) hWords₂ hRun
      rw [encodeRecord_step hne, ← hn]
      exact ⟨_, (hSent₁.append hSent₂).append hSent₃⟩

/-! ## Receiving -/

theorem RecvResult.count_truncate_eq_zero {n : Nat} (hn : 0 < n) (r : RecvResult) :
    (r.truncate n).count = 0 ↔ r.count = 0 := by
  cases r with
  | failed errorCode => rfl
  | received data =>
    simp only [truncate, count, length_take]
    omega

theorem RecvResult.length_data_truncate (n : Nat) (r : RecvResult) :
    (r.truncate n).data.length ≤ n := by
  cases r with
  | failed errorCode => exact Nat.zero_le _
  | received data => exact length_take_le _ _

theorem RecvResult.data_length_of_nonneg {r : RecvResult} (h : 0 ≤ r.count) :
    r.count = r.data.length := by
  cases r with
  | failed errorCode =>
    simp only [count] at h
    omega
  | received data => rfl

theorem receiveBytes_used {bytesToRead : Nat} (hSize : bytesToRead < 2 ^ 64) {fuel total : Nat}
    {buffer : Bytes} (hBuffer : buffer.length = bytesToRead) {s s' : Script RecvResult}
    (hWords : Words (s.results.map RecvResult.count)) {buffer' : Bytes}
    (hRun : (receiveBytes Script.recv bytesToRead fuel total buffer).run s =
      some ((code, buffer'), s')) :
    buffer'.length = bytesToRead ∧ ∃ used, Used RecvResult.count s s' used (code ≠ 0) ∧
      ((∀ r ∈ used, 0 ≤ r.count) → code = 0 → total ≤ bytesToRead →
        ∃ data, s'.moved = s.moved ++ data ∧ buffer' = buffer.take total ++ data) := by
  induction fuel generalizing total buffer s with
  | zero => cases hRun
  | succ fuel ih =>
    by_cases hDone : bytesToRead ≤ total
    · rw [receiveBytes_done hDone] at hRun
      cases hRun
      refine ⟨hBuffer, [], Used.nil (by simp), fun _ _ _ => ⟨[], by simp, ?_⟩⟩
      rw [take_of_length_le (by omega), append_nil]
    · have hLeft : total < bytesToRead := Nat.lt_of_not_le hDone
      rcases s with ⟨_ | ⟨r, results⟩, moved⟩
      · -- the transport has no answer
        rw [receiveBytes, if_pos hLeft] at hRun
        cases hRun
      · have hr : -2 ^ 63 ≤ r.count := hWords r.count (by simp)
        rw [receiveBytes_round hLeft rfl] at hRun
        obtain ⟨r', hr'⟩ : ∃ r', r' = r.truncate (bytesToRead - total) := ⟨_, rfl⟩
        rw [← hr'] at hRun
        have hData : r'.data.length ≤ bytesToRead - total := hr' ▸ r.length_data_truncate _
        have hCount : r'.count = 0 ↔ r.count = 0 :=
          hr' ▸ r.count_truncate_eq_zero (Nat.sub_pos_of_lt hLeft)
        have hSame : r'.count = r.count ∨ r'.count = r'.data.length := by
          subst hr'
          cases r with
          | failed errorCode => exact .inl rfl
          | received data => exact .inr rfl
        have hZero : toSize r'.count = 0 ↔ r'.count = 0 := by
          refine toSize_eq_zero (by omega) ?_
          cases r' with
          | failed errorCode => simp only [RecvResult.count]; omega
          | received data => simp only [RecvResult.count, RecvResult.data] at hData ⊢; omega
        have hStored : (store buffer total r'.data).length = bytesToRead := by
          rw [length_store (by omega), hBuffer]
        split at hRun
        · next h =>
          cases hRun
          refine ⟨hStored, [r], Used.zero_last (hCount.mp (hZero.mp h)) (by decide), ?_⟩
          intro _ hCode
          cases hCode
        · next h =>
          obtain ⟨hLength, used, hUsed, hMoved⟩ := ih hStored
            (fun t ht => hWords t (mem_cons_of_mem _ ht)) hRun
          have hrZero : r.count ≠ 0 := fun hZ => h (hZero.mpr (hCount.mpr hZ))
          refine ⟨hLength, r :: used, hUsed.cons hrZero, fun hNonneg hCode _ => ?_⟩
          -- without an error the counter does not wrap
          have hrPos : 0 ≤ r'.count := by
            have := hNonneg r (by simp)
            omega
          have hLengthData := RecvResult.data_length_of_nonneg hrPos
          have hNext : (total + toSize r'.count) % 2 ^ 64 = total + r'.data.length := by
            rw [toSize_of_nonneg hrPos (by omega), hLengthData, Int.toNat_natCast]
            exact Nat.mod_eq_of_lt (by omega)
          obtain ⟨data, hMoved, hStore⟩ := hMoved
            (fun t ht => hNonneg t (mem_cons_of_mem _ ht)) hCode (by omega)
          rw [hNext, store_of_le (by omega), append_assoc] at hStore
          exact ⟨r'.data ++ data, by rw [hMoved, append_assoc], hStore⟩

theorem receiveRmRecord_used {receive : Nat → Bytes → Call (Script RecvResult) (Nat × Bytes)}
    (hReceive : ∀ {n buffer s s' code buffer'}, n < 2 ^ 64 → buffer.length = n →
      Words (s.results.map RecvResult.count) →
      (receive n buffer).run s = some ((code, buffer'), s') →
      ∃ used, Used RecvResult.count s s' used (code ≠ 0))
    {memory : Nat → Nat → UInt8} {rounds : Nat} {acc : Bytes} {s s' : Script RecvResult}
    (hWords : Words (s.results.map RecvResult.count)) {result : Option Bytes}
    (hRun : (receiveRmRecord receive memory rounds acc).run s = some (result, s')) :
    ∃ used, Used RecvResult.count s s' used (result = none) := by
  induction rounds generalizing acc s with
  | zero => cases hRun
  | succ rounds ih =>
    rw [receiveRmRecord] at hRun
    -- the header
    obtain ⟨⟨c₁, header⟩, s₁, hRun₁, hRun⟩ := run_bind_eq_some.mp hRun
    obtain ⟨used₁, hUsed₁⟩ := hReceive (by decide) (by simp) hWords hRun₁
    dsimp only at hRun
    split at hRun
    · next hFail =>
      cases hRun
      exact ⟨used₁, hUsed₁.congr (by simp [Nat.ne_of_gt hFail])⟩
    next hOk₁ =>
    have hWords₁ := hUsed₁.words hWords
    -- the data, whatever size the header gives
    obtain ⟨⟨c₂, payload⟩, s₂, hRun₂, hRun⟩ := run_bind_eq_some.mp hRun
    have hSize : fragmentSize header < 2 ^ 64 :=
      Nat.lt_of_le_of_lt (fragmentSize_le header) (by decide)
    obtain ⟨used₂, hUsed₂⟩ := hReceive hSize (by simp) hWords₁ hRun₂
    have hUsed := hUsed₁.append (by omega) hUsed₂
    dsimp only at hRun
    split at hRun
    · next hFail =>
      cases hRun
      exact ⟨_, hUsed.congr (by simp [Nat.ne_of_gt hFail])⟩
    next hOk₂ =>
    split at hRun
    · cases hRun
      exact ⟨_, hUsed.congr (by simp; omega)⟩
    · -- the other fragments
      obtain ⟨used₃, hUsed₃⟩ := ih (hUsed₂.words hWords₁) hRun
      exact ⟨_, hUsed.append (by omega) hUsed₃⟩

/-! ## Reporting -/

/-- Failures are reported: success means that the work is done, and an error
among the answers means failure. -/
def Reports (rs : List Int) (success done : Prop) : Prop :=
  (success → done) ∧ ((∃ r ∈ rs, r < 0) → ¬success)

theorem reports_iff {rs : List Int} {success done : Prop} (hZero : ¬success ↔ 0 ∈ rs)
    (hDone : (∀ r ∈ rs, 0 ≤ r) → success → done) : Reports rs success done ↔ NoErrorOrZero rs := by
  constructor
  · intro ⟨_, hFail⟩
    by_cases hNonneg : ∀ r ∈ rs, 0 ≤ r
    · exact .inl hNonneg
    · -- the error has to be reported, which only a zero does
      refine .inr (hZero.mp (hFail ?_))
      by_contra hNone
      exact hNonneg fun r hr => Int.not_lt.mp fun hNeg => hNone ⟨r, hr, hNeg⟩
  · rintro (hNonneg | hMem)
    · refine ⟨hDone hNonneg, ?_⟩
      rintro ⟨r, hr, hNeg⟩
      exact absurd (hNonneg r hr) (Int.not_le.mpr hNeg)
    · have hFail : ¬success := hZero.mpr hMem
      exact ⟨fun hSuccess => absurd hSuccess hFail, fun _ => hFail⟩

/-- A function sends its argument in some form, and was given exactly the answers
`rs`. It reports failures if and only if none of them is an error, or one is zero. -/
def SendReports (send : Bytes → Call (Script Int) Nat) (form : Bytes → Bytes) : Prop :=
  ∀ data rs code moved, data.length < 2 ^ 64 → Words rs →
    (send data).run ⟨rs, []⟩ = some (code, ⟨[], moved⟩) →
      (Reports rs (code = 0) (moved = form data) ↔ NoErrorOrZero rs)

theorem sendReports_of_used {send : Bytes → Call (Script Int) Nat} {form : Bytes → Bytes}
    (hSend : ∀ {data s s' code}, data.length < 2 ^ 64 → Words (s.results.map id) →
      (send data).run s = some (code, s') → ∃ used, Sent s s' used code (form data)) :
    SendReports send form := by
  intro data rs code moved hSize hWords hRun
  obtain ⟨used, hSent⟩ := hSend hSize (by simpa using hWords) hRun
  obtain rfl : rs = used := by simpa using hSent.results
  refine reports_iff (by simpa using hSent.zero) fun hNonneg hCode => ?_
  simpa using hSent.moved hNonneg hCode

theorem sendReports_sendBytes (fuel : Nat) :
    SendReports (fun buffer => sendBytes Script.write buffer fuel 0) (fun buffer => buffer) :=
  sendReports_of_used fun hSize hWords hRun => by
    simpa using sendBytes_used hSize hWords hRun

theorem sendReports_sendRmRecord (fuel : Nat) :
    SendReports (sendRmRecord (fun buffer => sendBytes Script.write buffer fuel 0) fuel)
      encodeRecord :=
  sendReports_of_used fun hSize hWords hRun =>
    sendRmRecord_used (fun hSize hWords hRun => by simpa using sendBytes_used hSize hWords hRun)
      hSize hWords hRun

variable {Socket Conn : Type}

/-- **Which failures are reported.** Take any function that sends or receives,
and the exact sequence of answers its calls of `send`, `quic_stream_write` or
`recv` gave. The function reports failures if and only if none of the answers is
an error, or one of them is zero: an error that is not followed by a zero is
lost. -/
theorem failures_reported_iff (socketFd : Socket) (conn : Conn) (streamId fuel : Nat)
    (memory : Nat → Nat → UInt8) :
    SendReports (sendBytesTcp (fun _ => Script.write) socketFd · fuel) (fun buffer => buffer) ∧
    SendReports (sendBytesQuic (fun _ _ => Script.write) conn streamId · fuel)
      (fun buffer => buffer) ∧
    SendReports (sendRmRecordTcp (fun _ => Script.write) socketFd · fuel) encodeRecord ∧
    SendReports (sendRmRecordQuic (fun _ _ => Script.write) conn streamId · fuel) encodeRecord ∧
    (∀ buffer rs code buffer' moved, buffer.length < 2 ^ 64 → Words (rs.map RecvResult.count) →
      (receiveBytesTcp (fun _ => Script.recv) socketFd buffer.length buffer fuel).run ⟨rs, []⟩ =
        some ((code, buffer'), ⟨[], moved⟩) →
      (Reports (rs.map RecvResult.count) (code = 0)
          (moved.length = buffer.length ∧ buffer' = moved) ↔
        NoErrorOrZero (rs.map RecvResult.count))) ∧
    (∀ rs result moved, Words (rs.map RecvResult.count) →
      (receiveRmRecordTcp (fun _ => Script.recv) socketFd memory fuel).run ⟨rs, []⟩ =
        some (result, ⟨[], moved⟩) →
      (((∃ r ∈ rs, r.count < 0) → result = none) ↔ NoErrorOrZero (rs.map RecvResult.count))) := by
  refine ⟨sendReports_sendBytes fuel, sendReports_sendBytes fuel, sendReports_sendRmRecord fuel,
    sendReports_sendRmRecord fuel, ?_, ?_⟩
  · intro buffer rs code buffer' moved hSize hWords hRun
    obtain ⟨hLength, used, hUsed, hMoved⟩ := receiveBytes_used hSize rfl hWords hRun
    obtain rfl : rs = used := by simpa using hUsed.results
    refine reports_iff hUsed.zero fun hNonneg hCode => ?_
    obtain ⟨data, hData, hBuffer⟩ := hMoved
      (fun r hr => hNonneg _ (mem_map_of_mem hr)) hCode (Nat.zero_le _)
    obtain rfl : moved = data := by simpa using hData
    obtain rfl : buffer' = moved := by simpa using hBuffer
    exact ⟨hLength, rfl⟩
  · intro rs result moved hWords hRun
    obtain ⟨used, hUsed⟩ := receiveRmRecord_used
      (fun hSize hBuffer hWords hRun =>
        (receiveBytes_used hSize hBuffer hWords hRun).2.imp fun _ h => h.1) hWords hRun
    obtain rfl : rs = used := by simpa using hUsed.results
    have hReports : Reports (rs.map RecvResult.count) (result ≠ none) True ↔
        NoErrorOrZero (rs.map RecvResult.count) :=
      reports_iff (by rw [← hUsed.zero, not_not]) (fun _ _ => trivial)
    rw [← hReports]
    simp [Reports]

/-- Short counts without an error: the hypotheses hold and everything is reported. -/
theorem failures_reported_iff_short :
    (sendBytesTcp (fun _ => Script.write) 3 [1, 2, 3] 4).run ⟨[2, 1], []⟩ =
        some (0, ⟨[], [1, 2, 3]⟩) ∧
      (Reports [2, 1] (0 = 0) (([1, 2, 3] : Bytes) = [1, 2, 3]) ↔ NoErrorOrZero [2, 1]) :=
  ⟨rfl, (failures_reported_iff 3 () 0 4 fun _ _ => 0).1 [1, 2, 3] [2, 1] 0 [1, 2, 3] (by decide)
    (by simp [Words]) rfl⟩

/-- A single failed call, and nothing reports it: `send_bytes_tcp` answers 0 and
has sent nothing; `send_rm_record_tcp` and `send_rm_record_quic` answer 0 when
both of their calls fail; `receive_bytes_tcp` answers 0 and leaves the buffer as
it was. -/
theorem errors_unreported :
    (sendBytesTcp (fun _ => Script.write) 3 [1, 2, 3] 2).run ⟨[-1], []⟩ = some (0, ⟨[], []⟩) ∧
      (sendRmRecordTcp (fun _ => Script.write) 3 [1, 2, 3] 2).run ⟨[-1, -1], []⟩ =
        some (0, ⟨[], []⟩) ∧
      (sendRmRecordQuic (fun _ _ => Script.write) () 4 [1, 2, 3] 2).run ⟨[-1, -1], []⟩ =
        some (0, ⟨[], []⟩) ∧
      (receiveBytesTcp (fun _ => Script.recv) 3 2 [7, 8] 2).run ⟨[.failed 0], []⟩ =
        some ((0, [7, 8]), ⟨[], []⟩) :=
  ⟨rfl, rfl, rfl, rfl⟩

end QuicNfs.Transport

import QuicNfs.Client.ByteArray
import QuicNfs.Lib.Scatter

/-!
# QuicNfs — offsets that the protocol cannot carry

The handlers have offsets of 64 bits, the protocol has 32. A chunk that starts at 4 GiB
or behind goes to its offset modulo `2 ^ 32`, and no error is reported.

* `place` — where a byte of a transfer goes, or comes from;
* `storeChunks_eq_iff`, `isPrefix_fetchChunks_iff` — when that does no harm;
* `offsets_kept_iff` — the three handlers;
* `write_wraps` — a write at 4 GiB that changes the beginning of the file.
-/

namespace QuicNfs.Client

open Kernel Server Lib List

/-- Where the `b`-th byte of a transfer at `offset` goes: only the offset of its chunk is
narrowed. -/
def place (offset b : Nat) : Nat := (offset + 5000 * (b / 5000)) % 2 ^ 32 + b % 5000

theorem place_le (offset b : Nat) : place offset b ≤ offset + b := by
  have hMod : (offset + 5000 * (b / 5000)) % 2 ^ 32 ≤ offset + 5000 * (b / 5000) := Nat.mod_le _ _
  unfold place
  omega

variable {offset n fuel : Nat} {buffer : Bytes}

theorem place_add {j : Nat} (hn : n % 5000 = 0) (hj : j < 5000) :
    place offset (n + j) = place offset n + j := by
  unfold place
  rw [show (n + j) / 5000 = n / 5000 by omega, show (n + j) % 5000 = j by omega, hn]
  omega

theorem place_start (hn : n % 5000 = 0) : place offset n = (offset + n) % 2 ^ 32 := by
  unfold place
  rw [show 5000 * (n / 5000) = n by omega, hn, Nat.add_zero]

/-- A byte goes to the right place iff its chunk starts below 4 GiB. -/
theorem place_eq_iff {b : Nat} :
    place offset b = offset + b ↔ offset + 5000 * (b / 5000) < 2 ^ 32 := by
  unfold place
  constructor
  · intro h
    have hEq : (offset + 5000 * (b / 5000)) % 2 ^ 32 = offset + 5000 * (b / 5000) := by omega
    rw [← hEq]
    exact Nat.mod_lt _ (by decide)
  · intro h
    rw [Nat.mod_eq_of_lt h]
    omega

/-- If the last byte goes to the right place, all do. -/
theorem place_eq_of_last {b : Nat} (hb : b < n) (hLast : place offset (n - 1) = offset + (n - 1)) :
    place offset b = offset + b := by
  rw [place_eq_iff] at hLast ⊢
  have hLe : b / 5000 ≤ (n - 1) / 5000 := Nat.div_le_div_right (by omega)
  omega

/-! ## Writing -/

/-- The loop of `blocking_write` scatters its buffer. -/
theorem scattered_storeChunks {old data : Bytes}
    (h : Scattered 0 (place offset) buffer old n data) (hn : n ≤ buffer.length)
    (hStart : n % 5000 = 0 ∨ n = buffer.length) (hFuel : buffer.length - n < fuel) :
    Scattered 0 (place offset) buffer old buffer.length
      (storeChunks buffer offset fuel n data) := by
  induction fuel generalizing n data with
  | zero => omega
  | succ fuel ih =>
    unfold storeChunks
    by_cases hMore : n < buffer.length
    · rw [if_pos hMore]
      have hChunk : n % 5000 = 0 := by omega
      set m := min 5000 (buffer.length - n) with hm
      have hTake : (buffer.drop n).take WRITE_BYTES_PER_RPC = (buffer.drop n).take m := by
        rw [hm, ← take_take, ← length_drop, take_length, WRITE_BYTES_PER_RPC]
      have hLength : ((buffer.drop n).take m).length = m := by
        rw [length_take, length_drop]
        omega
      have hNext := h.splice (m := m) (by omega) (by omega) fun j hj =>
        place_add hChunk (by omega)
      rw [place_start hChunk] at hNext
      dsimp only
      rw [hTake, hLength, overwrite_eq_splice]
      exact ih hNext (by omega) (by omega) (by omega)
    · rw [if_neg hMore]
      rw [← show n = buffer.length by omega]
      exact h

/-- The file becomes what it should iff the bytes end up in their places. -/
theorem storeChunks_eq_iff (hFuel : buffer.length < fuel) (data : Bytes) :
    storeChunks buffer offset fuel 0 data = overwrite offset buffer data ↔
      Settled 0 (place offset) offset buffer data :=
  (scattered_storeChunks scattered_zero (Nat.zero_le _) (.inl rfl) hFuel).eq_splice_iff
    (place_le offset) fun _ hb => place_eq_of_last hb

/-- They do so if the last chunk starts below 4 GiB. -/
theorem settled_of_last (hLast : offset + 5000 * ((buffer.length - 1) / 5000) < 2 ^ 32)
    (data : Bytes) : Settled 0 (place offset) offset buffer data := by
  rw [← place_eq_iff] at hLast
  refine ⟨fun b x hx _ => ?_, fun b x hx hNone => ?_⟩
  · have hb := (List.getElem?_eq_some_iff.mp hx).1
    have hBuffer : buffer ≠ [] := ne_nil_of_length_pos (by omega)
    rw [place_eq_of_last hb hLast, getElem?_splice hBuffer, if_neg (by omega), if_pos (by omega),
      Nat.add_sub_cancel_left, hx]
  · have hb := (List.getElem?_eq_some_iff.mp hx).1
    exact absurd (place_eq_of_last hb hLast) (hNone b hb)

/-- At the end of a file, only then. -/
theorem settled_append_iff (data : Bytes) (hBuffer : buffer ≠ []) :
    Settled 0 (place data.length) data.length buffer data ↔
      data.length + 5000 * ((buffer.length - 1) / 5000) < 2 ^ 32 := by
  refine ⟨fun hSettled => ?_, fun hLast => settled_of_last hLast data⟩
  rw [← place_eq_iff]
  by_contra hEnd
  have hLong := hSettled.long (place_le _) (length_pos_iff.mpr hBuffer) hEnd
  omega

/-! ## Reading -/

/-- A READ is made for the chunk of the `b`-th byte: it is the first one, or starts inside
the file. -/
def Asked (data : Bytes) (size offset b : Nat) : Prop :=
  b < size ∧ (b < 5000 ∨ offset + 5000 * (b / 5000) < data.length)

instance (data : Bytes) (size offset b : Nat) : Decidable (Asked data size offset b) :=
  inferInstanceAs (Decidable (_ ∧ _))

theorem getElem?_fetchChunks (data : Bytes) (offset : Nat) (readBuffer : Bytes) {size : Nat}
    (hStart : readBuffer.length % 5000 = 0) (hSize : readBuffer.length ≤ size)
    (hMore : readBuffer.length = 0 ∨ offset + readBuffer.length < data.length)
    (hRead : ∀ b < readBuffer.length, readBuffer[b]? = data[place offset b]?)
    (hFuel : size - readBuffer.length < fuel) (b : Nat) :
    (fetchChunks data size offset fuel readBuffer)[b]? =
      if Asked data size offset b then data[place offset b]? else none := by
  induction fuel generalizing readBuffer with
  | zero => omega
  | succ fuel ih =>
    unfold fetchChunks
    set n := readBuffer.length with hn
    set count := min (size - n) READ_BYTES_PER_RPC with hCount
    set chunk := (data.drop ((offset + n) % 2 ^ 32)).take count with hChunkEq
    have hMax : count ≤ 5000 := Nat.min_le_right _ _
    have hChunk : chunk.length = min count (data.length - (offset + n) % 2 ^ 32) := by
      rw [hChunkEq, length_take, length_drop]
    have hLength : (readBuffer ++ chunk).length = n + chunk.length := length_append
    have hMod : (offset + n) % 2 ^ 32 ≤ offset + n := Nat.mod_le _ _
    -- the bytes that are in the buffer now
    have hNow : ∀ c < n + count, (readBuffer ++ chunk)[c]? = data[place offset c]? := by
      intro c hc
      by_cases hOld : c < n
      · rw [getElem?_append_left hOld]
        exact hRead c hOld
      · rw [getElem?_append_right (by omega), hChunkEq, getElem?_take_of_lt (by omega),
          getElem?_drop, ← place_start hStart, ← place_add hStart (by omega)]
        congr 2
        omega
    dsimp only
    by_cases hAgain : (readBuffer ++ chunk).length < size ∧
        offset + (readBuffer ++ chunk).length < data.length
    · -- a chunk that is not the last is complete
      rw [if_pos hAgain]
      have hFull : chunk.length = 5000 := by
        rw [READ_BYTES_PER_RPC] at hCount
        omega
      exact ih (readBuffer ++ chunk) (by omega) (by omega) (.inr hAgain.2) (fun c hc => hNow c (by omega)) (by omega)
    · rw [if_neg hAgain]
      by_cases hIn : b < n + count
      · rw [hNow b hIn, if_pos]
        refine ⟨by omega, ?_⟩
        have hDiv : 5000 * (b / 5000) ≤ n := by omega
        omega
      · have hNone : ¬ Asked data size offset b := by
          rintro ⟨hb, hFirst | hLater⟩
          · rw [READ_BYTES_PER_RPC] at hCount
            omega
          · rw [READ_BYTES_PER_RPC] at hCount
            have hDiv : n + 5000 ≤ 5000 * (b / 5000) := by omega
            omega
        rw [if_neg hNone]
        exact getElem?_eq_none (show (readBuffer ++ chunk).length ≤ b by omega)

/-- What is returned is from the right offset iff every byte at a place that is read is also
the one at its offset. -/
theorem isPrefix_fetchChunks_iff {data : Bytes} {size : Nat} (hFuel : size < fuel) :
    fetchChunks data size offset fuel [] <+: data.drop offset ↔
      ∀ b x, Asked data size offset b → data[place offset b]? = some x →
        data[offset + b]? = some x := by
  have hGet := getElem?_fetchChunks data offset [] rfl (Nat.zero_le _)
    (.inl rfl) (fun b hb => absurd hb (Nat.not_lt_zero b)) hFuel
  rw [List.prefix_iff_getElem?]
  constructor
  · intro hPrefix b x hAsked hx
    have hb := hGet b
    rw [if_pos hAsked, hx] at hb
    obtain ⟨hIn, hAt⟩ := List.getElem?_eq_some_iff.mp hb
    have hDrop := hPrefix b hIn
    rw [List.getElem?_drop, hAt] at hDrop
    exact hDrop
  · intro hSame b hIn
    have hb := hGet b
    rw [List.getElem?_eq_getElem hIn] at hb
    rw [List.getElem?_drop]
    by_cases hAsked : Asked data size offset b
    · rw [if_pos hAsked] at hb
      exact hSame b _ hAsked hb.symm
    · rw [if_neg hAsked] at hb
      exact absurd hb nofun

/-! ## The handlers -/

section Handlers

variable {root : Ino} {way : List (Name × Ino)} {known : Ino → Path} {l : Link} {data : Bytes}

/-- `append_to_file` succeeds, wherever the text goes. -/
theorem run_appendToFile (h : Ready root way known l data)
    (hView : l.world.view (destination root way) = some (known (destination root way))) (t : Nat)
    {text : Bytes} (hFuel : text.length + 1 < fuel) :
    ∃ l', (appendToFile ⟨destination root way, t⟩ fuel text).run l = (.returns 0, l') ∧
      Ready root way known l' (storeChunks (10 :: text) data.length fuel 0 data) := by
  have hBefore := h.before
  obtain ⟨fattr, w', hSize, hSame, hView', hServe⟩ := hBefore.quiet.getattr
    l.credential (h.view_before hView) hBefore.lookup hBefore.holds t
  have hReady := h.served (hBefore.undisturbed hSame fun x => .inl (by rw [hView']))
  have hKnown : (l.served w').world.view (destination root way) =
      some (known (destination root way)) := by
    show w'.view _ = _
    rw [hView']
    exact h.view_before hView
  obtain ⟨l', hWrite, hReady'⟩ :=
    run_writeChunks hReady hKnown (10 :: text) data.length t (Nat.zero_le _) hFuel
  refine ⟨l', ?_, hReady'⟩
  unfold appendToFile
  rw [run_nfsProcedure1GetFileAttributes (h.delivered _) hServe]
  dsimp only [StubResult.of]
  rw [hSize, Prog.run_bind, hWrite]
  rfl

/-- **Offsets of more than 32 bits.** On a link where no call is lost, to a server where no
call fails, for every file, every offset and every buffer:
`nfs_write` has done what it reports iff every byte ends up in its place, `nfs_read` iff
the bytes it was given are also those at its offset, and `append_to_file` iff the last of
its chunks starts below 4 GiB. The first two hold if every chunk starts below 4 GiB
(`place_eq_iff`). -/
theorem offsets_kept_iff (l : Link) (data : Bytes) (root : Ino) (t : Nat)
    (way : List (Name × Ino)) (known : Ino → Path) (hReady : Ready root way known l data)
    (path : Bytes) (hAbsolute : path.head? = some slash) (hPath : components path = way.map (·.1))
    (offset fuel : Nat) :
    (∀ buffer : Bytes, buffer.length < fuel →
      ∃ code l', (nfsWrite ⟨root, t⟩ fuel path buffer offset).run l = (.returns code, l') ∧
        ((0 ≤ code → l'.world.fs.Holds (destination root way) (overwrite offset buffer data)) ↔
          (0 ≤ code → Settled 0 (place offset) offset buffer data))) ∧
    (∀ size : Nat, size < fuel →
      ∃ code result l', (nfsRead ⟨root, t⟩ fuel path size offset).run l =
          ((.returns code, result), l') ∧
        ((0 ≤ code → result <+: data.drop offset) ↔
          (0 ≤ code → ∀ b x, Asked data size offset b → data[place offset b]? = some x →
            data[offset + b]? = some x))) ∧
    (∀ text : Bytes, text.length + 1 < fuel →
      l.world.view (destination root way) = some (known (destination root way)) →
      ∃ l', (appendToFile ⟨destination root way, t⟩ fuel text).run l = (.returns 0, l') ∧
        (l'.world.fs.Holds (destination root way) (data ++ 10 :: text) ↔
          data.length + 5000 * (text.length / 5000) < 2 ^ 32)) := by
  refine ⟨fun buffer hFuel => ?_, fun size hFuel => ?_, fun text hFuel hView => ?_⟩
  · obtain ⟨l', hRun, hReady'⟩ := run_nfsWrite hReady hAbsolute hPath t buffer offset hFuel
    refine ⟨_, l', hRun, imp_congr_right fun _ => ?_⟩
    rw [← storeChunks_eq_iff hFuel]
    exact ⟨fun h => hReady'.serves.holds.unique h, fun h => h ▸ hReady'.serves.holds⟩
  · obtain ⟨l', hRun, -⟩ := run_nfsRead hReady hAbsolute hPath t size offset hFuel
    exact ⟨_, _, l', hRun, imp_congr_right fun _ => isPrefix_fetchChunks_iff hFuel⟩
  · obtain ⟨l', hRun, hReady'⟩ := run_appendToFile hReady hView t hFuel
    refine ⟨l', hRun, ?_⟩
    have hAppend : data ++ 10 :: text = overwrite data.length (10 :: text) data := by
      rw [overwrite_eq_splice, splice, if_neg (by simp), fit]
      simp
    have hSettled := settled_append_iff data (cons_ne_nil 10 text)
    rw [length_cons, Nat.add_sub_cancel] at hSettled
    rw [hAppend, ← hSettled, ← storeChunks_eq_iff hFuel]
    exact ⟨fun h => hReady'.serves.holds.unique h, fun h => h ▸ hReady'.serves.holds⟩

end Handlers

/-- A small file: the write is where it should be. -/
theorem offsets_kept_iff_small :
    ∃ code l', (nfsWrite ⟨2, 0⟩ 10 (bytes "/a/f") (bytes "new!") 3).run Sample.link =
        (.returns code, l') ∧
      (0 ≤ code → l'.world.fs.Holds 4 (overwrite 3 (bytes "new!") (bytes "data"))) := by
  obtain ⟨hWrite, -, -⟩ := offsets_kept_iff Sample.link (bytes "data") 2 0 Sample.wayToFile
    Sample.knownAs Sample.ready_link (bytes "/a/f") rfl (by decide) 3 10
  obtain ⟨code, l', hRun, hIff⟩ := hWrite (bytes "new!") (by decide)
  exact ⟨code, l', hRun, hIff.mpr fun _ => settled_of_last (by decide) (bytes "data")⟩

/-- At 4 GiB, `nfs_write` reports success and has changed the beginning of the file;
`nfs_read` returns what stands there. -/
theorem write_wraps :
    let write := (nfsWrite ⟨2, 0⟩ 10 (bytes "/a/f") (bytes "new!") (2 ^ 32)).run Sample.link
    let read := (nfsRead ⟨2, 0⟩ 10 (bytes "/a/f") 4 (2 ^ 32)).run Sample.link
    write.1 = .returns 4 ∧ write.2.world.fs.Holds 4 (bytes "new!") ∧
      ¬ write.2.world.fs.Holds 4 (overwrite (2 ^ 32) (bytes "new!") (bytes "data")) ∧
      read.1 = (.returns 4, bytes "data") ∧ ¬ bytes "data" <+: (bytes "data").drop (2 ^ 32) := by
  intro write read
  have hHolds : write.2.world.fs.Holds 4 (bytes "new!") := by decide +kernel
  refine ⟨by decide +kernel, hHolds, fun hRight => ?_, by decide +kernel, by decide +kernel⟩
  -- the file would have to be longer than 4 GiB
  have hLength := congrArg length (hHolds.unique hRight)
  rw [overwrite_eq_splice, length_splice (by decide)] at hLength
  exact absurd hLength (by decide)

end QuicNfs.Client

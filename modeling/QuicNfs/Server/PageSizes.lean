import QuicNfs.Lib.WireFormat
import QuicNfs.Server.Listing

/-!
# QuicNfs — the size of a page of READDIR

`read_from_directory` adds up the packed sizes of single entries until the byte count of the
request is reached. What is sent is one message in which every entry holds the next one: a
key and a length come in front of each entry but the first, and they are not counted.

* `packEntries` — the bytes of the list that is sent;
* `length_packEntries_cons` — how its size grows with an entry in front;
* `safe_readFromDirectory_page` — READDIR answers with a page, or with no entries at all;
* `readdir_respects_count_iff` — when that page is the longest one that fits.
-/

namespace QuicNfs.Server

open Kernel Lib List Option

/-! ## The message -/

/-- The fields of an entry: its number, its name, its cookie. -/
def DirectoryEntry.fields (e : DirectoryEntry) : List Wire.Field :=
  Wire.varintField 1 e.fileid ++
    [⟨2, .delimited (Wire.encode (Wire.delimitedField 1 e.name))⟩,
      ⟨3, .delimited (Wire.encode (Wire.varintField 1 e.cookie))⟩]

/-- `nfs__directory_entries_list__pack`: the next entry is a field of the one before it. -/
def packEntries : List DirectoryEntry → Bytes
  | [] => []
  -- the last entry has no field for a next one
  | [e] => Wire.encode e.fields
  | e :: next :: rest =>
    Wire.encode (e.fields ++ [⟨4, .delimited (packEntries (next :: rest))⟩])

/-- The numbers of the entry fit into the fields of the message. -/
structure DirectoryEntry.Fits (e : DirectoryEntry) : Prop where
  fileid : e.fileid < 2 ^ 64
  cookie : e.cookie < 2 ^ 64
  name : e.name.length ≤ nameMax

instance (e : DirectoryEntry) : Decidable e.Fits :=
  decidable_of_iff (e.fileid < 2 ^ 64 ∧ e.cookie < 2 ^ 64 ∧ e.name.length ≤ nameMax)
    ⟨fun ⟨h₁, h₂, h₃⟩ => ⟨h₁, h₂, h₃⟩, fun h => ⟨h.fileid, h.cookie, h.name⟩⟩

theorem length_delimited {tag : Nat} {bytes : Bytes} (hTag : tag < 16)
    (hBytes : bytes.length < 2 ^ 64) :
    (Wire.Field.encode ⟨tag, .delimited bytes⟩).length = lengthDelimitedSize bytes.length := by
  rw [Wire.length_encode_field hTag, Wire.Content.encode, length_append,
    Wire.length_varint hBytes, ← Nat.add_assoc]
  rfl

/-- The size that the server counts is that of the entry alone. -/
theorem length_encode_fields {e : DirectoryEntry} (h : e.Fits) :
    (Wire.encode e.fields).length = e.packedSize := by
  have hFileid : (Wire.encode (Wire.varintField 1 e.fileid)).length = varintFieldSize e.fileid :=
    Wire.length_encode_varintField (by decide) h.fileid
  have hCookie : (Wire.encode (Wire.varintField 1 e.cookie)).length = varintFieldSize e.cookie :=
    Wire.length_encode_varintField (by decide) h.cookie
  have hShort : e.name.length < 2 ^ 64 := lt_of_le_of_lt h.name (by decide)
  have hName : (Wire.encode (Wire.delimitedField 1 e.name)).length =
      if e.name = [] then 0 else lengthDelimitedSize e.name.length :=
    Wire.length_encode_delimitedField (by decide) hShort
  -- the two submessages are short, so that their lengths can be read back
  have hNameLe : (Wire.encode (Wire.delimitedField 1 e.name)).length < 2 ^ 64 := by
    have hLe := Wire.length_encode_delimitedField_le 1 e.name
    have hMax := h.name
    simp only [nameMax] at hMax
    omega
  have hCookieLe : (Wire.encode (Wire.varintField 1 e.cookie)).length < 2 ^ 64 :=
    lt_of_le_of_lt (Wire.length_encode_varintField_le 1 e.cookie) (by decide)
  unfold DirectoryEntry.fields DirectoryEntry.packedSize
  rw [Wire.length_encode_append, hFileid, Wire.encode, flatMap_cons, flatMap_singleton,
    length_append, length_delimited (by decide) hNameLe, length_delimited (by decide) hCookieLe,
    hName, hCookie, Nat.add_assoc]

theorem length_packEntries_single {e : DirectoryEntry} (h : e.Fits) :
    (packEntries [e]).length = e.packedSize :=
  length_encode_fields h

/-- The rest of the list comes with a key and a length. -/
theorem length_packEntries_cons {e next : DirectoryEntry} {rest : List DirectoryEntry}
    (h : e.Fits) :
    (packEntries (e :: next :: rest)).length = e.packedSize + (1 +
      (Wire.varint (packEntries (next :: rest)).length).length +
      (packEntries (next :: rest)).length) := by
  rw [packEntries, Wire.length_encode_append, length_encode_fields h]
  congr 1
  rw [Wire.encode, flatMap_singleton, Wire.length_encode_field (by decide : 4 < 16),
    Wire.Content.encode, length_append, Nat.add_assoc]

/-- No list takes less than its entries one by one. -/
theorem sum_le_length_packEntries {l : List DirectoryEntry} (h : ∀ e ∈ l, e.Fits) :
    (l.map DirectoryEntry.packedSize).sum ≤ (packEntries l).length := by
  -- from the last entry to the first, as the messages are nested
  induction l with
  | nil => exact Nat.zero_le _
  | cons e rest ih =>
    have hRest := ih fun f hf => h f (.tail _ hf)
    rw [map_cons, sum_cons]
    cases rest with
    | nil =>
      rw [length_packEntries_single (h e (.head _))]
      exact Nat.le_refl _
    | cons next rest =>
      rw [length_packEntries_cons (h e (.head _))]
      omega

/-! ## The answer -/

section Reading

variable {w : World} {d : Ino}

/-- The loop over the entries reads a page, if no call of it fails. -/
theorem safe_readEntries_page {byteCount fuel totalSize : Nat} (position : Nat)
    (hTotal : totalSize ≤ byteCount) (hFuel : byteCount < fuel + totalSize) :
    Safe .none (fun answer w' => (∃ t, w' = w.atTick t) ∧ ∀ r, answer = some r →
        r = page DirectoryEntry.packedSize byteCount totalSize ((w.entriesOf d).drop position))
      (readEntries d byteCount fuel position totalSize) w := by
  -- every entry takes at least a byte, so that the fuel lasts until the page is full
  induction fuel generalizing position totalSize with
  | zero => omega
  | succ fuel ih =>
    have hAt := getElem?_entriesOf w d position
    refine safe_answer (r := .ok ((w.fs.listing d)[position]?.map fun e =>
        (e.1, e.2, w.host.cookie d (position + 1)))) (fun _ => rfl) (fun _ => trivial)
      (fun _ => safe_pure fun t => ⟨⟨t, rfl⟩, nofun⟩) ?_
    cases hEntry : (w.fs.listing d)[position]? with
    | none =>
      rw [hEntry, map_none, getElem?_eq_none_iff] at hAt
      -- the end of the stream is the end of the list
      rw [drop_eq_nil_of_le hAt]
      exact safe_pure fun t => ⟨⟨t, rfl⟩, fun r hr => (some.inj hr).symm⟩
    | some e =>
      rw [hEntry, Option.map_some] at hAt
      obtain ⟨hLt, hGet⟩ := List.getElem?_eq_some_iff.mp hAt
      rw [List.drop_eq_getElem_cons hLt, hGet]
      have hPos := packedSize_pos ⟨e.2, e.1, w.host.cookie d (position + 1)⟩
      set entry : DirectoryEntry := ⟨e.2, e.1, w.host.cookie d (position + 1)⟩
      -- the entry is too large, leaves room for more, or fills the page
      show Safe .none _ (if totalSize + entry.packedSize > byteCount then _
        else if totalSize + entry.packedSize < byteCount then _ else _ : Proc _) w
      unfold page
      by_cases hOver : totalSize + entry.packedSize > byteCount
      · rw [if_pos hOver, if_pos hOver]
        exact safe_pure fun t => ⟨⟨t, rfl⟩, fun r hr => (some.inj hr).symm⟩
      rw [if_neg hOver, if_neg hOver]
      by_cases hUnder : totalSize + entry.packedSize < byteCount
      · rw [if_pos hUnder, if_pos hUnder]
        have hRest := ih (position + 1) (Nat.le_of_lt hUnder) (by omega)
        refine safe_bind (hRest.mono ?_)
        rintro answer w' ⟨⟨t, rfl⟩, hPage⟩
        cases answer with
        | none => exact safe_pure fun t => ⟨⟨t, rfl⟩, nofun⟩
        | some r =>
          obtain rfl := hPage r rfl
          exact safe_pure fun t => ⟨⟨t, rfl⟩, fun r hr => (some.inj hr).symm⟩
      · rw [if_neg hUnder, if_neg hUnder]
        exact safe_pure fun t => ⟨⟨t, rfl⟩, fun r hr => (some.inj hr).symm⟩

theorem safe_seekCookie_at (hListed : w.Listed d) {k : Nat} (hk : k ≤ (w.fs.listing d).length) :
    Safe .none (fun position w' => position = k ∧ ∃ t, w' = w.atTick t)
      (seekCookie d (w.cookieAt d k)) w := by
  intro t
  have hListed' : (w.atTick t).Listed d := ⟨hListed.positive, hListed.distinct⟩
  -- reading on to a cookie changes nothing but the number of calls made
  obtain ⟨n, hRun⟩ := run_seekCookie hListed' hk
  refine Prog.sat_of_run (fun o _ => by cases o <;> trivial) ?_
  rw [show (seekCookie d (w.cookieAt d k)).run (w.atTick t) = _ from hRun]
  exact ⟨rfl, t + n, rfl⟩

/-- Whatever calls fail: READDIR answers with the page of the directory that starts at the
cookie, or with none. -/
theorem safe_readFromDirectory_page {client : AuthSysParams} {p : Path} {i : Ino}
    (hStream : ∀ e, StreamFor w client p i e → e = d) (hListed : w.Listed d) {k : Nat}
    (hk : k ≤ (w.fs.listing d).length) (byteCount : Nat) :
    Safe .none (fun answer _ => ∀ r, answer = some r →
        r = page DirectoryEntry.packedSize byteCount 0 ((w.entriesOf d).drop k))
      (readFromDirectory client p i (w.cookieAt d k) byteCount) w := by
  refine safe_bind (safe_findOrAddReaddirSession (fun _ _ => safe_pure fun _ => nofun) ?_)
  intro s sessions dirs t hs _
  obtain hd := hStream _ hs
  dsimp only
  rw [hd]
  -- the sessions and the open streams do not matter from here on
  have hSeek : Safe .none (fun position w' => position = k ∧
      ∃ t', w' = (w.withStreams sessions dirs).atTick t') (seekCookie d (w.cookieAt d k))
      ((w.withStreams sessions dirs).atTick t) :=
    safe_seekCookie_at (w := w.withStreams sessions dirs) ⟨hListed.positive, hListed.distinct⟩ hk
  refine safe_bind (hSeek.mono ?_)
  rintro position _ ⟨rfl, t', rfl⟩
  have hRead := safe_readEntries_page (w := (w.withStreams sessions dirs).atTick t') (d := d)
    position (Nat.zero_le byteCount) (Nat.lt_succ_self byteCount)
  refine safe_bind (hRead.mono ?_)
  rintro answer _ ⟨⟨t'', rfl⟩, hPage⟩
  cases answer with
  | none => exact safe_pure fun _ => nofun
  | some r =>
    obtain ⟨entries, endOfStream⟩ := r
    have hEnd : ∀ r, some (entries, endOfStream) = some r →
        r = page DirectoryEntry.packedSize byteCount 0 ((w.entriesOf d).drop position) := by
      intro r hr
      exact hPage r hr
    refine safe_time fun timestamp => safe_getReaddirSessions ?_
    cases endOfStream with
    | true => exact safe_setReaddirSessions (safe_closedir fun _ => safe_pure fun _ => hEnd)
    | false => exact safe_setReaddirSessions (safe_pure fun _ => hEnd)

end Reading

/-! ## The byte count -/

theorem length_le_of_mem_listing {fs : FileSystem} {d : Ino} {e : Name × Ino}
    (h : e ∈ fs.listing d) : e.1.length ≤ nameMax := by
  unfold FileSystem.listing at h
  split at h
  · next es hContent =>
    rcases mem_cons.mp h with rfl | h
    · exact (by decide : dot.length ≤ nameMax)
    rcases mem_cons.mp h with rfl | h
    · exact (by decide : dotdot.length ≤ nameMax)
    -- what a directory holds are names that it can hold
    have hEntry : fs.entry d e.1 = some e.2 := by
      obtain ⟨x, hx, hx'⟩ := map_eq_some_iff.mp hContent
      unfold Tree.entry
      rw [hx, bind_some, hx']
      exact Content.mem_entries.mp h
    exact (fs.wf.entry_valid hEntry).length_le
  · cases h

theorem fits_of_mem_entriesOf {w : World} {d : Ino}
    (hNumbers : ∀ e ∈ w.entriesOf d, e.fileid < 2 ^ 64 ∧ e.cookie < 2 ^ 64) :
    ∀ e ∈ w.entriesOf d, e.Fits := by
  intro e he
  obtain ⟨k, hk⟩ := getElem?_of_mem he
  rw [getElem?_entriesOf] at hk
  obtain ⟨x, hx, rfl⟩ := map_eq_some_iff.mp hk
  exact ⟨(hNumbers _ he).1, (hNumbers _ he).2, length_le_of_mem_listing (mem_of_getElem? hx)⟩

/-- The entries are the longest beginning of those that are left whose message takes at most
`byteCount` bytes, and the end is reported with the last of them. -/
structure RespectsCount (byteCount : Nat) (left entries : List DirectoryEntry) (eof : Bool) :
    Prop where
  longest : Longest (fun l => (packEntries l).length) byteCount left entries
  eof : eof = true ↔ entries = left

theorem page_respectsCount_iff (byteCount : Nat) {left : List DirectoryEntry}
    (hFits : ∀ e ∈ left, e.Fits) :
    RespectsCount byteCount left (page DirectoryEntry.packedSize byteCount 0 left).1
        (page DirectoryEntry.packedSize byteCount 0 left).2 ↔
      (packEntries (page DirectoryEntry.packedSize byteCount 0 left).1).length ≤ byteCount ∧
        (left = [] ∨ (left.map DirectoryEntry.packedSize).sum ≠ byteCount) := by
  -- by the sizes that the server counts, the page is the longest one
  have hPage : Longest (fun l => (l.map DirectoryEntry.packedSize).sum) byteCount left
      (page DirectoryEntry.packedSize byteCount 0 left).1 :=
    page_longest fun e _ => packedSize_pos e
  have hLongest : Longest (fun l => (packEntries l).length) byteCount left
      (page DirectoryEntry.packedSize byteCount 0 left).1 ↔ _ :=
    hPage.iff_of_le fun other hOther => sum_le_length_packEntries fun e he =>
      hFits e (hOther.subset he)
  have hEof : ((page DirectoryEntry.packedSize byteCount 0 left).2 = true ↔
      (page DirectoryEntry.packedSize byteCount 0 left).1 = left) ↔
      left = [] ∨ (left.map DirectoryEntry.packedSize).sum ≠ byteCount := by
    rw [page_end_iff, hPage.eq_iff, Nat.zero_add]
    by_cases hNil : left = []
    · subst hNil
      exact iff_of_true (iff_of_true (.inl rfl) (Nat.zero_le _)) (.inl rfl)
    · rw [or_iff_right hNil, or_iff_right hNil]
      constructor
      -- all entries are in the page, and it is full: the end is not looked for
      · intro h hExact
        have hLt := h.mpr (Nat.le_of_eq hExact)
        omega
      · intro hNe
        exact ⟨Nat.le_of_lt, fun hLe => Nat.lt_of_le_of_ne hLe hNe⟩
  constructor
  · intro h
    exact ⟨hLongest.mp h.longest, hEof.mp h.eof⟩
  · intro h
    exact ⟨hLongest.mpr h.1, hEof.mpr h.2⟩

/-- **READDIR respects the byte count** if and only if the entries that fill the byte count by
their single sizes still fit as one nested message, and the entries that are left do not add up
to the byte count exactly: then all of them are there, but not the end. Both are conditions on
the byte count and the entries that are left. -/
theorem readdir_respects_count_iff (w : World) (client : AuthSysParams) (p : Path) (i d : Ino)
    (hStream : ∀ e, StreamFor w client p i e → e = d) (hListed : w.Listed d)
    (hNumbers : ∀ e ∈ w.entriesOf d, e.fileid < 2 ^ 64 ∧ e.cookie < 2 ^ 64) (k byteCount : Nat)
    (hk : k ≤ (w.fs.listing d).length) (entries : List DirectoryEntry) (eof : Bool)
    (hAnswer : ((readFromDirectory client p i (w.cookieAt d k) byteCount).run w).1 =
      some (entries, eof)) :
    RespectsCount byteCount ((w.entriesOf d).drop k) entries eof ↔
      (packEntries (page DirectoryEntry.packedSize byteCount 0 ((w.entriesOf d).drop k)).1).length ≤
          byteCount ∧
        ((w.entriesOf d).drop k = [] ∨
          (((w.entriesOf d).drop k).map DirectoryEntry.packedSize).sum ≠ byteCount) := by
  have hPage := (safe_readFromDirectory_page hStream hListed hk byteCount).run _ hAnswer
  have hFits : ∀ e ∈ (w.entriesOf d).drop k, e.Fits := fun e he =>
    fits_of_mem_entriesOf hNumbers e (mem_of_mem_drop he)
  rw [← page_respectsCount_iff byteCount hFits, ← hPage]

namespace Sample

/-- `read_from_directory` of `/exp/a`, which has a file `f`. -/
def readA (w : World) (byteCount : Nat) : Option (List DirectoryEntry × Bool) :=
  ((readFromDirectory caller (bytes "/exp/a") 3 0 byteCount).run w).1

end Sample

/-- A page for the whole directory, with room left. -/
theorem readdir_respects_count_whole :
    let w := Sample.world.step Sample.mount
    Sample.readA w 500 = some (w.entriesOf 3, true) ∧
      RespectsCount 500 (w.entriesOf 3) (w.entriesOf 3) true := by
  intro w
  have hAnswer : Sample.readA w 500 = some (w.entriesOf 3, true) := by decide +kernel
  refine ⟨hAnswer, (readdir_respects_count_iff w Sample.caller (bytes "/exp/a") 3 3 ?_
    ⟨fun _ h _ => h, fun _ _ _ _ h => h⟩ (by decide +kernel) 0 500 (Nat.zero_le _) _ _
    hAnswer).mpr (by decide +kernel)⟩
  rintro e (⟨s, hs, -⟩ | hLookup)
  · have hNone : w.readdirSessions = [] := by decide +kernel
    rw [hNone] at hs
    cases hs
  · have hPath : w.fs.lookup true (bytes "/exp/a") = .ok 3 := by decide +kernel
    exact Except.ok.inj (hLookup.symm.trans hPath)

/-- **A page that is too large, and an end that is not seen.** The entries `.` and `..` count
for 23 bytes, and the message that is sent for them has 25. All three entries count for 34
bytes; where the byte count is that, all of them are there, and the end is not reported. -/
theorem readdir_exceeds_count :
    let w := Sample.world.step Sample.mount
    (Sample.readA w 23).map (fun r => (r.1.length, (packEntries r.1).length, r.2)) =
        some (2, 25, false) ∧
      Sample.readA w 34 = some (w.entriesOf 3, false) := by
  decide +kernel

end QuicNfs.Server

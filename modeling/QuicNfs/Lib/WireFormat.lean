import Mathlib.Algebra.Ring.Nat
import Mathlib.Data.List.Basic

/-!
# The wire format of protocol buffers

A message is packed as a sequence of fields, each with a key and a content. This
is the layer below the messages: integers in groups of seven bits, keys, and
the four kinds of content, with the reader that takes the fields apart again.

* `readVarint_varint` — an integer is read back from its bytes;
* `scan_encode` — the fields of a message are read back from its bytes;
* `readPacked_packed` — so are the elements of a packed repeated field;
* `parse_encode` — a message is built from its fields one after the other.
-/

namespace Lib.Wire

open List

/-! ## Integers -/

/-- At most `limit` groups of seven bits, the lowest first. All bytes but the
last have their highest bit set. -/
def groups7 : Nat → Nat → List UInt8
  | 0, _ => []
  | limit + 1, n =>
    if n < 128 then [UInt8.ofNat n] else UInt8.ofNat (128 + n % 128) :: groups7 limit (n / 128)

/-- The bytes of an integer of 64 bits. -/
def varint (n : Nat) : List UInt8 := groups7 10 n

/-- An integer of at most `limit` bytes, and what follows it. -/
def readVarint : Nat → List UInt8 → Option (Nat × List UInt8)
  | 0, _ => none
  | _ + 1, [] => none
  | limit + 1, b :: rest =>
    if b.toNat < 128 then some (b.toNat, rest)
    else (readVarint limit rest).map fun r => (b.toNat - 128 + 128 * r.1, r.2)

theorem groups7_length_le (limit n : Nat) : (groups7 limit n).length ≤ limit := by
  induction limit generalizing n with
  | zero => simp [groups7]
  | succ limit ih =>
    rw [groups7]
    split
    · simp
    · simpa using ih (n / 128)

theorem varint_length_le (n : Nat) : (varint n).length ≤ 10 := groups7_length_le 10 n

variable {limit n tag : Nat} {ns : List Nat}

/-- The reader's limit may be lower than the writer's, as long as the integer fits. -/
theorem readVarint_groups7 {limit' : Nat} (rest : List UInt8) (hn : n < 128 ^ limit')
    (hPos : 0 < limit') (hLimit : limit' ≤ limit) :
    readVarint limit' (groups7 limit n ++ rest) = some (n, rest) := by
  induction limit' generalizing limit n with
  | zero => omega
  | succ limit' ih =>
    obtain ⟨limit, rfl⟩ : ∃ k, limit = k + 1 := ⟨limit - 1, by omega⟩
    rw [groups7]
    split
    · next hSmall =>
      have hByte : (UInt8.ofNat n).toNat = n := by simp; omega
      simp [readVarint, hByte, hSmall]
    · next hLarge =>
      have hByte : (UInt8.ofNat (128 + n % 128)).toNat = 128 + n % 128 := by simp; omega
      -- what is left of the number fits into one group less
      have hHigh : n / 128 < 128 ^ limit' := by
        rw [Nat.pow_succ] at hn
        exact Nat.div_lt_of_lt_mul (by omega)
      have hPos' : 0 < limit' := by
        rcases Nat.eq_zero_or_pos limit' with rfl | h
        · simp at hn
          omega
        · exact h
      rw [cons_append, readVarint, hByte, if_neg (by omega), ih hHigh hPos' (by omega)]
      simp only [Option.map_some]
      congr 2
      omega

theorem readVarint_varint (rest : List UInt8) (hn : n < 128 ^ limit) (hPos : 0 < limit)
    (hLimit : limit ≤ 10) : readVarint limit (varint n ++ rest) = some (n, rest) :=
  readVarint_groups7 rest hn hPos hLimit

theorem varint_ne_nil (n : Nat) : varint n ≠ [] := by
  rw [varint, groups7]
  split <;> simp

/-- Seven bits go into each byte. -/
theorem log2_div_128 (h : 128 ≤ n) : (n / 128).log2 + 7 = n.log2 := by
  have hn : n ≠ 0 := by omega
  have hq : n / 128 ≠ 0 := by omega
  -- both sides are above the same numbers
  have hLe : ∀ k, k ≤ (n / 128).log2 ↔ k + 7 ≤ n.log2 := by
    intro k
    rw [Nat.le_log2 hq, Nat.le_log2 hn, Nat.le_div_iff_mul_le (by decide), Nat.pow_add]
  have hSeven : 7 ≤ n.log2 := (Nat.le_log2 hn).mpr h
  have hUp := (hLe _).mp (Nat.le_refl _)
  have hDown := (hLe (n.log2 - 7)).mpr (by omega)
  omega

theorem length_groups7 (hn : n < 128 ^ limit) (hPos : 0 < limit) :
    (groups7 limit n).length = n.log2 / 7 + 1 := by
  induction limit generalizing n with
  | zero => omega
  | succ limit ih =>
    rw [groups7]
    split
    · next hSmall =>
      have hLog : n.log2 < 7 := by
        by_cases hZero : n = 0
        · rw [hZero]
          decide
        · exact (Nat.log2_lt hZero).mpr hSmall
      rw [length_singleton]
      omega
    · next hLarge =>
      rw [Nat.pow_succ] at hn
      have hHigh : n / 128 < 128 ^ limit := Nat.div_lt_of_lt_mul (by omega)
      have hPos' : 0 < limit := by
        rcases Nat.eq_zero_or_pos limit with rfl | h
        · omega
        · exact h
      have hLog := log2_div_128 (Nat.le_of_not_lt hLarge)
      rw [length_cons, ih hHigh hPos']
      omega

theorem length_varint (hn : n < 2 ^ 64) : (varint n).length = n.log2 / 7 + 1 :=
  length_groups7 (Nat.lt_trans hn (by decide)) (by decide)

/-! ## Fields -/

inductive Content where
  | varint (n : Nat)
  | fixed64 (bytes : List UInt8)
  | delimited (bytes : List UInt8)
  | fixed32 (bytes : List UInt8)
deriving DecidableEq, Repr

structure Field where
  tag : Nat
  content : Content
deriving DecidableEq, Repr

namespace Content

def wireType : Content → Nat
  | varint _ => 0
  | fixed64 _ => 1
  | delimited _ => 2
  | fixed32 _ => 5

def encode : Content → List UInt8
  | varint n => Wire.varint n
  | fixed64 bytes => bytes
  | delimited bytes => Wire.varint bytes.length ++ bytes
  | fixed32 bytes => bytes

/-- The sizes the format has room for. -/
def Fits : Content → Prop
  | varint n => n < 2 ^ 64
  | fixed64 bytes => bytes.length = 8
  | delimited bytes => bytes.length < 2 ^ 31
  | fixed32 bytes => bytes.length = 4

end Content

def takeExactly (n : Nat) (bytes : List UInt8) : Option (List UInt8 × List UInt8) :=
  if n ≤ bytes.length then some (bytes.take n, bytes.drop n) else none

variable {bytes : List UInt8}

theorem takeExactly_append (rest : List UInt8) (h : bytes.length = n) :
    takeExactly n (bytes ++ rest) = some (bytes, rest) := by
  subst h
  simp [takeExactly]

/-- The content of a field, by its wire type. The types of groups are refused, and lengths that
are no `int`. -/
def readContent (wireType : Nat) (bytes : List UInt8) : Option (Content × List UInt8) :=
  match wireType with
  | 0 => (readVarint 10 bytes).map fun r => (.varint r.1, r.2)
  | 1 => (takeExactly 8 bytes).map fun r => (.fixed64 r.1, r.2)
  | 2 => do
    let (length, rest) ← readVarint 5 bytes
    if length < 2 ^ 31 then (takeExactly length rest).map fun r => (.delimited r.1, r.2) else none
  | 5 => (takeExactly 4 bytes).map fun r => (.fixed32 r.1, r.2)
  | _ => none

theorem readContent_encode {content : Content} (rest : List UInt8) (h : content.Fits) :
    readContent content.wireType (content.encode ++ rest) = some (content, rest) := by
  cases content with
  | varint n =>
    have hn : n < 128 ^ 10 := Nat.lt_trans h (by decide)
    simp [Content.wireType, Content.encode, readContent, readVarint_varint rest hn]
  | fixed64 bytes => simp [Content.wireType, Content.encode, readContent, takeExactly_append rest h]
  | delimited bytes =>
    have hn : bytes.length < 128 ^ 5 := Nat.lt_trans h (by decide)
    have hInt : bytes.length < 2147483648 := h
    simp [Content.wireType, Content.encode, readContent, readVarint_varint (bytes ++ rest) hn,
      takeExactly_append rest rfl, hInt]
  | fixed32 bytes => simp [Content.wireType, Content.encode, readContent, takeExactly_append rest h]

namespace Field

def encode (f : Field) : List UInt8 := varint (8 * f.tag + f.content.wireType) ++ f.content.encode

/-- A tag of 29 bits, and a content the format has room for. -/
structure Fits (f : Field) : Prop where
  tag_pos : 0 < f.tag
  tag_lt : f.tag < 2 ^ 29
  content : f.content.Fits

end Field

/-- A field from the front. A first byte below 8 is a tag of zero. -/
def readField (bytes : List UInt8) : Option (Field × List UInt8) :=
  if bytes.head?.any (·.toNat < 8) then none
  else do
    let (key, rest) ← readVarint 5 bytes
    let (content, rest) ← readContent (key % 8) rest
    some (⟨key / 8, content⟩, rest)

/-- All fields, in their order; every field takes at least a byte. -/
def scanUpTo : Nat → List UInt8 → Option (List Field)
  | _, [] => some []
  | 0, _ :: _ => none
  | limit + 1, b :: bytes => do
    let (f, rest) ← readField (b :: bytes)
    let fs ← scanUpTo limit rest
    some (f :: fs)

def scan (bytes : List UInt8) : Option (List Field) := scanUpTo bytes.length bytes

def encode (fs : List Field) : List UInt8 := fs.flatMap Field.encode

theorem wireType_lt (content : Content) : content.wireType < 8 := by
  cases content <;> simp [Content.wireType]

/-- The first byte of a key has the low bits of the tag, or its highest bit set. -/
theorem head_key {key : Nat} (h : 8 ≤ key) (rest : List UInt8) :
    ((varint key ++ rest).head?.any (·.toNat < 8)) = false := by
  rw [varint, groups7]
  split
  · next hSmall =>
    have hByte : (UInt8.ofNat key).toNat = key := by simp; omega
    simp only [cons_append, head?_cons, Option.any_some, hByte, decide_eq_false_iff_not]
    omega
  · have hByte : (UInt8.ofNat (128 + key % 128)).toNat = 128 + key % 128 := by simp; omega
    simp only [cons_append, head?_cons, Option.any_some, hByte, decide_eq_false_iff_not]
    omega

variable {f : Field}

theorem readField_encode (rest : List UInt8) (h : f.Fits) :
    readField (f.encode ++ rest) = some (f, rest) := by
  have hType := wireType_lt f.content
  have hPos := h.tag_pos
  have hKey : 8 * f.tag + f.content.wireType < 128 ^ 5 := by
    have := h.tag_lt
    omega
  have hHead := @head_key (8 * f.tag + f.content.wireType) (by omega) (f.content.encode ++ rest)
  have hMod : (8 * f.tag + f.content.wireType) % 8 = f.content.wireType := by omega
  have hDiv : (8 * f.tag + f.content.wireType) / 8 = f.tag := by omega
  rw [Field.encode, append_assoc, readField, hHead]
  simp [readVarint_varint _ hKey, hMod, hDiv, readContent_encode rest h.content]

variable {fs : List Field}

theorem scanUpTo_encode (hFits : ∀ f ∈ fs, f.Fits) (hLimit : (encode fs).length ≤ limit) :
    scanUpTo limit (encode fs) = some fs := by
  induction fs generalizing limit with
  | nil => cases limit <;> rfl
  | cons f fs ih =>
    have hField := readField_encode (encode fs) (hFits f (by simp))
    -- the key is at least one byte, so the limit goes down with the bytes
    obtain ⟨b, key, hKey⟩ := exists_cons_of_ne_nil (varint_ne_nil (8 * f.tag + f.content.wireType))
    have hBytes : encode (f :: fs) = b :: (key ++ f.content.encode ++ encode fs) := by
      simp [encode, Field.encode, hKey]
    have hSplit : f.encode ++ encode fs = encode (f :: fs) := by simp [encode]
    rw [hSplit, hBytes] at hField
    rw [hBytes] at hLimit ⊢
    simp only [length_cons, length_append] at hLimit
    obtain ⟨limit, rfl⟩ : ∃ k, limit = k + 1 := ⟨limit - 1, by omega⟩
    rw [scanUpTo, hField]
    simp [ih (fun g hg => hFits g (by simp [hg])) (by omega : (encode fs).length ≤ limit)]

/-- The fields of a message come back from its bytes. -/
theorem scan_encode (hFits : ∀ f ∈ fs, f.Fits) : scan (encode fs) = some fs :=
  scanUpTo_encode hFits (Nat.le_refl _)

/-! ## Packed repeated fields -/

def packed (ns : List Nat) : List UInt8 := ns.flatMap varint

def readPackedUpTo : Nat → List UInt8 → Option (List Nat)
  | _, [] => some []
  | 0, _ :: _ => none
  | limit + 1, b :: bytes => do
    let (n, rest) ← readVarint 10 (b :: bytes)
    let ns ← readPackedUpTo limit rest
    some (n :: ns)

/-- The integers of a packed field; every one takes at least a byte. -/
def readPacked (bytes : List UInt8) : Option (List Nat) := readPackedUpTo bytes.length bytes

theorem packed_length_le (ns : List Nat) : (packed ns).length ≤ 10 * ns.length := by
  induction ns with
  | nil => simp [packed]
  | cons n ns ih =>
    have := varint_length_le n
    simp only [packed, flatMap_cons, length_append, length_cons] at ih ⊢
    omega

theorem readPackedUpTo_packed (hFits : ∀ n ∈ ns, n < 2 ^ 64) (hLimit : (packed ns).length ≤ limit) :
    readPackedUpTo limit (packed ns) = some ns := by
  induction ns generalizing limit with
  | nil => cases limit <;> rfl
  | cons n ns ih =>
    have hn : n < 128 ^ 10 := Nat.lt_trans (hFits n (by simp)) (by decide)
    have hRead := readVarint_varint (packed ns) hn (by omega) (Nat.le_refl _)
    obtain ⟨b, tail, hBytes⟩ := exists_cons_of_ne_nil (varint_ne_nil n)
    have hPacked : packed (n :: ns) = b :: (tail ++ packed ns) := by simp [packed, hBytes]
    rw [hBytes, cons_append] at hRead
    rw [hPacked] at hLimit ⊢
    simp only [length_cons, length_append] at hLimit
    obtain ⟨limit, rfl⟩ : ∃ k, limit = k + 1 := ⟨limit - 1, by omega⟩
    rw [readPackedUpTo, hRead]
    simp [ih (fun m hm => hFits m (by simp [hm])) (by omega : (packed ns).length ≤ limit)]

theorem readPacked_packed (hFits : ∀ n ∈ ns, n < 2 ^ 64) : readPacked (packed ns) = some ns :=
  readPackedUpTo_packed hFits (Nat.le_refl _)

theorem packed_eq_nil_iff : packed ns = [] ↔ ns = [] := by
  cases ns <;> simp [packed, varint_ne_nil]

/-! ## Messages -/

/-- A field that has its default value is not written. -/
def fieldUnless (isDefault : Prop) [Decidable isDefault] (f : Field) : List Field :=
  if isDefault then [] else [f]

def varintField (tag n : Nat) : List Field := fieldUnless (n = 0) ⟨tag, .varint n⟩

/-- A string, or the elements of a packed repeated field. -/
def delimitedField (tag : Nat) (bytes : List UInt8) : List Field :=
  fieldUnless (bytes = []) ⟨tag, .delimited bytes⟩

theorem length_encode_append (fs gs : List Field) :
    (encode (fs ++ gs)).length = (encode fs).length + (encode gs).length := by
  simp [encode]

theorem length_encode_varintField_le (tag n : Nat) : (encode (varintField tag n)).length ≤ 20 := by
  have hKey := varint_length_le (8 * tag + 0)
  have hValue := varint_length_le n
  rw [varintField, fieldUnless]
  split
  · simp [encode]
  · simp only [encode, flatMap_singleton, Field.encode, Content.wireType, Content.encode,
      length_append]
    omega

theorem length_encode_delimitedField_le (tag : Nat) (bytes : List UInt8) :
    (encode (delimitedField tag bytes)).length ≤ 20 + bytes.length := by
  have hKey := varint_length_le (8 * tag + 2)
  have hLength := varint_length_le bytes.length
  rw [delimitedField, fieldUnless]
  split
  · simp [encode]
  · simp only [encode, flatMap_singleton, Field.encode, Content.wireType, Content.encode,
      length_append]
    omega

/-- The key of a field with a small tag is one byte. -/
theorem length_encode_field (hTag : f.tag < 16) :
    f.encode.length = 1 + f.content.encode.length := by
  have hType : f.content.wireType < 8 := by cases f.content <;> simp [Content.wireType]
  have hKey : 8 * f.tag + f.content.wireType < 128 := by omega
  rw [Field.encode, length_append, varint, groups7, if_pos hKey, length_singleton]

theorem length_encode_varintField (hTag : tag < 16) (hn : n < 2 ^ 64) :
    (encode (varintField tag n)).length = if n = 0 then 0 else 1 + (n.log2 / 7 + 1) := by
  rw [varintField, fieldUnless]
  split
  · rfl
  · rw [encode, flatMap_singleton, length_encode_field hTag]
    exact congrArg (1 + ·) (length_varint hn)

theorem length_encode_delimitedField (hTag : tag < 16) (hBytes : bytes.length < 2 ^ 64) :
    (encode (delimitedField tag bytes)).length =
      if bytes = [] then 0 else 1 + (bytes.length.log2 / 7 + 1) + bytes.length := by
  rw [delimitedField, fieldUnless]
  split
  · rfl
  · rw [encode, flatMap_singleton, length_encode_field hTag, Content.encode,
      length_append, length_varint hBytes]
    omega

section Messages

variable {M : Type}

/-- From the initial message, every field is parsed into what is there so far. -/
def parse (member : M → Field → Option M) (init : M) (bytes : List UInt8) : Option M := do
  let fs ← scan bytes
  fs.foldlM member init

theorem parse_encode (member : M → Field → Option M) (init : M) (hFits : ∀ f ∈ fs, f.Fits) :
    parse member init (encode fs) = fs.foldlM member init := by
  rw [parse, scan_encode hFits]
  rfl

end Messages

end Lib.Wire

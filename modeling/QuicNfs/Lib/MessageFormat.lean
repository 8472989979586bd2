import QuicNfs.Lib.WireFormat

/-!
# The messages of protocol buffers

The format of a message is put together from its members, as the descriptors of the
generated code list them. Every piece says what is written of a value and what is
received of that, and carries the proof that the two belong together; so a message has its
round trip as soon as it has its format.

* `Member` — one member: integers, enumerations, strings, submessages, …;
* `Oneof` — members of which one at most is set;
* `Fields` — members side by side, each with its tag;
* `Format`, `Format.roundTrip` — a message, and that it is received as it was packed, up
  to the values that have no bytes of their own.

Nothing of 2 GiB or more is read, so that all round trips are for messages below that.
-/

namespace Lib.Wire

open List

variable {α β : Type}

/-! ## Members -/

namespace Content

def asVarint : Content → Option Nat
  | varint n => some n
  | _ => none

def asDelimited : Content → Option (List UInt8)
  | delimited bytes => some bytes
  | _ => none

theorem fits_delimited {bytes : List UInt8} (h : (delimited bytes).encode.length < 2 ^ 31) :
    (delimited bytes).Fits := by
  rw [encode, length_append] at h
  exact Nat.lt_of_le_of_lt (Nat.le_add_left _ _) h

end Content

/-- A member of a message: what it is at first, the content that is written for it, if any, and
how a content changes it. `received` is what arrives of a value that fits into the member. -/
structure Member (α : Type) where
  init : α
  write : α → Option Content
  read : α → Content → Option α
  received : α → α
  Fits : α → Prop
  absent : ∀ a, Fits a → write a = none → received a = init
  present : ∀ a c, Fits a → write a = some c → c.encode.length < 2 ^ 31 →
    c.Fits ∧ read init c = some (received a)

/-- An integer without a sign. Zero is not written. -/
def uint (bits : Nat) (hBits : bits ≤ 64) : Member Nat where
  init := 0
  write n := if n = 0 then none else some (.varint n)
  read _ c := c.asVarint.map (· % 2 ^ bits)
  received := id
  Fits n := n < 2 ^ bits
  absent n _ hNone := by simpa using hNone
  present n c hFits hSome _ := by
    obtain ⟨-, rfl⟩ : n ≠ 0 ∧ Content.varint n = c := by simpa using hSome
    have hn : n < 2 ^ 64 := Nat.lt_of_lt_of_le hFits (Nat.pow_le_pow_right (by decide) hBits)
    exact ⟨hn, congrArg some (Nat.mod_eq_of_lt hFits)⟩

def uint32 : Member Nat := uint 32 (by decide)

def uint64 : Member Nat := uint 64 (by decide)

def bool : Member Bool where
  init := false
  write b := if b then some (.varint 1) else none
  read _ c := c.asVarint.map (· != 0)
  received := id
  Fits _ := True
  absent b _ hNone := by simpa using hNone
  present b c _ hSome _ := by
    obtain ⟨rfl, rfl⟩ : b = true ∧ Content.varint 1 = c := by simpa using hSome
    exact ⟨(by decide : 1 < 2 ^ 64), rfl⟩

/-- A member that nobody looks at. -/
def unread : Member Unit where
  init := ()
  write _ := none
  read _ c := c.asVarint.map fun _ => ()
  received := id
  Fits _ := True
  absent _ _ _ := rfl
  present _ _ _ hSome := by cases hSome

/-- The constants of an enumeration, with their numbers. -/
structure Enumeration (α : Type) where
  number : α → Nat
  ofNumber : Nat → Option α
  init : α
  zero : ofNumber 0 = some init

namespace Enumeration

/-- The constants of this list, and no other number. -/
def closed [DecidableEq α] (constants : List (α × Nat)) (init : α)
    (zero : (constants.find? (·.2 = 0)).map Prod.fst = some init) : Enumeration α where
  number a := ((constants.find? (·.1 = a)).map Prod.snd).getD 0
  ofNumber n := (constants.find? (·.2 = n)).map Prod.fst
  init := init
  zero := zero

/-- The constants of this list; `other` is for all other numbers. -/
def extensible [DecidableEq α] (constants : List (α × Nat)) (other : Nat → α)
    (numberOfOther : α → Nat) (init : α)
    (zero : (constants.find? (·.2 = 0)).map Prod.fst = some init) : Enumeration α where
  number a := ((constants.find? (·.1 = a)).map Prod.snd).getD (numberOfOther a)
  ofNumber n := some (((constants.find? (·.2 = n)).map Prod.fst).getD (other n))
  init := init
  zero := by rw [zero]; rfl

variable (e : Enumeration α)

def read (c : Content) : Option α := c.asVarint.bind fun n => e.ofNumber (n % 2 ^ 32)

/-- The number is that of one constant only. A negative one is written in another way. -/
def Fits (a : α) : Prop := e.number a < 2 ^ 31 ∧ e.ofNumber (e.number a) = some a

instance [DecidableEq α] (a : α) : Decidable (e.Fits a) := inferInstanceAs (Decidable (_ ∧ _))

theorem read_number {a : α} (h : e.Fits a) :
    (Content.varint (e.number a)).Fits ∧ e.read (.varint (e.number a)) = some a := by
  refine ⟨Nat.lt_trans h.1 (by decide), ?_⟩
  show e.ofNumber (e.number a % 2 ^ 32) = some a
  rw [Nat.mod_eq_of_lt (Nat.lt_trans h.1 (by decide)), h.2]

/-- The constant with the number zero is not written. -/
def member : Member α where
  init := e.init
  write a := if e.number a = 0 then none else some (.varint (e.number a))
  read _ := e.read
  received := id
  Fits := e.Fits
  absent a hFits hNone := by
    have hZero : e.number a = 0 := by simpa using hNone
    exact Option.some_inj.mp (hFits.2.symm.trans (hZero ▸ e.zero))
  present a c hFits hSome _ := by
    obtain ⟨-, rfl⟩ : e.number a ≠ 0 ∧ Content.varint (e.number a) = c := by simpa using hSome
    exact e.read_number hFits

/-- In a `oneof` every constant is written. -/
def inOneof : Member α where
  init := e.init
  write a := some (.varint (e.number a))
  read _ := e.read
  received := id
  Fits := e.Fits
  absent _ _ hNone := by cases hNone
  present a c hFits hSome _ := by
    cases hSome
    exact e.read_number hFits

end Enumeration

/-- Bytes, in the form the member has for them. Without bytes nothing is written. -/
def blob (toBytes : α → List UInt8) (ofBytes : List UInt8 → α) (Fits : α → Prop) : Member α where
  init := ofBytes []
  write a := if toBytes a = [] then none else some (.delimited (toBytes a))
  read _ c := c.asDelimited.map ofBytes
  received a := ofBytes (toBytes a)
  Fits := Fits
  absent a _ hNone := by
    have hNil : toBytes a = [] := by simpa using hNone
    rw [hNil]
  present a c _ hSome hSize := by
    obtain ⟨-, rfl⟩ : toBytes a ≠ [] ∧ Content.delimited (toBytes a) = c := by simpa using hSome
    exact ⟨Content.fits_delimited hSize, rfl⟩

/-- A string: received, it is not NULL. -/
def string : Member (Option (List UInt8)) := blob (·.getD []) some fun _ => True

/-- The pointer to an array, which is NULL for an empty one. -/
def pointerTo (elements : List α) : Option (List α) :=
  if elements.isEmpty then none else some elements

def bytes : Member (List UInt8) := blob id id fun _ => True

/-- Bytes of which there is the pointer only. -/
def data : Member (Option (List UInt8)) := blob (·.getD []) pointerTo fun _ => True

/-- A repeated member; its elements may come one by one, too. -/
def uint32s : Member (Option (List Nat)) where
  init := none
  write ns := if packed (ns.getD []) = [] then none else some (.delimited (packed (ns.getD [])))
  read ns c := ((c.asVarint.map fun n => [n]).or (c.asDelimited.bind readPacked)).map fun more =>
    pointerTo (ns.getD [] ++ more.map (· % 2 ^ 32))
  received ns := pointerTo (ns.getD [])
  Fits ns := ∀ n ∈ ns.getD [], n < 2 ^ 32
  absent ns _ hNone := by
    have hNil : ns.getD [] = [] := packed_eq_nil_iff.mp (by simpa using hNone)
    rw [hNil]
    rfl
  present ns c hFits hSome hSize := by
    obtain ⟨-, rfl⟩ : packed (ns.getD []) ≠ [] ∧ Content.delimited (packed (ns.getD [])) = c := by
      simpa using hSome
    have hRead := readPacked_packed fun n hn => Nat.lt_trans (hFits n hn) (by decide)
    have hMod : (ns.getD []).map (· % 2 ^ 32) = ns.getD [] :=
      (map_congr_left fun n hn => Nat.mod_eq_of_lt (hFits n hn)).trans (map_id _)
    refine ⟨Content.fits_delimited hSize, ?_⟩
    simp only [Content.asVarint, Content.asDelimited, Option.map_none, Option.none_or,
      Option.bind_some, hRead, Option.map_some, hMod, Option.getD_none, nil_append]

/-! ## Members side by side -/

/-- Members of a message with these tags. Their fields are written one after the other, and
those that arrive are read one by one. -/
structure Fields (α : Type) where
  tags : List Nat
  init : α
  write : α → List Field
  read : α → Field → Option α
  received : α → α
  Fits : α → Prop
  tagged : ∀ a, ∀ f ∈ write a, f.tag ∈ tags
  back : tags.Nodup → ∀ a, Fits a → (encode (write a)).length < 2 ^ 31 →
    (∀ f ∈ write a, f.content.Fits) ∧ (write a).foldlM read init = some (received a)

/-- The field of a content, if there is one. -/
def fieldOf (tag : Nat) (c : Option Content) : Option Field := c.map (⟨tag, ·⟩)

theorem fieldOf_unless {isDefault : Prop} [Decidable isDefault] (tag : Nat) (c : Content) :
    (fieldOf tag (if isDefault then none else some c)).toList = fieldUnless isDefault ⟨tag, c⟩ := by
  unfold fieldUnless
  split <;> rfl

theorem length_content_le (f : Field) : f.content.encode.length ≤ (encode [f]).length := by
  rw [encode, flatMap_singleton, Field.encode, length_append]
  exact Nat.le_add_left ..

/-- One member. -/
def last (tag : Nat) (m : Member α) : Fields α where
  tags := [tag]
  init := m.init
  write a := (fieldOf tag (m.write a)).toList
  read a f := m.read a f.content
  received := m.received
  Fits := m.Fits
  tagged a f hf := by
    obtain ⟨c, -, rfl⟩ : ∃ c, m.write a = some c ∧ Field.mk tag c = f := by simpa [fieldOf] using hf
    exact mem_singleton_self tag
  back _ a hFits hSize := by
    cases hWrite : m.write a with
    | none => exact ⟨nofun, congrArg some (m.absent a hFits hWrite).symm⟩
    | some c =>
      rw [hWrite] at hSize
      obtain ⟨hc, hRead⟩ := m.present a c hFits hWrite
        (Nat.lt_of_le_of_lt (length_content_le ⟨tag, c⟩) hSize)
      refine ⟨fun f hf => ?_, by simpa [fieldOf] using hRead⟩
      rw [mem_singleton.mp hf]
      exact hc

/-- A fold goes through the image of its states. -/
theorem foldlM_image {r : α → Field → Option α} {q : β → Field → Option β} (g : α → β)
    {fs : List Field} (h : ∀ a, ∀ f ∈ fs, q (g a) f = (r a f).map g) (a : α) :
    fs.foldlM q (g a) = (fs.foldlM r a).map g := by
  induction fs generalizing a with
  | nil => rfl
  | cons f fs ih =>
    rw [foldlM_cons, foldlM_cons, h a f mem_cons_self]
    cases r a f with
    | none => rfl
    | some b => exact ih (fun a f' hf => h a f' (mem_cons_of_mem f hf)) b

/-- The tag of a field decides which of the two it is for. -/
def readPair (tags : List Nat) (r : α → Field → Option α) (s : β → Field → Option β)
    (x : α × β) (f : Field) : Option (α × β) :=
  if f.tag ∈ tags then (r x.1 f).map (·, x.2) else (s x.2 f).map (x.1, ·)

theorem foldlM_readPair {tags : List Nat} {r : α → Field → Option α} {s : β → Field → Option β}
    {fs gs : List Field} {a a' : α} {b b' : β} (hTags : ∀ f ∈ fs, f.tag ∈ tags)
    (hOthers : ∀ g ∈ gs, g.tag ∉ tags) (hr : fs.foldlM r a = some a') (hs : gs.foldlM s b = some b') :
    (fs ++ gs).foldlM (readPair tags r s) (a, b) = some (a', b') := by
  have hLeft := foldlM_image (r := r) (q := readPair tags r s) (·, b)
    (fun _ f hf => if_pos (hTags f hf)) a
  have hRight := foldlM_image (r := s) (q := readPair tags r s) (a', ·)
    (fun _ g hg => if_neg (hOthers g hg)) b
  rw [foldlM_append, hLeft, hr]
  exact hRight.trans (congrArg _ hs)

/-- Both sizes are within that of the two together. -/
theorem length_encode_lt {fs gs : List Field} {n : Nat} (h : (encode (fs ++ gs)).length < n) :
    (encode fs).length < n ∧ (encode gs).length < n := by
  rw [length_encode_append] at h
  omega

namespace Fields

/-- One part and another. -/
def also (p : Fields α) (q : Fields β) : Fields (α × β) where
  tags := p.tags ++ q.tags
  init := (p.init, q.init)
  write x := p.write x.1 ++ q.write x.2
  read := readPair p.tags p.read q.read
  received x := (p.received x.1, q.received x.2)
  Fits x := p.Fits x.1 ∧ q.Fits x.2
  tagged x f hf := mem_append.mpr ((mem_append.mp hf).imp (p.tagged x.1 f) (q.tagged x.2 f))
  back hTags x hFits hSize := by
    obtain ⟨hp, hq, hDisjoint⟩ := nodup_append.mp hTags
    obtain ⟨hSizeP, hSizeQ⟩ := length_encode_lt hSize
    obtain ⟨hFitsP, hBackP⟩ := p.back hp x.1 hFits.1 hSizeP
    obtain ⟨hFitsQ, hBackQ⟩ := q.back hq x.2 hFits.2 hSizeQ
    refine ⟨fun f hf => (mem_append.mp hf).elim (hFitsP f) (hFitsQ f),
      foldlM_readPair (p.tagged x.1) (fun g hg hMem => ?_) hBackP hBackQ⟩
    exact hDisjoint g.tag hMem g.tag (q.tagged x.2 g hg) rfl

/-- The members as they stand in a structure, which `make` builds and `take` takes apart. -/
def iso (p : Fields α) (make : α → β) (take : β → α) (hTake : ∀ a, take (make a) = a) : Fields β where
  tags := p.tags
  init := make p.init
  write b := p.write (take b)
  read b f := (p.read (take b) f).map make
  received b := make (p.received (take b))
  Fits b := p.Fits (take b)
  tagged b := p.tagged (take b)
  back hTags b hFits hSize := by
    obtain ⟨hContents, hBack⟩ := p.back hTags (take b) hFits hSize
    refine ⟨hContents, (foldlM_image make (fun a f _ => ?_) p.init).trans (congrArg _ hBack)⟩
    rw [hTake]

/-- A message without members. -/
def empty : Fields Unit where
  tags := []
  init := ()
  write _ := []
  read _ _ := some ()
  received := id
  Fits _ := True
  tagged _ _ hf := by cases hf
  back _ _ _ _ := ⟨nofun, rfl⟩

end Fields

/-- One member more. -/
def field (tag : Nat) (m : Member α) (rest : Fields β) : Fields (α × β) := (last tag m).also rest

/-! ## Members of which one is set -/

/-- A `oneof` that is set. One that is not written is lost. -/
structure Oneof (α : Type) where
  tags : List Nat
  write : α → Option Field
  read : Field → Option α
  received : α → α
  Fits : α → Prop
  tagged : ∀ a, ∀ f ∈ write a, f.tag ∈ tags
  back : tags.Nodup → ∀ a f, Fits a → write a = some f → (encode [f]).length < 2 ^ 31 →
    f.content.Fits ∧ read f = some (received a)

/-- The last of the members. -/
def lastChoice (tag : Nat) (m : Member α) : Oneof α where
  tags := [tag]
  write a := fieldOf tag (m.write a)
  read f := m.read m.init f.content
  received := m.received
  Fits := m.Fits
  tagged a f hf := by
    obtain ⟨c, -, rfl⟩ := Option.map_eq_some_iff.mp hf
    exact mem_singleton_self tag
  back _ a f hFits hf hSize := by
    obtain ⟨c, hWrite, rfl⟩ := Option.map_eq_some_iff.mp hf
    exact m.present a c hFits hWrite (Nat.lt_of_le_of_lt (length_content_le ⟨tag, c⟩) hSize)

/-- One of the members, or one of the others. -/
def choice (tag : Nat) (m : Member α) (rest : Oneof β) : Oneof (α ⊕ β) where
  tags := tag :: rest.tags
  write := Sum.elim (lastChoice tag m).write rest.write
  read f := if f.tag = tag then ((lastChoice tag m).read f).map .inl else (rest.read f).map .inr
  received := Sum.map m.received rest.received
  Fits := Sum.elim m.Fits rest.Fits
  tagged x f hf := by
    cases x with
    | inl a => exact mem_cons.mpr (.inl (mem_singleton.mp ((lastChoice tag m).tagged a f hf)))
    | inr b => exact mem_cons_of_mem tag (rest.tagged b f hf)
  back hTags x f hFits hf hSize := by
    obtain ⟨hTag, hRest⟩ := nodup_cons.mp hTags
    cases x with
    | inl a =>
      obtain ⟨hContent, hRead⟩ := (lastChoice tag m).back (by simp [lastChoice]) a f hFits hf hSize
      rw [if_pos (mem_singleton.mp ((lastChoice tag m).tagged a f hf)), hRead]
      exact ⟨hContent, rfl⟩
    | inr b =>
      obtain ⟨hContent, hRead⟩ := rest.back hRest b f hFits hf hSize
      have hOther : f.tag ≠ tag := fun hEq => hTag (hEq ▸ rest.tagged b f hf)
      rw [if_neg hOther, hRead]
      exact ⟨hContent, rfl⟩

/-- The last field of a `oneof` that arrives is the one that is set. -/
def Oneof.fields (p : Oneof α) : Fields (Option α) where
  tags := p.tags
  init := none
  write o := (o.bind p.write).toList
  read _ f := (p.read f).map some
  received o := o.bind fun a => (p.write a).map fun _ => p.received a
  Fits o := o.elim True p.Fits
  tagged o f hf := by
    obtain ⟨a, -, hWrite⟩ := Option.bind_eq_some_iff.mp (Option.mem_toList.mp hf)
    exact p.tagged a f hWrite
  back hTags o hFits hSize := by
    cases o with
    | none => exact ⟨nofun, rfl⟩
    | some a =>
      cases hWrite : p.write a with
      | none => simp [hWrite]
      | some f =>
        simp only [Option.bind_some, hWrite, Option.toList_some] at hSize ⊢
        obtain ⟨hContent, hRead⟩ := p.back hTags a f hFits hWrite hSize
        refine ⟨fun g hg => ?_, by simp [hRead]⟩
        rw [mem_singleton.mp hg]
        exact hContent

/-! ## Messages -/

/-- The functions that are generated for a message. -/
structure Format (α : Type) where
  pack : α → List UInt8
  unpack : List UInt8 → Option α
  received : α → α
  Fits : α → Prop
  /-- A message that fits is received as it was packed, up to values that are not written. -/
  roundTrip : ∀ a, Fits a → (pack a).length < 2 ^ 31 → unpack (pack a) = some (received a)

/-- The tags are different, and the format has room for them. -/
def ValidTags (tags : List Nat) : Prop := tags.Nodup ∧ ∀ tag ∈ tags, 0 < tag ∧ tag < 2 ^ 29

instance (tags : List Nat) : Decidable (ValidTags tags) := inferInstanceAs (Decidable (_ ∧ _))

/-- A field with a tag that the message does not have is skipped. -/
def readKnown (tags : List Nat) (r : α → Field → Option α) (a : α) (f : Field) : Option α :=
  if f.tag ∈ tags then r a f else some a

theorem parse_readKnown {tags : List Nat} {r : α → Field → Option α} {a b : α} {fs : List Field}
    (hTags : ValidTags tags) (hTagged : ∀ f ∈ fs, f.tag ∈ tags) (hFits : ∀ f ∈ fs, f.content.Fits)
    (hFold : fs.foldlM r a = some b) : parse (readKnown tags r) a (encode fs) = some b := by
  have hFields : ∀ f ∈ fs, f.Fits := by
    intro f hf
    obtain ⟨hPos, hLt⟩ := hTags.2 f.tag (hTagged f hf)
    exact ⟨hPos, hLt, hFits f hf⟩
  have hKnown := foldlM_image (r := r) (q := readKnown tags r) id
    (fun a f hf => (if_pos (hTagged f hf)).trans (Option.map_id' ..).symm) a
  rw [parse_encode _ _ hFields]
  exact hKnown.trans (by rw [hFold]; rfl)

def Fields.format (p : Fields α) (hTags : ValidTags p.tags) : Format α where
  pack a := encode (p.write a)
  unpack := parse (readKnown p.tags p.read) p.init
  received := p.received
  Fits := p.Fits
  roundTrip a hFits hSize := by
    obtain ⟨hContents, hBack⟩ := p.back hTags.1 a hFits hSize
    exact parse_readKnown hTags (p.tagged a) hContents hBack

/-- A message with one member. -/
def message1 (m : Member α) (make : α → β) (get : β → α) (hGet : ∀ a, get (make a) = a) : Format β :=
  ((last 1 m).iso make get hGet).format (by show ValidTags [1]; decide)

/-- A message with two members. -/
def message2 {γ : Type} (m : Member α) (n : Member β) (make : α → β → γ) (fst : γ → α) (snd : γ → β)
    (hGet : ∀ a b, (fst (make a b), snd (make a b)) = (a, b)) : Format γ :=
  ((field 1 m <| last 2 n).iso (fun x => make x.1 x.2) (fun c => (fst c, snd c))
    fun x => hGet x.1 x.2).format (by show ValidTags [1, 2]; decide)

/-- A submessage. Where there is one, it is written even if it is empty. -/
def nested (m : Format α) : Member (Option α) where
  init := none
  write o := o.map fun a => .delimited (m.pack a)
  read _ c := c.asDelimited.bind fun bytes => (m.unpack bytes).map some
  received o := o.map m.received
  Fits o := o.elim True m.Fits
  absent o _ hNone := by
    rw [Option.map_eq_none_iff.mp hNone]
    rfl
  present o c hFits hSome hSize := by
    obtain ⟨a, rfl, rfl⟩ := Option.map_eq_some_iff.mp hSome
    have hContent := Content.fits_delimited hSize
    refine ⟨hContent, ?_⟩
    show (m.unpack (m.pack a)).map some = _
    rw [m.roundTrip a hFits hContent]
    rfl

/-! ## Linked lists -/

section Chain

variable (p : Fields α) (tag : Nat)

/-- A list of messages, each of them with the rest of the list as a submessage. -/
def chainContent : List α → Option Content
  | [] => none
  | a :: as => some (.delimited (encode (p.write a ++ (fieldOf tag (chainContent as)).toList)))

/-- The list is not longer than its bytes. -/
def readChain : Nat → Content → Option (List α)
  | 0, _ => none
  | limit + 1, c => do
    let bytes ← c.asDelimited
    let (a, as) ← parse (readKnown (p.tags ++ [tag])
      (readPair p.tags p.read fun _ f => readChain limit f.content)) (p.init, []) bytes
    some (a :: as)

variable {p tag}

theorem readChain_chainContent (hTags : ValidTags (p.tags ++ [tag])) {limit : Nat} {as : List α}
    {c : Content} (hFits : ∀ a ∈ as, p.Fits a) (hSome : chainContent p tag as = some c)
    (hLimit : c.encode.length ≤ limit) (hSize : c.encode.length < 2 ^ 31) :
    c.Fits ∧ readChain p tag limit c = some (as.map p.received) := by
  obtain ⟨hNodup, -, hDisjoint⟩ := nodup_append.mp hTags.1
  induction as generalizing c limit with
  | nil => cases hSome
  | cons a as ih =>
    cases hSome
    have hContent := Content.fits_delimited hSize
    obtain ⟨hHead, hRest⟩ := length_encode_lt hContent
    obtain ⟨hContents, hBack⟩ := p.back hNodup a (hFits a mem_cons_self) hHead
    -- there is at least the length before the bytes
    obtain ⟨b, key, hKey⟩ := exists_cons_of_ne_nil (varint_ne_nil
      (encode (p.write a ++ (fieldOf tag (chainContent p tag as)).toList)).length)
    rw [Content.encode, hKey, length_append, length_cons, length_encode_append] at hLimit
    obtain ⟨limit, rfl⟩ : ∃ k, limit = k + 1 := ⟨limit - 1, by omega⟩
    -- the rest of the list, by the induction hypothesis
    have hNext : (∀ f ∈ (fieldOf tag (chainContent p tag as)).toList,
          f.tag = tag ∧ f.content.Fits) ∧
        (fieldOf tag (chainContent p tag as)).toList.foldlM
          (fun _ f => readChain p tag limit f.content) [] = some (as.map p.received) := by
      cases hTail : chainContent p tag as with
      | none =>
        cases as with
        | nil => exact ⟨nofun, rfl⟩
        | cons => cases hTail
      | some c =>
        rw [hTail] at hLimit hRest
        have hLe : c.encode.length ≤ _ := length_content_le ⟨tag, c⟩
        have hShorter : c.encode.length ≤ limit := by
          simp only [fieldOf, Option.map_some, Option.toList_some] at hLimit
          omega
        obtain ⟨hc, hRead⟩ := ih (fun a ha => hFits a (mem_cons_of_mem _ ha)) hTail hShorter
          (Nat.lt_of_le_of_lt hLe hRest)
        refine ⟨fun f hf => ?_, by simpa [fieldOf] using hRead⟩
        rw [mem_singleton.mp hf]
        exact ⟨rfl, hc⟩
    refine ⟨hContent, ?_⟩
    have hParse := parse_readKnown hTags
      (fun f hf => mem_append.mpr ((mem_append.mp hf).imp (p.tagged a f) fun h =>
        mem_singleton.mpr (hNext.1 f h).1))
      (fun f hf => (mem_append.mp hf).elim (hContents f) fun h => (hNext.1 f h).2)
      (foldlM_readPair (p.tagged a) (fun f hf hMem => hDisjoint f.tag hMem tag
        (mem_singleton_self tag) (hNext.1 f hf).1) hBack hNext.2)
    rw [readChain]
    simp only [Content.asDelimited, Option.bind_eq_bind, Option.bind_some, hParse, map_cons]

/-- A linked list, by its first element. -/
def chain (p : Fields α) (tag : Nat) (hTags : ValidTags (p.tags ++ [tag])) : Member (List α) where
  init := []
  write := chainContent p tag
  read _ c := readChain p tag c.encode.length c
  received as := as.map p.received
  Fits as := ∀ a ∈ as, p.Fits a
  absent as _ hNone := by
    cases as with
    | nil => rfl
    | cons => cases hNone
  present _ _ hFits hSome hSize := readChain_chainContent hTags hFits hSome (Nat.le_refl _) hSize

end Chain

end Lib.Wire

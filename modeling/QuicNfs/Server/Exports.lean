import Mathlib.Data.List.Infix
import QuicNfs.Lib.LineReader
import QuicNfs.Server.Server

/-!
# QuicNfs — the exports file

`is_directory_exported` looks for a line `path *(rw)`. It reads the file through a
buffer of 1024 bytes, so it sees a longer line in pieces, and it takes a piece for
a line of the path as soon as the piece starts with the path and a blank and has
`*(rw)` anywhere after that.

* `LineFor p line` — the line says that `p` is exported;
* `isExported_iff` — what the server goes by: the pieces of the lines;
* `exports_exact_iff` — when that is the same;
* `exported_of_shortExports` — a file of short lines without blanks in their paths
  exports no other paths.
-/

namespace QuicNfs.Server

open Kernel Lib List

/-! ## What the file says -/

/-- A space or a tab. -/
def isBlank (b : UInt8) : Bool := b == 32 || b == 9

/-- The line is `p`, then spaces or tabs, then `*(rw)`. -/
def LineFor (p : Path) (line : Bytes) : Prop :=
  ∃ blanks, blanks ≠ [] ∧ (∀ b ∈ blanks, isBlank b) ∧ line = p ++ blanks ++ bytes "*(rw)"

variable {p : Path} {text : Bytes}

/-- Where the path ends, the blanks go up to the first other byte. -/
theorem lineFor_iff {line : Bytes} :
    LineFor p line ↔ p <+: line ∧ (line.drop p.length).takeWhile isBlank ≠ [] ∧
      (line.drop p.length).dropWhile isBlank = bytes "*(rw)" := by
  constructor
  · rintro ⟨blanks, hBlanks, hBlank, rfl⟩
    have hOptions : (bytes "*(rw)").takeWhile isBlank = [] ∧
        (bytes "*(rw)").dropWhile isBlank = bytes "*(rw)" := by decide
    rw [append_assoc, drop_left, takeWhile_append_of_pos hBlank,
      dropWhile_append_of_pos hBlank, hOptions.1, hOptions.2, append_nil]
    exact ⟨prefix_append _ _, hBlanks, rfl⟩
  · rintro ⟨⟨options, rfl⟩, hBlanks, hOptions⟩
    rw [drop_left] at hBlanks hOptions
    refine ⟨options.takeWhile isBlank, hBlanks, fun b hb => mem_takeWhile_imp hb, ?_⟩
    rw [append_assoc, ← hOptions, takeWhile_append_dropWhile]

instance (p : Path) (line : Bytes) : Decidable (LineFor p line) := decidable_of_iff' _ lineFor_iff

/-- The lines of a file, between newlines and the ends of the file. -/
def fileLines (content : Bytes) : List Bytes := content.splitOn 10

def HasLineFor (content : Bytes) (p : Path) : Prop := ∃ line ∈ fileLines content, LineFor p line

instance (content : Bytes) (p : Path) : Decidable (HasLineFor content p) :=
  inferInstanceAs (Decidable (∃ line ∈ fileLines content, LineFor p line))

/-! ## What the server sees -/

theorem fgets_eq_takeLine (size : Nat) (content : Bytes) :
    fgets size content = takeLine 10 size content := by
  induction content generalizing size with
  | nil => cases size <;> rfl
  | cons b content ih =>
    cases size with
    | zero => rfl
    | succ size =>
      rw [fgets, takeLine, ih]

theorem exportLines_eq_map (fuel : Nat) (content : Bytes) :
    exportLines fuel content =
      (readLines 10 1023 fuel content).map fun chunk => (cString chunk).takeWhile (· ≠ 10) := by
  induction fuel generalizing content with
  | zero => rfl
  | succ fuel ih =>
    cases content with
    | nil => rfl
    | cons b content =>
      rw [exportLines, readLines, map_cons, fgets_eq_takeLine, ih]
      · intro h
        cases h
      · intro h
        cases h

/-- The newline and a NUL can be cut off in either order. -/
theorem cString_takeWhile (chunk : Bytes) :
    (cString chunk).takeWhile (· ≠ 10) = cString (chunk.takeWhile (· ≠ 10)) := by
  unfold cString
  rw [takeWhile_takeWhile, takeWhile_takeWhile]
  simp only [and_comm]

theorem strstr_iff {haystack needle : Bytes} : strstr haystack needle = true ↔ needle <:+: haystack := by
  unfold strstr
  rw [any_eq_true]
  constructor
  · rintro ⟨tail, hTail, hNeedle⟩
    exact ( isPrefixOf_iff_prefix.mp hNeedle).isInfix.trans ((mem_tails _ _).mp hTail).isInfix
  · intro h
    obtain ⟨tail, hNeedle, hTail⟩ := infix_iff_prefix_suffix.mp h
    exact ⟨tail, (mem_tails _ _).mpr hTail, isPrefixOf_iff_prefix.mpr hNeedle⟩

/-- The test of one line: the path, a blank, and `*(rw)` somewhere after it. -/
theorem lineExports_iff :
    lineExports p text = true ↔
      ∃ b rest, isBlank b ∧ text = p ++ b :: rest ∧ bytes "*(rw)" <:+: b :: rest := by
  unfold lineExports
  simp only [Bool.and_eq_true, isPrefixOf_iff_prefix, strstr_iff]
  constructor
  · rintro ⟨⟨options, rfl⟩, hBlank, hOptions⟩
    rw [drop_left] at hBlank hOptions
    cases options with
    | nil => simp at hBlank
    | cons b rest => exact ⟨b, rest, by simpa [isBlank] using hBlank, rfl, hOptions⟩
  · rintro ⟨b, rest, hBlank, rfl, hOptions⟩
    rw [drop_left]
    exact ⟨prefix_append _ _, by simpa [isBlank] using hBlank, hOptions⟩

theorem not_lineExports_nil (p : Path) : ¬lineExports p [] = true := by
  intro h
  obtain ⟨b, rest, -, hNil, -⟩ := lineExports_iff.mp h
  exact absurd hNil.symm (by simp)

/-- **What the server goes by**: a piece of a line, as far as it is a C string. -/
theorem isExported_iff {content : Bytes} :
    isExported (some content) p = true ↔
      ∃ line ∈ fileLines content, ∃ k, lineExports p (cString (piece 1023 line k)) = true := by
  have hReads : (∃ chunk ∈ readLines 10 1023 content.length content,
      lineExports p (cString (chunk.takeWhile (· ≠ 10))) = true) ↔
      ∃ line ∈ fileLines content, ∃ k, lineExports p (cString (piece 1023 line k)) = true :=
    exists_readLines_iff (P := fun text => lineExports p (cString text) = true)
      (not_lineExports_nil p) (by decide) (Nat.le_refl content.length)
  show (exportLines content.length content).any (lineExports p) = true ↔ _
  rw [exportLines_eq_map, any_map, any_eq_true]
  simp only [Function.comp_apply, cString_takeWhile]
  exact hReads

/-! ## Where the two agree -/

/-- A line that the server sees as it is: it fits into the buffer, and no NUL cuts it short. -/
structure Readable (line : Bytes) : Prop where
  length : line.length ≤ 1023
  noNul : 0 ∉ line

instance (line : Bytes) : Decidable (Readable line) :=
  decidable_of_iff (line.length ≤ 1023 ∧ 0 ∉ line) ⟨fun h => ⟨h.1, h.2⟩, fun h => ⟨h.length, h.noNul⟩⟩

theorem cString_of_noNul (h : 0 ∉ text) : cString text = text :=
  takeWhile_last h

/-- A readable line of the path is taken for one. -/
theorem lineExports_of_readable {line : Bytes} (hLine : LineFor p line)
    (hReadable : Readable line) : lineExports p (cString (piece 1023 line 0)) = true := by
  rw [piece_of_length_le hReadable.length, if_pos rfl, cString_of_noNul hReadable.noNul,
    lineExports_iff]
  obtain ⟨blanks, hBlanks, hBlank, rfl⟩ := hLine
  obtain ⟨b, blanks, rfl⟩ := exists_cons_of_ne_nil hBlanks
  exact ⟨b, blanks ++ bytes "*(rw)", hBlank b (by simp), by simp,
    (suffix_append (b :: blanks) _).isInfix⟩

/-- The server takes piece `k` of the line for a line of `p`, which it is not: the options
go on or come later, or the piece is from the middle of a long line. -/
structure Misread (p : Path) (line : Bytes) (k : Nat) : Prop where
  taken : ∃ b rest, isBlank b ∧ cString (piece 1023 line k) = p ++ b :: rest ∧
    bytes "*(rw)" <:+: b :: rest
  wrongly : ¬(LineFor p line ∧ Readable line)

/-- **The exports file is read exactly** in two cases: some line of the path is short enough
to be read in one piece; or the path has no such line, and it has a longer one if and only
if some piece of the file is misread for it. -/
theorem exports_exact_iff (w : World) {content : Bytes} (hContent : w.machine.exports = some content)
    (hReadable : w.machine.here.fault = none) (p : Path) :
    (((isDirectoryExported p).run w).1 = true ↔ HasLineFor content p) ↔
      (∃ line ∈ fileLines content, LineFor p line ∧ Readable line) ∨
        (HasLineFor content p ↔ ∃ line ∈ fileLines content, ∃ k, Misread p line k) := by
  have hRun : ((isDirectoryExported p).run w).1 = isExported (some content) p := by
    show isExported w.machine.readExportsFile.1 p = _
    unfold Machine.readExportsFile
    rw [hReadable, hContent]
  rw [hRun, isExported_iff]
  by_cases hGood : ∃ line ∈ fileLines content, LineFor p line ∧ Readable line
  · -- both sides say that the path is exported
    obtain ⟨line, hMem, hLine, hReads⟩ := hGood
    refine iff_of_true ?_ (Or.inl ⟨line, hMem, hLine, hReads⟩)
    exact iff_of_true ⟨line, hMem, 0, lineExports_of_readable hLine hReads⟩ ⟨line, hMem, hLine⟩
  · -- whatever the server takes for a line of the path it takes wrongly
    have hMisread : ∀ line ∈ fileLines content, ∀ k,
        lineExports p (cString (piece 1023 line k)) = true ↔ Misread p line k := by
      intro line hMem k
      rw [lineExports_iff]
      exact ⟨fun h => ⟨h, fun h' => hGood ⟨line, hMem, h'⟩⟩, fun h => h.taken⟩
    have hTaken : (∃ line ∈ fileLines content, ∃ k,
        lineExports p (cString (piece 1023 line k)) = true) ↔
        ∃ line ∈ fileLines content, ∃ k, Misread p line k :=
      exists_congr fun line => and_congr_right fun hMem => exists_congr fun k => hMisread line hMem k
    rw [hTaken, or_iff_right hGood]
    exact Iff.comm

/-- The small server's exports file is read exactly for its directory. -/
theorem exports_exact_exp :
    ((isDirectoryExported (bytes "/exp")).run Sample.world).1 = true ↔
      HasLineFor (bytes "/exp *(rw)\n") (bytes "/exp") :=
  (exports_exact_iff Sample.world rfl rfl (bytes "/exp")).mpr
    (Or.inl ⟨bytes "/exp *(rw)", by decide, by decide, by decide⟩)

/-- A machine with another exports file. -/
def Sample.exporting (content : String) : World := .boot files host (some (bytes content)) env

/-- **A path that is not exported can be mounted.** Where `/exp data` is exported, so is
`/exp`, for which the file has no line. -/
theorem exports_not_exact :
    let w := Sample.exporting "/exp data *(rw)\n"
    w.machine.here.fault = none ∧ w.machine.exports = some (bytes "/exp data *(rw)\n") ∧
      ((isDirectoryExported (bytes "/exp")).run w).1 = true ∧
      ¬HasLineFor (bytes "/exp data *(rw)\n") (bytes "/exp") :=
  ⟨rfl, rfl, by decide, by decide⟩

/-! ## Files of short lines -/

/-- Short lines `path *(rw)`, whose paths meet `P`. The last newline of the file ends a line;
it does not begin another. -/
def ShortExports (P : Path → Prop) (content : Bytes) : Prop :=
  ∀ line ∈ fileLines content, line = [] ∨ ∃ q, P q ∧ line = q ++ bytes " *(rw)" ∧ line.length < 1000

/-- Only the path itself has a blank after it. -/
theorem eq_of_lineExports {q : Path} (hq : ∀ b ∈ q, isBlank b = false)
    (hText : text <+: q ++ bytes " *(rw)") (h : lineExports p text = true) : p = q := by
  obtain ⟨b, rest, hBlank, rfl, -⟩ := lineExports_iff.mp h
  obtain ⟨more, hMore⟩ := hText
  have hOptions : ∀ c ∈ bytes "*(rw)", isBlank c = false := by decide +kernel
  rw [append_assoc, cons_append] at hMore
  -- `p` ends before `q` does, or after it
  rcases append_eq_append_iff.mp hMore with ⟨as, rfl, hRest⟩ | ⟨cs, rfl, hRest⟩
  · cases as with
    | nil => exact (append_nil p).symm
    | cons a as =>
      obtain rfl : b = a := (cons.inj hRest).1
      rw [hq b (by simp)] at hBlank
      cases hBlank
  · cases cs with
    | nil => exact append_nil q
    | cons c cs =>
      have hEnd : bytes "*(rw)" = cs ++ b :: (rest ++ more) := (cons.inj hRest).2
      rw [hOptions b (by rw [hEnd]; simp)] at hBlank
      cases hBlank

/-- **What such a file exports is what its lines say**, if no path has a blank in it. -/
theorem exported_of_shortExports {P : Path → Prop}
    (hBlanks : ∀ q, P q → ∀ b ∈ q, isBlank b = false) {content : Bytes}
    (hShort : ShortExports P content) (h : isExported (some content) p = true) : P p := by
  obtain ⟨line, hMem, k, hk⟩ := isExported_iff.mp h
  rcases hShort line hMem with rfl | ⟨q, hq, rfl, hLength⟩
  · rw [show piece 1023 ([] : Bytes) k = [] from by simp [piece]] at hk
    exact absurd hk (not_lineExports_nil p)
  · rw [piece_of_length_le (by omega)] at hk
    split at hk
    · rw [eq_of_lineExports (hBlanks q hq) ( takeWhile_prefix _) hk]
      exact hq
    · exact absurd hk (not_lineExports_nil p)

end QuicNfs.Server

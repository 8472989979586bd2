import Mathlib.Algebra.Ring.Int.Defs
import Mathlib.Algebra.Ring.Nat
import Mathlib.Data.List.Basic

/-!
# QuicNfs — paths

Path names as the kernel reads them: byte strings whose components are
separated by slashes. A C string is the list of its bytes, without the
terminating NUL.

* `components` — the components of a path, empty ones dropped;
* `Plain` — a name that is one component and neither `.` nor `..`;
* `components_join` — joining two paths with a slash joins their components.
-/

namespace QuicNfs.Kernel

open List

abbrev Bytes := List UInt8

/-- One component of a path, or any string that should be one. -/
abbrev Name := Bytes

abbrev Path := Bytes

/-- The bytes of a literal. -/
def bytes (s : String) : Bytes := s.toUTF8.data.toList

def slash : UInt8 := 47

def dot : Name := [46]

def dotdot : Name := [46, 46]

/-- The longest component the kernel accepts. -/
def nameMax : Nat := 255

/-- The size of the kernel's path buffer, the NUL included. -/
def pathMax : Nat := 4096

/-- The components of a path: repeated, leading and trailing slashes separate
nothing. -/
def components (p : Path) : List Name := (p.splitOn slash).filter (!·.isEmpty)

def isAbsolute (p : Path) : Bool := p.head? == some slash

/-- A path that ends in a slash has to lead to a directory. -/
def endsInSlash (p : Path) : Bool := p.getLast? == some slash

/-- A name that leads from a directory to an entry of that same directory. -/
structure Plain (n : Name) : Prop where
  ne_nil : n ≠ []
  no_slash : slash ∉ n
  ne_dot : n ≠ dot
  ne_dotdot : n ≠ dotdot

instance (n : Name) : Decidable (Plain n) :=
  decidable_of_iff (n ≠ [] ∧ slash ∉ n ∧ n ≠ dot ∧ n ≠ dotdot)
    ⟨fun ⟨h₁, h₂, h₃, h₄⟩ => ⟨h₁, h₂, h₃, h₄⟩, fun ⟨h₁, h₂, h₃, h₄⟩ => ⟨h₁, h₂, h₃, h₄⟩⟩

variable {p : Path} {c : Name}

/-- Empty components are left out. -/
theorem mem_components : c ∈ components p ↔ c ∈ p.splitOn slash ∧ c ≠ [] := by
  simp [components, mem_filter]

/-- A component is not empty and holds no slash. -/
theorem component_ne_nil (h : c ∈ components p) : c ≠ [] :=
  (mem_components.mp h).2

theorem slash_not_mem_of_mem_splitOn (h : c ∈ p.splitOn slash) : slash ∉ c := by
  induction p generalizing c with
  | nil =>
    obtain rfl : c = [] := by simpa using h
    simp
  | cons b p ih =>
    rw [splitOn_cons_eq_if_modifyHead] at h
    split at h
    · rcases mem_cons.mp h with rfl | h
      · simp
      · exact ih h
    · next hb =>
      obtain ⟨head, rest, hSplit⟩ := exists_cons_of_ne_nil (splitOn_ne_nil slash p)
      rw [hSplit, modifyHead_cons] at h
      rcases mem_cons.mp h with rfl | h
      · have hHead : slash ∉ head := ih (by simp [hSplit])
        have hb' : slash ≠ b := fun hEq => hb (by simp [hEq])
        simp [hHead, hb']
      · exact ih (by simp [hSplit, h])

theorem component_no_slash (h : c ∈ components p) : slash ∉ c :=
  slash_not_mem_of_mem_splitOn (mem_components.mp h).1

/-- A slash between two paths joins their components. -/
theorem components_join (p q : Path) :
    components (p ++ slash :: q) = components p ++ components q := by
  simp only [components]
  rw [splitOn_append_cons_self, filter_append]

variable {n : Name}

theorem components_of_no_slash (hSlash : slash ∉ n) (hNil : n ≠ []) : components n = [n] := by
  simp [components, splitOn_eq_singleton hSlash, hNil]

/-- A path that does not start at the root has a component. -/
theorem components_ne_nil (hNil : p ≠ []) (hRel : isAbsolute p = false) : components p ≠ [] := by
  cases p with
  | nil => exact absurd rfl hNil
  | cons b p =>
    have hb : b ≠ slash := by
      rintro rfl
      cases hRel
    obtain ⟨head, rest, hSplit⟩ := exists_cons_of_ne_nil (splitOn_ne_nil slash p)
    have hFirst : b :: head ∈ components (b :: p) := by
      rw [mem_components, splitOn_cons_eq_if_modifyHead, if_neg (by simpa using hb), hSplit]
      exact ⟨by simp, by simp⟩
    exact ne_nil_of_mem hFirst

theorem Plain.components_eq (h : Plain n) : components n = [n] :=
  components_of_no_slash h.no_slash h.ne_nil

theorem components_join_plain (p : Path) (h : Plain n) :
    components (p ++ slash :: n) = components p ++ [n] := by
  rw [components_join, h.components_eq]

theorem isAbsolute_join (q : Path) (h : p ≠ []) : isAbsolute (p ++ slash :: q) = isAbsolute p := by
  cases p with
  | nil => exact absurd rfl h
  | cons b p => rfl

/-- A name does not end in a slash. -/
theorem endsInSlash_join_plain (p : Path) (h : Plain n) :
    endsInSlash (p ++ slash :: n) = false := by
  have hLast : (p ++ slash :: n).getLast? = n.getLast? := by
    cases n with
    | nil => exact absurd rfl h.ne_nil
    | cons b n => simp [getLast?_append, getLast?_cons]
  rw [endsInSlash, hLast]
  have hMem : ∀ b, n.getLast? = some b → b ≠ slash := fun b hb hEq =>
    h.no_slash (hEq ▸ mem_of_getLast? hb)
  cases hb : n.getLast? with
  | none => rfl
  | some b => simpa using hMem b hb

end QuicNfs.Kernel

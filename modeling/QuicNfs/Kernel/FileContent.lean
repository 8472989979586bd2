import QuicNfs.Kernel.Effects
import QuicNfs.Lib.Splice

/-!
# QuicNfs — the bytes of a regular file

What `read` and `write` do to the bytes of a file, in terms of the stores of
`Lib/Splice.lean`.
-/

namespace QuicNfs.Kernel

theorem overwrite_eq_splice (offset : Nat) (new data : Bytes) :
    overwrite offset new data = Lib.splice 0 offset new data := rfl

namespace FileSystem

variable {fs : FileSystem} {i : Ino} {old : Bytes}

/-- The object is a regular file with these bytes. -/
def Holds (fs : FileSystem) (i : Ino) (data : Bytes) : Prop := fs.content i = some (.regular data)

/-- The bytes of a regular file. -/
def bytesOf (fs : FileSystem) (i : Ino) : Option Bytes :=
  match fs.content i with
  | some (.regular data) => some data
  | _ => none

/-- Only a regular file has bytes. -/
theorem bytesOf_eq_some {data : Bytes} : fs.bytesOf i = some data ↔ fs.Holds i data := by
  unfold bytesOf Holds
  split
  · next h => simp [h]
  · next hOther =>
    refine ⟨nofun, fun h => absurd h (hOther data)⟩

instance (fs : FileSystem) (i : Ino) (data : Bytes) : Decidable (fs.Holds i data) :=
  decidable_of_iff (fs.bytesOf i = some data) bytesOf_eq_some

theorem Holds.unique {data data' : Bytes} (h : fs.Holds i data) (h' : fs.Holds i data') :
    data = data' := by
  rw [Holds, h] at h'
  cases h'
  rfl

/-- What `fwrite` leaves in the file. -/
theorem holds_write (h : fs.Holds i old) (offset : Nat) (new : Bytes) (now : Timespec) :
    (fs.write i offset new now).Holds i (overwrite offset new old) := by
  unfold write
  split
  · next hNil =>
    rw [hNil]
    exact h
  · obtain ⟨x, hx, hContent⟩ := Option.map_eq_some_iff.mp h
    unfold Holds Tree.content
    rw [inode_setAttr, if_pos rfl, inode_setData, if_pos rfl, hx]
    simp [Inode.mapData, hContent]

theorem sameNames_write (fs : FileSystem) (i : Ino) (offset : Nat) (new : Bytes) (now : Timespec) :
    fs.SameNames (fs.write i offset new now) := by
  unfold write
  split
  · exact .refl fs
  · exact (sameNames_setData fs i _).trans (sameNames_setAttr _ i _)

end FileSystem

end QuicNfs.Kernel

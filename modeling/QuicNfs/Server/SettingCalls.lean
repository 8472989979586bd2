import QuicNfs.Kernel.Settings
import QuicNfs.Server.Rules

/-!
# QuicNfs — the calls that set the attributes of a request

SETATTR, CREATE and MKDIR set the attributes of a request by one call for each, in a fixed
order. The first call that fails ends the request.

* `inOrder` — the calls, and then the rest of the procedure;
* `Attributes.settings`, `Attributes.initial` — the calls of SETATTR, and those of CREATE and
  MKDIR;
* `safe_inOrder` — what every call keeps holds wherever the request ends.
-/

namespace QuicNfs.Server

open Kernel Lib

variable {β : Type}

/-- The first call that fails makes the reply a SYSTEM_ERR. -/
def inOrder (p : Path) (ss : List Setting) (k : Proc (NfsReply β)) : Proc (NfsReply β) :=
  ss.foldr (fun s rest => orSystemErr (sys (s.call p)) fun () => rest) k

theorem inOrder_cons (p : Path) (s : Setting) (ss : List Setting) (k : Proc (NfsReply β)) :
    inOrder p (s :: ss) k = orReport (fun _ => none) (sys (s.call p)) fun () => inOrder p ss k :=
  rfl

theorem inOrder_append (p : Path) (ss ss' : List Setting) (k : Proc (NfsReply β)) :
    inOrder p (ss ++ ss') k = inOrder p ss (inOrder p ss' k) :=
  List.foldr_append

/-! ## The calls of a request -/

namespace Attributes

def modeSetting (a : Attributes) : List Setting :=
  if a.mode ≠ unchanged32 then [.mode a.mode] else []

def sizeSetting (a : Attributes) : List Setting :=
  if a.size ≠ unchanged64 then [.size a.size] else []

def timesSetting (a : Attributes) : List Setting :=
  if a.setsTimes then
    [.times ⟨a.atime.seconds, a.atime.useconds⟩ ⟨a.mtime.seconds, a.mtime.useconds⟩]
  else []

/-- `chown` is called whatever the request sets. -/
def initial (a : Attributes) : List Setting :=
  .owner a.uid a.gid :: (a.sizeSetting ++ a.timesSetting)

def settings (a : Attributes) : List Setting := a.modeSetting ++ a.initial

/-- The owner that is set is the one of the request. -/
theorem owner_of_mem_settings {a : Attributes} {uid gid : Nat}
    (h : Setting.owner uid gid ∈ a.settings) : uid = a.uid ∧ gid = a.gid := by
  unfold settings modeSetting initial sizeSetting timesSetting at h
  simp only [List.mem_append, List.mem_cons, Setting.owner.injEq] at h
  -- the other calls are made by an `if`, and none of them is a `chown`
  rcases h with h | h | h | h
  · split at h <;> simp at h
  · exact h
  · split at h <;> simp at h
  · split at h <;> simp at h

end Attributes

section Calls

variable (p : Path) (a : Attributes) (k : Proc (NfsReply β))

theorem setMode_eq : setMode p a k = inOrder p a.modeSetting k := by
  unfold setMode Attributes.modeSetting
  split <;> rfl

theorem setSize_eq : setSize p a k = inOrder p a.sizeSetting k := by
  unfold setSize Attributes.sizeSetting
  split <;> rfl

theorem setTimes_eq : setTimes p a k = inOrder p a.timesSetting k := by
  unfold setTimes Attributes.timesSetting
  split <;> rfl

theorem initial_eq : (setOwner p a <| setSize p a <| setTimes p a k) = inOrder p a.initial k := by
  rw [setTimes_eq, setSize_eq, ← inOrder_append]
  rfl

theorem settings_eq :
    (setMode p a <| setOwner p a <| setSize p a <| setTimes p a k) = inOrder p a.settings k := by
  rw [initial_eq, setMode_eq, ← inOrder_append]
  rfl

end Calls

/-! ## What every call keeps -/

/-- The request may end after each of the calls, with a file system that meets `I`. -/
theorem safe_inOrder {J : Demand} {Q : NfsReply β → World → Prop} {w : World} {p : Path}
    {ss : List Setting} {k : Proc (NfsReply β)} {I : FileSystem → Prop}
    (hJ : ∀ s ∈ ss, ∀ fs, I fs → ∀ t, J.holds (s.call p) ((w.withFs fs).atTick t))
    (hFail : ∀ fs, I fs → FailSafe Q (w.withFs fs))
    (hStep : ∀ s ∈ ss, ∀ fs fs' now, I fs → s.result fs p now = .ok fs' → I fs')
    (hEnd : ∀ fs, I fs → Safe J Q k (w.withFs fs)) {fs : FileSystem} (hI : I fs) :
    Safe J Q (inOrder p ss k) (w.withFs fs) := by
  induction ss generalizing fs with
  | nil => exact hEnd fs hI
  | cons s ss ih =>
    obtain ⟨hJs, hJss⟩ := List.forall_mem_cons.mp hJ
    obtain ⟨hSteps, hStepss⟩ := List.forall_mem_cons.mp hStep
    rw [inOrder_cons]
    refine safe_orReport_change (r := fun c => s.result fs p c.now) (fun t => ?_) (hJs fs hI)
      (hFail fs hI) fun c fs' hResult => ?_
    · exact s.exec_eq p _
    · exact ih hJss hStepss (hSteps fs fs' c.now hI hResult)

end QuicNfs.Server

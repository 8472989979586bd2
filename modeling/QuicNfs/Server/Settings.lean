import QuicNfs.Server.Outcomes
import QuicNfs.Server.SettingCalls

/-!
# QuicNfs — setting attributes one after the other

The first of the calls that fails ends the request, and what the calls before it have done
stays.

* `GoThrough` — all of them succeed;
* `applied` — the object after those that came before the first failure;
* `run_inOrder` — the request ends with a SYSTEM_ERR or goes on, with that object.
-/

namespace QuicNfs.Server

open Kernel Lib List

variable {β : Type}

/-! ## How far the calls get -/

/-- All calls succeed, on an object of this format. -/
def GoThrough (format : Format) : List Setting → World → Prop
  | [], _ => True
  | s :: ss, w => (s.Accepts format ∧ w.Clear) ∧ GoThrough format ss (w.wait 1)

instance (format : Format) : ∀ ss w, Decidable (GoThrough format ss w)
  | [], _ => inferInstanceAs (Decidable True)
  | s :: ss, w =>
    have := instDecidableGoThrough format ss (w.wait 1)
    inferInstanceAs (Decidable ((s.Accepts format ∧ w.Clear) ∧ GoThrough format ss (w.wait 1)))

/-- The object after the calls before the first failure. -/
def applied : List Setting → World → Inode → Inode
  | [], _, x => x
  | s :: ss, w, x =>
    if s.Accepts x.content.format ∧ w.Clear then
      applied ss (w.wait 1) (s.apply w.machine.here.now x)
    else x

/-- Only the circumstances of the calls count. -/
theorem goThrough_withFs {format : Format} {ss : List Setting} {w : World} (fs : FileSystem) :
    GoThrough format ss (w.withFs fs) ↔ GoThrough format ss w := by
  induction ss generalizing w with
  | nil => exact Iff.rfl
  | cons s ss ih => exact and_congr Iff.rfl (ih (w := w.wait 1))

theorem applied_withFs (ss : List Setting) (w : World) (fs : FileSystem) (x : Inode) :
    applied ss (w.withFs fs) x = applied ss w x := by
  induction ss generalizing w x with
  | nil => rfl
  | cons s ss ih =>
    unfold applied
    exact if_congr Iff.rfl (ih (w.wait 1) _) rfl

section Append

variable {format : Format} {ss ss' : List Setting} {w : World} {x : Inode}

theorem goThrough_append :
    GoThrough format (ss ++ ss') w ↔
      GoThrough format ss w ∧ GoThrough format ss' (w.wait ss.length) := by
  induction ss generalizing w with
  | nil => exact (and_iff_right trivial).symm
  | cons s ss ih =>
    rw [length_cons, Nat.add_comm, ← World.wait_wait, cons_append]
    exact (and_congr_right' (ih (w := w.wait 1))).trans and_assoc.symm

theorem format_applied (ss : List Setting) (w : World) (x : Inode) :
    (applied ss w x).content.format = x.content.format := by
  induction ss generalizing w x with
  | nil => rfl
  | cons s ss ih =>
    unfold applied
    split
    · rw [ih, Setting.format_apply]
    · rfl

theorem applied_cons {s : Setting} (h : s.Accepts x.content.format ∧ w.Clear) :
    applied (s :: ss) w x = applied ss (w.wait 1) (s.apply w.machine.here.now x) :=
  if_pos h

theorem applied_append (h : GoThrough x.content.format ss w) :
    applied (ss ++ ss') w x = applied ss' (w.wait ss.length) (applied ss w x) := by
  induction ss generalizing w x with
  | nil => rfl
  | cons s ss ih =>
    rw [length_cons, Nat.add_comm, ← World.wait_wait, cons_append, applied_cons h.1,
      applied_cons h.1]
    exact ih (by rw [Setting.format_apply]; exact h.2)

/-- A call that is made only for some requests. -/
theorem applied_ite {c : Prop} [Decidable c] {s : Setting}
    (h : GoThrough x.content.format (if c then [s] else []) w) :
    applied (if c then [s] else []) w x = if c then s.apply w.machine.here.now x else x := by
  split
  · next hc =>
    rw [if_pos hc] at h
    exact applied_cons h.1
  · rfl

end Append

section Run

variable {w : World} {p : Path} {f : Ino} {x : Inode} {s : Setting} (ss : List Setting)
  (k : Proc (NfsReply β))

/-- The first of the calls succeeds. -/
theorem run_setting (hLookup : w.fs.lookup true p = .ok f) (hx : w.fs.inode f = some x)
    (h : s.Accepts x.content.format ∧ w.Clear) :
    ∃ fs', w.fs.Touched fs' f ∧ fs'.inode f = some (s.apply w.machine.here.now x) ∧
      (inOrder p (s :: ss) k).run w = (inOrder p ss k).run ((w.withFs fs').wait 1) := by
  obtain ⟨fs', hResult, hTouched, hInode⟩ := Setting.result_of_accepts (s := s) hLookup hx h.1
  refine ⟨fs', hTouched, hInode, ?_⟩
  rw [inOrder_cons, run_changed (s.exec_eq p w.machine) h.2 hResult]

/-- The first of the calls fails. -/
theorem run_setting_of_not (hLookup : w.fs.lookup true p = .ok f) (hx : w.fs.inode f = some x)
    (h : ¬(s.Accepts x.content.format ∧ w.Clear)) :
    ∃ reply, reply.isOk = false ∧ (inOrder p (s :: ss) k).run w = (reply, w.wait 1) := by
  rw [inOrder_cons]
  refine run_not_changed (s.exec_eq p w.machine) fun hBoth => ?_
  obtain ⟨hClear, fs', hResult⟩ := hBoth
  have hRefuses : ¬s.Accepts x.content.format := fun hAccepts => h ⟨hAccepts, hClear⟩
  obtain ⟨e, hError⟩ : ∃ e, s.result w.fs p w.machine.here.now = .error e :=
    Setting.result_of_not_accepts hLookup hx hRefuses
  cases hError.symm.trans hResult

/-- **The calls are made up to the first that fails**, and do to the object what they do. -/
theorem run_inOrder (hLookup : w.fs.lookup true p = .ok f) (hx : w.fs.inode f = some x) :
    ∃ fs', w.fs.Touched fs' f ∧ fs'.inode f = some (applied ss w x) ∧
      if GoThrough x.content.format ss w then
        (inOrder p ss k).run w = k.run ((w.withFs fs').wait ss.length)
      else ∃ reply t, reply.isOk = false ∧
        (inOrder p ss k).run w = (reply, (w.withFs fs').atTick t) := by
  induction ss generalizing w x with
  | nil => exact ⟨w.fs, .refl _ _, hx, rfl⟩
  | cons s ss ih =>
    unfold applied GoThrough
    by_cases hFirst : s.Accepts x.content.format ∧ w.Clear
    · obtain ⟨fs₁, hTouched₁, hInode₁, hRun₁⟩ := run_setting ss k hLookup hx hFirst
      have hLookup₁ : fs₁.lookup true p = .ok f := by
        rw [hTouched₁.names.lookup]
        exact hLookup
      -- the rest of the calls find the object as the first one left it
      obtain ⟨fs', hTouched, hInode, hRest⟩ := ih (w := (w.wait 1).withFs fs₁) hLookup₁ hInode₁
      rw [applied_withFs] at hInode
      rw [Setting.format_apply, if_congr (goThrough_withFs fs₁) rfl rfl] at hRest
      refine ⟨fs', hTouched₁.trans hTouched, by rwa [if_pos hFirst], ?_⟩
      rw [if_congr (and_iff_right hFirst) rfl rfl, hRun₁, length_cons, Nat.add_comm,
        ← World.wait_wait]
      exact hRest
    · obtain ⟨reply, hReply, hRun⟩ := run_setting_of_not ss k hLookup hx hFirst
      refine ⟨w.fs, .refl _ _, ?_, ?_⟩
      · rw [if_neg hFirst]
        exact hx
      · rw [if_neg fun h => hFirst h.1]
        exact ⟨reply, w.machine.tick + 1, hReply, hRun⟩

/-- Where the path leads nowhere, the first call fails. -/
theorem run_inOrder_of_error {e : Errno} (hss : ss ≠ []) (hLookup : w.fs.lookup true p = .error e) :
    ∃ reply, reply.isOk = false ∧ (inOrder p ss k).run w = (reply, w.wait 1) := by
  obtain ⟨s, rest, rfl⟩ := exists_cons_of_ne_nil hss
  rw [inOrder_cons]
  refine run_not_changed (s.exec_eq p w.machine) fun hBoth => ?_
  obtain ⟨-, fs', hResult⟩ := hBoth
  obtain ⟨e', hError⟩ : ∃ e', s.result w.fs p w.machine.here.now = .error e' :=
    Setting.result_of_lookup_error hLookup
  cases hError.symm.trans hResult

end Run

end QuicNfs.Server

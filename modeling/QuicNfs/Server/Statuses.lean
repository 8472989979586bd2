import QuicNfs.Server.Blocks

/-!
# QuicNfs — the statuses of failed procedures

A procedure that fails names a reason: none of them answers with NFS_OK and no
body. The results of a procedure are built by its status, so that this is what
keeps a failed procedure from building the results of a successful one.

* `returns_serve` — whatever the machine does, no procedure fails with NFS_OK.
-/

namespace QuicNfs.Server

open Kernel Lib Prog

variable {α β : Type}

/-- The procedure does not end in the error `stat`, whatever the machine does. -/
abbrev Avoids (stat : Stat) (p : Proc (NfsReply β)) : Prop := p.Returns (· ≠ .err stat)

/-- The procedure ends in an honest reply, whatever the machine does. -/
abbrev EndsHonest (p : Proc (NfsReply β)) : Prop := p.Returns NfsReply.Honest

theorem modular_avoids (stat : Stat) : Modular stat (Avoids stat) where
  answer hr := hr
  tame _ h := returns_bind_any h

theorem avoids_answerWithHandle {stat : Stat} (p : Path) (handle : NfsFileHandle) :
    Avoids stat (answerWithHandle p handle) := by
  refine returns_bind_any fun fattr => ?_
  cases fattr with
  -- the handle is forgotten again
  | none => exact returns_call fun _ => returns_call fun _ => (modular_avoids stat).systemErr
  | some fattr => exact (modular_avoids stat).ok _

theorem avoids_withNewHandle {stat : Stat} (p : Path) :
    Avoids stat (withNewHandle p (answerWithHandle p)) := by
  refine returns_bind_any fun handle => ?_
  cases handle with
  | none => exact (modular_avoids stat).systemErr
  | some handle => exact avoids_answerWithHandle p handle

theorem procedural_endsHonest : Procedural EndsHonest EndsHonest where
  toModular := modular_avoids .nfsOk
  rest h := h
  garbageArgs := (modular_avoids .nfsOk).answer (by rintro ⟨⟩)
  withFile h := by
    refine returns_call fun cache => ?_
    split
    · exact (modular_avoids .nfsOk).err (by decide)
    · exact h _
  forgetPath p := returns_bind_any fun _ => (modular_avoids .nfsOk).ok _
  updatePath p q := returns_call fun _ => returns_call fun _ => (modular_avoids .nfsOk).ok _
  answerWithHandle := avoids_answerWithHandle
  withNewHandle := avoids_withNewHandle
  readFromDirectory h := by
    refine returns_bind_any fun r => ?_
    obtain ⟨reply, hHonest, hReply⟩ := h r
    rw [hReply]
    exact hHonest

theorem returns_mnt (cred : Credential) (dirpath : MsgPath) :
    (serveMntProcedure1AddMountEntry cred dirpath).Returns (· ≠ .err .mntOk) := by
  unfold serveMntProcedure1AddMountEntry
  cases dirpath.path with
  | none => rintro ⟨⟩
  | some p =>
    refine returns_call fun r => ?_
    split
    · rintro ⟨⟩
    · rintro ⟨⟩
    · refine returns_bind_any fun fattr => ?_
      cases fattr with
      | none => rintro ⟨⟩
      | some fattr =>
        dsimp only
        split
        · rintro ⟨⟩
        · refine returns_bind_any fun isExported => ?_
          split
          · rintro ⟨⟩
          · refine returns_bind_any fun handle => ?_
            cases handle with
            | none => rintro ⟨⟩
            | some handle =>
              refine returns_call fun mounts => returns_call fun _ => ?_
              rintro ⟨⟩

/-- **Failures are named.** No procedure answers with an error that is NFS_OK
(MNT_OK for the Mount program), whatever the machine does. -/
theorem returns_serve (cred : Credential) (r : Request) : (serve cred r).Returns Answer.Honest :=
  procedural_endsHonest.serve (W := (·.Returns Answer.Honest)) (fun h hAnswer => returns_bind h hAnswer)
    (fun a => returns_bind (returns_mnt cred a) fun _ h => h) r

end QuicNfs.Server

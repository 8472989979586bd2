import QuicNfs.Server.Complete

/-!
# QuicNfs — who owns what

Owners over whole runs of requests. SETATTR lets nobody but root change an
owner; CREATE and MKDIR give the new object to whoever the request names, and
to root if it names nobody.

* `owners_of_request` — a request of a caller other than root changes no owner
  or group of an object that exists, and decides the owner of what it creates
  by its attributes;
* `create_for_another` — so such a caller can make a file that is not their
  own.
-/

namespace QuicNfs.Server

open Kernel Lib

variable {fs' : FileSystem} {j i : Ino} {o : Nat × Nat}

/-- An object that was there, or was touched afterwards, keeps its owner when
another object is made. -/
theorem owner_of_created {fs fs₁ : FileSystem} {d : Ino} {m : Name} {x : Inode}
    (hCreated : fs.Created fs₁ d m j x) (hTouched : fs₁.Touched fs' j) (hi : i ≠ j) :
    fs'.owner i = fs.owner i := by
  have hSame : fs'.owner i = fs₁.owner i := by
    unfold Tree.owner
    rw [hTouched.other hi]
  rw [hSame, hCreated.owner, if_neg hi]

theorem ne_of_owner_some {fs fs₁ : FileSystem} {d : Ino} {m : Name} {x : Inode}
    (hCreated : fs.Created fs₁ d m j x) (ho : fs.owner i = some o) : i ≠ j := by
  rintro rfl
  rw [Tree.owner, hCreated.fresh] at ho
  cases ho

/-- **Existing objects stay with their owners**, whatever a caller other than
root asks for. -/
theorem Effect.keepsOwner {w : World} {caller : AuthSysParams} (hCaller : caller.uid ≠ 0)
    {r : Request} {ok : Bool} {cache : InodeCache} (h : Effect w (.authSys caller) r ok fs' cache)
    (ho : w.fs.owner i = some o) : fs'.owner i = none ∨ fs'.owner i = some o := by
  have hKeeps : w.fs.KeepsOwners fs' → fs'.owner i = none ∨ fs'.owner i = some o :=
    fun hK => ho ▸ hK i
  cases h with
  | nothing | mounted | lookedUp | forgotten => exact Or.inr ho
  | touched _ _ _ _ _ hOwners => exact hKeeps (hOwners caller rfl hCaller).keepsOwners
  | created _ _ _ _ hCreated hTouched _ _ =>
    exact Or.inr ((owner_of_created hCreated hTouched (ne_of_owner_some hCreated ho)).trans ho)
  | symlinked _ _ _ hCreated =>
    exact Or.inr ((owner_of_created hCreated (.refl _ _) (ne_of_owner_some hCreated ho)).trans ho)
  | linked _ _ _ _ _ _ hOwners _ => exact hKeeps hOwners.keepsOwners
  | removed _ _ _ _ hRemoved _ => exact hKeeps hRemoved.owners
  | renamed _ _ _ _ _ _ _ _ _ hRenamed =>
    rcases hRenamed with ⟨_, rfl⟩ | ⟨_, hRenamed⟩
    · exact Or.inr ho
    · exact hKeeps hRenamed.owners

/-- The owner of what CREATE and MKDIR made. -/
theorem Effect.owner_new {w : World} {cred : Credential} {r : Request} {cache : InodeCache}
    (h : Effect w cred r true fs' cache) {args : CreateArgs}
    (hRequest : r.creation = some args) {n : Bytes} {a : Attributes}
    (hArgs : args.decode = some (i, n, a)) (hNew : w.fs.owner j = none)
    (ho : fs'.owner j = some o) : o.1 = if a.uid = unchanged32 then 0 else a.uid := by
  -- an object whose owner is as before is not new
  have hOld : fs'.owner j = none ∨ fs'.owner j = w.fs.owner j → False := by
    rw [hNew, or_self, ho]
    simp
  cases h with
  | nothing => exact absurd (Or.inr rfl) hOld
  | mounted | lookedUp | symlinked | linked | renamed =>
    cases hRequest
  | touched hRequest' _ _ _ _ =>
    cases r <;> simp_all [Request.creation, Request.altersFile]
  | @created _ args' i' n' a' _ _ _ _ _ _ _ k x _ hRequest' hArgs' _ _ hCreated hTouched hOwner _ =>
    rw [hRequest] at hRequest'
    cases hRequest'
    rw [hArgs] at hArgs'
    cases hArgs'
    by_cases hj : j = k
    · subst hj
      rw [hOwner rfl] at ho
      cases ho
      rfl
    · exact absurd (Or.inr (owner_of_created hCreated hTouched hj)) hOld
  | removed hRequest' _ _ _ hRemoved _ => exact absurd (hRemoved.owners j) hOld

/-- **Owners over runs.** Whatever requests were served before, a request of an
AUTH_SYS caller other than root leaves every object that existed with the owner
and group it had, if it leaves it at all; and an object that it makes with
CREATE or MKDIR, answering NFS_OK, belongs to the user the request's attributes
name, or to root where they name none. -/
theorem owners_of_request (v : World) (run : List Action) (caller : AuthSysParams)
    (hCaller : caller.uid ≠ 0) (r : Request) :
    (∀ i o, (v.steps run).fs.owner i = some o →
      ((v.steps run).afterRequest (.authSys caller) r).fs.owner i = none ∨
        ((v.steps run).afterRequest (.authSys caller) r).fs.owner i = some o) ∧
    (((v.steps run).answer (.authSys caller) r).isOk = true →
      ∀ args i n a, r.creation = some args → args.decode = some (i, n, a) →
        ∀ j o, (v.steps run).fs.owner j = none →
          ((v.steps run).afterRequest (.authSys caller) r).fs.owner j = some o →
          o.1 = if a.uid = unchanged32 then 0 else a.uid) := by
  have hEffect := effect_serve (v.steps run) (.authSys caller) r
  refine ⟨fun i o ho => hEffect.keepsOwner hCaller ho, ?_⟩
  intro hOk args i n a hRequest hArgs j o hNew ho
  rw [hOk] at hEffect
  exact hEffect.owner_new hRequest hArgs hNew ho

/-- User 1000 creates a file in `/exp` for user 2000; the directory stays root's. -/
theorem owners_of_request_create :
    let w := Sample.world.steps [Sample.mount]
    let w' := w.afterRequest (.authSys Sample.caller) (.create (Sample.newFile 2 "new" 2000))
    (w'.fs.owner 2 = none ∨ w'.fs.owner 2 = some (0, 0)) ∧
      ∀ o, w'.fs.owner 26 = some o → o.1 = if 2000 = unchanged32 then 0 else 2000 :=
  have h := owners_of_request Sample.world [Sample.mount] Sample.caller (by decide)
    (.create (Sample.newFile 2 "new" 2000))
  ⟨h.1 2 (0, 0) (by decide), fun o => h.2 (by decide) (Sample.newFile 2 "new" 2000) 2
    (bytes "new")
    ⟨0o644, 2000, 2000, unchanged64, ⟨unchanged64, unchanged64⟩, ⟨unchanged64, unchanged64⟩⟩
    rfl (by decide) 26 o (by decide)⟩

/-- **The new file is not the caller's.** User 1000 may write in `/exp` and
creates a file there, with success, that belongs to user 2000. -/
theorem create_for_another :
    let w := Sample.world.steps [Sample.mount]
    let r : Request := .create (Sample.newFile 2 "new" 2000)
    Sample.caller.uid ≠ 0 ∧ (w.answer (.authSys Sample.caller) r).isOk = true ∧
      w.fs.owner 26 = none ∧
      (w.afterRequest (.authSys Sample.caller) r).fs.owner 26 = some (2000, 2000) ∧
      (2000, 2000).1 ≠ Sample.caller.uid := by
  decide

end QuicNfs.Server

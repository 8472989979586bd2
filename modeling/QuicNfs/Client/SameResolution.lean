import QuicNfs.Client.Repl

/-!
# QuicNfs — the two clients look up paths alike

`resolve_path` of the REPL and `resolve_absolute_path` of the FUSE client have been written
twice. As programs they are the same, up to the error code that the FUSE client keeps.

* `resolvePath_eq` — one program in terms of the other;
* `clients_resolve_alike` — at any LOOKUP, both are the left fold of it over the names.
-/

namespace QuicNfs.Client

open Kernel Server Lib Prog

/-! ## As programs -/

theorem resolveComponents_eq (fhandle : NfsFileHandle) (ftype : FType) (names : List Bytes) :
    resolveComponents fhandle ftype names =
      lookUpComponents fhandle ftype names >>= fun result => pure result.toOption := by
  induction names generalizing fhandle ftype with
  | nil => rfl
  | cons name rest ih =>
    unfold resolveComponents lookUpComponents
    by_cases hDir : ftype = .nfDir
    · rw [if_neg (not_not.mpr hDir), if_neg (not_not.mpr hDir), bind_assoc]
      refine congrArg _ (funext fun result => ?_)
      cases result with
      | failed => rfl
      -- the FUSE client tells the statuses apart, but fails at each of them
      | err stat => cases stat <;> rfl
      | ok diropok => exact ih _ _
    · rw [if_pos hDir, if_pos hDir]
      rfl

/-- For an absolute path, the REPL does what the FUSE client does. -/
theorem resolvePath_eq (state : ReplState) {path : Bytes} (hAbsolute : path.head? = some slash) :
    resolvePath state path =
      resolveAbsolutePath state.filesystemDagRoot.fhandle path >>= fun result =>
        pure result.toOption := by
  have hNil : path ≠ [] := by
    rintro rfl
    cases hAbsolute
  unfold resolvePath resolveAbsolutePath
  rw [if_neg hNil, if_pos hAbsolute, if_neg (not_not.mpr hAbsolute)]
  exact resolveComponents_eq _ _ _

/-! ## At a LOOKUP -/

/-- A server that answers LOOKUP by a function of the handle and the name, and the calls
that have been made. Without a reply the call has failed. -/
structure Lookups where
  behaviour : NfsFileHandle → Bytes → Option (NfsReply DirOpOk)
  calls : List (NfsFileHandle × Bytes)

def Lookups.exec {β : Type} : Rpc β → Lookups → β × Lookups
  | .call (.lookup ⟨some ⟨some fhandle⟩, some ⟨some name⟩⟩), s =>
    ((s.behaviour fhandle name).map .dirOpRes, { s with calls := s.calls ++ [(fhandle, name)] })
  -- no other procedure is called
  | .call _, s => (none, s)

instance : Handler Rpc Lookups := ⟨Lookups.exec⟩

/-- What a name leads to. -/
def lookUp (behaviour : NfsFileHandle → Bytes → Option (NfsReply DirOpOk))
    (file : NfsFileHandle × FType) (name : Bytes) : Option (NfsFileHandle × FType) :=
  if file.2 ≠ .nfDir then none
  else match behaviour file.1 name with
    | some (.ok diropok) => some (diropok.file, diropok.attributes.nfsFtype)
    | _ => none

/-- A call that gets no reply fails. -/
theorem run_lookUp {α : Type} (behaviour : NfsFileHandle → Bytes → Option (NfsReply DirOpOk))
    (calls : List (NfsFileHandle × Bytes)) (fhandle : NfsFileHandle) (name : Bytes)
    (k : StubResult DirOpOk → Remote α) :
    (nfsProcedure4LookUpFileName ⟨some ⟨some fhandle⟩, some ⟨some name⟩⟩ >>= k).run
        (⟨behaviour, calls⟩ : Lookups) =
      (k ((behaviour fhandle name).elim .failed .of)).run
        (⟨behaviour, calls ++ [(fhandle, name)]⟩ : Lookups) := by
  have hCall : (call (Rpc.call (.lookup ⟨some ⟨some fhandle⟩, some ⟨some name⟩⟩))).run
      (⟨behaviour, calls⟩ : Lookups) =
        ((behaviour fhandle name).map .dirOpRes, ⟨behaviour, calls ++ [(fhandle, name)]⟩) := rfl
  rw [nfsProcedure4LookUpFileName, bind_assoc, run_bind, hCall]
  cases behaviour fhandle name with
  | none => rfl
  | some reply => rfl

theorem run_resolveComponents (behaviour : NfsFileHandle → Bytes → Option (NfsReply DirOpOk))
    (calls : List (NfsFileHandle × Bytes)) (fhandle : NfsFileHandle) (ftype : FType)
    (names : List Bytes) :
    ((resolveComponents fhandle ftype names).run (⟨behaviour, calls⟩ : Lookups)).1 =
      names.foldlM (lookUp behaviour) (fhandle, ftype) := by
  -- the record of the calls grows and is never read
  induction names generalizing fhandle ftype calls with
  | nil => rfl
  | cons name rest ih =>
    rw [List.foldlM_cons]
    unfold resolveComponents lookUp
    by_cases hDir : ftype = .nfDir
    · rw [if_neg (not_not.mpr hDir), if_neg (not_not.mpr hDir), run_lookUp]
      -- a reply with success goes on, the others end the walk
      rcases hReply : behaviour fhandle name with - | reply
      · rfl
      · cases reply with
        | ok diropok => exact ih _ _ _
        | garbageArgs | systemErr | err stat => rfl
    · rw [if_pos hDir, if_pos hDir]
      rfl

/-- **The clients resolve paths alike.** For a path that begins with a slash, at any LOOKUP:
they make the same calls, fail alike, and otherwise find the same handle and file type. It is
the left fold of LOOKUP over the names of the path, which fails at a name in what is not a
directory. -/
theorem clients_resolve_alike (state : ReplState) (path : Bytes)
    (hAbsolute : path.head? = some slash)
    (behaviour : NfsFileHandle → Bytes → Option (NfsReply DirOpOk))
    (calls : List (NfsFileHandle × Bytes)) :
    let repl := (resolvePath state path).run (⟨behaviour, calls⟩ : Lookups)
    let fuse := (resolveAbsolutePath state.filesystemDagRoot.fhandle path).run
      (⟨behaviour, calls⟩ : Lookups)
    repl.2.calls = fuse.2.calls ∧ repl.1 = fuse.1.toOption ∧
      repl.1 = (components path).foldlM (lookUp behaviour)
        (state.filesystemDagRoot.fhandle, .nfDir) := by
  have hNil : path ≠ [] := by
    rintro rfl
    cases hAbsolute
  refine ⟨?_, ?_, ?_⟩
  -- the REPL makes no call of its own
  · rw [resolvePath_eq state hAbsolute, run_bind]
    rfl
  · rw [resolvePath_eq state hAbsolute, run_bind]
    rfl
  · unfold resolvePath
    rw [if_neg hNil, if_pos hAbsolute]
    exact run_resolveComponents _ _ _ _ _

namespace Sample

/-- LOOKUP where every object is a directory, with itself as its entry `a`. -/
def selfNamed (fhandle : NfsFileHandle) (name : Bytes) : Option (NfsReply DirOpOk) :=
  if name = bytes "a" then
    some (.ok ⟨fhandle, ⟨.nfDir, 0o755, 2, 0, 0, 0, 4096, 0, 0, 1, 2, ⟨0, 0⟩, ⟨0, 0⟩, ⟨0, 0⟩⟩⟩)
  else some (.err .nfserrNoent)

end Sample

/-- A path that is found, and one with a name that is not there. -/
theorem clients_resolve_alike_sample :
    ((resolvePath Sample.atRoot (bytes "/a//a")).run (⟨Sample.selfNamed, []⟩ : Lookups)).1 =
        some (⟨2, 0⟩, .nfDir) ∧
      ((resolveAbsolutePath ⟨2, 0⟩ (bytes "/b/a")).run (⟨Sample.selfNamed, []⟩ : Lookups)).1.toOption =
        none := by
  constructor
  · rw [(clients_resolve_alike Sample.atRoot (bytes "/a//a") rfl Sample.selfNamed []).2.2]
    decide +kernel
  · have hAlike := clients_resolve_alike Sample.atRoot (bytes "/b/a") rfl Sample.selfNamed []
    exact hAlike.2.1.symm.trans (hAlike.2.2.trans (by decide +kernel))

end QuicNfs.Client

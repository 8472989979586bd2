import QuicNfs.Client.Handlers
import QuicNfs.Server.Service

/-!
# QuicNfs — the client finds an object

`resolve_absolute_path` goes from the root of the file system to an object, one LOOKUP
for each name of the path.

* `Step`, `Leads` — the objects the names lead to, and the paths under which the server
  knows them or will know them;
* `Steady` — a link on which no call is lost, to a server whose state keeps an invariant
  while the others act;
* `run_resolveAbsolutePath` — the handle at the end is the one of the object.
-/

namespace QuicNfs.Client

open Kernel Server Lib

/-! ## The way to an object -/

section Way

variable (cred : Credential) (root : Ino) (way : List (Name × Ino)) (known : Ino → Path)

/-- LOOKUP of the name `n` in `d` leads to `e`. The server knows `d` under the path
`known d`; it knows `e` under `known e`, or it will learn of it at this path. -/
structure Step (w : World) (d : Ino) (n : Name) (e : Ino) : Prop where
  lookup : w.fs.lookup false (known d) = .ok d
  isDir : w.fs.isDir d
  allowed : Allowed w.fs cred .execute d
  entry : w.fs.lookup false (getFileAbsolutePath (known d) n) = .ok e
  path : w.view e = some (known e) ∨ w.view e = none ∧ known e = getFileAbsolutePath (known d) n

/-- The names lead from `d` to the objects beside them. -/
def Leads (w : World) : Ino → List (Name × Ino) → Prop
  | _, [] => True
  | d, (n, e) :: rest => Step cred known w d n e ∧ Leads w e rest

/-- Where the way ends. -/
def destination : Ino → List (Name × Ino) → Ino
  | d, [] => d
  | _, (_, e) :: rest => destination e rest

/-- The server can lead a client from the root to the end of the way. -/
structure Passable (w : World) : Prop where
  quiet : Quiet w
  view : w.view root = some (known root)
  leads : Leads cred known w root way
  lookup : w.fs.lookup false (known (destination root way)) = .ok (destination root way)

end Way

variable {cred : Credential} {root : Ino} {way : List (Name × Ino)} {known : Ino → Path}
variable {w w' : World} {l : Link}

theorem destination_append (d : Ino) (first rest : List (Name × Ino)) :
    destination d (first ++ rest) = destination (destination d first) rest := by
  induction first generalizing d with
  | nil => rfl
  | cons s first ih => exact ih s.2

variable {rest : List (Name × Ino)}

theorem Leads.drop {d : Ino} {first : List (Name × Ino)}
    (h : Leads cred known w d (first ++ rest)) : Leads cred known w (destination d first) rest := by
  induction first generalizing d with
  | nil => exact h
  | cons s first ih => exact ih h.2

/-- What the way depends on: the names, the permissions, and what the server knows. -/
theorem Leads.congr {d : Ino} (hNames : w.fs.SameNames w'.fs) (hModes : SameModes w.fs w'.fs)
    (hView : ∀ x, w'.view x = w.view x ∨ w'.view x = some (known x))
    (h : Leads cred known w d rest) : Leads cred known w' d rest := by
  induction rest generalizing d with
  | nil => trivial
  | cons s rest ih =>
    obtain ⟨hStep, hRest⟩ := h
    refine ⟨⟨?_, ?_, hModes.allowed hStep.allowed, ?_, ?_⟩, ih hRest⟩
    · rw [hNames.lookup]
      exact hStep.lookup
    · rw [hNames.isDir]
      exact hStep.isDir
    · rw [hNames.lookup]
      exact hStep.entry
    · rcases hView s.2 with hSame | hKnown
      · rw [hSame]
        exact hStep.path
      · exact .inl hKnown

/-- The way stays passable while no name and no permission changes. -/
theorem Passable.congr (h : Passable cred root way known w) (hQuiet : Quiet w')
    (hNames : w.fs.SameNames w'.fs) (hModes : SameModes w.fs w'.fs)
    (hView : ∀ x, w'.view x = w.view x ∨ w'.view x = some (known x)) :
    Passable cred root way known w' where
  quiet := hQuiet
  view := by
    rcases hView root with hEq | hKnown
    · rw [hEq]
      exact h.view
    · exact hKnown
  leads := h.leads.congr hNames hModes hView
  lookup := by rw [hNames.lookup]; exact h.lookup

theorem sameModes_refl (fs : FileSystem) : SameModes fs fs :=
  fun _ x hx => ⟨x, hx, rfl, rfl, rfl⟩

/-- In particular while the server only learns. -/
theorem Passable.undisturbed (h : Passable cred root way known w) (hSame : Undisturbed w w')
    (hView : ∀ x, w'.view x = w.view x ∨ w'.view x = some (known x)) :
    Passable cred root way known w' :=
  h.congr (hSame.quiet h.quiet) (by rw [hSame.fs]; exact .refl _)
    (by rw [hSame.fs]; exact sameModes_refl _) hView

/-- What the server knows of the end of the way is right. -/
theorem Passable.view_destination (h : Passable cred root way known w) {p : Path}
    (hView : w.view (destination root way) = some p) : p = known (destination root way) := by
  rcases List.eq_nil_or_concat way with hNil | ⟨first, ⟨n, e⟩, hWay⟩
  · subst hNil
    exact Option.some.inj (hView.symm.trans h.view)
  · have hLeads := h.leads
    have hEnd : destination root way = e := by
      rw [hWay, List.concat_eq_append, destination_append]
      rfl
    rw [hWay, List.concat_eq_append] at hLeads
    rw [hEnd] at hView ⊢
    rcases hLeads.drop.1.path with hKnown | ⟨hNew, -⟩
    · exact Option.some.inj (hView.symm.trans hKnown)
    · rw [hNew] at hView
      cases hView

/-! ## One call -/

/-- The link after a call that has left the server in `w'`. -/
def Link.served (l : Link) (w' : World) : Link := { l with world := w', calls := l.calls + 1 }

section Stubs

variable {α : Type} (hFate : l.fate l.calls = .delivered)
include hFate

/-- A call that is delivered gets the answer of the server. -/
theorem run_call {r : Request} {answer : Answer}
    (hServe : (serve l.credential r).run l.before = (answer, w')) (k : Option Answer → Remote α) :
    (Prog.call (.call r) >>= k).run l = (k (some answer)).run (l.served w') := by
  have hExec : Link.exec (.call r) l = (some answer, l.served w') := by
    unfold Link.exec
    dsimp only
    rw [hFate, World.answer, World.afterRequest, hServe]
    rfl
  show (k (Link.exec (.call r) l).1).run (Link.exec (.call r) l).2 = _
  rw [hExec]

/-- One stub for all: what differs is the type of the results. -/
theorem run_stub {β : Type} {r : Request} {wrap : NfsReply β → Answer}
    {procedure : Proc (NfsReply β)} {rest : Option Answer → Remote (StubResult β)}
    (hProcedure : serve l.credential r = do return wrap (← procedure))
    (hRest : ∀ reply, rest (some (wrap reply)) = pure (.of reply)) {reply : NfsReply β}
    (h : procedure.run l.before = (reply, w')) (k : StubResult β → Remote α) :
    (Prog.call (.call r) >>= rest >>= k).run l = (k (.of reply)).run (l.served w') := by
  have hServe : (serve l.credential r).run l.before = (wrap reply, w') := by
    rw [hProcedure, Prog.run_bind, h]
    rfl
  rw [Prog.run_bind, run_call hFate hServe, hRest]
  rfl

theorem run_nfsProcedure1GetFileAttributes {a : FHandle} {reply : NfsReply FAttr}
    (h : (serveNfsProcedure1GetFileAttributes l.credential a).run l.before = (reply, w'))
    (k : StubResult FAttr → Remote α) :
    (nfsProcedure1GetFileAttributes a >>= k).run l = (k (.of reply)).run (l.served w') :=
  run_stub hFate rfl (fun _ => rfl) h k

theorem run_nfsProcedure4LookUpFileName {a : DirOpArgs} {reply : NfsReply DirOpOk}
    (h : (serveNfsProcedure4LookUpFileName l.credential a).run l.before = (reply, w'))
    (k : StubResult DirOpOk → Remote α) :
    (nfsProcedure4LookUpFileName a >>= k).run l = (k (.of reply)).run (l.served w') :=
  run_stub hFate rfl (fun _ => rfl) h k

theorem run_nfsProcedure8WriteToFile {a : WriteArgs} {reply : NfsReply FAttr}
    (h : (serveNfsProcedure8WriteToFile l.credential a).run l.before = (reply, w'))
    (k : StubResult FAttr → Remote α) :
    (nfsProcedure8WriteToFile a >>= k).run l = (k (.of reply)).run (l.served w') :=
  run_stub hFate rfl (fun _ => rfl) h k

theorem run_nfsProcedure16ReadFromDirectory {a : ReadDirArgs} {reply : NfsReply ReadDirOk}
    (h : (serveNfsProcedure16ReadFromDirectory l.credential a).run l.before = (reply, w'))
    (k : StubResult ReadDirOk → Remote α) :
    (nfsProcedure16ReadFromDirectory a >>= k).run l = (k (.of reply)).run (l.served w') :=
  run_stub hFate rfl (fun _ => rfl) h k

end Stubs

/-! ## LOOKUP by LOOKUP -/

/-- A link on which no call is lost. The state of the server meets `I` and the others keep
it so; what the server knows it does not forget. -/
structure Steady (known : Ino → Path) (I : World → Prop) (l : Link) : Prop where
  now : I l.world
  keep (k : Nat) (w : World) : I w → I (l.others k w)
  view (k : Nat) (w : World) (x : Ino) : I w → w.view x = some (known x) →
    (l.others k w).view x = some (known x)
  delivered (k : Nat) : l.fate k = .delivered

variable {I : World → Prop}

theorem Steady.before (h : Steady known I l) : I l.before := h.keep l.calls l.world h.now

theorem Steady.served (h : Steady known I l) (hI : I w') : Steady known I (l.served w') :=
  ⟨hI, h.keep, h.view, h.delivered⟩

section Lookups

variable (hPass : ∀ w, I w → Passable l.credential root way known w)
  (hLearn : ∀ w w', I w → Undisturbed w w' →
    (∀ x, w'.view x = w.view x ∨ w'.view x = some (known x)) → I w')
include hPass hLearn

/-- The LOOKUP calls for the rest of the way end at its destination. -/
theorem run_lookUpComponents {world : World} {calls : Nat}
    (h : Steady known I { l with world := world, calls := calls }) (first : List (Name × Ino))
    (hWay : way = first ++ rest) {t : Nat} {ftype : FType}
    (hView : world.view (destination root first) = some (known (destination root first)))
    (hType : rest ≠ [] → ftype = .nfDir) :
    ∃ t' ftype' w' c,
      (lookUpComponents ⟨destination root first, t⟩ ftype (rest.map (·.1))).run
          { l with world := world, calls := calls } =
        (.ok (⟨destination root way, t'⟩, ftype'), { l with world := w', calls := c }) ∧
      I w' ∧ w'.view (destination root way) = some (known (destination root way)) := by
  induction rest generalizing world calls first t ftype with
  | nil =>
    rw [List.append_nil] at hWay
    subst hWay
    exact ⟨t, ftype, world, calls, rfl, h.now, hView⟩
  | cons s rest ih =>
    obtain ⟨n, e⟩ := s
    set u := l.others calls world with hu
    have hBefore : I u := h.before
    have hQuiet := (hPass u hBefore).quiet
    have hLeads : Leads l.credential known u (destination root first) ((n, e) :: rest) := by
      have hLeads := (hPass u hBefore).leads
      rw [hWay] at hLeads
      exact hLeads.drop
    obtain ⟨hStep, hRest⟩ := hLeads
    obtain ⟨⟨i, t₁⟩, st, w₁, hStat, rfl, hHandle, hSame, hLearned, hServe⟩ :=
      hQuiet.lookup (t := t) (h.view calls world _ h.now hView) hStep.lookup hStep.isDir hStep.allowed
        hStep.entry
    obtain rfl : i = st.ino := hHandle
    -- the object is known under its path from now on, the others are known as before
    have hView₁ : w₁.view st.ino = some (known st.ino) := by
      rw [hLearned, learn, if_pos rfl]
      rcases hStep.path with hOld | ⟨hNew, hPath⟩
      · rw [hOld]
        rfl
      · rw [hNew, hPath]
        rfl
    have hKnown : ∀ x, w₁.view x = u.view x ∨ w₁.view x = some (known x) := by
      intro x
      by_cases hx : x = st.ino
      · rw [hx]
        exact .inr hView₁
      · rw [hLearned, learn, if_neg hx]
        exact .inl rfl
    have hSteady := h.served (hLearn u w₁ hBefore hSame hKnown)
    have hFirst : destination root (first ++ [(n, st.ino)]) = st.ino := destination_append _ _ _
    have hType₁ : rest ≠ [] → (fattrOfStat st).nfsFtype = .nfDir := by
      intro hMore
      rw [nfsFtype_eq_dir_iff hStat]
      cases rest with
      | nil => exact absurd rfl hMore
      | cons s' rest => exact hRest.1.isDir
    rw [← hFirst] at hView₁
    obtain ⟨t', ftype', w', c, hRun, hEnd⟩ :=
      ih hSteady (first ++ [(n, st.ino)]) (by rw [hWay, List.append_assoc]; rfl) (t := t₁) hView₁
        hType₁
    refine ⟨t', ftype', w', c, ?_, hEnd⟩
    rw [hFirst] at hRun
    show (lookUpComponents _ ftype (n :: rest.map (·.1))).run _ = _
    unfold lookUpComponents
    rw [if_neg (not_not.mpr (hType nofun)), run_nfsProcedure4LookUpFileName (h.delivered _) hServe]
    exact hRun

/-- `resolve_absolute_path` finds the object. -/
theorem run_resolveAbsolutePath (h : Steady known I l) {path : Bytes}
    (hAbsolute : path.head? = some slash) (hPath : components path = way.map (·.1)) (t : Nat) :
    ∃ t' ftype w' c, (resolveAbsolutePath ⟨root, t⟩ path).run l =
        (.ok (⟨destination root way, t'⟩, ftype), { l with world := w', calls := c }) ∧
      I w' ∧ w'.view (destination root way) = some (known (destination root way)) := by
  unfold resolveAbsolutePath
  rw [if_neg (not_not.mpr hAbsolute), hPath]
  exact run_lookUpComponents hPass hLearn h [] rfl (hPass _ h.now).view fun _ => rfl

end Lookups

namespace Sample

/-- Root has mounted the export. -/
def mounted : World :=
  Server.Sample.world.step (.request Server.Sample.root (.mnt ⟨some (bytes "/exp")⟩))

/-- A client of root's, alone at the server. -/
def link : Link := ⟨mounted, Server.Sample.root, 0, fun _ w => w, fun _ => .delivered⟩

/-- From the export to the file `a/f`. -/
def wayToFile : List (Name × Ino) := [(bytes "a", 3), (bytes "f", 4)]

def knownAs : Ino → Path
  | 3 => bytes "/exp/a"
  | 4 => bytes "/exp/a/f"
  | _ => bytes "/exp"

theorem allowed_root (fs : FileSystem) (a : Access) (i : Ino) :
    Allowed fs Server.Sample.root a i := by
  intro caller hCaller hRoot
  obtain rfl := Credential.authSys.inj hCaller
  exact absurd rfl hRoot

theorem passable_mounted : Passable Server.Sample.root 2 wayToFile knownAs mounted where
  quiet := ⟨fun _ => rfl, fun _ => rfl⟩
  view := by decide +kernel
  leads := by
    refine ⟨⟨?_, ?_, allowed_root _ _ _, ?_, .inr ⟨?_, rfl⟩⟩,
      ⟨?_, ?_, allowed_root _ _ _, ?_, .inr ⟨?_, rfl⟩⟩, trivial⟩ <;> decide +kernel
  lookup := by decide +kernel

end Sample

end QuicNfs.Client

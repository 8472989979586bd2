import QuicNfs.Server.Rules

/-!
# QuicNfs — rules for open files and directory streams

What READ, WRITE, READDIR and the sweep do with the files and directories they
open. A file that was opened through a path is the object the path leads to
when its final symbolic link is followed.

* `safe_readFromFile` — reads that object and changes nothing;
* `safe_writeToFile` — touches that object and no other;
* `safe_readFromDirectory`, `safe_cleanUp` — change the sessions and the open
  streams only.
-/

namespace QuicNfs.Server

open Kernel Lib List FileSystem

variable {α β : Type} {J : Demand} {Q : β → World → Prop} {w : World}

/-! ## Files -/

variable {p : Path} {f d i : Ino} {offset : Nat} {sessions : List ReadDirSession}
  {client : AuthSysParams}

theorem safe_fopen {update : Bool} {k : Except Errno Ino → Proc β}
    (hError : ∀ e, Safe J Q (k (.error e)) w)
    (hOk : ∀ f, w.fs.lookup true p = .ok f → Safe J Q (k (.ok f)) w) :
    Safe J Q (sys (.fopen p update) >>= k) w := by
  refine safe_answer (r := w.fs.fopen p update) (fun _ => rfl) (fun _ => J.silent _ _ rfl)
    (fun f => hError f.errno) ?_
  cases hf : w.fs.fopen p update with
  | error e => exact hError e
  | ok f => exact hOk f (fopen_ok hf)

theorem safe_fseek {k : Except Errno Unit → Proc β} (hError : ∀ e, Safe J Q (k (.error e)) w)
    (hOk : Safe J Q (k (.ok ())) w) : Safe J Q (sys (.fseek f offset) >>= k) w :=
  safe_answer (r := .ok ()) (fun _ => rfl) (fun _ => J.silent _ _ rfl) (fun f => hError f.errno) hOk

/-- What was assumed of a read is known once it was made. -/
theorem safe_fread {count : Nat} {k : Except Errno Bytes → Proc β}
    (hJ : ∀ t, J.holds (.fread f offset count) (w.atTick t))
    (hError : ∀ e, Safe J Q (k (.error e)) w)
    (hOk : ∀ data device, w.fs.read f offset count device = .ok data →
      (∃ t, J.assumes (.fread f offset count) (w.atTick t)) → Safe J Q (k (.ok data)) w) :
    Safe J Q (sys (.fread f offset count) >>= k) w := by
  refine fun t => ⟨hJ t, fun hA => ?_⟩
  show (k ((w.atTick t).machine.answer
      (w.fs.read f offset count (w.machine.env t).device)).1).Sat J.contract Q
    { w with machine := ((w.atTick t).machine.answer
      (w.fs.read f offset count (w.machine.env t).device)).2 }
  unfold Machine.answer
  cases (w.atTick t).machine.here.fault with
  | some e => exact hError e.errno (t + 1)
  | none =>
    cases hr : w.fs.read f offset count (w.machine.env t).device with
    | error e => exact hError e (t + 1)
    | ok data => exact hOk data _ hr ⟨t, hA⟩ (t + 1)

theorem safe_fclose {buffered : Bytes} {k : Bool → Proc β}
    (hJ : ∀ t, J.holds (.fclose f offset buffered) (w.atTick t))
    (h : ∀ b fs', w.fs.Touched fs' f → w.fs.SameOwners fs' → (buffered = [] → fs' = w.fs) →
      Safe J Q (k b) (w.withFs fs')) : Safe J Q (sys (.fclose f offset buffered) >>= k) w := by
  -- whatever part of the buffer reaches the file, only the file is touched
  have hAfter : ∀ b data now, (buffered = [] → data = []) →
      Safe J Q (k b) (w.withFs (w.fs.write f offset data now)) := by
    intro b data now hData
    obtain ⟨hTouched, hOwners⟩ := touched_write w.fs f offset data now
    refine h b _ hTouched hOwners fun hNil => ?_
    rw [hData hNil]
    exact if_pos rfl
  refine fun t => ⟨hJ t, fun _ => ?_⟩
  show (k ((w.atTick t).machine.streamClose f offset buffered).1).Sat J.contract Q
    { w with machine := ((w.atTick t).machine.streamClose f offset buffered).2 }
  unfold Machine.streamClose
  cases (w.atTick t).machine.here.fault with
  | some e => exact hAfter false _ _ (fun hNil => by rw [hNil, take_nil]) (t + 1)
  | none => exact hAfter true _ _ id (t + 1)

theorem safe_fwrite {data : Bytes} {k : Except Errno Bytes → Proc β}
    (hJ : ∀ t, J.holds (.fwrite f offset data) (w.atTick t))
    (h : ∀ r fs', w.fs.Touched fs' f → w.fs.SameOwners fs' →
      (∃ t, J.assumes (.fwrite f offset data) (w.atTick t)) → Safe J Q (k r) (w.withFs fs')) :
    Safe J Q (sys (.fwrite f offset data) >>= k) w := by
  refine fun t => ⟨hJ t, fun hA => ?_⟩
  show (k ((w.atTick t).machine.streamWrite f offset data).1).Sat J.contract Q
    { w with machine := ((w.atTick t).machine.streamWrite f offset data).2 }
  obtain ⟨hTouched, hOwners⟩ := touched_write w.fs f offset
    (data.take (w.machine.env t).stored) (w.machine.env t).now
  unfold Machine.streamWrite
  cases (w.atTick t).machine.here.fault with
  | some | none => exact h _ _ hTouched hOwners ⟨t, hA⟩ (t + 1)

theorem safe_readFromFile {count : Nat} {R : Option Bytes → World → Prop}
    (hJ : ∀ f, w.fs.lookup true p = .ok f → ∀ t,
      J.holds (.fread f offset count) (w.atTick t) ∧ J.holds (.fclose f offset []) (w.atTick t))
    (hNone : ∀ t, R none (w.atTick t)) (hSome : ∀ f data device, w.fs.lookup true p = .ok f →
      w.fs.read f offset count device = .ok data →
      (∃ t, J.assumes (.fread f offset count) (w.atTick t)) → ∀ t, R (some data) (w.atTick t)) :
    Safe J R (readFromFile p offset count) w := by
  refine safe_fopen (fun _ => safe_pure hNone) fun f hf => ?_
  have hClose : ∀ {k : Bool → Proc (Option Bytes)}, (∀ b, Safe J R (k b) w) →
      Safe J R (sys (.fclose f offset []) >>= k) w := by
    intro k hk
    refine safe_fclose (fun t => (hJ f hf t).2) fun b fs' _ _ hSame => ?_
    rw [hSame rfl]
    exact hk b
  refine safe_fseek (fun _ => hClose fun _ => safe_pure hNone) ?_
  refine safe_fread (fun t => (hJ f hf t).1) (fun _ => hClose fun _ => safe_pure hNone) ?_
  exact fun data device hRead hA => hClose fun _ => safe_pure (hSome f data device hf hRead hA)

/-- A write reaches the object the path leads to, and that object alone. -/
theorem safe_writeToFile {data : Bytes} {R : WriteResult → World → Prop}
    (hJ : ∀ f, w.fs.lookup true p = .ok f → ∀ t, J.holds (.fwrite f offset data) (w.atTick t))
    (hClose : ∀ f, w.fs.lookup true p = .ok f → ∀ fs', w.fs.Touched fs' f →
      ∀ offset buffered t, J.holds (.fclose f offset buffered) ((w.withFs fs').atTick t))
    (hNot : ∀ r, r ≠ .written → ∀ t, R r (w.atTick t))
    (hTouched : ∀ r f fs', w.fs.lookup true p = .ok f → w.fs.Touched fs' f →
      w.fs.SameOwners fs' → (r = .written → ∃ t, J.assumes (.fwrite f offset data) (w.atTick t)) →
      ∀ t, R r ((w.withFs fs').atTick t)) : Safe J R (writeToFile p offset data) w := by
  refine safe_fopen (fun _ => safe_pure (hNot _ (by simp))) fun f hf => ?_
  refine safe_fseek (fun _ => ?_) ?_
  · refine safe_fclose (hClose f hf w.fs (.refl _ _) _ _) fun _ fs' hT hO _ => ?_
    exact safe_pure (hTouched _ f fs' hf hT hO (by simp))
  · refine safe_fwrite (hJ f hf) fun r fs₁ hT₁ hO₁ hA => ?_
    -- the stream is closed after the write, whether that failed or not
    have hEnd : ∀ r offset buffered, Safe J R
        (sys (.fclose f offset buffered) >>= fun _ => pure r) (w.withFs fs₁) := by
      intro r offset buffered
      refine safe_fclose (hClose f hf fs₁ hT₁ _ _) fun _ fs₂ hT₂ hO₂ _ => ?_
      exact safe_pure (hTouched r f fs₂ hf (hT₁.trans hT₂) (hO₁.trans hO₂) fun _ => hA)
    cases r with
    | error | ok => exact hEnd _ _ _

/-! ## Directory streams -/

/-- The world with other sessions and open streams. -/
def World.withStreams (w : World) (sessions : List ReadDirSession) (dirs : List Ino) : World :=
  { w with readdirSessions := sessions, machine := { w.machine with openDirs := dirs } }

theorem safe_closedir {k : Unit → Proc β}
    (h : ∀ dirs, Safe J Q (k ()) (w.withStreams w.readdirSessions dirs)) :
    Safe J Q (sys (.closedir d) >>= k) w :=
  fun t => ⟨J.silent _ _ rfl, fun _ => h _ (t + 1)⟩

theorem safe_opendir {k : Except Errno Ino → Proc β} (hError : ∀ e, Safe J Q (k (.error e)) w)
    (hOk : ∀ d dirs, w.fs.lookup true p = .ok d →
      Safe J Q (k (.ok d)) (w.withStreams w.readdirSessions dirs)) :
    Safe J Q (sys (.opendir p) >>= k) w := by
  refine fun t => ⟨J.silent _ _ rfl, fun _ => ?_⟩
  show (k ((w.atTick t).machine.streamOpen p).1).Sat J.contract Q
    { w with machine := ((w.atTick t).machine.streamOpen p).2 }
  unfold Machine.streamOpen Machine.answer
  cases (w.atTick t).machine.here.fault with
  | some f => exact hError f.errno (t + 1)
  | none =>
    cases hd : (w.atTick t).machine.fs.opendir p with
    | error e => exact hError e (t + 1)
    | ok d => exact hOk d _ (opendir_ok hd) (t + 1)

theorem safe_getReaddirSessions {k : List ReadDirSession → Proc β}
    (h : Safe J Q (k w.readdirSessions) w) : Safe J Q (Prog.call .getReaddirSessions >>= k) w :=
  fun t => ⟨trivial, fun _ => h t⟩

theorem safe_setReaddirSessions {k : Unit → Proc β}
    (h : Safe J Q (k ()) (w.withStreams sessions w.machine.openDirs)) :
    Safe J Q (Prog.call (.setReaddirSessions sessions) >>= k) w :=
  fun t => ⟨trivial, fun _ => h t⟩

/-- A stream that a READDIR request may read from: one of a session of the
client for the directory, or one that was opened for it. -/
def StreamFor (w : World) (client : AuthSysParams) (p : Path) (i d : Ino) : Prop :=
  (∃ s ∈ w.readdirSessions, s.belongsTo client i ∧ s.directoryStream = d) ∨
    w.fs.lookup true p = .ok d

/-- Every session for `d` reads `d`. -/
def Faithful (d : Ino) (sessions : List ReadDirSession) : Prop :=
  ∀ s ∈ sessions, s.directoryInodeNumber = d → s.directoryStream = d

theorem Faithful.erase (h : Faithful d sessions) (q : ReadDirSession → Bool) :
    Faithful d (sessions.eraseP q) :=
  fun s hs => h s (mem_of_mem_eraseP hs)

theorem Faithful.touch (h : Faithful d sessions) (q : ReadDirSession → Bool) (timestamp : Nat) :
    Faithful d
      (modifyFirst q (fun s => { s with lastReaddirRpcTimestamp := timestamp }) sessions) := by
  intro s hs hFor
  rcases mem_modifyFirst hs with hOld | ⟨s', hs', -, rfl⟩
  · exact h s hOld hFor
  · exact h s' hs' hFor

theorem Faithful.cons (h : Faithful d sessions) {s : ReadDirSession}
    (hs : s.directoryInodeNumber = d → s.directoryStream = d) : Faithful d (s :: sessions) := by
  intro s' hs' hFor
  rcases mem_cons.mp hs' with rfl | hOld
  · exact hs hFor
  · exact h s' hOld hFor

/-- The sessions a READDIR request for `i` with the path `p` leaves read what they did, if
the path leads to `i`. -/
def StaysFaithful (w : World) (p : Path) (i : Ino) (sessions : List ReadDirSession) : Prop :=
  ∀ d, (i = d → w.fs.lookup true p = .ok d) → Faithful d w.readdirSessions → Faithful d sessions

theorem safe_addNewReaddirSession {R : Option ReadDirSession → World → Prop}
    (hNone : ∀ dirs t, R none ((w.withStreams w.readdirSessions dirs).atTick t))
    (hSome : ∀ s dirs t, s.directoryInodeNumber = i → w.fs.lookup true p = .ok s.directoryStream →
      R (some s) ((w.withStreams (s :: w.readdirSessions) dirs).atTick t)) :
    Safe J R (addNewReaddirSession client p i) w := by
  refine safe_bind ?_
  refine safe_malloc fun b => ?_
  cases b with
  | false => exact safe_pure fun t => safe_pure (hNone w.machine.openDirs)
  | true =>
    refine safe_opendir (fun _ => safe_pure fun t => safe_pure (hNone w.machine.openDirs)) ?_
    intro d dirs hd
    refine safe_time fun timestamp => safe_pure fun t => ?_
    refine safe_malloc fun b => ?_
    cases b with
    | false => exact safe_closedir fun dirs' => safe_pure (hNone dirs')
    | true =>
      refine safe_getReaddirSessions (safe_setReaddirSessions ?_)
      exact safe_pure fun t => hSome ⟨client, p, i, d, timestamp⟩ _ t rfl hd

theorem safe_findOrAddReaddirSession {R : Option ReadDirSession → World → Prop}
    (hNone : ∀ dirs t, R none ((w.withStreams w.readdirSessions dirs).atTick t))
    (hSome : ∀ s sessions dirs t, StreamFor w client p i s.directoryStream →
      StaysFaithful w p i sessions → R (some s) ((w.withStreams sessions dirs).atTick t)) :
    Safe J R (findOrAddReaddirSession client p i) w := by
  refine safe_getReaddirSessions ?_
  cases hs : w.readdirSessions.find? (·.belongsTo client i) with
  | some s =>
    refine safe_pure fun t => hSome s w.readdirSessions w.machine.openDirs t (Or.inl ⟨s, ?_⟩)
      fun _ _ h => h
    have hBelongs := find?_some hs
    exact ⟨mem_of_find?_eq_some hs, hBelongs, rfl⟩
  | none =>
    refine safe_addNewReaddirSession hNone fun s dirs t hFor hd =>
      hSome s (s :: w.readdirSessions) dirs t (Or.inr hd) fun d hPath h => h.cons fun hd' => ?_
    exact Except.ok.inj (hd.symm.trans (hPath (hFor.symm.trans hd')))

/-- The loop over the entries of a directory changes nothing. -/
theorem safe_readEntries {stream : Ino} {byteCount fuel position totalSize : Nat}
    (hJ : ∀ position t, J.holds (.readdir stream position) (w.atTick t)) :
    Safe J (fun _ w' => ∃ t, w' = w.atTick t)
      (readEntries stream byteCount fuel position totalSize) w := by
  induction fuel generalizing position totalSize with
  | zero => exact safe_pure fun t => ⟨t, rfl⟩
  | succ fuel ih =>
    refine safe_answer (r := .ok ((w.fs.listing stream)[position]?.map fun e =>
        (e.1, e.2, w.host.cookie stream (position + 1)))) (fun _ => rfl) (hJ position)
      (fun _ => safe_pure fun t => ⟨t, rfl⟩) ?_
    cases (w.fs.listing stream)[position]? with
    | none => exact safe_pure fun t => ⟨t, rfl⟩
    | some e =>
      show Safe J _ (if _ then _ else if _ then _ else _) w
      split
      · exact safe_pure fun t => ⟨t, rfl⟩
      split
      · refine safe_bind (ih.mono ?_)
        rintro r w' ⟨t, rfl⟩
        cases r with
        | none | some => exact safe_pure fun t => ⟨t, rfl⟩
      · exact safe_pure fun t => ⟨t, rfl⟩

theorem safe_seekCookie {stream : Ino} {offsetCookie : Nat} :
    Safe J (fun _ w' => ∃ t, w' = w.atTick t) (seekCookie stream offsetCookie) w := by
  unfold seekCookie
  split
  · exact safe_pure fun t => ⟨t, rfl⟩
  · exact fun t => ⟨J.silent _ _ rfl, fun _ => ⟨t + 1, rfl⟩⟩

theorem safe_readFromDirectory {offsetCookie byteCount : Nat}
    {R : Option (List DirectoryEntry × Bool) → World → Prop}
    (hJ : ∀ d, StreamFor w client p i d → ∀ position sessions dirs t,
      J.holds (.readdir d position) ((w.withStreams sessions dirs).atTick t))
    (hR : ∀ r sessions dirs t, StaysFaithful w p i sessions →
      R r ((w.withStreams sessions dirs).atTick t)) :
    Safe J R (readFromDirectory client p i offsetCookie byteCount) w := by
  refine safe_bind (safe_findOrAddReaddirSession
    (fun dirs t => safe_pure fun t => hR _ _ _ t fun _ _ h => h) ?_)
  intro s sessions dirs _ hs hStays
  refine safe_bind (safe_seekCookie.mono ?_)
  rintro position _ ⟨t₁, rfl⟩
  refine safe_bind ((safe_readEntries fun position t => hJ _ hs position sessions dirs t).mono ?_)
  rintro r _ ⟨t₂, rfl⟩
  cases r with
  | none => exact safe_pure fun t => hR _ _ _ t hStays
  | some r =>
    obtain ⟨entries, endOfStream⟩ := r
    refine safe_time fun timestamp => safe_getReaddirSessions ?_
    cases endOfStream with
    | true =>
      refine safe_setReaddirSessions (safe_closedir fun dirs' => ?_)
      exact safe_pure fun t => hR _ _ _ t fun d hPath h => (hStays d hPath h).erase _
    | false =>
      refine safe_setReaddirSessions (safe_pure fun t => hR _ _ _ t fun d hPath h => ?_)
      exact (hStays d hPath h).touch _ timestamp

theorem safe_freeReaddirSessions {expired : List ReadDirSession} {R : Unit → World → Prop}
    (hR : ∀ dirs t, R () ((w.withStreams w.readdirSessions dirs).atTick t)) :
    Safe J R (freeReaddirSessions expired) w := by
  induction expired generalizing w with
  | nil => exact safe_pure fun t => hR w.machine.openDirs t
  | cons s rest ih => exact safe_closedir fun dirs => ih fun dirs' t => hR dirs' t

/-- The sweep closes sessions and opens none. -/
theorem safe_cleanUp {R : Unit → World → Prop}
    (hR : ∀ sessions dirs t, sessions ⊆ w.readdirSessions →
      R () ((w.withStreams sessions dirs).atTick t)) :
    Safe J R cleanUpExpiredReaddirSessions w := by
  refine safe_time fun now => safe_getReaddirSessions (safe_setReaddirSessions ?_)
  exact safe_freeReaddirSessions fun dirs t => hR _ dirs t (filter_subset_self _)

end QuicNfs.Server

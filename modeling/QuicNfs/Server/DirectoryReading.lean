import QuicNfs.Server.FileManagement

/-!
# QuicNfs — reading directories

`directory_reading.c`: the ReadDir sessions, one open directory stream for
each client and directory, and the reading of as many entries as fit into the
byte count of a request.
-/

namespace QuicNfs.Server

open Kernel Lib

/-- A ReadDir session expires after not being touched for this many seconds. -/
def READDIR_SESSION_TIMEOUT : Nat := 30

/-- The bytes of a Protobuf varint. -/
def varintSize (n : Nat) : Nat := n.log2 / 7 + 1

/-- A field with a one-byte tag; one that has its default value is left out. -/
def varintFieldSize (n : Nat) : Nat := if n = 0 then 0 else 1 + varintSize n

def lengthDelimitedSize (len : Nat) : Nat := 1 + varintSize len + len

/-- `nfs__directory_entries_list__get_packed_size` of a single entry. -/
def DirectoryEntry.packedSize (e : DirectoryEntry) : Nat :=
  varintFieldSize e.fileid +
    lengthDelimitedSize (if e.name = [] then 0 else lengthDelimitedSize e.name.length) +
    lengthDelimitedSize (varintFieldSize e.cookie)

def freeReaddirSession (session : ReadDirSession) : Proc Unit :=
  sys (.closedir session.directoryStream)

def createNewReaddirSession (client : AuthSysParams) (directoryAbsolutePath : Path)
    (directoryInodeNumber : Ino) : Proc (Option ReadDirSession) := do
  if ← sys .malloc then
    match ← sys (.opendir directoryAbsolutePath) with
    | .error _ => pure none
    | .ok stream =>
      let timestamp ← sys .time
      pure (some ⟨client, directoryAbsolutePath, directoryInodeNumber, stream, timestamp⟩)
  else pure none

/-- The new session goes to the head of the list. -/
def addNewReaddirSession (client : AuthSysParams) (directoryAbsolutePath : Path)
    (directoryInodeNumber : Ino) : Proc (Option ReadDirSession) := do
  match ← createNewReaddirSession client directoryAbsolutePath directoryInodeNumber with
  | none => pure none
  | some session =>
    if ← sys .malloc then
      let sessions ← Prog.call .getReaddirSessions
      Prog.call (.setReaddirSessions (session :: sessions))
      pure (some session)
    else
      freeReaddirSession session
      pure none

/-- The session of a client for a directory, a new one if there is none. -/
def findOrAddReaddirSession (client : AuthSysParams) (directoryAbsolutePath : Path)
    (directoryInodeNumber : Ino) : Proc (Option ReadDirSession) := do
  let sessions ← Prog.call .getReaddirSessions
  match sessions.find? (·.belongsTo client directoryInodeNumber) with
  | some session => pure (some session)
  | none => addNewReaddirSession client directoryAbsolutePath directoryInodeNumber

/-- The loop over the entries from a position on: the entries that fit, and
whether the end was reached. Every entry takes at least one byte, so the loop
ends before the fuel of `byteCount + 1` does. -/
def readEntries (stream : Ino) (byteCount : Nat) :
    Nat → Nat → Nat → Proc (Option (List DirectoryEntry × Bool))
  | 0, _, _ => pure (some ([], false))
  | fuel + 1, position, totalSize => do
    match ← sys (.readdir stream position) with
    | .error _ => pure none
    | .ok none => pure (some ([], true))
    | .ok (some (name, fileid, cookie)) =>
      let entry : DirectoryEntry := ⟨fileid, name, cookie⟩
      let totalSize' := totalSize + entry.packedSize
      if totalSize' > byteCount then pure (some ([], false))
      else if totalSize' < byteCount then
        match ← readEntries stream byteCount fuel (position + 1) totalSize' with
        | none => pure none
        | some (entries, eof) => pure (some (entry :: entries, eof))
      else pure (some ([entry], false))

/-- Cookie 0 starts from the beginning of the directory. -/
def seekCookie (stream : Ino) (offsetCookie : Nat) : Proc Nat :=
  if offsetCookie = 0 then pure 0 else sys (.seekdir stream offsetCookie)

def readFromDirectory (client : AuthSysParams) (directoryAbsolutePath : Path)
    (directoryInodeNumber : Ino) (offsetCookie byteCount : Nat) :
    Proc (Option (List DirectoryEntry × Bool)) := do
  match ← findOrAddReaddirSession client directoryAbsolutePath directoryInodeNumber with
  | none => pure none
  | some session =>
    let position ← seekCookie session.directoryStream offsetCookie
    match ← readEntries session.directoryStream byteCount (byteCount + 1) position 0 with
    | none => pure none
    | some (entries, endOfStream) =>
      let timestamp ← sys .time
      let sessions ← Prog.call .getReaddirSessions
      if endOfStream then
        Prog.call (.setReaddirSessions (sessions.eraseP (·.belongsTo client directoryInodeNumber)))
        freeReaddirSession session
      else
        Prog.call (.setReaddirSessions
          (modifyFirst (·.belongsTo client directoryInodeNumber)
            (fun s => { s with lastReaddirRpcTimestamp := timestamp }) sessions))
      pure (some (entries, endOfStream))

/-- Close the streams of the sessions in a list. -/
def freeReaddirSessions : List ReadDirSession → Proc Unit
  | [] => pure ()
  | s :: rest => do
    freeReaddirSession s
    freeReaddirSessions rest

/-- The sweep of the periodic thread. -/
def cleanUpExpiredReaddirSessions : Proc Unit := do
  let currentTime ← sys .time
  let sessions ← Prog.call .getReaddirSessions
  let expired (s : ReadDirSession) : Bool :=
    currentTime > s.lastReaddirRpcTimestamp + READDIR_SESSION_TIMEOUT
  Prog.call (.setReaddirSessions (sessions.filter fun s => !expired s))
  freeReaddirSessions (sessions.filter expired)

end QuicNfs.Server

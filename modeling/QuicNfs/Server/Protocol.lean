import QuicNfs.Kernel.Syscalls

/-!
# QuicNfs — the Nfs and Mount messages

The messages of `nfs.proto`, `mount.proto` and `nfs_fh.proto` that the
procedures read and answer with, as they are after unpacking: a submessage or
a string that is absent is `none`, as its pointer is `NULL` in the server.
Fields no procedure reads (`totalcount`, `beginoffset`) are left out.
-/

namespace QuicNfs.Server

open Kernel

/-- The AUTH_SYS parameters of a caller. -/
structure AuthSysParams where
  timestamp : Nat
  machinename : Bytes
  uid : Nat
  gid : Nat
  gids : List Nat
deriving DecidableEq, Repr

/-- The credentials a procedure can receive: the others are turned away before. -/
inductive Credential where
  | authNone
  | authSys (authSys : AuthSysParams)
deriving DecidableEq, Repr

/-- `Nfs__Stat`. -/
inductive Stat where
  | nfsOk | nfserrPerm | nfserrNoent | nfserrIo | nfserrNxio | nfserrAcces
  | nfserrExist | nfserrNodev | nfserrNotdir | nfserrIsdir | nfserrFbig | nfserrNospc
  | nfserrRofs | nfserrNametoolong | nfserrNotempty | nfserrDquot | nfserrStale
  | nfserrWflush
deriving DecidableEq, Repr

/-- `Mount__Stat`. -/
inductive MntStat where
  | mntOk | mnterrNoent | mnterrNotexp | mnterrIo | mnterrAcces | mnterrNotdir
deriving DecidableEq, Repr

/-- `Nfs__FType`. -/
inductive FType where
  | nfNon | nfReg | nfDir | nfBlk | nfChr | nfLnk
deriving DecidableEq, Repr

def NFS_MAXDATA : Nat := 8192
def NFS_MAXPATHLEN : Nat := 1024
def NFS_MAXNAMLEN : Nat := 255

/-- `(uint64_t)-1`: leave the size or time as it is. -/
def unchanged64 : Nat := 2 ^ 64 - 1

structure NfsFileHandle where
  inodeNumber : Ino
  timestamp : Nat
deriving DecidableEq, Repr

structure FHandle where
  nfsFilehandle : Option NfsFileHandle
deriving DecidableEq, Repr

structure MsgTimeVal where
  seconds : Nat
  useconds : Nat
deriving DecidableEq, Repr

structure FAttr where
  nfsFtype : FType
  mode : Nat
  nlink : Nat
  uid : Nat
  gid : Nat
  size : Nat
  blocksize : Nat
  rdev : Nat
  blocks : Nat
  fsid : Nat
  fileid : Nat
  atime : MsgTimeVal
  mtime : MsgTimeVal
  ctime : MsgTimeVal
deriving DecidableEq, Repr

/-- Attributes to set; a field of all ones is not to be set. -/
structure SAttr where
  mode : Nat
  uid : Nat
  gid : Nat
  size : Nat
  atime : Option MsgTimeVal
  mtime : Option MsgTimeVal
deriving DecidableEq, Repr

structure FileName where
  filename : Option Bytes
deriving DecidableEq, Repr

structure MsgPath where
  path : Option Bytes
deriving DecidableEq, Repr

structure DirOpArgs where
  dir : Option FHandle
  name : Option FileName
deriving DecidableEq, Repr

structure SAttrArgs where
  file : Option FHandle
  attributes : Option SAttr
deriving DecidableEq, Repr

structure ReadArgs where
  file : Option FHandle
  offset : Nat
  count : Nat
deriving DecidableEq, Repr

structure WriteArgs where
  file : Option FHandle
  offset : Nat
  nfsdata : Option Bytes
deriving DecidableEq, Repr

structure CreateArgs where
  location : Option DirOpArgs
  attributes : Option SAttr
deriving DecidableEq, Repr

structure RenameArgs where
  source : Option DirOpArgs
  target : Option DirOpArgs
deriving DecidableEq, Repr

structure LinkArgs where
  source : Option FHandle
  target : Option DirOpArgs
deriving DecidableEq, Repr

structure SymLinkArgs where
  source : Option DirOpArgs
  target : Option MsgPath
  attributes : Option SAttr
deriving DecidableEq, Repr

structure ReadDirArgs where
  dir : Option FHandle
  cookie : Option Nat
  count : Nat
deriving DecidableEq, Repr

structure DirOpOk where
  file : NfsFileHandle
  attributes : FAttr
deriving DecidableEq, Repr

structure ReadResBody where
  attributes : FAttr
  nfsdata : Bytes
deriving DecidableEq, Repr

/-- One element of a `DirectoryEntriesList`. -/
structure DirectoryEntry where
  fileid : Nat
  name : Bytes
  cookie : Nat
deriving DecidableEq, Repr

structure ReadDirOk where
  entries : List DirectoryEntry
  eof : Bool
deriving DecidableEq, Repr

structure FsInfo where
  tsize : Nat
  bsize : Nat
  blocks : Nat
  bfree : Nat
  bavail : Nat
deriving DecidableEq, Repr

/-- What a procedure answers: an accepted reply that reports a failure of the
call itself, or results with an error status or a body. -/
inductive Reply (status body : Type) where
  | garbageArgs
  | systemErr
  | err (stat : status)
  | ok (body : body)
deriving DecidableEq, Repr

/-- A request of one of the modelled procedures, with its arguments. -/
inductive Request where
  | mnt (dirpath : MsgPath)
  | getattr (fhandle : FHandle)
  | setattr (args : SAttrArgs)
  | lookup (args : DirOpArgs)
  | readlink (fhandle : FHandle)
  | read (args : ReadArgs)
  | write (args : WriteArgs)
  | create (args : CreateArgs)
  | remove (args : DirOpArgs)
  | rename (args : RenameArgs)
  | link (args : LinkArgs)
  | symlink (args : SymLinkArgs)
  | mkdir (args : CreateArgs)
  | rmdir (args : DirOpArgs)
  | readdir (args : ReadDirArgs)
  | statfs (fhandle : FHandle)
deriving DecidableEq, Repr

end QuicNfs.Server

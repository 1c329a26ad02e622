import LocalIpc.Address.Record
import LocalIpc.Connection.Stream
import LocalIpc.Handle
import LocalIpc.Host.Files
/-!
# Hosts

The system under the listeners: files, open descriptors, and the streams between them. A socket file
answers as long as the socket that made it is open and listens.
-/

namespace LocalIpc

/-- What is behind an open descriptor. -/
inductive Descriptor
  | unbound
  /-- A socket with a file that takes no connections. -/
  | bound (file : FileId) (datagram : Bool)
  /-- A listening socket, with the streams that wait to be accepted. -/
  | listening (file : FileId) (waiting : List Nat)
  | stream (i : Nat) (side : Side)
  deriving DecidableEq

structure Host where
  tree : Tree
  descriptors : List (Fd × Descriptor)
  streams : List Stream
  nextFd : Fd

namespace Host

def fresh : Host := ⟨.fresh, [], [], 3⟩

/-- New files are made without the write permission of group and others. -/
def fileMode : UInt32 := 0o644

def directoryMode : UInt32 := 0o755

def socketMode : UInt32 := 0o755

def descriptor? (h : Host) (fd : Fd) : Option Descriptor := h.descriptors.lookup fd

def setDescriptor (h : Host) (fd : Fd) (d : Descriptor) : Host :=
  { h with descriptors := (fd, d) :: h.descriptors.filter fun x => x.1 ≠ fd }

def openFd (h : Host) (d : Descriptor) : Fd × Host :=
  (h.nextFd, { h with descriptors := (h.nextFd, d) :: h.descriptors, nextFd := h.nextFd + 1 })

def onStream (h : Host) (i : Nat) (f : Stream → Stream) : Host :=
  { h with streams := h.streams.modify i f }

/-! ## Sockets -/

def socket (h : Host) : Fd × Host := h.openFd .unbound

/-- The files that open sockets have. Such a socket holds the identity of its file, even when the
file is removed. -/
def held (h : Host) : List FileId :=
  h.descriptors.filterMap fun x =>
    match x.2 with
    | .bound file _ | .listening file _ => some file
    | _ => none

/-- Makes a socket file. A name that is taken is an address in use. -/
def makeSocketFile (h : Host) (path : Path) : Except IoError (FileId × Tree) :=
  match h.tree.make h.held .socket socketMode path with
  | .error e => .error (if e = .fileExists then .addressInUse else e)
  | .ok made => .ok made

def bind (h : Host) (fd : Fd) (path : Path) (datagram : Bool) : Except IoError Unit × Host :=
  match h.descriptor? fd with
  | some .unbound =>
    match h.makeSocketFile path with
    | .error e => (.error e, h)
    | .ok (file, tree) => (.ok (), { h with tree }.setDescriptor fd (.bound file datagram))
  | some _ => (.error .invalidArgument, h)
  | none => (.error .badDescriptor, h)

def listen (h : Host) (fd : Fd) : Except IoError Unit × Host :=
  match h.descriptor? fd with
  | some (.bound file false) => (.ok (), h.setDescriptor fd (.listening file []))
  | some (.listening ..) => (.ok (), h)
  | some _ => (.error .invalidArgument, h)
  | none => (.error .badDescriptor, h)

/-- Takes the first stream that waits. Without one the call goes on waiting. -/
def accept (h : Host) (fd : Fd) : Option (Except IoError Fd × Host) :=
  match h.descriptor? fd with
  | some (.listening file (i :: rest)) =>
    let (client, h) := (h.setDescriptor fd (.listening file rest)).openFd (.stream i .far)
    some (.ok client, h)
  | some (.listening _ []) => none
  | some _ => some (.error .invalidArgument, h)
  | none => some (.error .badDescriptor, h)

/-- Ends a listening socket: clients that still wait are refused. -/
def refuse (h : Host) (waiting : List Nat) : Host :=
  waiting.foldl (fun h i => h.onStream i Stream.refuse) h

def shutdown (h : Host) (fd : Fd) : Except IoError Unit × Host :=
  match h.descriptor? fd with
  | some (.listening file waiting) =>
    (.ok (), (h.refuse waiting).setDescriptor fd (.bound file false))
  | some _ => (.error .notConnected, h)
  | none => (.error .badDescriptor, h)

def close (h : Host) (fd : Fd) : Except IoError Unit × Host :=
  let rest (h : Host) : Host := { h with descriptors := h.descriptors.filter fun x => x.1 ≠ fd }
  match h.descriptor? fd with
  | some (.stream i side) => (.ok (), rest (h.onStream i (Stream.close side)))
  | some (.listening _ waiting) => (.ok (), rest (h.refuse waiting))
  | some _ => (.ok (), rest h)
  | none => (.error .badDescriptor, h)

/-! ## Connecting -/

/-- The socket that a file belongs to, with its descriptor. -/
def owner? (h : Host) (file : FileId) : Option (Fd × Descriptor) :=
  h.descriptors.find? fun x =>
    match x.2 with
    | .bound f _ | .listening f _ => f = file
    | _ => false

/-- The address of a path that is to be connected to. -/
def checkAddress (path : Path) : Except IoError Unit :=
  if 0 ∈ path then .error (.custom .invalidInput "paths must not contain interior null bytes")
  else if AddressRecord.pathRoom ≤ path.length then
    .error (.custom .invalidInput "path must be shorter than SUN_LEN")
  else if path = [] then .error .invalidArgument
  else .ok ()

/-- The listening socket behind a path, with the streams that wait there. -/
def listenerAt (h : Host) (path : Path) : Except IoError (Fd × FileId × List Nat) := do
  checkAddress path
  let status ← h.tree.target path
  if status.kind ≠ .socket then .error .connectionRefused
  else match h.owner? status.id with
    | some (fd, .listening file waiting) => .ok (fd, file, waiting)
    | some (_, .bound _ true) => .error .wrongSocketType
    | _ => .error .connectionRefused

/-- Joins the queue of the listening socket behind a path. -/
def connect (h : Host) (path : Path) : Except IoError Fd × Host :=
  match h.listenerAt path with
  | .error e => (.error e, h)
  | .ok (fd, file, waiting) =>
    let i := h.streams.length
    let queued := { h with streams := h.streams ++ [Stream.fresh] }.setDescriptor fd
      (.listening file (waiting ++ [i]))
    let (client, h) := queued.openFd (.stream i .near)
    (.ok client, h)

/-! ## Reading and writing -/

def onEnd {α : Type} (h : Host) (fd : Fd) (use : Side → Stream → Except IoError α × Stream) :
    Except IoError α × Host :=
  match h.descriptor? fd with
  | some (.stream i side) =>
    match h.streams[i]? with
    | some s => ((use side s).1, h.onStream i fun s => (use side s).2)
    | none => (.error .badDescriptor, h)
  | some _ => (.error .invalidArgument, h)
  | none => (.error .badDescriptor, h)

def read (fd : Fd) (n : Nat) (h : Host) : Except IoError Bytes × Host :=
  h.onEnd fd fun side s => s.read side n

/-- How many bytes wait to be read. -/
def unread (h : Host) (fd : Fd) : Nat :=
  match h.descriptor? fd with
  | some (.stream i side) => ((h.streams[i]?).map fun s => (s.get side).unread.length).getD 0
  | _ => 0

def write (fd : Fd) (data : Bytes) (h : Host) : Except IoError Nat × Host :=
  h.onEnd fd fun side s => s.write side data

end Host

end LocalIpc

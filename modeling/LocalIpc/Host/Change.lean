import LocalIpc.Host.Basic
/-!
# Changes by others

What other processes do to the files and sockets of a host.
-/

namespace LocalIpc

/-- A host on which other processes keep sockets open. A listening socket is known by the path it
was made at, and a path knows one of them at most. -/
structure World where
  host : Host
  kept : List (Path × Fd)

inductive Change
  /-- Writes a regular file. -/
  | write (path : Path)
  | makeDirectory (path : Path)
  | makeFifo (path : Path)
  | makeLink (path target : Path)
  /-- Makes a socket file and closes its socket. -/
  | leaveSocket (path : Path)
  /-- Keeps a listening socket open. -/
  | keepListener (path : Path)
  /-- Keeps a datagram socket open for good. -/
  | keepDatagram (path : Path)
  /-- Closes the listening socket that is kept open for a path. -/
  | closeKept (path : Path)
  | unlink (path : Path)
  | rename (path onto : Path)
  | changeMode (path : Path) (mode : UInt32)
  deriving DecidableEq

namespace Change

/-- The paths that a change passes to the system as ended texts. -/
def texts : Change → List Path
  | write p | makeDirectory p | makeFifo p | unlink p | changeMode p _ => [p]
  | makeLink p q | rename p q => [p, q]
  | leaveSocket _ | keepListener _ | keepDatagram _ | closeKept _ => []

def zeroInText : IoError := .custom .invalidInput "file name contained an unexpected NUL byte"

end Change

namespace World

def fresh : World := ⟨.fresh, []⟩

def setTree (w : World) (r : Except IoError Tree) : Except IoError Unit × World :=
  match r with
  | .ok tree => (.ok (), { w with host := { w.host with tree } })
  | .error e => (.error e, w)

/-- Makes a file at a path. -/
def make (w : World) (kind : FileKind) (mode : UInt32) (p : Path) : Except IoError Unit × World :=
  w.setTree ((w.host.tree.make w.host.held kind mode p).map Prod.snd)

/-- Makes a socket at a path. The empty path gives a socket without a file. -/
def openSocket (w : World) (path : Path) (datagram : Bool) : Except IoError Fd × World :=
  let (fd, host) := w.host.socket
  if path = [] then (.ok fd, { w with host })
  else match Host.checkAddress path with
    | .error e => (.error e, w)
    | .ok _ =>
      match host.bind fd path datagram with
      | (.ok _, host) => (.ok fd, { w with host })
      | (.error e, _) => (.error e, w)

/-- Closes the listening socket that was made at a path with the same components. -/
def release (w : World) (path : Path) : World :=
  let (given, others) := w.kept.partition fun k => k.1.same path
  ⟨given.foldl (fun host k => (host.close k.2).2) w.host, others⟩

/-- Keeps a listening socket in place of the one known by its path. -/
def keep (w : World) (path : Path) (fd : Fd) : World :=
  let w := w.release path
  { w with kept := (path, fd) :: w.kept }

/-- Makes a change that needs no check of its texts. -/
def change (w : World) : Change → Except IoError Unit × World
  | .write p => w.setTree (w.host.tree.write w.host.held Host.fileMode p)
  | .makeDirectory p => w.make .directory Host.directoryMode p
  | .makeFifo p => w.make .fifo Host.fileMode p
  | .makeLink p target =>
    if target = [] then (.error .notFound, w)
    else if Tree.maxPath ≤ target.length then (.error .nameTooLong, w)
    else w.make (.symlink target) 0o777 p
  | .leaveSocket p =>
    match w.openSocket p false with
    | (.ok fd, w) => (.ok (), { w with host := (w.host.close fd).2 })
    | (.error e, w) => (.error e, w)
  | .keepListener p =>
    match w.openSocket p false with
    | (.ok fd, w) => (.ok (), { w with host := (w.host.listen fd).2 }.keep p fd)
    | (.error e, w) => (.error e, w)
  | .keepDatagram p =>
    match w.openSocket p true with
    | (.ok _, w) => (.ok (), w)
    | (.error e, w) => (.error e, w)
  | .closeKept p => (.ok (), w.release p)
  | .unlink p => w.setTree (w.host.tree.unlink p)
  | .rename p q => w.setTree (w.host.tree.rename p q)
  | .changeMode p m => w.setTree (w.host.tree.changeMode p m)

/-- Makes a change. A path with a zero byte reaches no file. -/
def apply (w : World) (c : Change) : Except IoError Unit × World :=
  if c.texts.any (0 ∈ ·) then (.error Change.zeroInText, w) else w.change c

end World

end LocalIpc

import LocalIpc.IoError.Basic
import LocalIpc.Text.Utf8
/-!
# Byte streams

Two joined ends. What one end writes the other end reads, in order and once. An end learns that the
other one is gone when it has read everything that came before.
-/

namespace LocalIpc

inductive Side
  | near
  | far
  deriving DecidableEq

def Side.other : Side → Side
  | near => far
  | far => near

/-- One end of a stream. -/
structure StreamEnd where
  /-- What has come and was not read yet. -/
  unread : Bytes
  /-- The other end was closed. -/
  hungUp : Bool
  /-- The other end was closed before it had read everything, and this end was not told yet. -/
  reset : Bool
  closed : Bool
  deriving DecidableEq

def StreamEnd.fresh : StreamEnd := ⟨[], false, false, false⟩

structure Stream where
  near : StreamEnd
  far : StreamEnd
  deriving DecidableEq

namespace Stream

def fresh : Stream := ⟨.fresh, .fresh⟩

def get (s : Stream) : Side → StreamEnd
  | .near => s.near
  | .far => s.far

def set (s : Stream) : Side → StreamEnd → Stream
  | .near, e => { s with near := e }
  | .far, e => { s with far := e }

/-- Reads up to `n` bytes at one end. An end that has nothing to read reports a reset once, then the
end of the stream; while the other end is open it would have to wait, also for no bytes. -/
def read (side : Side) (n : Nat) (s : Stream) : Except IoError Bytes × Stream :=
  let e := s.get side
  if e.unread ≠ [] then
    (.ok (e.unread.take n), s.set side { e with unread := e.unread.drop n })
  else if e.reset then (.error .connectionReset, s.set side { e with reset := false })
  else if e.hungUp then (.ok [], s)
  else (.error .wouldBlock, s)

/-- Writes at one end. It fails when the other end is gone. -/
def write (side : Side) (data : Bytes) (s : Stream) : Except IoError Nat × Stream :=
  if (s.get side).hungUp then (.error .brokenPipe, s)
  else
    let o := s.get side.other
    (.ok data.length, s.set side.other { o with unread := o.unread ++ data })

/-- Closes one end. -/
def close (side : Side) (s : Stream) : Stream :=
  let e := s.get side
  let o := s.get side.other
  (s.set side { e with closed := true, unread := [] }).set side.other
    { o with hungUp := true, reset := o.reset || e.unread ≠ [] }

/-- Closes the far end before anyone had it. -/
def refuse (s : Stream) : Stream :=
  let s := s.close .far
  { s with near := { s.near with reset := true } }

end Stream

end LocalIpc

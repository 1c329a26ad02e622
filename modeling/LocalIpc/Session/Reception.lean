import LocalIpc.IoError.Basic
import LocalIpc.Session.Preview
/-!
# Receptions

A client is heard out: it is read until it hangs up. Its bytes are counted, and the first of them
are kept for a preview. A read that was interrupted is made again.
-/

namespace LocalIpc

/-- What is kept of the bytes that came. -/
structure Received where
  head : Bytes
  count : Nat
  deriving DecidableEq

namespace Received

def nothing : Received := ⟨[], 0⟩

/-- One byte more than a preview shows, so that a longer payload can be told from a full one. -/
def headLimit : Nat := Preview.limit + 1

def add (r : Received) (data : Bytes) : Received :=
  ⟨r.head ++ data.take (headLimit - r.head.length), r.count + data.length⟩

def preview (r : Received) : String := Preview.ofPayload r.head

end Received

/-- How the reading of a client went. -/
structure Reception where
  received : Received
  /-- The bytes that were read, in order. -/
  data : Bytes
  /-- The failure that ended it, if it was not the end of the stream. -/
  failure : Option IoError
  deriving DecidableEq

/-- Hears out a client whose reads give the listed results, after `r` has come. An empty read, or
the end of the list, is the end of the stream. -/
def receiveFrom (r : Received) : List (Except IoError Bytes) → Reception
  | [] => ⟨r, [], none⟩
  | .ok data :: rest =>
    if data = [] then ⟨r, [], none⟩
    else
      let d := receiveFrom (r.add data) rest
      { d with data := data ++ d.data }
  | .error e :: rest =>
    if e.kind = .interrupted then receiveFrom r rest else ⟨r, [], some e⟩

def receive (reads : List (Except IoError Bytes)) : Reception := receiveFrom .nothing reads

end LocalIpc

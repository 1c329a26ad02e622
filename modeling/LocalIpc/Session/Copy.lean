import LocalIpc.IoError.Basic
import LocalIpc.Text.Utf8
/-!
# Copying back

Everything that a client sends is written back to it before the next read. Reads and writes that
were interrupted are made again, and a write may take only a part.
-/

namespace LocalIpc

/-- What passed between the copier and its client. -/
inductive Transfer
  | read (data : Bytes)
  | wrote (data : Bytes)
  deriving DecidableEq

/-- How a write of a whole piece went. -/
structure Written where
  /-- The parts that were taken, in order. -/
  parts : List Bytes
  failure : Option IoError
  /-- The write results that were not used. -/
  rest : List (Except IoError Nat)

/-- A write took nothing. -/
def nothingTaken : IoError := .custom .writeZero "failed to write whole buffer"

/-- Writes all of `data`, when writes give the listed results. Behind the list, writes take all. -/
def writeAll (data : Bytes) : List (Except IoError Nat) → Written
  | [] => ⟨if data = [] then [] else [data], none, []⟩
  | .ok n :: rest =>
    if data = [] then ⟨[], none, .ok n :: rest⟩
    else if n = 0 then ⟨[], some nothingTaken, rest⟩
    else
      let w := writeAll (data.drop n) rest
      { w with parts := data.take n :: w.parts }
  | .error e :: rest =>
    if data = [] then ⟨[], none, .error e :: rest⟩
    else if e.kind = .interrupted then writeAll data rest
    else ⟨[], some e, rest⟩

/-- How a copy went: what passed, and the number of bytes or the failure. -/
structure Copied where
  transfers : List Transfer
  result : Except IoError Nat

/-- Copies back what a client sends, after `total` bytes. An empty read, or the end of the list, is
the end of the stream. -/
def copyFrom (total : Nat) : List (Except IoError Bytes) → List (Except IoError Nat) → Copied
  | [], _ => ⟨[], .ok total⟩
  | .ok data :: reads, writes =>
    if data = [] then ⟨[], .ok total⟩
    else
      let w := writeAll data writes
      let passed := .read data :: w.parts.map .wrote
      match w.failure with
      | some e => ⟨passed, .error e⟩
      | none =>
        let c := copyFrom (total + data.length) reads w.rest
        { c with transfers := passed ++ c.transfers }
  | .error e :: reads, writes =>
    if e.kind = .interrupted then copyFrom total reads writes else ⟨[], .error e⟩

def copy (reads : List (Except IoError Bytes)) (writes : List (Except IoError Nat)) : Copied :=
  copyFrom 0 reads writes

namespace Transfer

/-- The bytes that were read, in order. -/
def bytesRead (ts : List Transfer) : Bytes :=
  ts.flatMap fun t => match t with
    | read data => data
    | wrote _ => []

/-- The bytes that were written, in order. -/
def bytesWritten (ts : List Transfer) : Bytes :=
  ts.flatMap fun t => match t with
    | wrote data => data
    | read _ => []

end Transfer

end LocalIpc

import LocalIpc.ListenerError
/-!
# Address records

The fixed-size record in which the system takes and gives the address of a local socket: a header of
two bytes, then the path, ended by a zero byte. Two header layouts are in use.
-/

namespace LocalIpc

/-- What stands in front of the path. -/
inductive RecordLayout
  /-- The address family in two bytes, the low byte first. -/
  | family
  /-- The length of header and path in one byte, then the family in one byte. -/
  | length
  deriving DecidableEq

namespace AddressRecord

def headerSize : Nat := 2

/-- The room for a path and its end mark. -/
def pathRoom : Nat := 108

def recordSize : Nat := headerSize + pathRoom

/-- The longest path that leaves room for the end mark. -/
def longestPath : Nat := pathRoom - 1

/-- The number of the family of local sockets. -/
def localFamily : UInt8 := 1

def header : RecordLayout → Nat → Bytes
  | .family, _ => [localFamily, 0]
  | .length, n => [UInt8.ofNat (headerSize + n), localFamily]

theorem length_header (layout : RecordLayout) (n : Nat) :
    (header layout n).length = headerSize := by
  cases layout <;> rfl

end AddressRecord

/-- A record with the length that is passed to the system beside it. -/
structure AddressRecord where
  bytes : Bytes
  length : UInt32
  size_bytes : bytes.length = AddressRecord.recordSize

namespace AddressRecord

/-- A record of zeros, to be filled in by the system. -/
def empty : AddressRecord where
  bytes := List.replicate recordSize 0
  length := UInt32.ofNat recordSize
  size_bytes := List.length_replicate

/-- The record of a path: the header, the path, and zeros to the end. A path with a zero byte would
be cut short by the system, so it is refused first, and then one that is too long. -/
def encode (layout : RecordLayout) (path : Path) : Except ListenerError AddressRecord :=
  if 0 ∈ path then .error (.invalidPath path "contains a NUL byte")
  else if h : path.length ≤ longestPath then
    .ok {
      bytes := header layout path.length ++ path ++ List.replicate (pathRoom - path.length) 0
      length := UInt32.ofNat (headerSize + path.length + 1)
      size_bytes := by
        simp only [List.length_append, length_header, List.length_replicate, recordSize,
          longestPath, pathRoom] at h ⊢
        omega }
  else .error (.pathTooLong path path.length longestPath)

/-- The record with `bytes` written over its start and another length beside it. -/
def overwrite (r : AddressRecord) (bytes : Bytes) (length : UInt32) : AddressRecord where
  bytes := (bytes ++ r.bytes.drop bytes.length).take recordSize
  length := length
  size_bytes := by
    have h := r.size_bytes
    simp only [List.length_take, List.length_append, List.length_drop]
    omega

/-- The bytes of the path, up to the first zero byte. -/
def path (r : AddressRecord) : Path := (r.bytes.drop headerSize).takeWhile (· ≠ 0)

/-- The record as diagnostics show it. -/
def shown (r : AddressRecord) : String :=
  "NativeAddressRecord \x7b path: " ++ Text.quoted r.path ++ ", len: " ++ toString r.length.toNat
    ++ " \x7d"

end AddressRecord

end LocalIpc

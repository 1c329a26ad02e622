/-!
# Kinds of I/O errors

What went wrong, as far as a caller may want to tell failures apart.
-/

namespace LocalIpc

inductive ErrorKind
  | notFound | permissionDenied | connectionRefused | connectionReset | connectionAborted
  | notConnected | addrInUse | addrNotAvailable | brokenPipe | alreadyExists | wouldBlock
  | invalidInput | invalidData | timedOut | writeZero | interrupted | unsupported | unexpectedEof
  | outOfMemory | other | uncategorized | inputOutputError | argumentListTooLong | resourceBusy
  | crossesDevices | notADirectory | isADirectory | tooManyOpenFiles | executableFileBusy
  | fileTooLarge | storageFull | notSeekable | readOnlyFilesystem | tooManyLinks | deadlock
  | invalidFilename | directoryNotEmpty | filesystemLoop | networkDown | networkUnreachable
  | hostUnreachable | inProgress | staleNetworkFileHandle | quotaExceeded
  deriving DecidableEq

namespace ErrorKind

/-- The name of the kind in reports. -/
def name : ErrorKind → String
  | .notFound => "NotFound"
  | .permissionDenied => "PermissionDenied"
  | .connectionRefused => "ConnectionRefused"
  | .connectionReset => "ConnectionReset"
  | .connectionAborted => "ConnectionAborted"
  | .notConnected => "NotConnected"
  | .addrInUse => "AddrInUse"
  | .addrNotAvailable => "AddrNotAvailable"
  | .brokenPipe => "BrokenPipe"
  | .alreadyExists => "AlreadyExists"
  | .wouldBlock => "WouldBlock"
  | .invalidInput => "InvalidInput"
  | .invalidData => "InvalidData"
  | .timedOut => "TimedOut"
  | .writeZero => "WriteZero"
  | .interrupted => "Interrupted"
  | .unsupported => "Unsupported"
  | .unexpectedEof => "UnexpectedEof"
  | .outOfMemory => "OutOfMemory"
  | .other => "Other"
  | .uncategorized => "Uncategorized"
  | .inputOutputError => "InputOutputError"
  | .argumentListTooLong => "ArgumentListTooLong"
  | .resourceBusy => "ResourceBusy"
  | .crossesDevices => "CrossesDevices"
  | .notADirectory => "NotADirectory"
  | .isADirectory => "IsADirectory"
  | .tooManyOpenFiles => "TooManyOpenFiles"
  | .executableFileBusy => "ExecutableFileBusy"
  | .fileTooLarge => "FileTooLarge"
  | .storageFull => "StorageFull"
  | .notSeekable => "NotSeekable"
  | .readOnlyFilesystem => "ReadOnlyFilesystem"
  | .tooManyLinks => "TooManyLinks"
  | .deadlock => "Deadlock"
  | .invalidFilename => "InvalidFilename"
  | .directoryNotEmpty => "DirectoryNotEmpty"
  | .filesystemLoop => "FilesystemLoop"
  | .networkDown => "NetworkDown"
  | .networkUnreachable => "NetworkUnreachable"
  | .hostUnreachable => "HostUnreachable"
  | .inProgress => "InProgress"
  | .staleNetworkFileHandle => "StaleNetworkFileHandle"
  | .quotaExceeded => "QuotaExceeded"

/-- What a reader is told when the kind is all that is known. -/
def description : ErrorKind → String
  | .notFound => "entity not found"
  | .permissionDenied => "permission denied"
  | .connectionRefused => "connection refused"
  | .connectionReset => "connection reset"
  | .connectionAborted => "connection aborted"
  | .notConnected => "not connected"
  | .addrInUse => "address in use"
  | .addrNotAvailable => "address not available"
  | .brokenPipe => "broken pipe"
  | .alreadyExists => "entity already exists"
  | .wouldBlock => "operation would block"
  | .invalidInput => "invalid input parameter"
  | .invalidData => "invalid data"
  | .timedOut => "timed out"
  | .writeZero => "write zero"
  | .interrupted => "operation interrupted"
  | .unsupported => "unsupported"
  | .unexpectedEof => "unexpected end of file"
  | .outOfMemory => "out of memory"
  | .other => "other error"
  | .uncategorized => "uncategorized error"
  | .inputOutputError => "input/output error"
  | .argumentListTooLong => "argument list too long"
  | .resourceBusy => "resource busy"
  | .crossesDevices => "cross-device link or rename"
  | .notADirectory => "not a directory"
  | .isADirectory => "is a directory"
  | .tooManyOpenFiles => "too many open files"
  | .executableFileBusy => "executable file busy"
  | .fileTooLarge => "file too large"
  | .storageFull => "no storage space"
  | .notSeekable => "seek on unseekable file"
  | .readOnlyFilesystem => "read-only filesystem or storage medium"
  | .tooManyLinks => "too many links"
  | .deadlock => "deadlock"
  | .invalidFilename => "invalid filename"
  | .directoryNotEmpty => "directory not empty"
  | .filesystemLoop => "filesystem loop or indirection limit (e.g. symlink loop)"
  | .networkDown => "network down"
  | .networkUnreachable => "network unreachable"
  | .hostUnreachable => "host unreachable"
  | .inProgress => "in progress"
  | .staleNetworkFileHandle => "stale network file handle"
  | .quotaExceeded => "quota exceeded"

/-- Every kind. -/
def all : List ErrorKind :=
  [.notFound, .permissionDenied, .connectionRefused, .connectionReset, .connectionAborted,
   .notConnected, .addrInUse, .addrNotAvailable, .brokenPipe, .alreadyExists, .wouldBlock,
   .invalidInput, .invalidData, .timedOut, .writeZero, .interrupted, .unsupported, .unexpectedEof,
   .outOfMemory, .other, .uncategorized, .inputOutputError, .argumentListTooLong, .resourceBusy,
   .crossesDevices, .notADirectory, .isADirectory, .tooManyOpenFiles, .executableFileBusy,
   .fileTooLarge, .storageFull, .notSeekable, .readOnlyFilesystem, .tooManyLinks, .deadlock,
   .invalidFilename, .directoryNotEmpty, .filesystemLoop, .networkDown, .networkUnreachable,
   .hostUnreachable, .inProgress, .staleNetworkFileHandle, .quotaExceeded]

/-- The kind of a given name. -/
def ofName? (s : String) : Option ErrorKind := all.find? fun k => k.name == s

end ErrorKind

end LocalIpc

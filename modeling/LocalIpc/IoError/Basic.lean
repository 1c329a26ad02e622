import LocalIpc.IoError.SystemError
/-!
# I/O errors

A failure of the system, of a peer or of the data: an error number of the system, a bare kind, or a
kind with a message of its own.
-/

namespace LocalIpc

inductive IoError
  | os (code : Int32)
  | plain (kind : ErrorKind)
  | custom (kind : ErrorKind) (text : String)
  deriving DecidableEq

namespace IoError

def kind : IoError → ErrorKind
  | os code => SystemError.kind code.toInt
  | plain k => k
  | custom k _ => k

/-- The error number, when the system gave one. -/
def code? : IoError → Option Int32
  | os code => some code
  | _ => none

def message : IoError → String
  | os code => SystemError.text code.toInt ++ " (os error " ++ toString code.toInt ++ ")"
  | plain k => k.description
  | custom _ text => text

/-! ## Errors that the library meets by name -/

def notFound : IoError := os 2
def interrupted : IoError := os 4
def wouldBlock : IoError := os 11
def fileExists : IoError := os 17
def crossesDevices : IoError := os 18
def notDirectory : IoError := os 20
def isDirectory : IoError := os 21
def invalidArgument : IoError := os 22
def noSuchDevice : IoError := os 6
def badDescriptor : IoError := os 9
def deviceBusy : IoError := os 16
def brokenPipe : IoError := os 32
def nameTooLong : IoError := os 36
def directoryNotEmpty : IoError := os 39
def tooManyLinks : IoError := os 40
def wrongSocketType : IoError := os 91
def addressInUse : IoError := os 98
def connectionReset : IoError := os 104
def notConnected : IoError := os 107
def connectionRefused : IoError := os 111

end IoError

end LocalIpc

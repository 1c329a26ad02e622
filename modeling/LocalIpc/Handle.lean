/-!
# Handles

A native handle is a word; a descriptor is a half word that fits one. A descriptor slot holds the
descriptor of a listener until the listener is closed.
-/

namespace LocalIpc

abbrev Fd := Int32

/-- A native handle, compared by value. -/
structure Handle where
  raw : Int64
  deriving DecidableEq

namespace Handle

def ofFd (fd : Fd) : Handle := ⟨fd.toInt64⟩

/-- The low half of the word, as a descriptor. -/
def fd (h : Handle) : Fd := h.raw.toInt32

def toInt (h : Handle) : Int := h.raw.toInt

/-- Handles in the order of their values. -/
def before (a b : Handle) : Bool := decide (a.raw < b.raw)

/-- The handle as diagnostics show it. -/
def shown (h : Handle) : String := "NativeHandle(" ++ toString h.toInt ++ ")"

end Handle

/-- A descriptor that can be taken out of use once. -/
structure DescriptorSlot where
  value : Fd
  deriving DecidableEq

namespace DescriptorSlot

/-- The value that stands for no descriptor. -/
def invalid : Fd := -1

def get (s : DescriptorSlot) : Option Fd := if s.value = invalid then none else some s.value

def retire (_ : DescriptorSlot) : DescriptorSlot := ⟨invalid⟩

/-- The slot as diagnostics show it. -/
def shown (s : DescriptorSlot) : String := "FdSlot(" ++ toString s.value.toInt ++ ")"

end DescriptorSlot

end LocalIpc

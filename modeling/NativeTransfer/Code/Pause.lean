/-!
# Pausing

The two directions of a transfer are paused by one bit each. A mask says how both are to be from now
on, so that no bit at all resumes whatever was paused.
-/

namespace NativeTransfer.PauseMask

/-- Nothing more is received. -/
def receiving : Int32 := 1

/-- Nothing more is sent. -/
def sending : Int32 := 4

/-- Both directions stand still. -/
def both : Int32 := receiving ||| sending

/-- Both directions go on. -/
def neither : Int32 := 0

end NativeTransfer.PauseMask

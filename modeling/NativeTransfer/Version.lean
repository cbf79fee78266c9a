/-!
# The version of the library

It is the library's own and says nothing of the engine, which is asked for its version when it is
there.
-/

namespace NativeTransfer

/-- Major, minor and patch number. -/
def libraryVersion : String := "0.1.0"

end NativeTransfer

import NativeTransfer.Library.Module

/-!
# Ways to the engine

The engine is reached in the same process, through a library that was linked in, or through a module
that was loaded. All three offer the same methods, each by code of its own: what a method of a way
does is said there, and that the ways come to the same is no part of this definition.
-/

namespace NativeTransfer

/-- A way to the engine. -/
inductive Api
  | inProcess
  | linked
  | dynamic (module : Library.Loaded)

def Api.name : Api → String
  | .inProcess => "mock"
  | .linked => "linked"
  | .dynamic _ => "dynamic"

end NativeTransfer

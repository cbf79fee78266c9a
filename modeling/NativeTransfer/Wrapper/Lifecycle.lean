import NativeTransfer.State.Global
import NativeTransfer.Wrapper.Setting

/-!
# The life of a wrapper

A wrapper is entered in the registry for exactly as long as it has a live handle. It leaves the
registry before its handle is released, so that no call from the engine finds a wrapper whose handle
is gone.

## Cleaning up

A wrapper forgets its handle before anything else, so that cleaning up again does nothing, however
the first time went. Then the registry forgets the wrapper, the engine is given its handle back, and
last the ledger is released, because until then the engine may still read what is in it. A way that
does not take the handle back is reported, and the rest goes on as if it had.

## Duplicating

A duplicate starts out with everything that the engine stored for its source, callbacks included.
The library takes those kinds away again that the source has a callback for, and gives the duplicate
up if the engine will not have it. What is shared is recorded a second time, so it has two holders
from then on.
-/

namespace NativeTransfer.Wrapper

/-! ## The end -/

/-- Releases the handle and everything that was kept for it. Doing so again does nothing. -/
def cleanup (id : WrapperId) : Act Unit := do
  let wrapper := (← get).wrapper id
  match wrapper.handle with
  | none => pure ()
  | some h =>
    modify (·.modifyWrapper id ({ · with handle := none }))
    modify fun w ↦ { w with registry := w.registry.unregister (.handle h) }
    let handle := Field.text (Address.handle h).text
    match ← (wrapper.api.cleanup h).run with
    | .ok _ => pure ()
    | .error e =>
      report .warn "easy cleanup failed" [("handle", handle), ("error", .text e.message)]
    report .debug "easy handle released" [("handle", handle)]
  discard (releaseAll id)
  modifySlots id fun _ ↦ {}

/-- The end of a wrapper. -/
def drop (id : WrapperId) : Act Unit := do
  cleanup id
  modify fun w ↦ { w with wrappers := Pairs.without id w.wrappers }

/-! ## The beginning -/

/-- A wrapper for a handle that was just made. -/
def adopt (given : Option Nat) (api : Api) (origin : EntryPoint) : Attempt WrapperId := do
  match given with
  | none => throw (.initFailed origin)
  | some h =>
    let id := (← get).opened
    modify fun w ↦
      { w with
        opened := w.opened + 1
        wrappers := w.wrappers ++ [(id, { handle := some h, api })]
        registry := w.registry.register (.handle h) id }
    report .debug "easy handle registered"
      [("handle", .text (Address.handle h).text), ("origin", .text origin.symbol),
        ("api", .text api.name)]
    return id

/-- Points a new handle at the certificate bundle. A handle without it is still of use. -/
def applyBundle (id : WrapperId) : Act Unit := do
  match ← Global.activeBundle with
  | none => return
  | some path =>
    match ← (setopt id .caInfo (.text path)).run with
    | .ok _ => return
    | .error e => report .warn "failed to set CAINFO" [("error", .text e.message)]

/-- A wrapper for a new handle. -/
def create (api : Api) : Attempt WrapperId := do
  let id ← adopt (← api.init) api .init
  applyBundle id
  return id

/-- A wrapper for a new handle, the default way. -/
def createDefault : Attempt WrapperId := do create (← Global.defaultApi)

/-- Takes the wiring of a kind away from a duplicate, directly and whatever it was. -/
def detach (id : WrapperId) (h : Nat) (k : CallbackKind) : Attempt Unit := do
  let api ← getApi id
  api.check (← api.setFunction h k.functionOption .null)
  api.check (← api.setPointer h k.dataOption .null)
  if k = .progress then
    api.check (← api.setLong h .noProgress 1)

def detachAll (id : WrapperId) (h : Nat) : List CallbackKind → Attempt Unit
  | [] => return
  | k :: rest => do
    detach id h k
    detachAll id h rest

/-- A wrapper for a copy of the handle. The copy has the options of the handle and none of its
callbacks, and it holds all that it may share. -/
def duplicate (id : WrapperId) : Attempt WrapperId := do
  let source ← liveHandle id
  let api ← getApi id
  let copy ← adopt (← api.duphandle source) api .duphandle
  recordEach copy (← getLedger id).shared
  let kinds := (← getSlots id).installed
  orUndo (do detachAll copy (← liveHandle copy) kinds) (drop copy)
  return copy

/-! ## In between -/

/-- Sets every option back, and gives up what was kept for them. -/
def reset (id : WrapperId) : Attempt Unit := do
  let h ← liveHandle id
  (← getApi id).reset h
  modifySlots id fun _ ↦ {}
  let released ← releaseAll id
  report .debug "easy handle reset"
    [("handle", .text (Address.handle h).text), ("released", .number released)]

end NativeTransfer.Wrapper

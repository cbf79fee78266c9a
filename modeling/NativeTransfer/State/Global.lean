import NativeTransfer.CaBundle
import NativeTransfer.Config.Discovery
import NativeTransfer.State.Native

/-!
# What is settled once

The configuration, the certificate bundle and the default way to the engine are settled when they
are first needed, and stay so. The engine is initialised at most once at a time, whichever way the
request for it comes.

## Settling

What is settled is looked up first and worked out only if it is missing, also where working it out
came to nothing: that there is no certificate bundle is settled like any bundle. A configuration
that cannot be read is reported and settled as the default one. Settling the way to the engine may
settle the configuration on the way, and never the other way round.

## One flag

That the engine is initialised is one fact about the process. It is not kept for each way to the
engine, so initialising by one way and cleaning up by another are turns in one order. A turn that
has nothing to do makes no call, and one that fails leaves the flag as it was.
-/

namespace NativeTransfer.Global

/-- The configuration: what was installed, or else what is found from the working directory up. -/
def activeConfig : Act Config := do
  let w ← get
  match w.settled.config with
  | some c => return c
  | none =>
    let c ← match Config.findFromCwd w.host.files w.host.cwd with
      | .ok c => pure c
      | .error e => do
        report .warn "failed to load configuration; using defaults" [("error", .text e.message)]
        pure {}
    modify fun w ↦ { w with settled.config := some c }
    return c

/-- Settles the configuration. One that came too late is handed back. -/
def installConfig (c : Config) : Act (Except Config Unit) := do
  match (← get).settled.config with
  | some _ => return .error c
  | none =>
    modify fun w ↦ { w with settled.config := some c }
    return .ok ()

/-- Passes on what was logged elsewhere. -/
def logAll (records : List LogRecord) : Act Unit :=
  modify fun w ↦ { w with trace := w.trace ++ records.map .log }

/-- The certificate bundle for new handles. -/
def activeBundle : Act (Option Path) := do
  match (← get).settled.bundle with
  | some b => return b
  | none =>
    let c ← activeConfig
    let outcome := CaBundle.resolve (← get).host c.tls
    modify fun w ↦ { w with host.files := outcome.files, settled.bundle := some outcome.result }
    logAll outcome.log
    return outcome.result

/-- A way to the engine through what became of loading a module. -/
def openModule (loaded : Library.Loaded) : Act Api := do
  logAll loaded.report
  return .dynamic loaded

/-- The default way to the engine. -/
def defaultApi : Act Api := do
  let w ← get
  match w.settled.native with
  | some api => return api
  | none =>
    let api ←
      if w.settled.linked then pure Api.linked
      else do
        let c ← activeConfig
        let loaded := Library.Loaded.ofConfig w.host c.library
        let api ← openModule loaded
        match loaded with
        | .ok m => report .info "native module loaded" [("path", .text m.path)]
        | .error _ => pure ()
        pure api
    modify fun w ↦ { w with settled.native := some api }
    return api

/-! ## Initialisation -/

/-- Initialises the engine, unless that was done. -/
def init (api : Api) (flags : Int64) : Attempt Unit := do
  if (← get).settled.initialized then
    report .debug "global init already done" []
    return
  match asLong? longWidth flags with
  | some flags =>
    let code ← api.globalInit flags
    api.check code
    modify fun w ↦ { w with settled.initialized := true }
    report .debug "global init" [("flags", .number flags.toInt), ("api", .text api.name)]
  | none => throw (.invalidFlags flags.toInt)

theorem init_eq (api : Api) (flags : Int64) : init api flags = (do
    if (← get).settled.initialized then
      report .debug "global init already done" []
      return
    let code ← api.globalInit flags
    api.check code
    modify fun w ↦ { w with settled.initialized := true }
    report .debug "global init" [("flags", .number flags.toInt), ("api", .text api.name)]) := by
  simp only [init, asLong?_longWidth]

/-- Cleans the engine up, if it was initialised. -/
def cleanup (api : Api) : Attempt Unit := do
  if ¬ (← get).settled.initialized then return
  api.globalCleanup
  modify fun w ↦ { w with settled.initialized := false }
  report .debug "global cleanup" [("api", .text api.name)]

/-- Initialises with the configured flags, the default way. -/
def initDefault : Attempt Unit := do
  let c ← activeConfig
  init (← defaultApi) c.initFlags

/-- The engine's version text, the default way. -/
def version : Attempt String := do (← defaultApi).version

end NativeTransfer.Global

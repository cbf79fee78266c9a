import NativeTransfer.Library.Search
import NativeTransfer.Log
import NativeTransfer.Error

/-!
# Loaded modules

Loading never fails outright. A module that cannot be loaded, and a symbol that it lacks, leave a
reason behind, and the reason comes up again in every call that needs what is missing.

What a module has is functions at addresses, and a name to ask for each address by. The table is
resolved once, name by name, and from then on a call knows nothing but the number in its slot: it
calls whatever stands there. That the function at the address in the slot of an entry point is the
one that is exported under the name of that entry point is therefore to be shown, and not built in
(`exported?_of_slot`).
-/

namespace NativeTransfer.Library

/-- A native module: its path, the file that was found there, and the loader's words for what the
file does not export. -/
structure Module where
  path : Path
  file : ModuleFile
  refusal : String
  deriving DecidableEq

/-- The module at a path, or why there is none. -/
def Module.load (h : Host) (p : Path) : Except String Module :=
  match h.moduleFile? p with
  | some file => .ok ⟨p, file, h.refusal⟩
  | none => .error ("failed to load library '" ++ p ++ "': " ++ h.refusal)

/-- The address of a function in a loaded module, counted from where its functions begin. -/
abbrev Offset := Nat

namespace Module

/-- The address of a symbol, or why it has none. -/
def address (m : Module) (symbol : String) : Except String Offset :=
  if symbol.toList.contains '\x00' then .error ("invalid symbol name: " ++ symbol)
  else
    match m.file.symbols.idxOf? symbol with
    | some a => .ok a
    | none =>
      .error ("symbol '" ++ symbol ++ "' not found in '" ++ m.path ++ "': " ++ m.refusal)

/-- Why a symbol has no address in a module, if it has none. -/
def lacks? (m : Module) (symbol : String) : Option String :=
  match m.address symbol with
  | .ok _ => none
  | .error reason => some reason

/-- The function of the engine that stands at an address. -/
def exported? (m : Module) (a : Offset) : Option EntryPoint :=
  m.file.symbols[a]?.bind EntryPoint.ofSymbol?

/-! ### The table -/

/-- The table of addresses, resolved once: one slot for each entry point. -/
def procs (m : Module) : List (Except String Offset) :=
  EntryPoint.all.map fun e ↦ m.address e.symbol

theorem index_lt_length_procs (m : Module) (e : EntryPoint) : e.index < m.procs.length := by
  rw [procs, List.length_map]
  cases e <;> decide

/-- What is in the slot of an entry point. -/
def slot (m : Module) (e : EntryPoint) : Except String Offset :=
  m.procs.get ⟨e.index, m.index_lt_length_procs e⟩

/-- The slot of an entry point has the address of its symbol. -/
theorem slot_eq (m : Module) (e : EntryPoint) : m.slot e = m.address e.symbol := by
  have hslot : m.procs[e.index]? = some (m.address e.symbol) := by
    rw [procs, List.getElem?_map, EntryPoint.getElem?_all_index]
    rfl
  exact Option.some_inj.1 ((List.getElem?_eq_getElem (m.index_lt_length_procs e)).symm.trans hslot)

/-- What stands at the address in the slot of an entry point is that entry point. -/
theorem exported?_of_slot {m : Module} {e : EntryPoint} {a : Offset} (h : m.slot e = .ok a) :
    m.exported? a = some e := by
  rw [slot_eq, address] at h
  split at h
  · cases h
  · split at h
    · next hidx =>
      obtain rfl := Except.ok.inj h
      obtain ⟨hlt, hget, -⟩ := List.idxOf?_eq_some_iff.1 hidx
      rw [exported?, List.getElem?_eq_getElem hlt, hget]
      exact e.ofSymbol?_symbol
    · cases h

/-- The address of an entry point. -/
def entry (m : Module) (e : EntryPoint) : Except Error Offset :=
  match m.slot e with
  | .ok a => .ok a
  | .error reason => .error (.entryPointMissing e reason)

/-- Why there is no address for an entry point in the table, if there is none. -/
def absent? (m : Module) (e : EntryPoint) : Option String :=
  match m.slot e with
  | .ok _ => none
  | .error reason => some reason

theorem absent?_eq (m : Module) (e : EntryPoint) : m.absent? e = m.lacks? e.symbol := by
  rw [absent?, lacks?, slot_eq]

theorem entry_of_absent? {m : Module} {e : EntryPoint} {reason : String}
    (h : m.absent? e = some reason) : m.entry e = .error (.entryPointMissing e reason) := by
  rw [absent?] at h
  split at h
  · cases h
  · next hslot =>
    obtain rfl := Option.some.inj h
    rw [entry, hslot]

theorem entry_of_present {m : Module} {e : EntryPoint} (h : m.absent? e = none) :
    ∃ a, m.entry e = .ok a := by
  rw [absent?] at h
  split at h
  · next a hslot => exact ⟨a, by rw [entry, hslot]⟩
  · cases h

/-- The entry points that cannot be called. -/
def missing (m : Module) : List EntryPoint :=
  EntryPoint.all.filter fun e ↦ (m.absent? e).isSome

/-! ### Reports -/

/-- The reports on what is missing. One entry point is not expected to be there. -/
def report (m : Module) : List LogRecord :=
  EntryPoint.all.filterMap fun e ↦
    (m.lacks? e.symbol).map fun reason ↦
      { level := if e = .impersonate then .debug else .warn
        message :=
          if e = .impersonate then "optional entry point absent" else "entry point unresolved"
        fields := [("symbol", .text e.symbol), ("reason", .text reason)] }

end Module

/-- What became of loading: a module, or the reason why there is none. -/
abbrev Loaded := Except String Module

namespace Loaded

/-- The reports on an attempt to load. -/
def report : Loaded → List LogRecord
  | .ok m => m.report
  | .error reason => [⟨.warn, "native module failed to load", [("reason", .text reason)]⟩]

/-- What a search comes to. -/
def ofSearch (h : Host) (s : Search) : Loaded :=
  match s.locate? h with
  | some p => Module.load h p
  | none =>
    .error ("no library named " ++ Text.quotedList s.names ++ " found in "
      ++ toString s.paths.length ++ " search paths")

/-- What the search of a configuration comes to. -/
def ofConfig (h : Host) (c : LibraryConfig) : Loaded := ofSearch h (Search.ofConfig h c)

/-- The address of an entry point. -/
def entry : Loaded → EntryPoint → Except Error Offset
  | .ok m, e => m.entry e
  | .error reason, _ => .error (.moduleNotLoaded reason)

/-- The function of the engine that stands at an address. -/
def exported? : Loaded → Offset → Option EntryPoint
  | .ok m, a => m.exported? a
  | .error _, _ => none

/-- The path of the module. -/
def path? : Loaded → Option Path
  | .ok m => some m.path
  | .error _ => none

/-- Why there is no module. -/
def reason? : Loaded → Option String
  | .ok _ => none
  | .error reason => some reason

/-- The version text of an engine that is the module's own. -/
def banner? : Loaded → Option String
  | .ok m => m.file.banner
  | .error _ => none

def missing : Loaded → List EntryPoint
  | .ok m => m.missing
  | .error _ => EntryPoint.all

end Loaded

end NativeTransfer.Library

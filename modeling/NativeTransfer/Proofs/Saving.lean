import NativeTransfer.Config.Discovery
import NativeTransfer.Proofs.WrittenDocument
import NativeTransfer.Proofs.WrittenFile

/-!
# A saved configuration loads

A configuration is written as a document that has a table for each of its parts. A setting without
a value is left out, and a missing key stands for no value, so that what reads back is the same
configuration. Saving puts that document's octets into a file, and loading finds them there.

## What is written, and what is read

A part of the configuration is a table, and a setting in it is an entry or is left out. The reader
looks keys up by their names, so all that is needed of a table is that no key comes twice and that
every key and entry is one that can be written (`Writable`). Settings that are left out take nothing
away from that. Looking a key up then finds what was written for it, or nothing, and nothing is what
an absent setting stands for.
-/

namespace NativeTransfer.Config

open Toml (Value Entry Writable Writables IsBare)

/-! ## Documents of configurations -/

theorem keys_textField (key : String) (s : Option String) :
    ((textField key s).map Prod.fst).Sublist [key] := by
  cases s with
  | none => exact List.nil_sublist _
  | some s => exact List.Sublist.refl _

theorem fits_textField {key : String} {s : Option String} :
    ∀ e ∈ textField key s, e.2.Fits := by
  cases s with
  | none => simp [textField]
  | some s => simp [textField, Entry.Fits]

theorem writable_of_keys (keys : List String) (hbare : ∀ key ∈ keys, IsBare key)
    (hnodup : keys.Nodup) {es : List (String × Entry)} (hkeys : (es.map Prod.fst).Sublist keys)
    (hfits : ∀ e ∈ es, e.2.Fits) : Writable es where
  bare e he := hbare e.1 (hkeys.subset (List.mem_map_of_mem he))
  nodup := hnodup.sublist hkeys
  fits := hfits

theorem fitting?_toInt (n : Int64) : Toml.fitting? n.toInt = some n.toInt := by
  have hmin : Int64.minValue.toInt ≤ n.toInt := Int64.le_toInt n
  have hmax : n.toInt ≤ Int64.maxValue.toInt := Int64.toInt_le n
  rw [Toml.fitting?, decide_eq_true hmin, decide_eq_true hmax]
  rfl

theorem writables_tables (c : Config) : Writables c.tables where
  bare := by
    simp only [tables, List.forall_mem_cons]
    decide
  nodup := by
    simp only [tables, List.map_cons, List.map_nil]
    decide
  writable := by
    simp only [tables, List.forall_mem_cons]
    refine ⟨?_, ?_, ?_, fun _ h ↦ absurd h List.not_mem_nil⟩
    · refine writable_of_keys libraryKeys (by decide) (by decide) ?_ ?_
      · rw [List.map_append]
        exact (keys_textField "path" _).append (List.Sublist.refl ["names", "search_paths"])
      · simp only [List.forall_mem_append, List.forall_mem_cons]
        exact ⟨fits_textField, trivial, trivial, fun _ h ↦ absurd h List.not_mem_nil⟩
    · refine writable_of_keys tlsKeys (by decide) (by decide) ?_ ?_
      · rw [List.map_append, List.map_append]
        exact ((keys_textField "ca_bundle" _).append (keys_textField "ca_bundle_pem" _)).append
          (keys_textField "cache_dir" _)
      · simp only [List.forall_mem_append]
        exact ⟨⟨fits_textField, fits_textField⟩, fits_textField⟩
    · refine writable_of_keys globalKeys (by decide) (by decide)
        (List.Sublist.refl globalKeys) ?_
      simp only [List.forall_mem_cons]
      exact ⟨fitting?_toInt _, fun _ h ↦ absurd h List.not_mem_nil⟩

/-! ## The tables of a document -/

/-- Entries as they are read back. -/
def values (es : List (String × Entry)) : List (String × Value) := es.map fun e ↦ (e.1, e.2.value)

theorem mapM_textOf? (items : List String) : (items.map Value.text).mapM textOf? = some items := by
  induction items with
  | nil => rfl
  | cons s items ih => simp [textOf?, ih]

theorem ofLibrary_values (l : LibraryConfig) :
    ofLibrary (values (textField "path" l.path ++
      [("names", .texts l.names), ("search_paths", .texts l.searchPaths)])) = some l := by
  obtain ⟨path, names, searchPaths⟩ := l
  have hlookups : ofLibrary (values (textField "path" path ++
      [("names", .texts names), ("search_paths", .texts searchPaths)])) =
        ((names.map Value.text).mapM textOf?).bind fun names ↦
          ((searchPaths.map Value.text).mapM textOf?).bind fun searchPaths ↦
            some ⟨path, names, searchPaths⟩ := by
    cases path with
    | none => rfl
    | some path => rfl
  rw [hlookups, mapM_textOf?, mapM_textOf?]
  rfl

theorem ofTls_values (t : TlsConfig) :
    ofTls (values (textField "ca_bundle" t.caBundle ++ textField "ca_bundle_pem" t.caBundlePem ++
      textField "cache_dir" t.cacheDir)) = some t := by
  obtain ⟨caBundle, caBundlePem, cacheDir⟩ := t
  cases caBundle <;> cases caBundlePem <;> cases cacheDir <;> rfl

theorem ofGlobal_values (n : Int64) :
    ofGlobal (values [("init_flags", .integer n.toInt)]) = some n :=
  congrArg some (Int64.ofInt_toInt n)

/-- The document of a configuration gives that configuration. -/
theorem parse_text (c : Config) : parse c.text = some c := by
  have hread : Toml.read c.text = some (c.tables.map fun t ↦ (t.1, .table (values t.2))) :=
    Toml.read_documentText c.writables_tables
  have hlibrary : (c.tables.map fun t ↦ (t.1, Value.table (values t.2))).lookup "library" =
      some (.table (values _)) := rfl
  have htls : (c.tables.map fun t ↦ (t.1, Value.table (values t.2))).lookup "tls" =
      some (.table (values _)) := rfl
  have hglobal : (c.tables.map fun t ↦ (t.1, Value.table (values t.2))).lookup "global" =
      some (.table (values _)) := rfl
  rw [parse, hread, Option.bind_some, ofTable, hlibrary, htls, hglobal]
  simp only [entries, Option.bind_eq_bind, Option.bind_some, ofLibrary_values, ofTls_values,
    ofGlobal_values]
  rfl

/-! ## Files -/

variable {fs saved : FileSystem} {cwd : Place} {c : Config} {p : Path}

/-- Loading the file that a configuration was saved in gives that configuration, whatever texts it
holds and wherever the path leads. -/
theorem load_of_save (h : save fs cwd c p = .ok saved) : load saved cwd p = .ok c := by
  cases hwrite : fs.write cwd p (Text.utf8 c.text) with
  | error e =>
    rw [save, hwrite] at h
    cases h
  | ok written =>
    rw [save, hwrite] at h
    obtain rfl := Except.ok.inj h
    rw [load, if_pos (FileSystem.exists?_of_write hwrite), FileSystem.readText_of_write hwrite]
    simp only [parse_text]

/-- A configuration with texts for every form: a plain one, both kinds of long quotes behind a line
end, and escapes next to a closing quote. -/
def quoted : Config where
  library.path := some "C:\\curl\t\"lib\""
  library.names := ["", "\n'''\"\"", "\n\"\"\"\\''"]
  tls.caBundlePem := some "\r\n'''\"\"\"\"\\\x7f\"\"\""
  initFlags := -1

/-- A file system with one directory. -/
def etc : FileSystem := ⟨[(["etc"], .directory)]⟩

/-- The same with the file that the configuration is saved in. -/
def savedQuoted : FileSystem := etc.put ["etc", fileName] (.file (Text.utf8 quoted.text))

theorem load_of_save_quoted :
    save etc ["etc"] quoted "./../etc/curl-bridge.toml" = .ok savedQuoted ∧
      load savedQuoted ["etc"] "./../etc/curl-bridge.toml" = .ok quoted := by
  have hwrite (content : Bytes) : etc.write ["etc"] "./../etc/curl-bridge.toml" content =
      .ok (etc.put ["etc", fileName] (.file content)) := rfl
  have hsave : save etc ["etc"] quoted "./../etc/curl-bridge.toml" = .ok savedQuoted := by
    rw [save, hwrite]
    rfl
  exact ⟨hsave, load_of_save hsave⟩

end NativeTransfer.Config

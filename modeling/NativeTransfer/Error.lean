import NativeTransfer.Code.Result
import NativeTransfer.Code.Callback
import NativeTransfer.Code.Info
import NativeTransfer.Code.EntryPoint

/-!
# Failures

A failure is a cause, and its wording is one function of the cause. Failures of the system below
carry its error number, so that the same refusal reads the same wherever it surfaces.
-/

namespace NativeTransfer

/-! ## Failures of the system below -/

/-- What the system says when a file operation fails. -/
inductive IoError
  | notFound
  | exists
  | notDirectory
  | isDirectory
  | nameTooLong
  | permissionDenied
  /-- A path with a NUL in it never reaches the system. -/
  | nulInPath
  | notUtf8
  /-- Any other failure, in its own words. -/
  | other (text : String)
  deriving DecidableEq

def IoError.message : IoError → String
  | .notFound => "No such file or directory (os error 2)"
  | .exists => "File exists (os error 17)"
  | .notDirectory => "Not a directory (os error 20)"
  | .isDirectory => "Is a directory (os error 21)"
  | .nameTooLong => "File name too long (os error 36)"
  | .permissionDenied => "Permission denied (os error 13)"
  | .nulInPath => "file name contained an unexpected NUL byte"
  | .notUtf8 => "stream did not contain valid UTF-8"
  | .other text => text

/-- What can go wrong with a configuration file. -/
inductive ConfigError
  | io (e : IoError)
  /-- The text is not the format, or not the shape, of a configuration. -/
  | parse
  /-- The configuration has no text. -/
  | serialize
  | notFound (path : String)
  deriving DecidableEq

def ConfigError.message : ConfigError → String
  | .io e => "Failed to read config file: " ++ e.message
  | .parse => "Failed to parse config"
  | .serialize => "Failed to serialize config"
  | .notFound path => "Config file not found: " ++ path

/-! ## Values where they do not belong -/

/-- The kinds of value that an option can be given. -/
inductive ValueKind
  | null
  | long
  | bool
  | text
  | bytes
  | list
  | writeFunction
  | readFunction
  | headerFunction
  | progressFunction
  | sink
  | source
  | data
  | pointer
  deriving DecidableEq

def ValueKind.name : ValueKind → String
  | .null => "null"
  | .long => "long"
  | .bool => "bool"
  | .text => "text"
  | .bytes => "bytes"
  | .list => "list"
  | .writeFunction => "write function"
  | .readFunction => "read function"
  | .headerFunction => "header function"
  | .progressFunction => "progress function"
  | .sink => "sink"
  | .source => "source"
  | .data => "data"
  | .pointer => "pointer"

/-- What an option takes. -/
inductive Expectation
  /-- The function option of a kind of callback. -/
  | function (kind : CallbackKind)
  /-- The data option of a kind of callback. -/
  | stream (kind : CallbackKind)
  /-- Any other option, by its encoding. -/
  | plain (encoding : Encoding)
  deriving DecidableEq

def Expectation.text : Expectation → String
  | .function k => k.name ++ " function or null"
  | .stream .write => "sink, data or null"
  | .stream .header => "sink, data or null"
  | .stream .read => "source, data or null"
  | .stream .progress => "data or null"
  | .plain .long => "long or bool"
  | .plain .object => "text, bytes, list, pointer or null"
  | .plain .function => "function pointer or null"
  | .plain .offset => "wide integer"
  | .plain .blob => "pointer or null"

/-! ## Failures of the library -/

/-- Why an operation fails. -/
inductive Error
  /-- There is no native module, for a reason that was recorded once. -/
  | moduleNotLoaded (reason : String)
  | entryPointMissing (entry : EntryPoint) (reason : String)
  /-- The wrapper has no live handle. -/
  | noHandle
  /-- The engine gave no handle. -/
  | initFailed (entry : EntryPoint)
  | typeMismatch (option : OptionCode) (expected : Expectation) (got : ValueKind)
  | outOfRange (option : OptionCode) (value : Int)
  | invalidFlags (flags : Int)
  | inputTooLong (length : Nat)
  /-- A NUL inside a text, at this octet. -/
  | interiorNul (position : Nat)
  | listAppend (item : String)
  | unsupportedInfo (info : InfoCode)
  /-- The engine refused a request that was well encoded. -/
  | native (code : ResultCode) (message : String)
  | config (e : ConfigError)
  | io (e : IoError)
  deriving DecidableEq

namespace Error

def message : Error → String
  | .moduleNotLoaded reason => "native module not loaded: " ++ reason
  | .entryPointMissing entry reason =>
    "entry point `" ++ entry.symbol ++ "` unavailable: " ++ reason
  | .noHandle => "easy handle is nil"
  | .initFailed entry => entry.symbol ++ " returned a nil handle"
  | .typeMismatch option expected got =>
    "option " ++ option.text ++ " expects " ++ expected.text ++ ", got " ++ got.name
  | .outOfRange option value =>
    "value " ++ toString value ++ " out of range for option " ++ option.text
  | .invalidFlags flags => "global init flags " ++ toString flags ++ " out of range"
  | .inputTooLong length =>
    "input of " ++ toString length ++ " bytes is too long for the native call"
  | .interiorNul position =>
    "string contains an interior NUL byte: nul byte found in provided data at position: "
      ++ toString position
  | .listAppend item => "failed to append list item " ++ Text.quoted item
  | .unsupportedInfo info => "unsupported info type for " ++ info.text
  | .native code message => message ++ " [" ++ code.text ++ "]"
  | .config e => e.message
  | .io e => "IO error: " ++ e.message

/-- The engine's own code, where it gave one. -/
def code? : Error → Option ResultCode
  | .native code _ => some code
  | _ => none

end Error

end NativeTransfer

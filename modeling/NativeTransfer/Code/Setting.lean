/-!
# Option codes

An option is a number, and the range that the number falls into says how its argument crosses into
the engine. The one exception is a fixed list of options whose integer argument is wide: a wide
integer is chosen by that list and never by the size of the value.
-/

namespace NativeTransfer

/-- How an option's argument crosses into the engine. -/
inductive Encoding
  | long
  | object
  | function
  | offset
  | blob
  deriving DecidableEq

def Encoding.name : Encoding → String
  | .long => "long"
  | .object => "objectpoint"
  | .function => "functionpoint"
  | .offset => "off_t"
  | .blob => "blob"

/-- The number of an option. -/
structure OptionCode where
  value : UInt32
  deriving DecidableEq

namespace OptionCode

/-! ## The options that have a part to play -/

def writeData : OptionCode := ⟨10001⟩
def url : OptionCode := ⟨10002⟩
def readData : OptionCode := ⟨10009⟩
def postFields : OptionCode := ⟨10015⟩
def httpHeader : OptionCode := ⟨10023⟩
def headerData : OptionCode := ⟨10029⟩
def noProgress : OptionCode := ⟨43⟩
def progressData : OptionCode := ⟨10057⟩
def postFieldSize : OptionCode := ⟨60⟩
def caInfo : OptionCode := ⟨10065⟩
def writeFunction : OptionCode := ⟨20011⟩
def readFunction : OptionCode := ⟨20012⟩
def headerFunction : OptionCode := ⟨20079⟩
def progressFunction : OptionCode := ⟨20219⟩
def postFieldSizeLarge : OptionCode := ⟨30120⟩

/-- The named options. -/
def names : List (UInt32 × String) :=
  [(10001, "WRITEDATA"), (10002, "URL"), (3, "PORT"), (10009, "READDATA"), (13, "TIMEOUT"),
    (10015, "POSTFIELDS"), (10018, "USERAGENT"), (10023, "HTTPHEADER"), (10029, "HEADERDATA"),
    (10036, "CUSTOMREQUEST"), (41, "VERBOSE"), (43, "NOPROGRESS"), (46, "UPLOAD"), (47, "POST"),
    (52, "FOLLOWLOCATION"), (10057, "XFERINFODATA"), (60, "POSTFIELDSIZE"), (10065, "CAINFO"),
    (78, "CONNECTTIMEOUT"), (99, "NOSIGNAL"), (10102, "ACCEPT_ENCODING"), (141, "CONNECT_ONLY"),
    (10203, "RESOLVE"), (20011, "WRITEFUNCTION"), (20012, "READFUNCTION"),
    (20079, "HEADERFUNCTION"), (20219, "XFERINFOFUNCTION"), (30115, "INFILESIZE_LARGE"),
    (30116, "RESUME_FROM_LARGE"), (30117, "MAXFILESIZE_LARGE"), (30120, "POSTFIELDSIZE_LARGE"),
    (30145, "MAX_SEND_SPEED_LARGE"), (30146, "MAX_RECV_SPEED_LARGE"), (30270, "TIMEVALUE_LARGE")]

def name? (o : OptionCode) : Option String := names.lookup o.value

/-- The name, or the number where there is none. -/
def text (o : OptionCode) : String :=
  match o.name? with
  | some name => "CURLOPT_" ++ name
  | none => "option " ++ toString o.value

/-- The number as the engine is given it. -/
def toSigned (o : OptionCode) : Int32 := o.value.toInt32

/-! ## Encodings -/

def encoding (o : OptionCode) : Encoding :=
  if 40000 ≤ o.value then .blob
  else if 30000 ≤ o.value then .offset
  else if 20000 ≤ o.value then .function
  else if 10000 ≤ o.value then .object
  else .long

/-- The options whose integer argument is wide. -/
def wide : List UInt32 := [30115, 30116, 30117, 30120, 30145, 30146, 30270]

def isWide (o : OptionCode) : Bool := wide.contains o.value

theorem encoding_of_isWide {o : OptionCode} (h : o.isWide = true) : o.encoding = .offset := by
  rcases o with ⟨v⟩
  simp only [isWide, wide, List.contains_eq_mem, List.mem_cons, List.not_mem_nil, or_false,
    decide_eq_true_eq] at h
  rcases h with rfl | rfl | rfl | rfl | rfl | rfl | rfl <;> rfl

end OptionCode

end NativeTransfer

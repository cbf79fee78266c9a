import NativeTransfer.Code.Setting

/-!
# Callback kinds

Each kind of callback is wired by two options, one for the function and one for the context that the
engine hands back with every call. The two families of options are disjoint, so an option's part in
the wiring can be read off its number.
-/

namespace NativeTransfer

/-- The callbacks that are served. -/
inductive CallbackKind
  | write
  | read
  | header
  | progress
  deriving DecidableEq

namespace CallbackKind

/-- Every kind, in the order in which they are reported. -/
def all : List CallbackKind := [.write, .read, .header, .progress]

def name : CallbackKind → String
  | .write => "write"
  | .read => "read"
  | .header => "header"
  | .progress => "progress"

def ofName? (s : String) : Option CallbackKind := all.find? (·.name = s)

/-- The option that carries the function. -/
def functionOption : CallbackKind → OptionCode
  | .write => .writeFunction
  | .read => .readFunction
  | .header => .headerFunction
  | .progress => .progressFunction

/-- The option that carries the context. -/
def dataOption : CallbackKind → OptionCode
  | .write => .writeData
  | .read => .readData
  | .header => .headerData
  | .progress => .progressData

/-- The kind whose function option this is. -/
def ofFunctionOption? (o : OptionCode) : Option CallbackKind := all.find? (·.functionOption = o)

/-- The kind whose data option this is. -/
def ofDataOption? (o : OptionCode) : Option CallbackKind := all.find? (·.dataOption = o)

theorem mem_all (k : CallbackKind) : k ∈ all := by cases k <;> decide

@[simp] theorem ofFunctionOption?_functionOption (k : CallbackKind) :
    ofFunctionOption? k.functionOption = some k := by cases k <;> rfl

@[simp] theorem ofDataOption?_dataOption (k : CallbackKind) :
    ofDataOption? k.dataOption = some k := by cases k <;> rfl

@[simp] theorem ofFunctionOption?_dataOption (k : CallbackKind) :
    ofFunctionOption? k.dataOption = none := by cases k <;> rfl

theorem functionOption_of_ofFunctionOption? {o : OptionCode} {k : CallbackKind}
    (h : ofFunctionOption? o = some k) : k.functionOption = o := by
  simpa using List.find?_some h

theorem dataOption_of_ofDataOption? {o : OptionCode} {k : CallbackKind}
    (h : ofDataOption? o = some k) : k.dataOption = o := by
  simpa using List.find?_some h

end CallbackKind

end NativeTransfer

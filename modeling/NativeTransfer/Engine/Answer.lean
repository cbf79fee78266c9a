import NativeTransfer.Trace
import NativeTransfer.Text.Utf8

/-!
# How the engine answers

For every call: the answer, the engine afterwards and the event that shows both. The policy is asked
once, before anything changes. An option is stored exactly if its answer is zero, and a duplicate
starts with the table of the handle that it duplicates.

None of these functions fails, and none looks at a wrapper or at the machine. Whether a call gets
through to the engine at all is decided before, where the ways to the engine are told apart, and a
handle that is not live is no error here either: the engine then has no table to change. What one
call changes of the engine is thus said once, and laws about runs quote it.
-/

namespace NativeTransfer

/-- What comes of one call. -/
structure Answered (α : Type) where
  result : α
  engine : Engine
  call : NativeCall

namespace Engine

variable (p : Policy) (e : Engine)

/-! ## The engine as a whole -/

def answerVersion : Answered (Option Bytes) := ⟨p.version, e, .version⟩

def answerGlobalInit (flags : Int64) : Answered Int32 :=
  let code := p.code e .globalInit
  ⟨code, e, .globalInit flags code⟩

def answerGlobalCleanup : Answered Unit := ⟨(), e, .globalCleanup⟩

def answerStrerror (code : Int32) : Answered (Option Bytes) := ⟨p.strerror code, e, .strerror code⟩

/-! ## Handles -/

/-- The engine with a handle that has a table. -/
def addHandle (h : Nat) (s : Settings) : Engine :=
  { e with handles := Pairs.put h s e.handles, created := e.created + 1 }

@[simp] theorem settings?_addHandle (h g : Nat) (s : Settings) :
    (e.addHandle h s).settings? g = if g = h then some s else e.settings? g :=
  Pairs.lookup_put h g s e.handles

def answerInit : Answered (Option Nat) :=
  match p.newHandle e with
  | none => ⟨none, e, .init none⟩
  | some h => ⟨some h, e.addHandle h [], .init (some h)⟩

def answerDuphandle (h : Nat) : Answered (Option Nat) :=
  match p.newHandle e with
  | none => ⟨none, e, .duphandle h none⟩
  | some d => ⟨some d, e.addHandle d ((e.settings? h).getD []), .duphandle h (some d)⟩

def answerCleanup (h : Nat) : Answered Unit :=
  ⟨(), { e with handles := Pairs.without h e.handles }, .cleanup h⟩

def answerReset (h : Nat) : Answered Unit := ⟨(), e.modifySettings h fun _ ↦ [], .reset h⟩

def answerPerform (h : Nat) : Answered Unit := ⟨(), e, .perform h⟩

def answerPause (h : Nat) (mask : Int32) : Answered Int32 :=
  let code := p.code e .pause
  ⟨code, e, .pause h mask code⟩

def answerImpersonate (h : Nat) (target : String) (defaultHeaders : Bool) : Answered Int32 :=
  let code := p.code e .impersonate
  ⟨code, e, .impersonate h target defaultHeaders code⟩

/-! ## Options and infos -/

def answerSetopt (m : Method) (h : Nat) (o : OptionCode) (a : Argument) : Answered Int32 :=
  let code := p.verdict e h o a
  ⟨code, if code = 0 then e.modifySettings h (·.put o a) else e, .setopt m h o a code⟩

/-- An info is put out only on success. -/
def answerInfo (m : Method) (h : Nat) (i : InfoCode) : Answered (Int32 × Option InfoReply) :=
  let (code, reply) := p.info e h i
  ⟨(code, if code = 0 then reply else none), e, .getinfo m h i code⟩

/-- A list is made for the caller; an empty one is a null pointer. -/
def answerListInfo (h : Nat) (i : InfoCode) : Answered (Int32 × Option Nat) :=
  let (code, reply) := p.info e h i
  let call := NativeCall.getinfo .getList h i code
  match code, reply with
  | 0, some (.list (n :: nodes)) =>
    let (e, l) := e.newList (n :: nodes)
    ⟨(code, some l), e, call⟩
  | _, _ => ⟨(code, none), e, call⟩

/-! ## Octets and texts -/

def answerSend (h : Nat) (b : Bytes) : Answered (Int32 × UInt64) :=
  let (code, sent) := p.send e b
  ⟨(code, sent), e, .send h b code⟩

/-- The octets go into the buffer even if the call fails. -/
def answerRecv (h : Nat) (capacity : Nat) : Answered (Int32 × Bytes × UInt64) :=
  let (code, bytes, received) := p.recv e capacity
  ⟨(code, bytes, received), e, .recv h capacity code⟩

def answerEscape (h : Nat) (input : Bytes) : Answered (Option (Address × Bytes)) :=
  match p.escape e input with
  | none => ⟨none, e, .escape h input⟩
  | some b =>
    let (e, a) := e.newReply
    ⟨some (a, b), e, .escape h input⟩

def answerUnescape (h : Nat) (input : Bytes) : Answered (Option (Address × Bytes × Int32)) :=
  match p.unescape e input with
  | none => ⟨none, e, .unescape h input⟩
  | some b =>
    let (e, a) := e.newReply
    ⟨some (a, b), e, .unescape h input⟩

/-- Only a string that is out can be taken back. -/
def answerFree (a : Address) : Answered Unit :=
  match a with
  | .reply n => ⟨(), { e with replies := e.replies.filter (· ≠ n) }, .free (e.replies.contains n)⟩
  | _ => ⟨(), e, .free false⟩

/-! ## String lists -/

def answerAppend (list : Option Nat) (item : String) : Answered (Option Nat) :=
  let counted := { e with appends := e.appends + 1 }
  if p.refusesItem e then ⟨none, counted, .append list item none⟩
  else
    match list with
    | none =>
      let (e, n) := counted.newList [some (Text.utf8 item)]
      ⟨some n, e, .append none item (some n)⟩
    | some n =>
      ⟨some n, counted.modifyList n fun l ↦ { l with items := l.items ++ [some (Text.utf8 item)] },
        .append (some n) item (some n)⟩

def answerListFree (n : Nat) : Answered Unit :=
  ⟨(), e.modifyList n fun l ↦ { l with freed := true }, .freeList n (e.items n).length⟩

end Engine

end NativeTransfer

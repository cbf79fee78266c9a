import NativeTransfer.Engine.Policy
import NativeTransfer.Text.Utf8

/-!
# Scripted engines

An engine whose decisions are written down in advance, a few for every step of a session. What is
not written down is what an engine does that accepts everything.
-/

namespace NativeTransfer.Script

/-- What an engine puts out, as far as it is written down. A null pointer is written down too. -/
structure EngineReply where
  string : Option (Option Bytes) := none
  long : Option Int64 := none
  double : Option UInt64 := none
  offset : Option Int64 := none
  list : Option (List (Option Bytes)) := none
  octets : Option Bytes := none
  length : Option Int32 := none
  count : Option UInt64 := none

/-- What goes into an answer to an info. -/
def EngineReply.ofInfo (r : EngineReply) (i : InfoCode) : Option InfoReply :=
  match i.infoClass with
  | .string => r.string.map .string
  | .long => r.long.map .long
  | .double => r.double.map .double
  | .offset => r.offset.map .offset
  | .list => r.list.map .list
  | _ => none

/-- What is written down for one step. -/
structure Controls where
  /-- Options that are refused, with the code. -/
  refused : List (OptionCode × Int32) := []
  /-- Which of the items of this step is refused, the first being zero. -/
  refusedItem : Option Nat := none
  code : Option Int32 := none
  /-- Whether handles and strings are null pointers. -/
  null : Bool := false
  /-- The methods that are out of reach. -/
  unreachable : List Method := []
  transfer : List TransferStep := []
  reply : EngineReply := {}

/-- What is written down for all steps. -/
structure EngineTexts where
  /-- The texts of codes. -/
  errors : List (Int32 × Option Bytes) := []
  version : Option Bytes := none

/-- The text of a code. -/
def EngineTexts.error (t : EngineTexts) (code : Int32) : Option Bytes :=
  match t.errors.lookup code with
  | some text => text
  | none => some (Text.utf8 ("engine error " ++ toString code.toInt))

/-- The answer to an info: a code that is written down, success if there is something to put out,
and otherwise that the info is not known. -/
def Controls.info (c : Controls) (i : InfoCode) : Int32 × Option InfoReply :=
  let reply := c.reply.ofInfo i
  (c.code.getD (if reply.isSome then 0 else 48), reply)

/-- The decisions of an engine for one step, which starts in a state of the engine. -/
def Controls.policy (c : Controls) (t : EngineTexts) (start : Engine) : Policy where
  unreachable _ m := c.unreachable.contains m
  newHandle e := if c.null then none else some e.created
  verdict _ _ o _ := ((c.refused.find? (·.1 = o)).map (·.2)).getD 0
  refusesItem e := c.refusedItem = some (e.appends - start.appends)
  code _ _ := c.code.getD 0
  transfer _ _ := c.transfer
  info _ _ i := c.info i
  escape _ b := if c.null then none else some (c.reply.octets.getD b)
  unescape _ b :=
    let b := c.reply.octets.getD b
    if c.null then none else some (b, c.reply.length.getD (Int32.ofNat b.length))
  send _ b := (c.code.getD 0, c.reply.count.getD (UInt64.ofNat b.length))
  recv _ capacity :=
    let b := (c.reply.octets.getD []).take capacity
    (c.code.getD 0, b, c.reply.count.getD (UInt64.ofNat b.length))
  strerror := t.error
  version := t.version

end NativeTransfer.Script

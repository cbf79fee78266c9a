import NativeTransfer.Callback.Slot

/-!
# Scripted callers

Callbacks, sinks and sources that follow a script and note every call with the step that they take.
Callbacks for chunks and counters repeat the last step of their script; all others take each step
once and do nothing in particular after that.
-/

namespace NativeTransfer.Script

/-- The step to take, and the steps left after it, where every step is taken once. -/
def takeOnce {σ : Type} : List (Option σ) → Option σ × List (Option σ)
  | [] => (none, [])
  | s :: rest => (s, rest)

/-- The same where the last step is repeated. -/
def takeRepeating {σ : Type} : List (Option σ) → Option σ × List (Option σ)
  | [] => (none, [])
  | [s] => (s, [s])
  | s :: rest => (s, rest)

/-! ## Sinks and sources -/

/-- What becomes of an offer to a scripted sink. An interruption takes a step, and the same octets
are offered to the next one. -/
def receive (chunk : Bytes) (steps : List (Option SinkStep)) :
    List (Option SinkStep) × Reception :=
  match steps with
  | [] => ([], .settled [.offered chunk none] (.took chunk.length))
  | s :: rest =>
    let note := Note.offered chunk s
    match s with
    | none => (rest, .settled [note] (.took chunk.length))
    | some (.take n) => (rest, .settled [note] (.took (min n chunk.length)))
    | some .error => (rest, .settled [note] .failed)
    | some (.panic p) => (rest, .settled [note] (.panicked p.message))
    | some .interrupted =>
      let (left, r) := receive chunk rest
      (left, .interrupted [note] r)

/-- The sink that follows a script. -/
def sink (steps : List (Option SinkStep)) : Sink :=
  .ofMachine (fun left chunk ↦ (receive chunk left).1) (fun left chunk ↦ (receive chunk left).2)
    steps

/-- What a scripted source has left over, and the steps that it has left. -/
structure SourceState where
  pending : Bytes
  steps : List (Option SourceStep)

/-- What a scripted source answers. It takes a step only when nothing is left over. -/
def supply (st : SourceState) (capacity : Nat) : SourceState × Supply :=
  match st.pending with
  | _ :: _ => deliver st (.askedAgain capacity)
  | [] =>
    let (s, rest) := takeOnce st.steps
    let note := Note.asked capacity s
    match s with
    | none => (⟨[], rest⟩, .gave [note] [] 0)
    | some (.data b) => deliver ⟨b, rest⟩ note
    | some (.lie n) => (⟨[], rest⟩, .gave [note] [] (UInt64.ofInt n))
    | some .interrupted => (⟨[], rest⟩, .failed [note])
    | some .error => (⟨[], rest⟩, .failed [note])
    | some (.panic p) => (⟨[], rest⟩, .panicked [note] p.message)
where
  deliver (st : SourceState) (note : Note) : SourceState × Supply :=
    let bytes := st.pending.take capacity
    ({ st with pending := st.pending.drop capacity },
      .gave [note] bytes (UInt64.ofNat bytes.length))

/-- The source that follows a script. -/
def source (steps : List (Option SourceStep)) : Source :=
  .ofMachine (fun st capacity ↦ (supply st capacity).1) (fun st capacity ↦ (supply st capacity).2)
    ⟨[], steps⟩

/-! ## Callbacks -/

/-- What a step makes of a chunk. -/
def chunkReply (kind : CallbackKind) (step : Option WriteStep) (chunk : Bytes)
    (data : UserData) : Reply Bool :=
  let note := Note.chunk kind chunk data.shape step
  match step, data with
  | none, _ => ⟨.done true, data, [note]⟩
  | some .accept, _ => ⟨.done true, data, [note]⟩
  | some .count, .value (.number n) =>
    ⟨.done true, .value (.number (n + UInt64.ofNat chunk.length)), [note]⟩
  | some .append, .value (.text s) => ⟨.done true, .value (.text (s ++ chunk.hex)), [note]⟩
  | some .write, .writer s =>
    let w := s.writeAll chunk
    ⟨w.outcome, .writer w.sink, note :: w.notes⟩
  | some (.panic p), _ => ⟨.panicked p.message, data, [note]⟩
  | some _, _ => ⟨.done false, data, [note]⟩

/-- What a step makes of a request for octets. -/
def roomReply (step : Option ReadStep) (buffer : Bytes) (data : UserData) :
    Reply ReadAnswer :=
  let note := Note.room buffer.length data.shape step
  match step, data with
  | none, _ => ⟨.done ⟨[], 0⟩, data, [note]⟩
  | some (.fill b report), _ =>
    let count := Int64.ofNat (min b.length buffer.length)
    ⟨.done ⟨b, report.getD count⟩, data, [note]⟩
  | some (.report n), _ => ⟨.done ⟨[], n⟩, data, [note]⟩
  | some .count, .value (.number n) =>
    ⟨.done ⟨[(n + 1).toUInt8], 1⟩, .value (.number (n + 1)), [note]⟩
  | some .read, .reader s =>
    let data := UserData.reader (s.after buffer.length)
    match s.next buffer.length with
    | .gave notes bytes n => ⟨.done ⟨bytes, n.toInt64⟩, data, note :: notes⟩
    | .failed notes => ⟨.done ⟨[], -2⟩, data, note :: notes⟩
    | .panicked notes m => ⟨.panicked m, data, note :: notes⟩
  | some (.panic p), _ => ⟨.panicked p.message, data, [note]⟩
  | some _, _ => ⟨.done ⟨[], -1⟩, data, [note]⟩

/-- What a step makes of the counters. -/
def progressReply (step : Option ProgressStep) (counters : Progress) (data : UserData) :
    Reply Bool :=
  let note := Note.progress counters data.shape step
  match step, data with
  | none, _ => ⟨.done true, data, [note]⟩
  | some .proceed, _ => ⟨.done true, data, [note]⟩
  | some (.below n), _ => ⟨.done (counters.downloaded < n), data, [note]⟩
  | some .count, .value (.number n) => ⟨.done true, .value (.number (n + 1)), [note]⟩
  | some (.panic p), _ => ⟨.panicked p.message, data, [note]⟩
  | some _, _ => ⟨.done false, data, [note]⟩

/-- The callback for chunks that follows a script. -/
def writeCallback (kind : CallbackKind) (steps : List (Option WriteStep)) : WriteCallback :=
  .custom <| .ofMachine (fun left _ ↦ (takeRepeating left).2)
    (fun left (chunk, data) ↦ chunkReply kind (takeRepeating left).1 chunk data) steps

/-- The callback for uploads that follows a script. -/
def readCallback (steps : List (Option ReadStep)) : ReadCallback :=
  .custom <| .ofMachine (fun left _ ↦ (takeOnce left).2)
    (fun left (buffer, data) ↦ roomReply (takeOnce left).1 buffer data) steps

/-- The callback for counters that follows a script. -/
def progressCallback (steps : List (Option ProgressStep)) : ProgressCallback :=
  ⟨.ofMachine (fun left _ ↦ (takeRepeating left).2)
    (fun left (counters, data) ↦ progressReply (takeRepeating left).1 counters data) steps⟩

end NativeTransfer.Script

import Synctick.Protocol.RoundTrip
import Synctick.Replay.Writer

/-! # Reading a session input log

The reader takes its bytes from a buffered source, which hands them out in
buffers of any size. The end of the log is told apart from a torn record by an
empty buffer in front of a record. A header and records that were written are
read back however the source splits them (`Synctick.reads_header`,
`Synctick.ReplayReader.nextRecord_record`).
-/

namespace Synctick

open Bincode Effect

/-- The bytes of a source, in the buffers it will hand out. -/
structure Source where
  buffers : List Bytes
  deriving DecidableEq, Repr

namespace Source

/-- All bytes still to be read. -/
def bytes (source : Source) : Bytes := source.buffers.flatten

/-- The next bytes without consuming them; empty only at the end. -/
def fillBuf (source : Source) : Bytes :=
  (source.buffers.find? fun buffer => !buffer.isEmpty).getD []

/-- Consume `count` bytes buffer by buffer, or everything when fewer are left. -/
def consume : Nat → List Bytes → Option Bytes × List Bytes
  | 0, buffers => (some [], buffers)
  | _ + 1, [] => (none, [])
  | count + 1, buffer :: buffers =>
      if count + 1 ≤ buffer.length then
        (some (buffer.take (count + 1)), buffer.drop (count + 1) :: buffers)
      else
        let (bytes, rest) := consume (count + 1 - buffer.length) buffers
        (bytes.map (buffer ++ ·), rest)

/-- Read exactly `count` bytes, or fail at the end of the source. -/
def read (short : IoError) (count : Nat) : Effect IoError Source Bytes := do
  let source ← get
  let (bytes, rest) := consume count source.buffers
  set { buffers := rest : Source }
  match bytes with
  | some bytes => pure bytes
  | none => throw short

/-- `read_exact` of the standard library. -/
def readExact (count : Nat) : Effect IoError Source Bytes :=
  read ⟨.unexpectedEof, "failed to fill whole buffer"⟩ count

/-- The buffers that a buffered reader of the given capacity fills from `data`. -/
def fills (capacity : Nat) : Nat → Bytes → List Bytes
  | 0, _ => []
  | count + 1, data => data.take capacity :: fills capacity count (data.drop capacity)

/-- The buffers of a file are its bytes. -/
theorem flatten_fills (capacity count : Nat) (data : Bytes) :
    (fills capacity count data).flatten = data.take (count * capacity) := by
  induction count generalizing data with
  | zero => rw [Nat.zero_mul, List.take_zero, fills, List.flatten_nil]
  | succ count ih =>
      rw [fills, List.flatten_cons, ih, Nat.succ_mul, Nat.add_comm (count * capacity), List.take_add]

/-- Bytes that are there are taken from the front, across buffers. -/
theorem consume_of_le (count : Nat) (buffers : List Bytes) (enough : count ≤ buffers.flatten.length) :
    ∃ rest, consume count buffers = (some (buffers.flatten.take count), rest) ∧
      rest.flatten = buffers.flatten.drop count := by
  induction buffers generalizing count with
  | nil =>
      have none : count = 0 := by simpa using enough
      subst none
      exact ⟨[], rfl, rfl⟩
  | cons buffer buffers ih =>
      cases count with
      | zero => exact ⟨buffer :: buffers, rfl, rfl⟩
      | succ count =>
          by_cases inside : count + 1 ≤ buffer.length
          · refine ⟨buffer.drop (count + 1) :: buffers, ?_, ?_⟩
            · simp only [consume, inside, ↓reduceIte, List.flatten_cons]
              rw [List.take_append_of_le_length inside]
            · rw [List.flatten_cons, List.flatten_cons, List.drop_append_of_le_length inside]
          · have beyond : buffer.length ≤ count + 1 := by omega
            rw [List.flatten_cons, List.length_append] at enough
            obtain ⟨rest, taken, left⟩ := ih (count + 1 - buffer.length) (by omega)
            refine ⟨rest, ?_, ?_⟩
            · simp only [consume, inside, ↓reduceIte, taken, Option.map_some, List.flatten_cons]
              rw [List.take_append, List.take_of_length_le beyond]
            · rw [left, List.flatten_cons, List.drop_append, List.drop_of_length_le beyond,
                List.nil_append]

/-- Where fewer are there, none is left. -/
theorem consume_of_lt (count : Nat) (buffers : List Bytes) (short : buffers.flatten.length < count) :
    ∃ rest, consume count buffers = (none, rest) ∧ rest.flatten = [] := by
  induction buffers generalizing count with
  | nil =>
      cases count with
      | zero => cases short
      | succ count => exact ⟨[], rfl, rfl⟩
  | cons buffer buffers ih =>
      rw [List.flatten_cons, List.length_append] at short
      cases count with
      | zero => cases short
      | succ count =>
          have outside : ¬ count + 1 ≤ buffer.length := by omega
          obtain ⟨rest, missing, left⟩ := ih (count + 1 - buffer.length) (by omega)
          refine ⟨rest, ?_, left⟩
          simp only [consume, outside, ↓reduceIte, missing, Option.map_none]

/-- A read that is satisfied takes the next bytes, however they are buffered. -/
theorem read_of_le (short : IoError) (count : Nat) (source : Source)
    (enough : count ≤ source.bytes.length) :
    ∃ next, read short count source = .ok (source.bytes.take count) next ∧
      next.bytes = source.bytes.drop count := by
  obtain ⟨rest, taken, left⟩ := consume_of_le count source.buffers enough
  refine ⟨⟨rest⟩, eq_ok_of_ensures ?_, left⟩
  unfold read
  simp [taken, bytes]

/-- A read that is not satisfied uses the source up. -/
theorem read_of_lt (short : IoError) (count : Nat) (source : Source)
    (missing : source.bytes.length < count) :
    Ensures (read short count) source (fun _ _ => False)
      (fun error next => error = short ∧ next.bytes = []) := by
  obtain ⟨rest, missed, left⟩ := consume_of_lt count source.buffers missing
  simp only [read, ensures_bind, ensures_get, ensures_set, missed]
  exact ⟨rfl, left⟩

/-- A read takes exactly so many bytes, or fails at the end. -/
theorem ensures_read (short : IoError) (count : Nat) (source : Source) :
    Ensures (read short count) source
      (fun bytes next => bytes.length = count ∧ source.bytes = bytes ++ next.bytes)
      (fun error next => error = short ∧ next.bytes = []) := by
  by_cases enough : count ≤ source.bytes.length
  · obtain ⟨next, taken, left⟩ := read_of_le short count source enough
    simp only [Ensures, taken, left, List.length_take, List.take_append_drop, and_true]
    omega
  · exact (read_of_lt short count source (by omega)).mono (fun _ _ impossible => impossible.elim)
      fun _ _ stopped => stopped

/-- The buffer is empty at the end only. -/
theorem fillBuf_eq_nil_iff (source : Source) : source.fillBuf = [] ↔ source.bytes = [] := by
  unfold fillBuf bytes
  induction source.buffers with
  | nil => simp
  | cons buffer buffers ih =>
      cases buffer with
      | nil => simpa using ih
      | cons byte buffer => simp

end Source

/-- A buffered reader over a file or over bytes in memory, with its buffer of 8192 bytes. -/
def bufReader (data : Bytes) : Source := ⟨Source.fills 8192 ((data.length + 8191) / 8192) data⟩

/-- A buffered file has its bytes. -/
@[simp] theorem bytes_bufReader (data : Bytes) : (bufReader data).bytes = data := by
  have enough : data.length ≤ (data.length + 8191) / 8192 * 8192 := by omega
  rw [bufReader, Source.bytes, Source.flatten_fills, List.take_of_length_le enough]

/-- Decoding from a buffered source. -/
instance : ByteSource IoError Source where
  view := Source.bytes
  take := Source.read ⟨.invalidData, DecodeError.unexpectedEnd.display⟩
  malformed error := ⟨.invalidData, error.display⟩
  take_ok source count enough := Source.read_of_le _ count source enough
  take_short source count short := by
    have stops := Source.read_of_lt ⟨.invalidData, DecodeError.unexpectedEnd.display⟩ count source
      short
    cases exit : Source.read ⟨.invalidData, DecodeError.unexpectedEnd.display⟩ count source with
    | ok bytes next => exact (ensures_of_ok stops exit).elim
    | error error next => exact ⟨error, next, rfl⟩

/-- Read consecutive parts of a byte string. -/
def readParts : List Nat → Effect IoError Source Bytes
  | [] => pure []
  | count :: counts => do
      let part ← Source.readExact count
      let rest ← readParts counts
      pure (part ++ rest)

/-- Read and validate a header, field by field. -/
def readHeader : Effect IoError Source ReplayHeader := do
  let magic ← readArray 4
  if magic ≠ Synctick.magic then
    throw ⟨.invalidData, "unsupported save magic; this reader requires a framework-v1 session"⟩
  let protocolId ← readU64
  let formatVersion ← readU32
  let gameId ← readArray 16
  let gameVersion ← readU32
  let tickNanos ← readU64
  let length ← readU64
  if length.toNat > Codec.maxPayloadBytes then
    throw ⟨.invalidData, "initialization too large"⟩
  -- The initialization is read through a buffer of 4096 bytes.
  let initialization ← readParts
    (List.replicate (length.toNat / 4096) 4096 ++ [length.toNat % 4096])
  let header : ReplayHeader :=
    { magic, protocolId, formatVersion, gameId, gameVersion, tickNanos, initialization }
  -- The magic was checked when it was read; the complete header is checked again.
  if header.magic ≠ Synctick.magic then
    throw ⟨.invalidData, s!"replay log magic mismatch: got {header.magic.toList}, " ++
      s!"expected {Synctick.magic.toList}"⟩
  if header.protocolId ≠ Synctick.protocolId then
    throw ⟨.invalidData, "replay log PROTOCOL_ID mismatch: got " ++
      s!"{hexadecimal header.protocolId}, this build is {hexadecimal Synctick.protocolId}"⟩
  if header.formatVersion ≠ Synctick.formatVersion then
    throw ⟨.invalidData, "replay log format_version mismatch: got " ++
      s!"{header.formatVersion}, this build is {Synctick.formatVersion}"⟩
  match validateTickDuration header.tickNanos with
  | .ok () => pure header
  | .error error => throw ⟨.invalidData, error.display⟩

structure ReplayReader where
  source : Source
  header : ReplayHeader
  deriving DecidableEq

namespace ReplayReader

/-- Open a log: parse and validate its header. -/
def fromReader (source : Source) : Except IoError ReplayReader :=
  match readHeader source with
  | .ok header source => .ok { source, header }
  | .error error _ => .error error

/-- The next record, or `none` at the clean end of the log. -/
def nextRecord : Effect IoError ReplayReader (Option TickAdvance) := do
  let reader ← get
  if reader.source.fillBuf.isEmpty then pure none
  else do
    let lengthBytes ← onSource (Source.read ⟨.invalidData, "truncated replay record length"⟩ 4)
    let length := ofLittleEndian lengthBytes
    if length > maxReplayRecordBytes then
      throw ⟨.invalidData, "replay record exceeds lockstep budget"⟩
    let payload ← onSource (Source.read ⟨.invalidData, "truncated replay record"⟩ length)
    match decodeTickAdvance payload with
    | .ok advance => pure (some advance)
    | .error error =>
        throw ⟨.invalidData, s!"bincode decode of TickAdvance: {error.display}"⟩
where
  onSource {α : Type} (program : Effect IoError Source α) : Effect IoError ReplayReader α :=
    program.zoom ReplayReader.source fun reader source => { reader with source }

end ReplayReader

/-- A header that this build reads. -/
structure ReplayHeader.Valid (header : ReplayHeader) : Prop where
  magic : header.magic = Synctick.magic
  protocolId : header.protocolId = Synctick.protocolId
  formatVersion : header.formatVersion = Synctick.formatVersion
  tickNanos : validateTickDuration header.tickNanos = .ok ()
  initialization : header.initialization.length ≤ Codec.maxPayloadBytes

/-- Bytes that were written are read back. -/
theorem reads_sourceRead (short : IoError) (bytes : Bytes) :
    Reads Source.bytes (Source.read short bytes.length) bytes bytes := by
  intro source rest input
  have enough : bytes.length ≤ source.bytes.length := by
    rw [input, List.length_append]
    exact Nat.le_add_right _ _
  obtain ⟨next, returned, left⟩ := Source.read_of_le short bytes.length source enough
  rw [input] at returned left
  rw [List.take_left] at returned
  rw [List.drop_left] at left
  exact ⟨next, returned, left⟩

/-- Bytes read in parts are the bytes. -/
theorem reads_readParts (counts : List Nat) (bytes : Bytes) (whole : bytes.length = counts.sum) :
    Reads ByteSource.view (readParts counts) bytes bytes := by
  induction counts generalizing bytes with
  | nil =>
      have empty : bytes = [] := List.eq_nil_of_length_eq_zero whole
      subst empty
      exact Reads.pure []
  | cons count counts ih =>
      rw [List.sum_cons] at whole
      have front := reads_sourceRead ⟨.unexpectedEof, "failed to fill whole buffer"⟩
        (bytes.take count)
      rw [List.length_take, Nat.min_eq_left (by omega)] at front
      have back := ih (bytes.drop count) (by
        rw [List.length_drop]
        omega)
      have joined : Reads ByteSource.view (readParts (count :: counts))
          (bytes.take count ++ bytes.drop count) (bytes.take count ++ bytes.drop count) :=
        front.bind (back.last _)
      rwa [List.take_append_drop] at joined

/-- A valid header is read back from its encoding. -/
theorem reads_header (header : ReplayHeader) (valid : header.Valid) :
    Reads ByteSource.view readHeader (encode header) header := by
  have size : (UInt64.ofNat header.initialization.length).toNat = header.initialization.length :=
    UInt64.toNat_ofNat_of_lt' (by
      have small := valid.initialization
      unfold Codec.maxPayloadBytes at small
      change _ < 2 ^ 64
      omega)
  refine (reads_array header.magic).bind ?_
  simp only [valid.magic, ne_eq, not_true_eq_false, ↓reduceIte]
  refine (reads_u64 header.protocolId).bind ((reads_u32 header.formatVersion).bind
    ((reads_array header.gameId).bind ((reads_u32 header.gameVersion).bind
      ((reads_u64 header.tickNanos).bind ?_))))
  have length := reads_u64 (τ := Source) (UInt64.ofNat header.initialization.length)
  rw [size] at length
  refine length.bind ?_
  rw [size]
  simp only [gt_iff_lt, Nat.not_lt.mpr valid.initialization, ↓reduceIte]
  rw [← List.append_nil header.initialization]
  refine (reads_readParts _ header.initialization ?_).bind ?_
  · rw [List.append_nil, List.sum_append, List.sum_replicate, List.sum_singleton, nsmul_eq_mul,
      Nat.cast_id, Nat.mul_comm]
    exact (Nat.div_add_mod _ _).symm
  · simp only [valid.protocolId, valid.formatVersion, not_true_eq_false, ↓reduceIte,
      valid.tickNanos]
    obtain ⟨magic, protocolId, formatVersion⟩ := header
    cases valid.magic
    cases valid.protocolId
    cases valid.formatVersion
    exact Reads.pure _

namespace ReplayReader

/-- Opening a log whose header is valid leaves its records to be read. -/
theorem fromReader_header {header : ReplayHeader} (valid : header.Valid) {source : Source}
    {rest : Bytes} (log : source.bytes = encode header ++ rest) :
    ∃ reader, fromReader source = .ok reader ∧ reader.header = header ∧
      reader.source.bytes = rest := by
  obtain ⟨next, returned, left⟩ := reads_header header valid source rest log
  refine ⟨{ source := next, header }, ?_, rfl, left⟩
  unfold fromReader
  rw [returned]

/-- Everything that reading a record can do. -/
theorem ensures_nextRecord (reader : ReplayReader) :
    Ensures nextRecord reader
      (fun result next => next.header = reader.header ∧
        match result with
        | none => next = reader ∧ reader.source.bytes = []
        | some advance => ∃ length payload, length.length = 4 ∧
            ofLittleEndian length = payload.length ∧ payload.length ≤ maxReplayRecordBytes ∧
            reader.source.bytes = length ++ (payload ++ next.source.bytes) ∧
            decodeTickAdvance payload = .ok advance)
      (fun _ next => next.header = reader.header ∧ reader.source.bytes ≠ []) := by
  unfold nextRecord
  rw [ensures_bind, ensures_get, ensures_ite]
  constructor
  · intro empty
    exact ⟨rfl, rfl, (Source.fillBuf_eq_nil_iff _).mp (List.isEmpty_iff.mp empty)⟩
  · intro buffered
    have some : reader.source.bytes ≠ [] := by
      intro finished
      exact buffered (List.isEmpty_iff.mpr ((Source.fillBuf_eq_nil_iff _).mpr finished))
    rw [ensures_bind, nextRecord.onSource, ensures_zoom]
    refine (Source.ensures_read _ _ reader.source).mono ?_ fun _ _ _ => ⟨rfl, some⟩
    rintro length middle ⟨width, front⟩
    by_cases excess : ofLittleEndian length > maxReplayRecordBytes
    · simp only [excess, ↓reduceIte, ensures_bind, ensures_throw]
      exact ⟨trivial, some⟩
    simp only [excess, ↓reduceIte, ensures_bind, nextRecord.onSource, ensures_zoom]
    refine (Source.ensures_read _ _ middle).mono ?_ fun _ _ _ => ⟨trivial, some⟩
    rintro payload next ⟨size, back⟩
    cases decoded : decodeTickAdvance payload with
    | ok advance =>
        refine ⟨rfl, length, payload, width, size.symm, by omega, ?_, decoded⟩
        rw [front, back]
    | error error => exact ⟨rfl, some⟩

/-- The clean end of a log. -/
theorem nextRecord_end (reader : ReplayReader) (finished : reader.source.bytes = []) :
    nextRecord reader = .ok none reader := by
  have empty := (Source.fillBuf_eq_nil_iff reader.source).mpr finished
  refine eq_ok_of_ensures ?_
  simp [nextRecord, empty]

/-- What is read from a source is read from a recording. -/
theorem reads_source {code : Bytes} {α : Type} {program : Effect IoError Source α} {value : α}
    (reads : Reads Source.bytes program code value) :
    Reads (fun reader => reader.source.bytes) (nextRecord.onSource program) code value := by
  intro reader rest input
  obtain ⟨next, returned, left⟩ := reads reader.source rest input
  refine ⟨{ reader with source := next }, ?_, left⟩
  simp only [nextRecord.onSource, zoom, returned]

/-- A record at the front of a log is the next one. -/
theorem reads_record {advance : TickAdvance} (bounded : advance.Bounded)
    (within : (encode advance).length ≤ maxReplayRecordBytes) :
    Reads (fun reader => reader.source.bytes) nextRecord (record advance) (some advance) := by
  have small : (encode advance).length < 256 ^ 4 := by
    unfold maxReplayRecordBytes at within
    omega
  have size := ofLittleEndian_littleEndian_of_lt small
  have front := reads_source (reads_sourceRead
    ⟨.invalidData, "truncated replay record length"⟩ (littleEndian 4 (encode advance).length))
  have back := reads_source (reads_sourceRead
    ⟨.invalidData, "truncated replay record"⟩ (encode advance))
  rw [length_littleEndian] at front
  refine reads_of_ensures fun reader rest input => ?_
  change reader.source.bytes = _ at input
  rw [record, List.append_assoc] at input
  have buffered : reader.source.fillBuf.isEmpty ≠ true := by
    intro empty
    have finished := (Source.fillBuf_eq_nil_iff _).mp (List.isEmpty_iff.mp empty)
    rw [finished] at input
    have none := congrArg List.length input
    rw [List.length_append, length_littleEndian, List.length_nil] at none
    omega
  simp only [nextRecord, ensures_bind, ensures_get, buffered, Bool.false_eq_true,
    ↓reduceIte]
  refine (front.ensures input).mono ?_ fun _ _ impossible => impossible
  rintro _ middle ⟨rfl, rest⟩
  simp only [size, gt_iff_lt, Nat.not_lt.mpr within, ↓reduceIte, ensures_bind]
  refine (back.ensures rest).mono ?_ fun _ _ impossible => impossible
  rintro _ next ⟨rfl, left⟩
  simp only [decodeTickAdvance_encode advance bounded within]
  exact ⟨rfl, left⟩

end ReplayReader

end Synctick

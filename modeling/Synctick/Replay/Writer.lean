import Synctick.Protocol
import Mathlib.Data.Vector.Basic

/-! # Recording a session input log

A log is a header followed by one length-prefixed record for each tick. The
writer is buffered and append-only.
-/

namespace Synctick

open Bincode

/-- The bytes `SESS`. -/
def magic : List.Vector UInt8 4 := ⟨[0x53, 0x45, 0x53, 0x53], rfl⟩

/-- Bumped on incompatible header changes. -/
def formatVersion : UInt32 := 1

structure ReplayHeader where
  magic : List.Vector UInt8 4
  protocolId : UInt64
  formatVersion : UInt32
  gameId : List.Vector UInt8 16
  gameVersion : UInt32
  tickNanos : UInt64
  initialization : Bytes
  deriving DecidableEq

def ReplayHeader.new (gameId : List.Vector UInt8 16) (gameVersion : UInt32) (tickNanos : UInt64)
    (initialization : Bytes) : ReplayHeader where
  magic := Synctick.magic
  protocolId := Synctick.protocolId
  formatVersion := Synctick.formatVersion
  gameId := gameId
  gameVersion := gameVersion
  tickNanos := tickNanos
  initialization := initialization

/-- Byte arrays are raw; the other fields follow the standard configuration. -/
instance : Serialize ReplayHeader :=
  ⟨fun header => header.magic.toList ++ (encode header.protocolId ++ (encode header.formatVersion ++
    (header.gameId.toList ++ (encode header.gameVersion ++ (encode header.tickNanos ++
      encodeBytes header.initialization)))))⟩

/-- A failure of the device under a writer: the error it reports, and how many
of the bytes handed to it were accepted. -/
structure WriteFault where
  error : IoError
  accepted : Nat
  deriving DecidableEq, Repr

/-- A recording. `written` is what the buffered writer accepted, in its buffer or in the file, and not
what is safe on the disk. `device` lists the outcomes of the coming device operations, in
order; once it is used up they all succeed. -/
structure ReplayWriter where
  written : Bytes
  device : List (Option WriteFault) := []
  deriving DecidableEq, Repr

namespace ReplayWriter

/-- Hand bytes to the buffered file. -/
def writeAll (bytes : Bytes) : Effect IoError ReplayWriter Unit := do
  let writer ← get
  match writer.device with
  | some fault :: later => do
      set { written := writer.written ++ bytes.take fault.accepted, device := later : ReplayWriter }
      throw fault.error
  | none :: later => set { written := writer.written ++ bytes, device := later : ReplayWriter }
  | [] => set { writer with written := writer.written ++ bytes }

/-- Create the file and write the header. Creation is exclusive: it fails when
the destination exists. -/
def create (header : ReplayHeader) (creation : Option IoError)
    (device : List (Option WriteFault)) : Except IoError ReplayWriter :=
  match creation with
  | some error => .error error
  | none =>
      match writeAll (encode header) { written := [], device } with
      | .ok _ writer => .ok writer
      | .error error _ => .error error

/-- Append one record, length-prefixed. -/
def append (advance : TickAdvance) : Effect IoError ReplayWriter Unit := do
  let payload := encode advance
  if payload.length > maxReplayRecordBytes then
    throw ⟨.invalidData, "replay record exceeds lockstep budget"⟩
  if payload.length ≥ 2 ^ 32 then
    throw ⟨.invalidData, "TickAdvance payload exceeds u32::MAX"⟩
  writeAll (littleEndian 4 payload.length)
  writeAll payload

/-- Flush buffered records. -/
def flush : Effect IoError ReplayWriter Unit := do
  let writer ← get
  match writer.device with
  | some fault :: later => do
      set { writer with device := later }
      throw fault.error
  | _ :: later => set { writer with device := later }
  | [] => pure ()

end ReplayWriter

/-- The record of one tick. -/
def record (advance : TickAdvance) : Bytes :=
  littleEndian 4 (encode advance).length ++ encode advance

/-- The records of successive ticks. -/
def records (advances : List TickAdvance) : Bytes := advances.flatMap record

@[simp] theorem records_nil : records [] = [] := rfl

@[simp] theorem records_append (first second : List TickAdvance) :
    records (first ++ second) = records first ++ records second := List.flatMap_append

@[simp] theorem records_singleton (advance : TickAdvance) :
    records [advance] = record advance := List.flatMap_singleton _ _

theorem length_record (advance : TickAdvance) :
    (record advance).length = 4 + (encode advance).length := by
  rw [record, List.length_append, length_littleEndian]

namespace ReplayWriter

open Effect

/-- No coming operation of the device fails. -/
def Healthy (writer : ReplayWriter) : Prop := ∀ outcome ∈ writer.device, outcome = none

theorem ensures_writeAll (bytes : Bytes) (writer : ReplayWriter) :
    Ensures (writeAll bytes) writer
      (fun _ next => next.written = writer.written ++ bytes ∧ (writer.Healthy → next.Healthy))
      (fun _ next => (∃ torn, torn <+: bytes ∧ next.written = writer.written ++ torn) ∧
        ¬ writer.Healthy) := by
  rcases writer with ⟨written, device⟩
  rcases device with _ | ⟨_ | fault, later⟩
  · exact ⟨rfl, id⟩
  · refine ⟨rfl, ?_⟩
    intro healthy outcome member
    exact healthy outcome (List.mem_cons_of_mem _ member)
  · refine ⟨⟨bytes.take fault.accepted, List.take_prefix _ _, rfl⟩, ?_⟩
    intro healthy
    cases healthy (some fault) List.mem_cons_self

/-- A record that does not fit its budget is refused before anything is written,
and one that fits is written in full unless the device fails. -/
theorem ensures_append (advance : TickAdvance) (writer : ReplayWriter) :
    Ensures (append advance) writer
      (fun _ next => (encode advance).length ≤ maxReplayRecordBytes ∧
        next.written = writer.written ++ record advance ∧ (writer.Healthy → next.Healthy))
      (fun _ next => (∃ torn, torn <+: record advance ∧ next.written = writer.written ++ torn) ∧
        (writer.Healthy → maxReplayRecordBytes < (encode advance).length ∧ next = writer)) := by
  unfold append
  by_cases within : (encode advance).length ≤ maxReplayRecordBytes
  · have small : ¬ (encode advance).length ≥ 2 ^ 32 := by
      unfold maxReplayRecordBytes at within
      omega
    simp only [gt_iff_lt, Nat.not_lt.mpr within, ↓reduceIte, small, ensures_bind]
    refine (ensures_writeAll _ writer).mono ?_ ?_
    · rintro _ middle ⟨prefixed, kept⟩
      refine (ensures_writeAll _ middle).mono ?_ ?_
      · rintro _ next ⟨whole, keptAgain⟩
        refine ⟨within, ?_, fun healthy => keptAgain (kept healthy)⟩
        rw [whole, prefixed, List.append_assoc]
        rfl
      · rintro _ next ⟨⟨torn, partly, cut⟩, unhealthy⟩
        refine ⟨⟨littleEndian 4 (encode advance).length ++ torn, ?_, ?_⟩, ?_⟩
        · exact (List.prefix_append_right_inj _).mpr partly
        · rw [cut, prefixed, List.append_assoc]
        · intro healthy
          exact (unhealthy (kept healthy)).elim
    · rintro _ next ⟨⟨torn, partly, cut⟩, unhealthy⟩
      refine ⟨⟨torn, partly.trans (List.prefix_append _ _), cut⟩, ?_⟩
      intro healthy
      exact (unhealthy healthy).elim
  · simp only [gt_iff_lt, Nat.lt_of_not_le within, ↓reduceIte]
    exact ⟨⟨[], List.nil_prefix, (List.append_nil _).symm⟩,
      fun _ => ⟨trivial, rfl⟩⟩

theorem ensures_flush (writer : ReplayWriter) :
    Ensures flush writer
      (fun _ next => next.written = writer.written ∧ (writer.Healthy → next.Healthy))
      (fun _ next => next.written = writer.written ∧ ¬ writer.Healthy) := by
  rcases writer with ⟨written, device⟩
  rcases device with _ | ⟨_ | fault, later⟩
  · exact ⟨rfl, id⟩
  · refine ⟨rfl, ?_⟩
    intro healthy outcome member
    exact healthy outcome (List.mem_cons_of_mem _ member)
  · refine ⟨rfl, ?_⟩
    intro healthy
    cases healthy (some fault) List.mem_cons_self

/-- A created recording holds its header. -/
theorem written_of_create {header : ReplayHeader} {creation : Option IoError}
    {device : List (Option WriteFault)} {writer : ReplayWriter}
    (created : create header creation device = .ok writer) : writer.written = encode header := by
  cases creation with
  | some error => cases created
  | none =>
      have spec := ensures_writeAll (encode header) { written := [], device }
      unfold create at created
      simp only at created
      split at created
      · next _ next wrote =>
        cases created
        exact (ensures_of_ok spec wrote).1
      · cases created

end ReplayWriter

end Synctick

import Synctick.Replay.Log

/-! # The format of a log

A log that was written is read back whole, however the source splits its bytes, and
each of its proper prefixes is told apart: inside the header the log does not open,
between two records it ends, and inside a record it is an error.
-/

namespace Synctick

open Bincode Effect

/-! ## Truncated headers -/

/-- Reading some bytes does not depend on what follows them. -/
theorem stable_sourceRead (short : IoError) (count : Nat) :
    Stable Source.bytes (Source.read short count) := by
  intro source bytes next returned longer extra input
  obtain ⟨size, split⟩ := ensures_of_ok (Source.ensures_read short count source) returned
  have reads := reads_sourceRead short bytes
  rw [size] at reads
  apply reads
  rw [input, split, List.append_assoc]

theorem stable_readParts (counts : List Nat) : Stable Source.bytes (readParts counts) := by
  induction counts with
  | nil => exact .pure []
  | cons count counts ih =>
      apply (stable_sourceRead _ count).bind
      intro part
      exact ih.bind fun rest => .pure _

/-- Nor does reading a header. -/
theorem stable_readHeader : Stable Source.bytes readHeader := by
  apply (stable_array 4).bind
  intro magic
  apply Stable.guard
  intro _
  apply stable_u64.bind
  intro protocolId
  apply stable_u32.bind
  intro formatVersion
  apply (stable_array 16).bind
  intro gameId
  apply stable_u32.bind
  intro gameVersion
  apply stable_u64.bind
  intro tickNanos
  apply stable_u64.bind
  intro length
  apply Stable.guard
  intro _
  apply (stable_readParts _).bind
  intro initialization
  apply Stable.guard
  intro _
  apply Stable.guard
  intro _
  apply Stable.guard
  intro _
  cases validateTickDuration tickNanos with
  | ok _ => exact .pure _
  | error error => exact .throw _

namespace ReplayReader

/-- A log cut inside its header does not open. -/
theorem fromReader_truncated {header : ReplayHeader} (valid : header.Valid) {source : Source}
    {cut : Nat} (short : source.bytes = (encode header).take cut)
    (inside : cut < (encode header).length) : ∃ error, fromReader source = .error error := by
  unfold fromReader
  cases returned : readHeader source with
  | error error next => exact ⟨error, rfl⟩
  | ok other next =>
      have split : encode header = (encode header).take cut ++ (encode header).drop cut :=
        (List.take_append_drop _ _).symm
      have full : Source.bytes ⟨[encode header]⟩ = encode header := List.flatten_singleton
      have nothing := stable_readHeader.nothing_left (reads_header header valid) split short full
        returned
      have some := congrArg List.length nothing
      rw [List.length_drop, List.length_nil] at some
      omega

/-! ## Torn records -/

/-- A torn record is an error, and uses the log up. -/
theorem ensures_torn {advance : TickAdvance} {reader : ReplayReader} {torn rest : Bytes}
    (within : (encode advance).length ≤ maxReplayRecordBytes)
    (split : record advance = torn ++ rest) (begun : torn ≠ []) (missing : rest ≠ [])
    (log : reader.source.bytes = torn) :
    Ensures nextRecord reader (fun _ _ => False) fun _ next => next.source.bytes = [] := by
  have small : (encode advance).length < 256 ^ 4 := by
    unfold maxReplayRecordBytes at within
    omega
  have size := ofLittleEndian_littleEndian_of_lt small
  have total := congrArg List.length split
  rw [length_record, List.length_append] at total
  have more := List.length_pos_iff.mpr missing
  have buffered : reader.source.fillBuf.isEmpty ≠ true := by
    intro empty
    have finished := (Source.fillBuf_eq_nil_iff _).mp (List.isEmpty_iff.mp empty)
    rw [log] at finished
    exact begun finished
  unfold nextRecord
  simp only [ensures_bind, ensures_get, buffered, Bool.false_eq_true, ↓reduceIte,
    nextRecord.onSource, ensures_zoom]
  apply (Source.ensures_read _ 4 reader.source).mono
  · intro length middle outcome
    obtain ⟨width, front⟩ := outcome
    -- The length is whole, so it is the length of the record that was cut.
    rw [log] at front
    rw [front, List.append_assoc, record] at split
    have same := List.append_inj_left split (by rw [width, length_littleEndian])
    have length_torn := congrArg List.length front
    rw [List.length_append] at length_torn
    rw [← same, size]
    simp only [gt_iff_lt, Nat.not_lt.mpr within, ↓reduceIte, ensures_bind, ensures_zoom]
    have short : middle.bytes.length < (encode advance).length := by omega
    apply (Source.read_of_lt _ _ middle short).mono
    · intro _ _ impossible
      cases impossible
    · intro _ next stopped
      exact stopped.2
  · intro _ next stopped
    exact stopped.2

/-- Successive records are read. -/
inductive Yields : ReplayReader → List TickAdvance → ReplayReader → Prop
  | here (reader : ReplayReader) : Yields reader [] reader
  | next {reader later last : ReplayReader} {advance : TickAdvance} {rest : List TickAdvance}
      (reads : nextRecord reader = .ok (some advance) later) (onwards : Yields later rest last) :
      Yields reader (advance :: rest) last

/-- The records at the front of a log are read in order. -/
theorem yields_records {advances : List TickAdvance}
    (sound : ∀ advance ∈ advances,
      advance.Bounded ∧ (encode advance).length ≤ maxReplayRecordBytes)
    {reader : ReplayReader} {rest : Bytes} (log : reader.source.bytes = records advances ++ rest) :
    ∃ last, Yields reader advances last ∧ last.source.bytes = rest := by
  induction advances generalizing reader with
  | nil => exact ⟨reader, .here reader, log⟩
  | cons advance advances ih =>
      obtain ⟨bounded, within⟩ := sound advance List.mem_cons_self
      have front : reader.source.bytes = record advance ++ (records advances ++ rest) := by
        rw [log, records, List.flatMap_cons, List.append_assoc]
        rfl
      obtain ⟨later, reads, left⟩ := reads_record bounded within reader _ front
      obtain ⟨last, onwards, left⟩ :=
        ih (fun other member => sound other (List.mem_cons_of_mem _ member)) left
      exact ⟨last, .next reads onwards, left⟩

end ReplayReader

/-! ## Cuts of a log -/

/-- The bytes of a log up to and with its first `count` records. -/
def logUpTo (header : ReplayHeader) (advances : List TickAdvance) (count : Nat) : Bytes :=
  encode header ++ records (advances.take count)

/-- A log without records is its header. -/
theorem logUpTo_zero (header : ReplayHeader) (advances : List TickAdvance) :
    logUpTo header advances 0 = encode header := by
  rw [logUpTo, List.take_zero, records_nil, List.append_nil]

/-- With all of them it is the whole log. -/
theorem logUpTo_length (header : ReplayHeader) (advances : List TickAdvance) :
    logUpTo header advances advances.length = encode header ++ records advances := by
  rw [logUpTo, List.take_length]

/-- A log goes on with its next record. -/
theorem logUpTo_succ (header : ReplayHeader) (advances : List TickAdvance) {count : Nat}
    (more : count < advances.length) :
    logUpTo header advances (count + 1) = logUpTo header advances count ++ record advances[count] := by
  rw [logUpTo, logUpTo, List.take_succ_eq_append_getElem more, records_append, records_singleton,
    List.append_assoc]

/-- What is behind some records are the others. -/
theorem logUpTo_append (header : ReplayHeader) (advances : List TickAdvance) (count : Nat) :
    encode header ++ records advances =
      logUpTo header advances count ++ records (advances.drop count) := by
  rw [logUpTo, List.append_assoc, ← records_append, List.take_append_drop]

/-- A position behind the header is a boundary between records, or inside one of them. -/
theorem between_boundaries (header : ReplayHeader) (advances : List TickAdvance) {cut : Nat}
    (behind : (encode header).length ≤ cut)
    (within : cut < (encode header ++ records advances).length) :
    ∃ count, count < advances.length ∧ (logUpTo header advances count).length ≤ cut ∧
      cut < (logUpTo header advances (count + 1)).length := by
  rw [← logUpTo_length] at within
  have search (bound : Nat) (below : cut < (logUpTo header advances bound).length)
      (few : bound ≤ advances.length) :
      ∃ count, count < bound ∧ (logUpTo header advances count).length ≤ cut ∧
        cut < (logUpTo header advances (count + 1)).length := by
    induction bound with
    | zero =>
        rw [logUpTo_zero] at below
        omega
    | succ bound ih =>
        by_cases earlier : cut < (logUpTo header advances bound).length
        · obtain ⟨count, smaller, found⟩ := ih earlier (by omega)
          exact ⟨count, by omega, found⟩
        · exact ⟨bound, by omega, by omega, below⟩
  exact search advances.length within (Nat.le_refl _)

/-- The bytes that a recording holds once the ticks were appended to it. -/
def Recorded (header : ReplayHeader) (advances : List TickAdvance) (data : Bytes) : Prop :=
  ∃ device begun last, ReplayWriter.create header none device = .ok begun ∧
    forEach ReplayWriter.append advances begun = .ok () last ∧ last.written = data

/-- Ticks are appended in their order, each within the budget of a record. -/
theorem ensures_appends (advances : List TickAdvance) (writer : ReplayWriter) :
    Ensures (forEach ReplayWriter.append advances) writer
      (fun _ next => next.written = writer.written ++ records advances ∧
        ∀ advance ∈ advances, (encode advance).length ≤ maxReplayRecordBytes)
      fun _ _ => True := by
  induction advances generalizing writer with
  | nil =>
      refine ⟨(List.append_nil _).symm, ?_⟩
      intro advance member
      cases member
  | cons advance advances ih =>
      rw [forEach, ensures_bind]
      apply (ReplayWriter.ensures_append advance writer).mono
      · intro _ middle appended
        obtain ⟨within, written, _⟩ := appended
        apply (ih middle).mono
        · intro _ next outcome
          obtain ⟨gained, each⟩ := outcome
          constructor
          · rw [gained, written, List.append_assoc]
            rfl
          · intro other member
            rcases List.mem_cons.mp member with same | member
            · rw [same]
              exact within
            · exact each other member
        · intro _ _ _
          trivial
      · intro _ _ _
        trivial

/-- A recording is its header with its records behind it. -/
theorem Recorded.written {header : ReplayHeader} {advances : List TickAdvance} {data : Bytes}
    (recorded : Recorded header advances data) :
    data = encode header ++ records advances ∧
      ∀ advance ∈ advances, (encode advance).length ≤ maxReplayRecordBytes := by
  obtain ⟨device, begun, last, created, appended, same⟩ := recorded
  obtain ⟨gained, within⟩ := ensures_of_ok (ensures_appends advances begun) appended
  rw [← same, gained, ReplayWriter.written_of_create created]
  exact ⟨rfl, within⟩

namespace ReplayReader

/-- Opening a log reads its header, and then its records up to what is left. -/
def Opens (source : Source) (header : ReplayHeader) (advances : List TickAdvance)
    (last : ReplayReader) : Prop :=
  ∃ reader, fromReader source = .ok reader ∧ reader.header = header ∧ Yields reader advances last

/-- A log that ends within a record is read up to the last whole one. -/
theorem opens_upTo {header : ReplayHeader} (valid : header.Valid) {advances : List TickAdvance}
    (sound : ∀ advance ∈ advances,
      advance.Bounded ∧ (encode advance).length ≤ maxReplayRecordBytes)
    (count : Nat) {source : Source} {torn : Bytes}
    (log : source.bytes = logUpTo header advances count ++ torn) :
    ∃ last, Opens source header (advances.take count) last ∧ last.source.bytes = torn := by
  rw [logUpTo, List.append_assoc] at log
  obtain ⟨reader, opened, named, left⟩ := fromReader_header valid log
  have front : ∀ advance ∈ advances.take count,
      advance.Bounded ∧ (encode advance).length ≤ maxReplayRecordBytes :=
    fun advance member => sound advance (List.mem_of_mem_take member)
  obtain ⟨last, reads, rest⟩ := yields_records front left
  exact ⟨last, ⟨reader, opened, named, reads⟩, rest⟩

/-- A log reads back as what was written, and every cut of it as the records before the cut: a cut
between records as the end of the log, a cut inside a record as an error. -/
theorem log_read_back {header : ReplayHeader} (valid : header.Valid) {advances : List TickAdvance}
    (bounded : ∀ advance ∈ advances, advance.Bounded) {data : Bytes}
    (recorded : Recorded header advances data) :
    (∀ source, source.bytes = data →
      ∃ last, Opens source header advances last ∧ nextRecord last = .ok none last) ∧
    (∀ cut source, source.bytes = data.take cut → cut < (encode header).length →
      ∃ error, fromReader source = .error error) ∧
    (∀ count ≤ advances.length, ∀ source,
      source.bytes = data.take (logUpTo header advances count).length →
      ∃ last, Opens source header (advances.take count) last ∧
        nextRecord last = .ok none last) ∧
    ∀ cut source, source.bytes = data.take cut → (encode header).length ≤ cut →
      cut < data.length → (∀ count, cut ≠ (logUpTo header advances count).length) →
      ∃ count < advances.length, (logUpTo header advances count).length < cut ∧
        cut < (logUpTo header advances (count + 1)).length ∧
        ∃ last error stopped, Opens source header (advances.take count) last ∧
          nextRecord last = .error error stopped ∧ nextRecord stopped = .ok none stopped := by
  obtain ⟨same, within⟩ := recorded.written
  subst same
  have sound : ∀ advance ∈ advances,
      advance.Bounded ∧ (encode advance).length ≤ maxReplayRecordBytes :=
    fun advance member => ⟨bounded advance member, within advance member⟩
  have ends (count : Nat) (source : Source)
      (log : source.bytes = logUpTo header advances count) :
      ∃ last, Opens source header (advances.take count) last ∧ nextRecord last = .ok none last := by
    rw [← List.append_nil (logUpTo header advances count)] at log
    obtain ⟨last, opens, left⟩ := opens_upTo valid sound count log
    exact ⟨last, opens, nextRecord_end last left⟩
  refine ⟨?_, ?_, ?_, ?_⟩
  · intro source log
    rw [← logUpTo_length] at log
    obtain ⟨last, opens, ended⟩ := ends _ source log
    rw [List.take_length] at opens
    exact ⟨last, opens, ended⟩
  · intro cut source short inside
    rw [List.take_append_of_le_length (Nat.le_of_lt inside)] at short
    exact fromReader_truncated valid short inside
  · intro count _ source short
    rw [logUpTo_append header advances count, List.take_left] at short
    exact ends count source short
  · intro cut source short behind before inside
    obtain ⟨count, more, above, below⟩ := between_boundaries header advances behind before
    have past : (logUpTo header advances count).length < cut :=
      Nat.lt_of_le_of_ne above fun boundary => inside count boundary.symm
    refine ⟨count, more, past, below, ?_⟩
    -- What is left of the log behind the last boundary is a proper part of the next record.
    obtain ⟨taken, position⟩ := Nat.exists_eq_add_of_lt past
    have width := congrArg List.length (logUpTo_succ header advances more)
    rw [List.length_append] at width
    have left : source.bytes =
        logUpTo header advances count ++ (record advances[count]).take (taken + 1) := by
      rw [short, logUpTo_append header advances (count + 1), logUpTo_succ header advances more,
        List.append_assoc, position, Nat.add_assoc, List.take_length_add_append,
        List.take_append_of_le_length (by omega)]
    obtain ⟨last, opens, torn⟩ := opens_upTo valid sound count left
    have fits := (sound advances[count] (List.getElem_mem more)).2
    have stops := ensures_torn fits (List.take_append_drop (taken + 1) _).symm (by
      intro none
      have size := congrArg List.length none
      rw [List.length_take, List.length_nil] at size
      omega) (by
      intro none
      have size := congrArg List.length none
      rw [List.length_drop, List.length_nil] at size
      omega) torn
    cases exit : nextRecord last with
    | ok advance next => exact (ensures_of_ok stops exit).elim
    | error error stopped =>
        have empty := ensures_of_error stops exit
        exact ⟨last, error, stopped, opens, exit, nextRecord_end stopped empty⟩

theorem log_read_back_tallyLog :
    (∃ last, Opens ⟨[tallyLog.take 3, tallyLog.drop 3]⟩ tallyHeader
      [{ tick := 1, inputs := [⟨.host, ⟨[7]⟩⟩] }] last ∧ nextRecord last = .ok none last) ∧
    ∃ error, fromReader ⟨[tallyLog.take 3]⟩ = .error error := by
  have valid : tallyHeader.Valid := ⟨rfl, rfl, rfl, rfl, by decide⟩
  have bounded : ∀ advance ∈ [{ tick := 1, inputs := [⟨.host, ⟨[7]⟩⟩] : TickAdvance }],
      advance.Bounded := by
    unfold TickAdvance.Bounded
    decide
  have recorded : Recorded tallyHeader [{ tick := 1, inputs := [⟨.host, ⟨[7]⟩⟩] }] tallyLog :=
    ⟨[], _, _, rfl, rfl, rfl⟩
  obtain ⟨whole, headers, _⟩ := log_read_back valid bounded recorded
  exact ⟨whole ⟨[tallyLog.take 3, tallyLog.drop 3]⟩ (by decide),
    headers 3 ⟨[tallyLog.take 3]⟩ (by decide) (by decide)⟩

end ReplayReader

end Synctick

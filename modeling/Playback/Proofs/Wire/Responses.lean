import Playback.Proofs.Wire.Sequences
import Playback.Response.Encoder
import Playback.Response.Stream

/-! What a response means, told from the steps that wrote it.

Steps are heard one after another, as a reader would who was there when they were written. Taking
the bytes apart comes to the same, and takes apart nothing else.
-/

set_option autoImplicit false

namespace Playback.Response

/-! ### Steps as they are heard -/

structure Heard where
  now : Option FpgaTime := none
  response : Response := {}

def oneMore {n : Nat} (size : Nat) (counts : Vector Nat n) : Vector Nat n :=
  Vector.ofFn fun i => counts.get i + if size = i + 1 then 1 else 0

def Heard.hear (heard : Heard) : Step → Heard
  | .word word =>
    { heard with
      response.words := heard.response.words ++ [{ word, fpgaTime := heard.now }] }
  | .timestamp time => { heard with now := some time }
  | .spikes entries =>
    if 1 ≤ entries.length ∧ entries.length ≤ 3 then
      { heard with
        response.events.spikes := heard.response.events.spikes ++
          entries.map fun (label, time) =>
            { label, fpgaTime := heard.now.getD 0, chipTime := time % 0x10000 }
        response.events.spikePacks := oneMore entries.length heard.response.events.spikePacks }
    else heard
  | .samples entries =>
    if 1 ≤ entries.length ∧ entries.length ≤ 2 then
      { heard with
        response.events.samples := heard.response.events.samples ++
          entries.map fun (channel, value, time) =>
            { channel
              value := value % 1024
              fpgaTime := heard.now.getD 0
              chipTime := time % 0x10000 }
        response.events.samplePacks := oneMore entries.length heard.response.events.samplePacks }
    else heard
  | .halt => heard

def meaning (steps : List Step) : Response :=
  ((steps.takeWhile (· ≠ .halt)).foldl Heard.hear {}).response

def recorded (steps : List Step) : List Record :=
  steps.filterMap fun step => step.record.toOption

theorem recorded_cons (step : Step) (later : List Step) :
    recorded (step :: later) = step.record.toOption.toList ++ recorded later := by
  cases found : step.record with
  | ok record => simp [recorded, found, Except.toOption]
  | error e => simp [recorded, found, Except.toOption]

theorem append_eq (bytes : Bytes) (step : Step) :
    Step.append bytes step = bytes ++ encode step.record.toOption.toList := by
  cases found : step.record with
  | ok record =>
    simp [Step.append, Step.write, found, Except.map, Except.toOption, encode, RecordWire.writeAll]
  | error e =>
    simp [Step.append, Step.write, found, Except.map, Except.toOption, encode, RecordWire.writeAll]

theorem foldl_append (steps : List Step) (bytes : Bytes) :
    steps.foldl Step.append bytes = bytes ++ encode (recorded steps) := by
  induction steps generalizing bytes with
  | nil => simp [recorded, encode, RecordWire.writeAll]
  | cons step later ih =>
    rw [List.foldl_cons, ih, append_eq, recorded_cons, List.append_assoc]
    congr 1
    exact (Record.wire.writeAll_append _ _).symm

theorem written_eq (steps : List Step) : written steps = encode (recorded steps) :=
  foldl_append steps []

def Step.ofRecord : Record → Step
  | .word w => .word w
  | .timestamp time => .timestamp time
  | .spikes pack => .spikes (pack.entries.map fun entry => (entry.label, entry.chipTime.toUInt64))
  | .samples pack =>
    .samples (pack.entries.map fun entry =>
      (entry.channel, UInt16.ofNat entry.value, entry.chipTime.toUInt64))
  | .halt => .halt

theorem pack_cases {α : Type} (limit : Nat) (entries : List α) :
    ((1 ≤ entries.length ∧ entries.length ≤ limit) ∧
      ∃ pack : Pack α limit, pack.entries = entries ∧ Pack.ofList? entries = some pack) ∨
    (¬(1 ≤ entries.length ∧ entries.length ≤ limit) ∧
      (Pack.ofList? entries : Option (Pack α limit)) = none) := by
  by_cases fits : 1 ≤ entries.length ∧ entries.length ≤ limit
  · exact .inl ⟨fits, ⟨entries, fits.1, fits.2⟩, rfl, dif_pos fits⟩
  · exact .inr ⟨fits, dif_neg fits⟩

theorem ofSpikes_entries (pack : Pack SpikeEntry 3) :
    Record.ofSpikes pack.entries = .ok (.spikes pack) := by
  simp [Record.ofSpikes, Pack.ofList?, pack.size_pos, pack.size_le]

theorem ofSamples_entries (pack : Pack SampleEntry 2) :
    Record.ofSamples pack.entries = .ok (.samples pack) := by
  simp [Record.ofSamples, Pack.ofList?, pack.size_pos, pack.size_le]

theorem record_ofRecord (record : Record) : (Step.ofRecord record).record = .ok record := by
  cases record with
  | word w => rfl
  | timestamp time => rfl
  | halt => rfl
  | spikes pack =>
    simp only [Step.ofRecord, Step.record, List.map_map]
    rw [← ofSpikes_entries pack]
    congr 1
    refine (List.map_congr_left fun entry _ => ?_).trans (List.map_id _)
    simp [SpikeEntry.ofSpike]
  | samples pack =>
    simp only [Step.ofRecord, Step.record, List.map_map]
    rw [← ofSamples_entries pack]
    congr 1
    refine (List.map_congr_left fun entry _ => ?_).trans (List.map_id _)
    have small : entry.value.val < 0x10000 := Nat.lt_trans entry.value.isLt (by decide)
    simp [SampleEntry.ofSample, UInt16.toNat_ofNat_of_lt' small, Nat.mod_eq_of_lt entry.value.isLt]

theorem recorded_ofRecord (records : List Record) :
    recorded (records.map Step.ofRecord) = records := by
  induction records with
  | nil => rfl
  | cons record later ih =>
    rw [List.map_cons, recorded_cons, ih, record_ofRecord]
    rfl

theorem halt_mem_recorded (steps : List Step) : Record.halt ∈ recorded steps ↔ .halt ∈ steps := by
  simp only [recorded, List.mem_filterMap]
  constructor
  · rintro ⟨step, member, halts⟩
    cases step with
    | halt => exact member
    | word w => cases halts
    | timestamp time => cases halts
    | spikes entries =>
      simp only [Step.record, Record.ofSpikes] at halts
      split at halts <;> cases halts
    | samples entries =>
      simp only [Step.record, Record.ofSamples] at halts
      split at halts <;> cases halts
  · intro member
    exact ⟨.halt, member, rfl⟩

def followedBy (earlier later : Response) : Response where
  words := earlier.words ++ later.words
  events :=
    { spikes := earlier.events.spikes ++ later.events.spikes
      samples := earlier.events.samples ++ later.events.samples
      spikePacks := .zipWith (· + ·) earlier.events.spikePacks later.events.spikePacks
      samplePacks := .zipWith (· + ·) earlier.events.samplePacks later.events.samplePacks }

theorem followedBy_nothing (response : Response) : response.followedBy {} = response := by
  have unchanged {n : Nat} (counts : Vector Nat n) :
      Vector.zipWith (· + ·) counts (.replicate n 0) = counts := by
    ext i small
    simp
  simp [followedBy, unchanged]

theorem nothing_followedBy (response : Response) : followedBy {} response = response := by
  have unchanged {n : Nat} (counts : Vector Nat n) :
      Vector.zipWith (· + ·) (.replicate n 0) counts = counts := by
    ext i small
    simp
  simp [followedBy, unchanged]

-- A pack adds one to the same count, whether it is heard last or read first.
theorem zipWith_oneMore {limit : Nat} {α : Type} (pack : Pack α limit)
    (earlier later : Vector Nat limit) :
    Vector.zipWith (· + ·) (oneMore pack.entries.length earlier) later =
      Vector.zipWith (· + ·) earlier (Events.counted pack.sizeIndex later) := by
  have := pack.size_pos
  ext i small
  have same : (⟨i, small⟩ : Fin limit) = pack.sizeIndex ↔ pack.entries.length = i + 1 := by
    simp only [Fin.ext_iff, Pack.sizeIndex]
    omega
  have get (counts : Vector Nat limit) : counts.get ⟨i, small⟩ = counts[i] := rfl
  simp only [Vector.getElem_zipWith, oneMore, Events.counted, Vector.getElem_ofFn, same, get]
  split <;> omega

theorem ofNat_mod_valueCount (value : UInt16) :
    UInt16.ofNat (value.toNat % MadcSample.valueCount) = value % 1024 := by
  apply UInt16.toNat_inj.1
  simp [MadcSample.valueCount]
  omega

theorem hear_spikes (heard : Heard) (entries : List (SpikeLabel × ChipTime)) (later : List Step) :
    (heard.hear (.spikes entries)).response.followedBy
        (ofRecordsFrom (heard.hear (.spikes entries)).now (recorded later)) =
      heard.response.followedBy
        (ofRecordsFrom heard.now (recorded (.spikes entries :: later))) := by
  rw [recorded_cons, Step.record, Record.ofSpikes]
  rcases pack_cases 3 (entries.map fun (label, time) => SpikeEntry.ofSpike label time) with
    ⟨fits, pack, same, packed⟩ | ⟨large, refused⟩
  · have counts := zipWith_oneMore pack heard.response.events.spikePacks
    rw [List.length_map] at fits
    rw [same, List.length_map] at counts
    rw [packed]
    simp [Heard.hear, fits, Except.toOption, ofRecordsFrom, followedBy,
      Events.consSpikes, counts, same, SpikeEntry.ofSpike]
  · rw [List.length_map] at large
    rw [refused]
    simp [Heard.hear, large, Except.toOption]

theorem hear_samples (heard : Heard) (entries : List (UInt8 × UInt16 × ChipTime))
    (later : List Step) :
    (heard.hear (.samples entries)).response.followedBy
        (ofRecordsFrom (heard.hear (.samples entries)).now (recorded later)) =
      heard.response.followedBy
        (ofRecordsFrom heard.now (recorded (.samples entries :: later))) := by
  rw [recorded_cons, Step.record, Record.ofSamples]
  rcases pack_cases 2
      (entries.map fun (channel, value, time) => SampleEntry.ofSample channel value time) with
    ⟨fits, pack, same, packed⟩ | ⟨large, refused⟩
  · have counts := zipWith_oneMore pack heard.response.events.samplePacks
    rw [List.length_map] at fits
    rw [same, List.length_map] at counts
    rw [packed]
    simp [Heard.hear, fits, Except.toOption, ofRecordsFrom, followedBy,
      Events.consSamples, counts, same, SampleEntry.ofSample,
      ofNat_mod_valueCount]
  · rw [List.length_map] at large
    rw [refused]
    simp [Heard.hear, large, Except.toOption]

theorem hear_followedBy (heard : Heard) (step : Step) (later : List Step) (goesOn : step ≠ .halt) :
    (heard.hear step).response.followedBy (ofRecordsFrom (heard.hear step).now (recorded later)) =
      heard.response.followedBy (ofRecordsFrom heard.now (recorded (step :: later))) := by
  cases step with
  | word w =>
    simp [recorded_cons, Step.record, Except.toOption, Heard.hear, ofRecordsFrom, followedBy]
  | timestamp time => rfl
  | spikes entries => exact hear_spikes heard entries later
  | samples entries => exact hear_samples heard entries later
  | halt => exact absurd rfl goesOn

theorem foldl_hear (steps : List Step) (heard : Heard) :
    ((steps.takeWhile (· ≠ .halt)).foldl Heard.hear heard).response =
      heard.response.followedBy (ofRecordsFrom heard.now (recorded steps)) := by
  induction steps generalizing heard with
  | nil => exact (followedBy_nothing heard.response).symm
  | cons step later ih =>
    by_cases halts : step = .halt
    · subst halts
      exact (followedBy_nothing heard.response).symm
    · rw [List.takeWhile_cons_of_pos (by simpa using halts), List.foldl_cons, ih]
      exact hear_followedBy heard step later halts

theorem meaning_eq (steps : List Step) : meaning steps = ofRecords (recorded steps) := by
  rw [meaning, foldl_hear]
  exact nothing_followedBy _

/-! ### Halts -/

theorem ofRecordsFrom_halt (records later : List Record) (now : Option FpgaTime) :
    ofRecordsFrom now (records ++ .halt :: later) = ofRecordsFrom now (records ++ [.halt]) := by
  induction records generalizing now with
  | nil => rfl
  | cons record records ih => cases record <;> simp [ofRecordsFrom, ih]

theorem open_iff {records : List Record} : Record.wire.Open records ↔ .halt ∉ records := by
  have final (record : Record) : Record.wire.isFinal record = false ↔ record ≠ .halt := by
    simp [Record.wire]
  simp only [RecordWire.Open, final]
  constructor
  · intro goesOn halts
    exact goesOn _ halts rfl
  · rintro none _ member rfl
    exact none member

theorem exists_fills (records : List Record) (padding : Bytes)
    (padded : padding = [] ∨ .halt ∈ records) :
    ∃ read, Record.wire.Fills read (encode records ++ padding) ∧
      ofRecords read = ofRecords records := by
  by_cases halts : .halt ∈ records
  · obtain ⟨before, after, rfl, first⟩ := List.eq_append_cons_of_mem halts
    have same := ofRecordsFrom_halt before after none
    refine ⟨before ++ [Record.halt], ?_, same.symm⟩
    have fills : Record.wire.Fills (before ++ [.halt])
        (Record.wire.writeAll (before ++ [.halt]) ++ (Record.wire.writeAll after ++ padding)) :=
      .ended (open_iff.2 first) rfl
    rw [← List.append_assoc, ← RecordWire.writeAll_append, List.append_assoc,
      List.singleton_append] at fills
    exact fills
  · obtain rfl : padding = [] := padded.resolve_right halts
    refine ⟨records, ?_, rfl⟩
    rw [List.append_nil]
    exact .whole (open_iff.2 halts)

theorem demultiplex_written (steps : List Step) (padding : Bytes)
    (padded : padding = [] ∨ .halt ∈ steps) :
    demultiplex (written steps ++ padding) = .ok (meaning steps) := by
  rw [← halt_mem_recorded] at padded
  obtain ⟨read, fills, same⟩ := exists_fills (recorded steps) padding padded
  rw [demultiplex, records, written_eq, fills.readAll, meaning_eq, ← same]
  rfl

theorem written_of_fills {records : List Record} {bytes : Bytes}
    (fills : Record.wire.Fills records bytes) :
    ∃ steps padding, (padding = [] ∨ .halt ∈ steps) ∧ bytes = written steps ++ padding ∧
      recorded steps = records := by
  refine ⟨records.map Step.ofRecord, ?_⟩
  rw [written_eq, ← halt_mem_recorded, recorded_ofRecord]
  cases fills with
  | whole goesOn => exact ⟨[], .inl rfl, (List.append_nil _).symm, rfl⟩
  | @ended records last padding goesOn final =>
    obtain rfl : last = .halt := by simpa [Record.wire] using final
    exact ⟨padding, .inr (by simp), rfl, rfl⟩

theorem demultiplex_eq_ok_iff {bytes : Bytes} {response : Response} :
    demultiplex bytes = .ok response ↔
      ∃ steps padding, (padding = [] ∨ .halt ∈ steps) ∧ bytes = written steps ++ padding ∧
        response = meaning steps := by
  constructor
  · intro accepted
    cases read : records bytes with
    | error e =>
      rw [demultiplex, read] at accepted
      cases accepted
    | ok found =>
      rw [demultiplex, read] at accepted
      cases accepted
      have fills := RecordWire.readAll_eq_ok_iff.1 read
      obtain ⟨steps, padding, padded, apart, rfl⟩ := written_of_fills fills
      exact ⟨steps, padding, padded, apart, (meaning_eq steps).symm⟩
  · rintro ⟨steps, padding, padded, rfl, rfl⟩
    exact demultiplex_written steps padding padded

theorem demultiplex_eq_error_iff {bytes : Bytes} {e : Wire.RecordError} :
    demultiplex bytes = .error e ↔
      ∃ steps rest, .halt ∉ steps ∧ rest ≠ [] ∧ bytes = written steps ++ rest ∧
        e.offset = (written steps).length ∧ Record.wire.read rest = .error e.fault := by
  have failed : demultiplex bytes = .error e ↔ records bytes = .error e := by
    rw [demultiplex]
    cases records bytes <;> simp [Except.map]
  rw [failed, records, RecordWire.readAll_eq_error_iff]
  simp only [Nat.zero_add]
  constructor
  · rintro ⟨records, rest, breaks, place⟩
    refine ⟨records.map Step.ofRecord, rest, ?_, breaks.nonempty, ?_⟩
    · rw [← halt_mem_recorded, recorded_ofRecord]
      exact open_iff.1 breaks.goesOn
    · rw [written_eq, recorded_ofRecord]
      exact ⟨breaks.apart, place, breaks.fails⟩
  · rintro ⟨steps, rest, goesOn, nonempty, apart, place, fails⟩
    rw [written_eq] at apart place
    rw [← halt_mem_recorded, ← open_iff] at goesOn
    exact ⟨recorded steps, rest, ⟨goesOn, nonempty, fails, apart⟩, place⟩

theorem exists_written_iff (rest : Bytes) :
    (∃ step after, written [step] ≠ [] ∧ rest = written [step] ++ after) ↔
      ∃ record after, rest = Record.wire.write record ++ after := by
  have one (record : Record) : encode [record] = Record.wire.write record := by
    simp [encode, RecordWire.writeAll]
  constructor
  · rintro ⟨step, after, nonempty, rfl⟩
    rw [written_eq, recorded_cons] at nonempty ⊢
    cases found : step.record with
    | ok record =>
      refine ⟨record, after, ?_⟩
      rw [← one]
      rfl
    | error e =>
      rw [found] at nonempty
      exact absurd rfl nonempty
  · rintro ⟨record, after, rfl⟩
    refine ⟨.ofRecord record, after, ?_⟩
    rw [written_eq, recorded_cons, record_ofRecord]
    change encode [record] ≠ [] ∧ _ = encode [record] ++ after
    rw [one]
    exact ⟨Record.wire.write_ne_nil record, rfl⟩

-- What is accepted is what steps wrote, with the meaning that they tell; what is refused goes wrong
-- behind whole records, at the first place where no step's bytes stand.
theorem demultiplex_iff :
    (∀ (bytes : Bytes) (response : Response), demultiplex bytes = .ok response ↔
      ∃ steps padding, (padding = [] ∨ .halt ∈ steps) ∧ bytes = written steps ++ padding ∧
        response = meaning steps) ∧
    (∀ (bytes : Bytes) (e : Wire.RecordError), demultiplex bytes = .error e ↔
      ∃ steps rest, .halt ∉ steps ∧ rest ≠ [] ∧ bytes = written steps ++ rest ∧
        e.offset = (written steps).length ∧ Record.wire.read rest = .error e.fault) ∧
    ∀ rest : Bytes, (∃ fault, Record.wire.read rest = .error fault) ↔
      ¬∃ step after, written [step] ≠ [] ∧ rest = written [step] ++ after := by
  refine ⟨fun bytes response => demultiplex_eq_ok_iff, fun bytes e => demultiplex_eq_error_iff,
    fun rest => ?_⟩
  rw [exists_written_iff, RecordWire.read_eq_error_iff]
  simp only [not_exists]

end Playback.Response

import Playback.Proofs.Settings.Documents
import Playback.Store.Memory

/-! Settings that are written by hand.

An object gives some of the settings and the others keep their defaults. `Edit` says what is given;
`Edit.Writes` says which fields give it, whatever their order and whatever stands beside them. Every
object either is written by an edit or is spoiled by a known field (`exists_edit_or_spoiled`).
-/

set_option autoImplicit false

namespace Playback

open Json (values named)

/-- The forms of a policy that gives its one member or leaves it at its default: an object with
whatever other members, or an array. -/
inductive PolicyForm (tolerate : Option Bool) : Json → Prop where
  | object {fields : List (String × Json)} :
    values "tolerate_serdes_overflow" fields = (tolerate.map Json.bool).toList →
      PolicyForm tolerate (Json.record fields)
  | array : PolicyForm tolerate (.array (tolerate.map Json.bool).toList)

def PolicyForm.policy (tolerate : Option Bool) : ExceptionPolicy :=
  { tolerateSerdesOverflow := tolerate.getD true }

namespace Settings

structure Edit where
  minWaitPeriodUs : Option UInt64 := none
  maxWaitPeriodUs : Option UInt64 := none
  maxWaitUs : Option UInt64 := none
  /-- An expected runtime may be given as absent. -/
  expectedRuntimeUs : Option (Option UInt64) := none
  timeAnnotation : Option Bool := none
  resetAttempts : Option UInt32 := none
  resetRetryMs : Option UInt64 := none
  exceptionPolicy : Option (Option Bool) := none

/-- The default settings with what is given in place of the defaults. -/
def Edit.merged (edit : Edit) : Settings where
  minWaitPeriodUs := edit.minWaitPeriodUs.getD 50
  maxWaitPeriodUs := edit.maxWaitPeriodUs.getD 10000
  maxWaitUs := edit.maxWaitUs.getD 60000000
  expectedRuntimeUs := edit.expectedRuntimeUs.getD none
  timeAnnotation := edit.timeAnnotation.getD true
  resetAttempts := edit.resetAttempts.getD 3
  resetRetryMs := edit.resetRetryMs.getD 1000
  exceptionPolicy := (edit.exceptionPolicy.map PolicyForm.policy).getD {}

/-- Fields that give just this: every known field at most once, in any order, and any others. -/
structure Edit.Writes (edit : Edit) (fields : List (String × Json)) : Prop where
  minWaitPeriodUs : values "min_wait_period_us" fields
    = (edit.minWaitPeriodUs.map Codec.encode).toList
  maxWaitPeriodUs : values "max_wait_period_us" fields
    = (edit.maxWaitPeriodUs.map Codec.encode).toList
  maxWaitUs : values "max_wait_us" fields = (edit.maxWaitUs.map Codec.encode).toList
  expectedRuntimeUs : values "expected_runtime_us" fields
    = (edit.expectedRuntimeUs.map Codec.encode).toList
  timeAnnotation : values "time_annotation" fields = (edit.timeAnnotation.map Codec.encode).toList
  resetAttempts : values "reset_attempts" fields = (edit.resetAttempts.map Codec.encode).toList
  resetRetryMs : values "reset_retry_ms" fields = (edit.resetRetryMs.map Codec.encode).toList
  exceptionPolicy :
    List.Forall₂ PolicyForm edit.exceptionPolicy.toList (values "exception_policy" fields)

def IsValue (α : Type) [Codec α] (json : Json) : Prop :=
  ∃ a : α, json = Codec.encode a

def kinds : List (String × (Json → Prop)) :=
  [("min_wait_period_us", IsValue UInt64), ("max_wait_period_us", IsValue UInt64),
    ("max_wait_us", IsValue UInt64), ("expected_runtime_us", IsValue (Option UInt64)),
    ("time_annotation", IsValue Bool), ("reset_attempts", IsValue UInt32),
    ("reset_retry_ms", IsValue UInt64),
    ("exception_policy", fun json => ∃ tolerate, PolicyForm tolerate json)]

/-- A known field that is given twice, or with a value that is not of its type. -/
def Spoiled (fields : List (String × Json)) : Prop :=
  ∃ kind ∈ kinds, 2 ≤ (values kind.1 fields).length ∨ ∃ json ∈ values kind.1 fields, ¬kind.2 json

/-- Whatever store gives this document for the settings, loading them has this outcome. -/
def Loads (document : Bytes) (outcome : Except StoreError Settings) : Prop :=
  ∀ {σ : Type} [Store σ] (store : σ), (Store.load key store).1 = .ok document →
    (load store).1 = outcome

theorem loads_iff {document : Bytes} {outcome : Except StoreError Settings} :
    Loads document outcome ↔ outcome = ofAnswer (.ok document) := by
  constructor
  · intro loads
    have answer := loads ({ data := ⟨[(key, document)]⟩ } : MemoryStore) rfl
    rw [load_eq] at answer
    exact answer.symm
  · rintro rfl σ _ store answer
    rw [load_eq, answer]

section Field

variable {fields : List (String × Json)} {name : String}

theorem given_iff {α : Type} [Codec α] [ExactCodec α] {kept a : α} :
    ((values name fields = [] ∧ a = kept) ∨
        ∃ json, values name fields = [json] ∧ Codec.decode json = .ok a) ↔
      ∃ given : Option α, values name fields = (given.map Codec.encode).toList ∧
        a = given.getD kept := by
  constructor
  · rintro (⟨absent, rfl⟩ | ⟨json, once, read⟩)
    · exact ⟨none, absent, rfl⟩
    · obtain rfl := ExactCodec.decode_eq_ok_iff.1 read
      exact ⟨some a, once, rfl⟩
  · rintro ⟨_ | b, written, rfl⟩
    · exact .inl ⟨written, rfl⟩
    · exact .inr ⟨_, written, LawfulCodec.decode_encode a⟩

theorem decode_policy_record_iff {policy : ExceptionPolicy} :
    Codec.decode (Json.record fields) = .ok policy ↔
      ∃ tolerate : Option Bool,
        values "tolerate_serdes_overflow" fields = (tolerate.map Codec.encode).toList ∧
          policy.tolerateSerdesOverflow = tolerate.getD true := by
  refine Iff.trans ExceptionPolicy.lawful.decode_record_iff ?_
  rw [← given_iff]
  simp only [ExceptionPolicy.record, List.forall_mem_singleton]
  exact (Json.RecordCodec.says_of_iff (fun _ _ => rfl) fun _ => rfl).trans (by simp)

theorem decode_policy_iff {json : Json} {policy : ExceptionPolicy} :
    Codec.decode json = .ok policy ↔
      ∃ tolerate, PolicyForm tolerate json ∧ policy = PolicyForm.policy tolerate := by
  constructor
  · intro read
    cases json with
    | object entries =>
      obtain ⟨fields, rfl⟩ := Json.RecordCodec.exists_named_of_readEntries read
      obtain ⟨tolerate, written, given⟩ := decode_policy_record_iff.1 read
      exact ⟨tolerate, .object written, congrArg ExceptionPolicy.mk given⟩
    | array items =>
      rcases items with _ | ⟨item, _ | ⟨_, _⟩⟩
      · cases read
        exact ⟨none, .array, rfl⟩
      · obtain ⟨next, put, done⟩ := bind_eq_ok_iff.1 read
        obtain ⟨tolerate, found, made⟩ := bind_eq_ok_iff.1 put
        cases made
        cases done
        obtain rfl := ExactCodec.eq_encode found
        exact ⟨some tolerate, .array, rfl⟩
      · obtain ⟨next, -, done⟩ := bind_eq_ok_iff.1 read
        cases done
    | _ => cases read
  · rintro ⟨tolerate, written | _, rfl⟩
    · exact decode_policy_record_iff.2 ⟨tolerate, written, rfl⟩
    · cases tolerate <;> rfl

theorem given_policy_iff {kept policy : ExceptionPolicy} :
    ((values name fields = [] ∧ policy = kept) ∨
        ∃ json, values name fields = [json] ∧ Codec.decode json = .ok policy) ↔
      ∃ given : Option (Option Bool), List.Forall₂ PolicyForm given.toList (values name fields) ∧
        policy = (given.map PolicyForm.policy).getD kept := by
  constructor
  · rintro (⟨absent, rfl⟩ | ⟨json, once, read⟩)
    · exact ⟨none, absent ▸ .nil, rfl⟩
    · obtain ⟨tolerate, form, rfl⟩ := decode_policy_iff.1 read
      exact ⟨some tolerate, once ▸ .cons form .nil, rfl⟩
  · rintro ⟨_ | tolerate, written, rfl⟩
    · exact .inl ⟨List.forall₂_nil_left_iff.1 written, rfl⟩
    · obtain ⟨json, rest, form, nothing, once⟩ := List.forall₂_cons_left_iff.1 written
      rw [List.forall₂_nil_left_iff.1 nothing] at once
      exact .inr ⟨json, once, decode_policy_iff.2 ⟨tolerate, form, rfl⟩⟩

end Field

theorem decode_iff {fields : List (String × Json)} {settings : Settings} :
    Codec.decode (Json.record fields) = .ok settings ↔
      ∃ edit : Edit, edit.Writes fields ∧ settings = edit.merged := by
  refine Iff.trans lawful.decode_record_iff ?_
  simp only [record, List.forall_mem_cons, List.not_mem_nil, false_imp_iff, implies_true, and_true,
    Json.RecordCodec.says_of_iff, true_and, given_iff, given_policy_iff]
  constructor
  · obtain ⟨a, b, c, d, e, f, g, h⟩ := settings
    rintro ⟨⟨leastPeriod, first, rfl⟩, ⟨greatestPeriod, second, rfl⟩, ⟨budget, third, rfl⟩,
      ⟨runtime, fourth, rfl⟩, ⟨annotated, fifth, rfl⟩, ⟨attempts, sixth, rfl⟩,
      ⟨retry, seventh, rfl⟩, ⟨policy, eighth, rfl⟩⟩
    exact ⟨⟨leastPeriod, greatestPeriod, budget, runtime, annotated, attempts, retry, policy⟩,
      ⟨first, second, third, fourth, fifth, sixth, seventh, eighth⟩, rfl⟩
  · rintro ⟨edit, written, rfl⟩
    exact ⟨⟨_, written.minWaitPeriodUs, rfl⟩, ⟨_, written.maxWaitPeriodUs, rfl⟩,
      ⟨_, written.maxWaitUs, rfl⟩, ⟨_, written.expectedRuntimeUs, rfl⟩,
      ⟨_, written.timeAnnotation, rfl⟩, ⟨_, written.resetAttempts, rfl⟩,
      ⟨_, written.resetRetryMs, rfl⟩, ⟨_, written.exceptionPolicy, rfl⟩⟩

section Spoiled

variable {fields : List (String × Json)} {name : String}

theorem fine_iff {α : Type} {form : α → Json → Prop} :
    (¬(2 ≤ (values name fields).length ∨ ∃ json ∈ values name fields, ¬∃ a, form a json)) ↔
      ∃ given : Option α, List.Forall₂ form given.toList (values name fields) := by
  rcases values name fields with _ | ⟨json, _ | ⟨_, _⟩⟩
  · exact iff_of_true (by simp) ⟨none, .nil⟩
  · constructor
    · intro fine
      obtain ⟨a, written⟩ : ∃ a, form a json := by simpa using fine
      exact ⟨some a, .cons written .nil⟩
    · rintro ⟨_ | a, written⟩
      · cases written
      · simpa using ⟨a, (List.forall₂_cons.1 written).1⟩
  · refine iff_of_false (by simp) ?_
    rintro ⟨_ | a, written⟩ <;> simp at written

theorem fine_value_iff {α : Type} [Codec α] :
    (¬(2 ≤ (values name fields).length ∨ ∃ json ∈ values name fields, ¬IsValue α json)) ↔
      ∃ given : Option α, values name fields = (given.map Codec.encode).toList := by
  refine fine_iff.trans (exists_congr fun given => ?_)
  rcases given with _ | a
  · simp
  · rcases values name fields with _ | ⟨json, rest⟩ <;> simp

theorem not_spoiled_iff : ¬Spoiled fields ↔ ∃ edit : Edit, edit.Writes fields := by
  have all : ¬Spoiled fields ↔ ∀ kind ∈ kinds,
      ¬(2 ≤ (values kind.1 fields).length ∨ ∃ json ∈ values kind.1 fields, ¬kind.2 json) := by
    simp only [Spoiled, not_exists, not_and]
  rw [all]
  simp only [kinds, List.forall_mem_cons, List.not_mem_nil, false_imp_iff, implies_true, and_true,
    fine_value_iff, fine_iff]
  constructor
  · rintro ⟨⟨leastPeriod, first⟩, ⟨greatestPeriod, second⟩, ⟨budget, third⟩, ⟨runtime, fourth⟩,
      ⟨annotated, fifth⟩, ⟨attempts, sixth⟩, ⟨retry, seventh⟩, ⟨policy, eighth⟩⟩
    exact ⟨⟨leastPeriod, greatestPeriod, budget, runtime, annotated, attempts, retry, policy⟩,
      ⟨first, second, third, fourth, fifth, sixth, seventh, eighth⟩⟩
  · rintro ⟨edit, written⟩
    exact ⟨⟨_, written.minWaitPeriodUs⟩, ⟨_, written.maxWaitPeriodUs⟩, ⟨_, written.maxWaitUs⟩,
      ⟨_, written.expectedRuntimeUs⟩, ⟨_, written.timeAnnotation⟩, ⟨_, written.resetAttempts⟩,
      ⟨_, written.resetRetryMs⟩, ⟨_, written.exceptionPolicy⟩⟩

end Spoiled

section Document

variable {document : Bytes} {fields : List (String × Json)}
  (written : Json.parse? document = some (Json.record fields))

include written

theorem ofAnswer_written : ofAnswer (.ok document)
    = (Codec.decode (Json.record fields)).mapError fun _ => .malformed := by
  have nonempty : document ≠ [] := by
    rintro rfl
    cases written
  rw [ofAnswer_ok nonempty]
  simp only [Store.decodeDocument, written]

theorem loads_ok_iff {settings : Settings} : Loads document (.ok settings) ↔
    ∃ edit : Edit, edit.Writes fields ∧ settings = edit.merged := by
  rw [loads_iff, ofAnswer_written written, ← decode_iff]
  cases (Codec.decode (Json.record fields) : Except Json.Fault Settings) with
  | error fault => simp [Except.mapError]
  | ok read => simp [Except.mapError, eq_comm]

theorem loads_error_iff : Loads document (.error .malformed) ↔ Spoiled fields := by
  rw [← not_iff_not, not_spoiled_iff, loads_iff, ofAnswer_written written]
  cases read : (Codec.decode (Json.record fields) : Except Json.Fault Settings) with
  | error fault =>
    refine iff_of_false (by simp [Except.mapError]) ?_
    rintro ⟨edit, given⟩
    rw [decode_iff.2 ⟨edit, given, rfl⟩] at read
    cases read
  | ok settings =>
    obtain ⟨edit, given, -⟩ := decode_iff.1 read
    exact iff_of_true (by simp [Except.mapError]) ⟨edit, given⟩

theorem loads_congr {other : Bytes} {others : List (String × Json)}
    (writtenOther : Json.parse? other = some (Json.record others))
    (same : (fields.filter fun field => field.1 ∈ kinds.map Prod.fst).Perm
      (others.filter fun field => field.1 ∈ kinds.map Prod.fst))
    (outcome : Except StoreError Settings) : Loads document outcome ↔ Loads other outcome := by
  have alike (settings : Settings) :
      (Codec.decode (Json.record fields) : Except Json.Fault Settings) = .ok settings ↔
        Codec.decode (Json.record others) = .ok settings :=
    lawful.decode_record_congr fun m member =>
      Json.RecordCodec.values_perm (List.mem_map_of_mem member) same
  have equal : ofAnswer (.ok document) = ofAnswer (.ok other) := by
    rw [ofAnswer_written written, ofAnswer_written writtenOther]
    cases first : (Codec.decode (Json.record fields) : Except Json.Fault Settings) with
    | ok settings => rw [(alike settings).1 first]
    | error fault =>
      cases second : (Codec.decode (Json.record others) : Except Json.Fault Settings) with
      | ok settings =>
        rw [(alike settings).2 second] at first
        cases first
      | error other => rfl
  rw [loads_iff, loads_iff, equal]

-- An object of settings gives the defaults with what it writes in their place, unless one of its
-- known fields is spoiled; then it is refused. Nothing else matters, and what was loaded is loaded
-- again from the document that it is saved as.
theorem loads_merged :
    (∀ edit : Edit, edit.Writes fields → Loads document (.ok edit.merged)) ∧
      (Spoiled fields → Loads document (.error .malformed)) ∧
      (Spoiled fields ↔ ¬∃ edit : Edit, edit.Writes fields) ∧
      (∀ (other : Bytes) (others : List (String × Json)),
        Json.parse? other = some (Json.record others) →
        (fields.filter fun field => field.1 ∈ kinds.map Prod.fst).Perm
          (others.filter fun field => field.1 ∈ kinds.map Prod.fst) →
        ∀ outcome, Loads document outcome ↔ Loads other outcome) ∧
      ∀ settings, Loads document (.ok settings) →
        Loads (Json.pretty (Codec.encode settings)) (.ok settings) := by
  refine ⟨fun edit given => ?_, fun spoiled => ?_, ?_, fun other others => ?_, fun settings _ => ?_⟩
  · exact (loads_ok_iff written).2 ⟨edit, given, rfl⟩
  · exact (loads_error_iff written).2 spoiled
  · rw [← not_spoiled_iff, not_not]
  · exact loads_congr written
  · exact loads_iff.2 (ofAnswer_document settings).symm

end Document

-- A document with one known field and an unknown one before an empty policy.
theorem loads_max_wait :
    Loads (Bytes.ofText "\x7b\"max_wait_us\": 7, \"mood\": [1], \"exception_policy\": \x7b\x7d\x7d")
      (.ok { maxWaitUs := 7 }) :=
  (@loads_merged _ [("max_wait_us", .integer 7), ("mood", .array [.integer 1]),
    ("exception_policy", .record [])] rfl).1
      { maxWaitUs := some 7, exceptionPolicy := some none }
      ⟨rfl, rfl, rfl, rfl, rfl, rfl, rfl, .cons (.object rfl) .nil⟩

end Settings

end Playback

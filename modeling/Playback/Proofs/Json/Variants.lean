import Playback.Instruction
import Playback.Proofs.Json.Shapes

/-! What the variants of the stored types are read from, and where their numbers stand. -/

set_option autoImplicit false

namespace Playback

namespace Json

@[simp] theorem toVariant_ofText (name : String) : (ofText name).toVariant = .ok (name, none) := by
  simp [ofText, toVariant]

theorem toNamed_ofText {α : Type} {variants : List (String × α)} {name : String} {a : α}
    (listed : variants.lookup name = some a) : toNamed variants (ofText name) = .ok a := by
  simp [toNamed, listed, toEmptyVariant, bind, Except.bind, pure, Except.pure]

instance : DocumentCodec Backend where
  decode_encode b := toNamed_ofText (by cases b <;> rfl)
  plain _ := .string _

instance : DocumentCodec ExecutorKind where
  decode_encode k := toNamed_ofText (by cases k <;> rfl)
  plain _ := .string _

instance : DocumentCodec Barrier where
  decode_encode b := toNamed_ofText (by cases b <;> rfl)
  plain _ := .string _

instance : Shaped Backend where
  shape := .free
  fits _ := .name _
  bounds := Shape.bounds_free _

instance : Shaped ExecutorKind where
  shape := .free
  fits _ := .name _
  bounds := Shape.bounds_free _

instance : Shaped Barrier where
  shape := .free
  fits _ := .name _
  bounds := Shape.bounds_free _

@[simp] theorem toVariant_ofVariant (name : String) (content : Json) :
    (ofVariant name content).toVariant = .ok (name, some content) := by
  simp [ofVariant, record, toVariant]

theorem decode_ofVariant {α : Type} [Codec α] {next : String × Option Json → Except Fault α}
    (reads : ∀ json, Codec.decode json = json.toVariant >>= next) {name : String} {content : Json}
    {result : Except Fault α} (goes : next (name, some content) = result) :
    Codec.decode (ofVariant name content) = result := by
  rw [reads, toVariant_ofVariant]
  exact goes

theorem Plain.ofVariant {name : String} {content : Json} (plain : content.Plain) :
    (Json.ofVariant name content).Plain :=
  .object fun entry written => by
    obtain rfl := List.mem_singleton.1 written
    exact plain

theorem Shape.bounds_variants {α : Type} {read : Json → Except Fault α}
    {contents : List (String × Shape)}
    (each : ∀ entry ∈ contents, entry.2.Bounds fun content => read (ofVariant entry.1 content)) :
    (variants contents).Bounds read := by
  intro lo hi fill json a hole given found
  cases hole with
  | content known inner => exact each _ known inner given found

-- Whatever is made of a value, it is read within the bounds of its type.
theorem Shape.bounds_of_content {α β : Type} [Codec α] [Shaped α] {read : Json → Except Fault β}
    {next : α → Except Fault β} (reads : ∀ content, read content = Codec.decode content >>= next) :
    (Shaped.shape α).Bounds read := by
  intro lo hi fill json b hole given found
  rw [reads] at found
  obtain ⟨a, inside, -⟩ := bind_eq_ok_iff.1 found
  exact Shaped.bounds hole given inside

theorem Shape.bounds_of_pair {α β γ : Type} [Codec α] [Codec β] [Shaped α] [Shaped β]
    {read : Json → Except Fault γ} {next : α × β → Except Fault γ}
    (reads : ∀ content, read content = toPair (some content) >>= next) :
    (row [Shaped.shape α, Shaped.shape β]).Bounds read := by
  intro lo hi fill json c hole given found
  rw [reads] at found
  obtain ⟨pair, both, -⟩ := bind_eq_ok_iff.1 found
  cases hole with
  | place before after place inner =>
    rcases before with _ | ⟨first, _ | ⟨second, others⟩⟩
    · cases place
      obtain ⟨a, inside, -⟩ := bind_eq_ok_iff.1 both
      exact Shaped.bounds inner given inside
    · cases place
      obtain ⟨a, -, left⟩ := bind_eq_ok_iff.1 both
      obtain ⟨b, inside, -⟩ := bind_eq_ok_iff.1 left
      exact Shaped.bounds inner given inside
    · cases place

theorem toPair_encode {α β : Type} [Codec α] [Codec β] [LawfulCodec α] [LawfulCodec β] (a : α)
    (b : β) : toPair (some (.array [Codec.encode a, Codec.encode b])) = .ok (a, b) := by
  simp [toPair, LawfulCodec.decode_encode, bind, Except.bind, pure, Except.pure]

end Json

open Json (Shape ofVariant)

namespace Address

theorem decode_omnibus (content : Json) :
    (Codec.decode (ofVariant "Omnibus" content) : Except Json.Fault Address)
      = Codec.decode content >>= fun a => pure (.omnibus a) :=
  Json.decode_ofVariant (fun _ => rfl) rfl

theorem decode_jtag (content : Json) :
    (Codec.decode (ofVariant "Jtag" content) : Except Json.Fault Address)
      = Codec.decode content >>= fun r => pure (.jtag r) :=
  Json.decode_ofVariant (fun _ => rfl) rfl

end Address

instance : DocumentCodec Address where
  decode_encode
    | .omnibus a => (Address.decode_omnibus _).trans (by rw [LawfulCodec.decode_encode]; rfl)
    | .jtag r => (Address.decode_jtag _).trans (by rw [LawfulCodec.decode_encode]; rfl)
  plain
    | .omnibus a => .ofVariant (DocumentCodec.plain a)
    | .jtag r => .ofVariant (DocumentCodec.plain r)

instance : Shaped Address where
  shape := .variants [("Omnibus", Shaped.shape UInt32), ("Jtag", Shaped.shape UInt16)]
  fits
    | .omnibus a => .variant (.head _) (Shaped.fits a)
    | .jtag r => .variant (.tail _ (.head _)) (Shaped.fits r)
  bounds := Shape.bounds_variants <| List.forall_mem_cons.2
    ⟨Shape.bounds_of_content Address.decode_omnibus,
      List.forall_mem_singleton.2 (Shape.bounds_of_content Address.decode_jtag)⟩

namespace Word

theorem decode_omnibus (content : Json) :
    (Codec.decode (ofVariant "Omnibus" content) : Except Json.Fault Word)
      = Codec.decode content >>= fun w => pure (.omnibus w) :=
  Json.decode_ofVariant (fun _ => rfl) rfl

theorem decode_jtag (content : Json) :
    (Codec.decode (ofVariant "Jtag" content) : Except Json.Fault Word)
      = Codec.decode content >>= fun w => pure (.jtag w) :=
  Json.decode_ofVariant (fun _ => rfl) rfl

end Word

instance : DocumentCodec Word where
  decode_encode
    | .omnibus w => (Word.decode_omnibus _).trans (by rw [LawfulCodec.decode_encode]; rfl)
    | .jtag w => (Word.decode_jtag _).trans (by rw [LawfulCodec.decode_encode]; rfl)
  plain
    | .omnibus w => .ofVariant (DocumentCodec.plain w)
    | .jtag w => .ofVariant (DocumentCodec.plain w)

instance : Shaped Word where
  shape := .variants [("Omnibus", Shaped.shape UInt32), ("Jtag", Shaped.shape UInt64)]
  fits
    | .omnibus w => .variant (.head _) (Shaped.fits w)
    | .jtag w => .variant (.tail _ (.head _)) (Shaped.fits w)
  bounds := Shape.bounds_variants <| List.forall_mem_cons.2
    ⟨Shape.bounds_of_content Word.decode_omnibus,
      List.forall_mem_singleton.2 (Shape.bounds_of_content Word.decode_jtag)⟩

namespace WriteAccess

theorem decode_omnibus (content : Json) :
    (Codec.decode (ofVariant "Omnibus" content) : Except Json.Fault WriteAccess)
      = Json.toPair (some content) >>= fun pair => pure (.omnibus pair.1 pair.2) :=
  Json.decode_ofVariant (fun _ => rfl) rfl

theorem decode_jtag (content : Json) :
    (Codec.decode (ofVariant "Jtag" content) : Except Json.Fault WriteAccess)
      = Json.toPair (some content) >>= fun pair => pure (.jtag pair.1 pair.2) :=
  Json.decode_ofVariant (fun _ => rfl) rfl

end WriteAccess

instance : DocumentCodec WriteAccess where
  decode_encode
    | .omnibus a w => (WriteAccess.decode_omnibus _).trans (by rw [Json.toPair_encode]; rfl)
    | .jtag r w => (WriteAccess.decode_jtag _).trans (by rw [Json.toPair_encode]; rfl)
  plain
    | .omnibus a w => .ofVariant (.array (List.forall_mem_cons.2
        ⟨DocumentCodec.plain a, List.forall_mem_singleton.2 (DocumentCodec.plain w)⟩))
    | .jtag r w => .ofVariant (.array (List.forall_mem_cons.2
        ⟨DocumentCodec.plain r, List.forall_mem_singleton.2 (DocumentCodec.plain w)⟩))

instance : Shaped WriteAccess where
  shape := .variants
    [("Omnibus", .row [Shaped.shape UInt32, Shaped.shape UInt32]),
      ("Jtag", .row [Shaped.shape UInt16, Shaped.shape UInt64])]
  fits
    | .omnibus a w => .variant (.head _) (.row (.cons (Shaped.fits a) (.cons (Shaped.fits w) .nil)))
    | .jtag r w => .variant (.tail _ (.head _))
        (.row (.cons (Shaped.fits r) (.cons (Shaped.fits w) .nil)))
  bounds := Shape.bounds_variants <| List.forall_mem_cons.2
    ⟨Shape.bounds_of_pair WriteAccess.decode_omnibus,
      List.forall_mem_singleton.2 (Shape.bounds_of_pair WriteAccess.decode_jtag)⟩

namespace Instruction

theorem waitRecord_lawful : waitRecord.Lawful where
  names := by decide
  members := by simp [waitRecord]
  apart := by simp [waitRecord]
  ext := by
    rintro ⟨⟩ ⟨⟩
    simp [waitRecord, Json.Member.of]

def waitShapes : List Shape :=
  [Shaped.shape TimerOnChip, Shaped.shape TimerValue]

theorem waitRecord_shapes : List.Forall₂ Json.Member.HasShape waitRecord.members waitShapes :=
  .cons Json.Member.hasShape_of (.cons Json.Member.hasShape_of .nil)

theorem decode_write (content : Json) :
    (Codec.decode (ofVariant "Write" content) : Except Json.Fault Instruction)
      = Codec.decode content >>= fun access => pure (.write access) :=
  Json.decode_ofVariant (fun _ => rfl) rfl

theorem decode_read (content : Json) :
    (Codec.decode (ofVariant "ReadRequest" content) : Except Json.Fault Instruction)
      = Codec.decode content >>= fun address => pure (.read address) :=
  Json.decode_ofVariant (fun _ => rfl) rfl

theorem decode_barrier (content : Json) :
    (Codec.decode (ofVariant "Barrier" content) : Except Json.Fault Instruction)
      = Codec.decode content >>= fun kind => pure (.barrier kind) :=
  Json.decode_ofVariant (fun _ => rfl) rfl

theorem decode_wait (content : Json) :
    (Codec.decode (ofVariant "WaitUntil" content) : Except Json.Fault Instruction)
      = waitRecord.decode content >>= fun wait => pure (.wait wait.1 wait.2) :=
  Json.decode_ofVariant (fun _ => rfl) rfl

-- A tree is read as a document is, but for the waits that do not name their members.
theorem ofTree_eq_ok_iff {json : Json} {i : Instruction} :
    ofTree json = .ok i ↔ Codec.decode json = .ok i ∧
      ∀ items, json.toVariant ≠ .ok ("WaitUntil", some (.array items)) := by
  unfold ofTree
  split
  next items row => simp [row]
  next other => exact ⟨fun read => ⟨read, other⟩, And.left⟩

end Instruction

instance : DocumentCodec Instruction where
  decode_encode
    | .write access => (Instruction.decode_write _).trans (by rw [LawfulCodec.decode_encode]; rfl)
    | .read address => (Instruction.decode_read _).trans (by rw [LawfulCodec.decode_encode]; rfl)
    | .wait timer value => (Instruction.decode_wait _).trans <| bind_eq_ok_iff.2
        ⟨(timer, value), Instruction.waitRecord_lawful.documentCodec.decode_encode _, rfl⟩
    | .barrier kind => (Instruction.decode_barrier _).trans (by rw [LawfulCodec.decode_encode]; rfl)
  plain
    | .write access => .ofVariant (DocumentCodec.plain access)
    | .read address => .ofVariant (DocumentCodec.plain address)
    | .wait timer value =>
      .ofVariant (Instruction.waitRecord_lawful.documentCodec.plain (timer, value))
    | .barrier kind => .ofVariant (DocumentCodec.plain kind)

instance : Shaped Instruction where
  shape := .variants
    [("Write", Shaped.shape WriteAccess), ("ReadRequest", Shaped.shape Address),
      ("WaitUntil", Instruction.waitRecord.shape Instruction.waitShapes),
      ("Barrier", Shaped.shape Barrier)]
  fits
    | .write access => .variant (.head _) (Shaped.fits access)
    | .read address => .variant (.tail _ (.head _)) (Shaped.fits address)
    | .wait timer value => .variant (.tail _ (.tail _ (.head _)))
        (Json.RecordCodec.fits_encode Instruction.waitRecord_shapes (timer, value))
    | .barrier kind => .variant (.tail _ (.tail _ (.tail _ (.head _)))) (Shaped.fits kind)
  bounds := by
    have wait : (Instruction.waitRecord.shape Instruction.waitShapes).Bounds fun content =>
        (Codec.decode (ofVariant "WaitUntil" content) : Except Json.Fault Instruction) := by
      intro lo hi fill json i hole given found
      dsimp only at found
      rw [Instruction.decode_wait] at found
      obtain ⟨wait, read, -⟩ := bind_eq_ok_iff.1 found
      exact Instruction.waitRecord_lawful.bounds Instruction.waitRecord_shapes hole given read
    exact Shape.bounds_variants <| List.forall_mem_cons.2
      ⟨Shape.bounds_of_content Instruction.decode_write, List.forall_mem_cons.2
        ⟨Shape.bounds_of_content Instruction.decode_read, List.forall_mem_cons.2
          ⟨wait, List.forall_mem_singleton.2
            (Shape.bounds_of_content Instruction.decode_barrier)⟩⟩⟩

end Playback

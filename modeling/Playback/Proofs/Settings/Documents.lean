import Playback.Proofs.Json.Values
import Playback.Settings

/-! Settings as documents in a store. -/

set_option autoImplicit false

namespace Playback

theorem ExceptionPolicy.lawful : ExceptionPolicy.record.Lawful where
  names := by decide
  members := by simp [record]
  apart := by simp [record]
  ext := by
    rintro ⟨⟩ ⟨⟩
    simp [record, Json.Member.of]

instance : DocumentCodec ExceptionPolicy := ExceptionPolicy.lawful.documentCodec

theorem Settings.lawful : Settings.record.Lawful where
  names := by decide
  members := by simp [record]
  apart := by simp [record]
  ext := by
    rintro ⟨⟩ ⟨⟩
    simp [record, Json.Member.of]

instance : DocumentCodec Settings := Settings.lawful.documentCodec

namespace Store

variable {α : Type} [Codec α]

def document (a : α) : Bytes :=
  Json.pretty (Codec.encode a)

theorem decodeDocument_document [DocumentCodec α] (a : α) :
    decodeDocument (document a) = .ok a := by
  simp only [decodeDocument, document, Json.parse?_pretty (DocumentCodec.plain a),
    LawfulCodec.decode_encode]
  rfl

theorem document_ne_nil [DocumentCodec α] (a : α) : document a ≠ [] := by
  intro empty
  have read := decodeDocument_document a
  rw [empty] at read
  cases read

end Store

namespace Settings

def ofAnswer : Except StoreError Bytes → Except StoreError Settings
  | .ok [] | .error .notFound => .ok {}
  | .ok bytes => Store.decodeDocument bytes
  | .error e => .error e

theorem ofAnswer_ok {bytes : Bytes} (some : bytes ≠ []) :
    ofAnswer (.ok bytes) = Store.decodeDocument bytes := by
  cases bytes with
  | nil => exact absurd rfl some
  | cons b rest => rfl

theorem ofAnswer_document (settings : Settings) :
    ofAnswer (.ok (Store.document settings)) = .ok settings := by
  rw [ofAnswer_ok (Store.document_ne_nil settings), Store.decodeDocument_document]

theorem load_eq {σ : Type} [Store σ] (store : σ) :
    load store = (ofAnswer (Store.load key store).1, (Store.load key store).2) := by
  simp only [load, Store.loadValueOr, Store.loadValue?]
  rcases Store.load key store with ⟨answer, after⟩
  rcases answer with (_ | _ | _ | _ | _) | _ | ⟨b, rest⟩
  all_goals try rfl
  rw [ofAnswer_ok (List.cons_ne_nil b rest)]
  simp only
  cases Store.decodeDocument (α := Settings) (b :: rest) <;> rfl

end Settings

end Playback

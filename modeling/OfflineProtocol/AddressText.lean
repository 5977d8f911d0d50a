import OfflineProtocol.Bech32
import OfflineProtocol.SignedPayloads

/-! The one spelling of an address. -/
namespace OfflineProtocol.SignedPayloads
open ByteFraming List

inductive AddressError
  | notLowercase
  | invalidBech32m (reason : String)
  | hrpMismatch (found expected : String)
  | payloadLength (len expected : ℕ)
  | versionMismatch (found expected : UInt8)
  | nonCanonical
deriving DecidableEq

def hrpStr : String := "off"

/-- The library's Bech32m: a writer in lower case, and a reader that verifies the checksum
and gives back what was written. It may read more spellings than it writes. -/
structure Bech32m where
  encodeLower : String → Bytes → String
  checked : String → Except String (String × Bytes)
  lower : ∀ data, (encodeLower hrpStr data).toList.any Char.isUpper = false
  checked_encode : ∀ data, data.length = 21 →
    checked (encodeLower hrpStr data) = .ok (hrpStr, data)

/-- Bech32m itself: the checksum of its own constant, over symbols of five bits. -/
def bech32m : Bech32m where
  encodeLower := Bech32.encodeLower 0x2bc830a3
  checked := Bech32.checked 0x2bc830a3
  lower := Bech32.encodeLower_lower (by decide) _
  checked_encode data _ := Bech32.checked_encodeLower (by decide) (by decide) _ data

namespace Address
variable (lib : Bech32m)

def fromPayload (payload : Bytes) : Except AddressError Address :=
  if h : payload.length = 21 then
    if payload.getD 0 0 ≠ 1 then .error (.versionMismatch (payload.getD 0 0) 1)
    else .ok ⟨⟨payload.drop 1, by rw [length_drop, h]⟩⟩
  else .error (.payloadLength payload.length 21)

def display (address : Address) : String := lib.encodeLower hrpStr address.payload

def fromStr (s : String) : Except AddressError Address :=
  if s.toList.any Char.isUpper then .error .notLowercase
  else
    match lib.checked s with
    | .error reason => .error (.invalidBech32m reason)
    | .ok (hrp, payload) =>
      if hrp ≠ hrpStr then .error (.hrpMismatch hrp hrpStr)
      else
        match fromPayload payload with
        | .error e => .error e
        | .ok address => if address.display lib ≠ s then .error .nonCanonical else .ok address

lemma fromPayload_payload (a : Address) : fromPayload a.payload = .ok a := by
  rw [fromPayload, dif_pos a.payload_length]
  rfl

lemma fromStr_display (a : Address) : fromStr lib (a.display lib) = .ok a := by
  have hread : lib.checked (a.display lib) = .ok (hrpStr, a.payload) :=
    lib.checked_encode a.payload a.payload_length
  have hlower : (a.display lib).toList.any Char.isUpper = false := lib.lower a.payload
  simp [fromStr, hlower, hread, fromPayload_payload]

/-- What is accepted is compared with its spelling. -/
lemma display_of_fromStr (h : fromStr lib s = .ok a) : a.display lib = s := by
  unfold fromStr at h
  split at h
  · cases h
  split at h
  · cases h
  split at h
  · cases h
  split at h
  · cases h
  split at h
  · cases h
  rename_i heq
  obtain rfl := Except.ok.inj h
  exact not_not.1 heq

/-- Writing and reading an address are inverse to each other, between all addresses and
the strings that are accepted. -/
theorem address_spelled_once :
    (∀ s a, fromStr lib s = .ok a ↔ a.display lib = s) ∧
      Set.BijOn (display lib) Set.univ { s | ∃ a, fromStr lib s = .ok a } ∧
      ∀ s s' a, fromStr lib s = .ok a → fromStr lib s' = .ok a → s = s' := by
  have hiff (s a) : fromStr lib s = .ok a ↔ a.display lib = s := by
    refine ⟨display_of_fromStr lib, ?_⟩
    rintro rfl
    exact fromStr_display lib a
  refine ⟨hiff, ⟨fun a _ => ⟨a, fromStr_display lib a⟩, fun a _ b _ hab => ?_, ?_⟩, ?_⟩
  · have hread := fromStr_display lib a
    rw [hab, fromStr_display] at hread
    exact (Except.ok.inj hread).symm
  · rintro s ⟨a, ha⟩
    exact ⟨a, trivial, (hiff s a).1 ha⟩
  · intro s s' a hs hs'
    rw [← (hiff s a).1 hs, (hiff s' a).1 hs']

/-- The address of twenty zero bytes, and its spellings with other padding bits or a further
symbol, whose checksums hold. -/
theorem address_spelled_once_zeros :
    fromStr bech32m "off1qyqqqqqqqqqqqqqqqqqqqqqqqqqqqqqqqqn8antf" = .ok ⟨⟨replicate 20 0, rfl⟩⟩ ∧
      fromStr bech32m "off1qyqqqqqqqqqqqqqqqqqqqqqqqqqqqqqqqpw3fxkm" = .error .nonCanonical ∧
      fromStr bech32m "off1qyqqqqqqqqqqqqqqqqqqqqqqqqqqqqqqqqqj7v8n5" = .error .nonCanonical :=
  ⟨((address_spelled_once bech32m).1 _ _).2 (by decide +kernel), by decide +kernel,
    by decide +kernel⟩

end Address

end OfflineProtocol.SignedPayloads

import OfflineProtocol.ByteFraming
import Mathlib.Data.Nat.Size

/-! Padding of the direct messages that go over Nostr. -/
namespace OfflineProtocol.Nip44
open ByteFraming List Nat

def extendedThreshold : ℕ := 65536

def maxPlaintextLen : ℕ := 1024 * 1024

inductive PadError
  | crypto (text : String)
  | messageTooLarge (size ceiling : ℕ)
  deriving DecidableEq

def chunkOf (nextPower : ℕ) : ℕ := if nextPower ≤ 256 then 32 else nextPower / 8

/-- `size` is the number of bits that `leading_zeros` leaves. -/
def calcPaddedLen (unpaddedLen : ℕ) : ℕ :=
  if unpaddedLen ≤ 32 then 32
  else
    let chunk := chunkOf (2 ^ size (unpaddedLen - 1))
    chunk * ((unpaddedLen - 1) / chunk + 1)

def lengthBytes (n : ℕ) : Bytes :=
  if extendedThreshold ≤ n then [0, 0] ++ beBytes 4 n else beBytes 2 n

def pad (plaintext : Bytes) : Except PadError Bytes :=
  let n := plaintext.length
  if n = 0 then .error (.crypto "NIP-44: plaintext must be at least 1 byte")
  else if maxPlaintextLen < n then .error (.messageTooLarge n maxPlaintextLen)
  else .ok (lengthBytes n ++ plaintext ++ replicate (calcPaddedLen n - n) 0)

def invalid : PadError := .crypto "NIP-44: invalid padding"

def unpadFrom (padded : Bytes) (start len : ℕ) : Except PadError Bytes :=
  if maxPlaintextLen < len then .error (.messageTooLarge len maxPlaintextLen)
  else if padded.length ≠ start + calcPaddedLen len then .error invalid
  else if padded.length < start + len then .error invalid
  else .ok ((padded.drop start).take len)

def unpad (padded : Bytes) : Except PadError Bytes :=
  if padded.length < 2 then .error invalid
  else if fromBeBytes (padded.take 2) = 0 then
    if padded.length < 6 then .error invalid
    else if fromBeBytes ((padded.drop 2).take 4) < extendedThreshold then .error invalid
    else unpadFrom padded 6 (fromBeBytes ((padded.drop 2).take 4))
  else unpadFrom padded 2 (fromBeBytes (padded.take 2))

lemma chunkOf_dvd (h : 6 ≤ k) : chunkOf (2 ^ k) ∣ 2 ^ k ∧ 0 < chunkOf (2 ^ k) := by
  unfold chunkOf
  split_ifs with hle
  · exact ⟨pow_dvd_pow 2 (by omega : 5 ≤ k), by decide⟩
  have hk : 2 ^ k = 8 * 2 ^ (k - 3) := by
    rw [show 8 = 2 ^ 3 from rfl, ← pow_add]
    congr 1
    omega
  rw [hk, Nat.mul_div_cancel_left _ (by decide)]
  exact ⟨dvd_mul_left _ _, pow_pos (by decide) _⟩

lemma six_le_size (h : 32 < n) : 6 ≤ size (n - 1) :=
  lt_size.2 (by omega)

lemma calcPaddedLen_eq (h : 32 < n) : calcPaddedLen n = chunkOf (2 ^ size (n - 1)) *
    ((n - 1) / chunkOf (2 ^ size (n - 1)) + 1) :=
  if_neg (not_le.2 h)

lemma le_calcPaddedLen (n) : n ≤ calcPaddedLen n := by
  by_cases h : n ≤ 32
  · rwa [calcPaddedLen, if_pos h]
  rw [not_le] at h
  rw [calcPaddedLen_eq h]
  have := lt_mul_div_succ (n - 1) (chunkOf_dvd (six_le_size h)).2
  omega

lemma calcPaddedLen_le (h : 32 < n) : calcPaddedLen n ≤ 2 ^ size (n - 1) := by
  obtain ⟨⟨q, hq⟩, hpos⟩ := chunkOf_dvd (six_le_size h)
  have hlt : (n - 1) / chunkOf (2 ^ size (n - 1)) < q := by
    apply Nat.div_lt_of_lt_mul
    rw [← hq]
    exact lt_size_self (n - 1)
  rw [calcPaddedLen_eq h]
  calc _ ≤ chunkOf (2 ^ size (n - 1)) * q := mul_le_mul_left _ hlt
    _ = _ := hq.symm

lemma least_le_calcPaddedLen (n) : 32 ≤ calcPaddedLen n := by
  have hle := le_calcPaddedLen n
  by_cases h : n ≤ 32
  · rw [calcPaddedLen, if_pos h]
  · omega

/-- A padded length lies between the same powers of two, on a chunk's end. -/
lemma calcPaddedLen_idem (n) : calcPaddedLen (calcPaddedLen n) = calcPaddedLen n := by
  by_cases h : n ≤ 32
  · have hleast : calcPaddedLen n = 32 := if_pos h
    rw [hleast]
    rfl
  rw [not_le] at h
  have hle := le_calcPaddedLen n
  have hsize : size (calcPaddedLen n - 1) = size (n - 1) := by
    apply le_antisymm
    · have := calcPaddedLen_le h
      exact size_le.2 (by omega)
    · exact size_le_size (by omega)
  have hpos := (chunkOf_dvd (six_le_size h)).2
  have heq := calcPaddedLen_eq h
  rw [calcPaddedLen_eq (by omega), hsize]
  generalize chunkOf (2 ^ size (n - 1)) = c at hpos heq ⊢
  have hlast : calcPaddedLen n - 1 = c * ((n - 1) / c) + (c - 1) := by
    rw [heq, mul_succ]
    omega
  rw [hlast, mul_add_div hpos, div_eq_of_lt (sub_lt hpos one_pos), heq]

lemma calcPaddedLen_mono (h : n ≤ m) : calcPaddedLen n ≤ calcPaddedLen m := by
  by_cases hleast : n ≤ 32
  · rw [calcPaddedLen, if_pos hleast]
    exact least_le_calcPaddedLen m
  rw [not_le] at hleast
  rcases (size_le_size (Nat.sub_le_sub_right h 1)).eq_or_lt with hsize | hsize
  · rw [calcPaddedLen_eq hleast, calcPaddedLen_eq (by omega), hsize]
    gcongr
  · have hpower := lt_size.1 hsize
    have hle := calcPaddedLen_le hleast
    have hm := le_calcPaddedLen m
    omega

lemma unpadFrom_ok_iff (hfront : front.length = start) :
    unpadFrom (front ++ body) start len = .ok m ↔ m.length = len ∧ len ≤ maxPlaintextLen ∧
      ∃ rest, body = m ++ rest ∧ rest.length = calcPaddedLen len - len := by
  have hle := le_calcPaddedLen len
  subst hfront
  unfold unpadFrom
  rw [length_append, drop_left]
  split_ifs with hmax hlen hshort
  · simp [not_le.2 hmax]
  · simp only [false_iff]
    rintro ⟨hm, -, rest, rfl, hrest⟩
    rw [length_append] at hlen
    omega
  · omega
  · constructor
    · intro h
      obtain rfl := Except.ok.inj h
      refine ⟨by rw [length_take]; omega, not_lt.1 hmax, body.drop len, ?_, ?_⟩
      · rw [take_append_drop]
      · rw [length_drop]
        omega
    · rintro ⟨rfl, -, rest, rfl, -⟩
      rw [take_left]

/-- What `unpad` accepts: the length of the plaintext, the plaintext, and as many bytes as
`pad` would have added, whichever bytes they are. -/
lemma unpad_ok_iff : unpad p = .ok m ↔ (m.length ≠ 0 ∧ m.length ≤ maxPlaintextLen) ∧
    ∃ rest, p = lengthBytes m.length ++ m ++ rest ∧
      rest.length = calcPaddedLen m.length - m.length := by
  constructor
  · intro h
    unfold unpad at h
    have hback := beBytes_fromBeBytes (p.take 2)
    split_ifs at h with htwo hzero hsix hext
    · have hlen := beBytes_fromBeBytes ((p.drop 2).take 4)
      generalize fromBeBytes ((p.drop 2).take 4) = len at h hext hlen
      rw [← take_append_drop 6 p, unpadFrom_ok_iff (by rw [length_take]; omega)] at h
      obtain ⟨rfl, hmax, rest, hbody, hrest⟩ := h
      refine ⟨⟨?_, hmax⟩, rest, ?_, hrest⟩
      · intro hm
        rw [hm] at hext
        exact hext (by decide)
      rw [length_take, length_drop, min_eq_left (by omega)] at hlen
      rw [hzero, length_take, min_eq_left (by omega)] at hback
      have hhead : p.take 6 = lengthBytes m.length := by
        rw [lengthBytes, if_pos (not_lt.1 hext), hlen.1, take_add (i := 2) (j := 4), ← hback.1]
        rfl
      rw [append_assoc, ← hbody, ← hhead, take_append_drop]
    · generalize fromBeBytes (p.take 2) = len at h hzero hback
      rw [← take_append_drop 2 p, unpadFrom_ok_iff (by rw [length_take]; omega)] at h
      obtain ⟨rfl, hmax, rest, hbody, hrest⟩ := h
      refine ⟨⟨hzero, hmax⟩, rest, ?_, hrest⟩
      rw [length_take, min_eq_left (by omega)] at hback
      have hshort : ¬extendedThreshold ≤ m.length := not_le.2 hback.2
      rw [lengthBytes, if_neg hshort, hback.1, append_assoc, ← hbody, take_append_drop]
  · rintro ⟨⟨hne, hmax⟩, rest, rfl, hrest⟩
    have hfrom (front : Bytes) (start) (hfront : front.length = start) :
        unpadFrom (front ++ (m ++ rest)) start m.length = .ok m :=
      (unpadFrom_ok_iff hfront).2 ⟨rfl, hmax, rest, rfl, hrest⟩
    have hfour : m.length < 256 ^ 4 := hmax.trans_lt (by decide)
    rw [append_assoc]
    unfold lengthBytes
    split_ifs with hext
    · have hlen : fromBeBytes ((([0, 0] ++ beBytes 4 m.length ++ (m ++ rest)).drop 2).take 4) =
          m.length := by
        rw [append_assoc]
        exact (congrArg _ (take_left' beBytes_length)).trans (fromBeBytes_beBytes hfour)
      unfold unpad
      rw [hlen, if_neg (by simp), if_pos (by rfl), if_neg (by simp), if_neg (not_lt.2 hext)]
      exact hfrom _ 6 (by simp)
    · have hlen : fromBeBytes ((beBytes 2 m.length ++ (m ++ rest)).take 2) = m.length := by
        rw [take_left' beBytes_length, fromBeBytes_beBytes (not_le.1 hext)]
      unfold unpad
      rw [hlen, if_neg (by rw [length_append, beBytes_length]; omega), if_neg hne]
      exact hfrom _ 2 beBytes_length

lemma pad_ok_iff : pad m = .ok p ↔ (m.length ≠ 0 ∧ m.length ≤ maxPlaintextLen) ∧
    p = lengthBytes m.length ++ m ++ replicate (calcPaddedLen m.length - m.length) 0 := by
  unfold pad
  dsimp only
  split_ifs with hne hmax
  · simp [hne]
  · simp [not_le.2 hmax]
  · rw [Except.ok.injEq, eq_comm]
    exact ⟨fun h => ⟨⟨hne, not_lt.1 hmax⟩, h⟩, fun h => h.2⟩

/-- What stands in `p` behind the plaintext. -/
def paddingOf (p m : Bytes) : Bytes := p.drop ((lengthBytes m.length).length + m.length)

/-- Padding is undone, padded lengths are well behaved, and what `unpad` accepts is what
`pad` writes if and only if the padding is made of zeros. -/
theorem padding_canonical_iff (p m : Bytes) :
    (1 ≤ m.length → m.length ≤ maxPlaintextLen → ∃ p, pad m = .ok p ∧ unpad p = .ok m) ∧
    (∀ n, n ≤ calcPaddedLen n ∧ 32 ≤ calcPaddedLen n ∧
      calcPaddedLen (calcPaddedLen n) = calcPaddedLen n) ∧
    Monotone calcPaddedLen ∧
    (unpad p = .ok m → (pad m = .ok p ↔ ∀ byte ∈ paddingOf p m, byte = 0)) := by
  refine ⟨fun hpos hmax => ?_, fun n => ?_, fun n m => calcPaddedLen_mono, fun h => ?_⟩
  · refine ⟨_, pad_ok_iff.2 ⟨⟨by omega, hmax⟩, rfl⟩, unpad_ok_iff.2 ⟨⟨by omega, hmax⟩, _, rfl, ?_⟩⟩
    exact length_replicate
  · exact ⟨le_calcPaddedLen n, least_le_calcPaddedLen n, calcPaddedLen_idem n⟩
  obtain ⟨hm, rest, rfl, hrest⟩ := unpad_ok_iff.1 h
  have hpadding : paddingOf (lengthBytes m.length ++ m ++ rest) m = rest := by
    rw [paddingOf, ← length_append, drop_left]
  rw [pad_ok_iff, hpadding, append_right_inj, eq_replicate_iff]
  exact ⟨fun h => h.2.2, fun h => ⟨hm, hrest, h⟩⟩

/-- One byte and padding that is not zero: accepted, and not what `pad` writes. -/
theorem nonzero_padding_accepted :
    unpad ([0, 1, 7] ++ replicate 31 1) = .ok [7] ∧ pad [7] ≠ .ok ([0, 1, 7] ++ replicate 31 1) := by
  decide

end OfflineProtocol.Nip44

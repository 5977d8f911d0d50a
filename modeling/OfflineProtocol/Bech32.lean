import OfflineProtocol.ByteFraming

/-! Strings with a checksum: a readable part, the digit one, and five-bit symbols, the last six
of which check the rest. The check is the remainder of a linear map, so six symbols bring it to
any target. -/
namespace Bech32
open ByteFraming List

abbrev Symbol := BitVec 5

/-! ## The checksum -/

def feedback (c : BitVec 30) : BitVec 30 :=
  let tap (i : ℕ) (g : BitVec 30) := if c.getLsbD i then g else 0#30
  tap 25 0x3b6a57b2 ^^^ tap 26 0x26508e6d ^^^ tap 27 0x1ea119fa ^^^ tap 28 0x3d4233dd ^^^
    tap 29 0x2a1462b3

def shift (c : BitVec 30) : BitVec 30 := c <<< 5 ^^^ feedback c

def step (c : BitVec 30) (v : Symbol) : BitVec 30 := shift c ^^^ v.setWidth 30

def polymod (symbols : List Symbol) : BitVec 30 := symbols.foldl step 1

/-- The lowest `n` symbols of a word, the highest first. -/
def symbolsOf : ℕ → BitVec 30 → List Symbol
  | 0, _ => []
  | n + 1, p => symbolsOf n (p >>> 5) ++ [p.setWidth 5]

/-- What the remainder of six further zeros lacks to the target. -/
def checksum (target : BitVec 30) (symbols : List Symbol) : List Symbol :=
  symbolsOf 6 (shift^[6] (polymod symbols) ^^^ target)

lemma feedback_xor (x y) : feedback (x ^^^ y) = feedback x ^^^ feedback y := by
  have htap (a b : Bool) (g : BitVec 30) : (if (a ^^ b) = true then g else 0#30) =
      (if a = true then g else 0#30) ^^^ (if b = true then g else 0#30) := by
    cases a <;> cases b <;> simp
  simp only [feedback, BitVec.getLsbD_xor, htap]
  ac_rfl

lemma shift_xor (x y) : shift (x ^^^ y) = shift x ^^^ shift y := by
  rw [shift, shift, shift, feedback_xor, BitVec.shiftLeft_xor_distrib]
  ac_rfl

lemma shift_ushiftRight (p : BitVec 30) : shift (p >>> 5) = p >>> 5 <<< 5 := by
  have hfeed : feedback (p >>> 5) = 0#30 := by
    simp [feedback]
  rw [shift, hfeed, BitVec.xor_zero]

lemma split_low (p : BitVec 30) : p >>> 5 <<< 5 ^^^ (p.setWidth 5).setWidth 30 = p := by
  apply BitVec.eq_of_getLsbD_eq
  intro i hi
  by_cases hlow : i < 5
  · simp [hlow, hi]
  · have hsum : 5 + (i - 5) = i := by omega
    simp [hlow, hi, hsum]

/-- Feeding in the symbols of a word adds the word to the remainder. -/
lemma foldl_symbolsOf (c : BitVec 30) {n} {p : BitVec 30} (h : p >>> (5 * n) = 0#30) :
    (symbolsOf n p).foldl step c = shift^[n] c ^^^ p := by
  induction n generalizing p with
  | zero =>
    have hzero : p = 0#30 := h
    rw [hzero, BitVec.xor_zero]
    rfl
  | succ n ih =>
    have hhigh : p >>> 5 >>> (5 * n) = 0#30 := by
      rw [← BitVec.shiftRight_add, show 5 + 5 * n = 5 * (n + 1) by omega]
      exact h
    rw [symbolsOf, foldl_append, ih hhigh, foldl_cons, foldl_nil, step, shift_xor,
      shift_ushiftRight, BitVec.xor_assoc, split_low, Function.iterate_succ_apply']

lemma polymod_checksum (target symbols) :
    polymod (symbols ++ checksum target symbols) = target := by
  have hsum (x : BitVec 30) : x >>> (5 * 6) = 0#30 := by
    apply BitVec.eq_of_getLsbD_eq
    intro i hi
    simp [BitVec.getLsbD_of_ge]
  rw [polymod, foldl_append, checksum, foldl_symbolsOf _ (hsum _), ← BitVec.xor_assoc, polymod,
    BitVec.xor_self, BitVec.zero_xor]

/-! ## Bytes as symbols -/

def toSymbols : ℕ → ℕ → List Symbol
  | 0, _ => []
  | m + 1, n => toSymbols m (n / 32) ++ [BitVec.ofNat 5 n]

def fromSymbols (symbols : List Symbol) : ℕ := symbols.foldl (fun n v => n * 32 + v.toNat) 0

@[simp]
lemma toSymbols_length : (toSymbols m n).length = m := by
  induction m generalizing n with
  | zero => rfl
  | succ m ih => rw [toSymbols, length_append, ih, length_singleton]

lemma fromSymbols_toSymbols (h : n < 32 ^ m) : fromSymbols (toSymbols m n) = n := by
  induction m generalizing n with
  | zero =>
    rw [pow_zero] at h
    exact (Nat.lt_one_iff.1 h).symm
  | succ m ih =>
    rw [pow_succ] at h
    have hhigh : fromSymbols (toSymbols m (n / 32)) = n / 32 := ih (by omega)
    unfold fromSymbols at hhigh ⊢
    rw [toSymbols, foldl_append, hhigh]
    simp
    omega

/-- The last symbol is filled up with zero bits. -/
def ofBytes (data : Bytes) : List Symbol :=
  let m := (data.length * 8 + 4) / 5
  toSymbols m (fromBeBytes data * 2 ^ (m * 5 - data.length * 8))

/-- Bits that do not make up a byte are dropped, whatever they are. -/
def toBytes (symbols : List Symbol) : Bytes :=
  beBytes (symbols.length * 5 / 8) (fromSymbols symbols / 2 ^ (symbols.length * 5 % 8))

lemma toBytes_ofBytes (data) : toBytes (ofBytes data) = data := by
  obtain ⟨hdata, hlt⟩ := beBytes_fromBeBytes data
  unfold toBytes ofBytes
  dsimp only
  rw [toSymbols_length]
  generalize hm : (data.length * 8 + 4) / 5 = m
  have hbits : 32 ^ m = 256 ^ data.length * 2 ^ (m * 5 - data.length * 8) := by
    rw [show 32 = 2 ^ 5 by rfl, show 256 = 2 ^ 8 by rfl, ← pow_mul, ← pow_mul, ← pow_add]
    congr 1
    omega
  rw [fromSymbols_toSymbols, show m * 5 / 8 = data.length by omega,
    show m * 5 % 8 = m * 5 - data.length * 8 by omega, Nat.mul_div_cancel _ (Nat.two_pow_pos _), hdata]
  rw [hbits]
  exact Nat.mul_lt_mul_of_pos_right hlt (Nat.two_pow_pos _)

/-! ## Strings -/

def charset : List Char := "qpzry9x8gf2tvdw0s3jn54khce6mua7l".toList

def charOf (v : Symbol) : Char := charset.getD v.toNat 'q'

def symbolOf (c : Char) : Option Symbol := (charset.idxOf? c).map (BitVec.ofNat 5)

def expand (hrp : List Char) : List Symbol :=
  hrp.map (fun c => BitVec.ofNat 5 (c.toNat / 32)) ++ 0 ::
    hrp.map fun c => BitVec.ofNat 5 c.toNat

def encodeLower (target : BitVec 30) (hrp : String) (data : Bytes) : String :=
  let symbols := ofBytes data
  String.ofList (hrp.toList ++ '1' ::
    (symbols ++ checksum target (expand hrp.toList ++ symbols)).map charOf)

/-- Splits at the last digit one; any case is read, but not both. -/
def checked (target : BitVec 30) (s : String) : Except String (String × Bytes) :=
  if s.toList.any Char.isUpper && s.toList.any Char.isLower then .error "mixed case"
  else
    let reversed := (s.toList.map Char.toLower).reverse
    match reversed.dropWhile (· ≠ '1') with
    | [] => .error "missing separator"
    | _ :: hrp =>
      match (reversed.takeWhile (· ≠ '1')).reverse.mapM symbolOf with
      | none => .error "invalid character"
      | some symbols =>
        if symbols.length < 6 then .error "checksum too short"
        else if polymod (expand hrp.reverse ++ symbols) ≠ target then .error "invalid checksum"
        else .ok (String.ofList hrp.reverse, toBytes (symbols.take (symbols.length - 6)))

lemma charOf_spec : ∀ v : Symbol, symbolOf (charOf v) = some v ∧ charOf v ≠ '1' ∧
    (charOf v).isUpper = false ∧ (charOf v).toLower = charOf v := by
  decide +kernel

lemma mapM_symbolOf (symbols : List Symbol) : (symbols.map charOf).mapM symbolOf = some symbols := by
  induction symbols with
  | nil => rfl
  | cons v symbols ih => simp [ih, (charOf_spec v).1]

lemma encodeLower_lower {hrp : String} (hhrp : hrp.toList.any Char.isUpper = false) (target data) :
    (encodeLower target hrp data).toList.any Char.isUpper = false := by
  rw [any_eq_false] at hhrp ⊢
  intro c hc
  simp only [encodeLower, String.toList_ofList, mem_append, mem_cons, mem_map] at hc
  rcases hc with hc | rfl | ⟨v, -, rfl⟩
  · exact hhrp c hc
  · decide
  · simp [(charOf_spec v).2.2.1]

/-- What is written is read back. -/
lemma checked_encodeLower {hrp : String} (hhrp : hrp.toList.any Char.isUpper = false)
    (hsame : hrp.toList.map Char.toLower = hrp.toList) (target data) :
    checked target (encodeLower target hrp data) = .ok (hrp, data) := by
  have hlower := encodeLower_lower hhrp target data
  have hcheck := polymod_checksum target (expand hrp.toList ++ ofBytes data)
  have hsix : (checksum target (expand hrp.toList ++ ofBytes data)).length = 6 := rfl
  have hchars : (encodeLower target hrp data).toList.map Char.toLower = hrp.toList ++ '1' ::
      (ofBytes data ++ checksum target (expand hrp.toList ++ ofBytes data)).map charOf := by
    have hkept : Char.toLower ∘ charOf = charOf := funext fun v => (charOf_spec v).2.2.2
    simp [encodeLower, hsame, hkept]
  generalize checksum target (expand hrp.toList ++ ofBytes data) = check at hcheck hsix hchars
  have hones : ∀ c ∈ ((ofBytes data ++ check).map charOf).reverse, decide (c ≠ '1') = true := by
    intro c hc
    obtain ⟨v, -, rfl⟩ := mem_map.1 (mem_reverse.1 hc)
    exact decide_eq_true (charOf_spec v).2.1
  have hread : ((encodeLower target hrp data).toList.map Char.toLower).reverse =
      ((ofBytes data ++ check).map charOf).reverse ++ '1' :: hrp.toList.reverse := by
    rw [hchars, reverse_append, reverse_cons, append_assoc, singleton_append]
  have htaken : takeWhile (fun c => decide (c ≠ '1')) ('1' :: hrp.toList.reverse) = [] := rfl
  simp only [checked, hlower, hread, dropWhile_append_of_pos hones, takeWhile_append_of_pos hones,
    htaken, append_nil, reverse_reverse, mapM_symbolOf]
  simp [dropWhile, ← append_assoc, hcheck, hsix, toBytes_ofBytes]

end Bech32

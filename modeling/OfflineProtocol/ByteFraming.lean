import Mathlib.Data.List.Induction
import Mathlib.Data.Set.Function
import Mathlib.Tactic.Ring

/-! Byte strings built by concatenation: fixed-width big-endian numbers,
length-prefixed fields, and tags none of which starts another. -/
namespace ByteFraming
open List

abbrev Bytes := List UInt8

abbrev FixedBytes (n : ℕ) := { bytes : Bytes // bytes.length = n }

def beBytes : ℕ → ℕ → Bytes
  | 0, _ => []
  | w + 1, n => beBytes w (n / 256) ++ [UInt8.ofNat n]

@[simp]
lemma beBytes_length : (beBytes w n).length = w := by
  induction w generalizing n with
  | zero => rfl
  | succ w ih => rw [beBytes, length_append, ih, length_singleton]

lemma beBytes_inj (hm : m < 256 ^ w) (hn : n < 256 ^ w)
    (h : beBytes w m = beBytes w n) : m = n := by
  induction w generalizing m n with
  | zero =>
    rw [pow_zero] at hm hn
    omega
  | succ w ih =>
    rw [pow_succ] at hm hn
    obtain ⟨hhigh, hlow⟩ := append_inj h (by rw [beBytes_length, beBytes_length])
    have hquota : m / 256 = n / 256 := ih (by omega) (by omega) hhigh
    have hbyte : UInt8.ofNat m = UInt8.ofNat n := singleton_inj.1 hlow
    have hrem : m % 256 = n % 256 := by
      have hnat := congrArg UInt8.toNat hbyte
      simpa using hnat
    omega

def fromBeBytes (bytes : Bytes) : ℕ := bytes.foldl (fun n byte => n * 256 + byte.toNat) 0

lemma fromBeBytes_beBytes (h : n < 256 ^ w) : fromBeBytes (beBytes w n) = n := by
  induction w generalizing n with
  | zero =>
    rw [pow_zero] at h
    exact (Nat.lt_one_iff.1 h).symm
  | succ w ih =>
    rw [pow_succ] at h
    have hhigh : fromBeBytes (beBytes w (n / 256)) = n / 256 := ih (by omega)
    unfold fromBeBytes at hhigh ⊢
    rw [beBytes, foldl_append, hhigh]
    simp
    omega

lemma beBytes_fromBeBytes (bytes) :
    beBytes bytes.length (fromBeBytes bytes) = bytes ∧ fromBeBytes bytes < 256 ^ bytes.length := by
  induction bytes using reverseRecOn with
  | nil => exact ⟨rfl, Nat.one_pos⟩
  | append_singleton bytes byte ih =>
    have hbyte := byte.toNat_lt
    have hsplit : fromBeBytes (bytes ++ [byte]) = fromBeBytes bytes * 256 + byte.toNat := by
      simp [fromBeBytes]
    have hhigh : (fromBeBytes bytes * 256 + byte.toNat) / 256 = fromBeBytes bytes := by omega
    have hlow : UInt8.ofNat (fromBeBytes bytes * 256 + byte.toNat) = byte := by
      refine UInt8.toNat_inj.1 ?_
      rw [UInt8.toNat_ofNat']
      omega
    rw [length_append, length_singleton, hsplit, beBytes, hhigh, hlow, ih.1, pow_succ]
    exact ⟨rfl, by omega⟩

def leBytes (w n : ℕ) : Bytes := (beBytes w n).reverse

lemma eq_leBytes_iff :
    bytes.length = w ∧ fromBeBytes bytes.reverse = n ↔ bytes = leBytes w n ∧ n < 256 ^ w := by
  constructor
  · rintro ⟨rfl, rfl⟩
    obtain ⟨hback, hlt⟩ := beBytes_fromBeBytes bytes.reverse
    rw [length_reverse] at hback hlt
    exact ⟨by rw [leBytes, hback, reverse_reverse], hlt⟩
  · rintro ⟨rfl, hlt⟩
    refine ⟨by rw [leBytes, length_reverse, beBytes_length], ?_⟩
    rw [leBytes, reverse_reverse, fromBeBytes_beBytes hlt]

def lengthPrefixed (w : ℕ) (field : Bytes) : Bytes :=
  beBytes w field.length ++ field

/-- Where a field ends is read off its prefix, whatever follows. -/
lemma lengthPrefixed_append_inj (hf : f.length < 256 ^ w)
    (hg : g.length < 256 ^ w) (h : lengthPrefixed w f ++ x = lengthPrefixed w g ++ y) :
    f = g ∧ x = y := by
  simp only [lengthPrefixed, append_assoc] at h
  obtain ⟨hlength, hrest⟩ := append_inj h (by rw [beBytes_length, beBytes_length])
  exact append_inj hrest (beBytes_inj hf hg hlength)

def framed (w : ℕ) (fields : List Bytes) : Bytes :=
  fields.flatMap (lengthPrefixed w)

@[simp]
lemma framed_cons (w f fs) : framed w (f :: fs) = lengthPrefixed w f ++ framed w fs := rfl

lemma framed_cons_ne_nil (hw : 0 < w) : framed w (f :: fs) ≠ [] := by
  intro h
  have hlength := congrArg length h
  simp only [framed_cons, lengthPrefixed, length_append, beBytes_length, length_nil] at hlength
  omega

lemma framed_inj (hw : 0 < w) (hfs : ∀ f ∈ fs, f.length < 256 ^ w)
    (hgs : ∀ g ∈ gs, g.length < 256 ^ w) (h : framed w fs = framed w gs) : fs = gs := by
  induction fs generalizing gs with
  | nil =>
    cases gs with
    | nil => rfl
    | cons g gs => exact absurd h.symm (framed_cons_ne_nil hw)
  | cons f fs ih =>
    cases gs with
    | nil => exact absurd h (framed_cons_ne_nil hw)
    | cons g gs =>
      rw [forall_mem_cons] at hfs hgs
      obtain ⟨hfield, hrest⟩ := lengthPrefixed_append_inj hfs.1 hgs.1 h
      rw [hfield, ih hfs.2 hgs.2 hrest]

def Separated (d e : Bytes) : Prop :=
  ¬d <+: e ∧ ¬e <+: d

instance (d e : Bytes) : Decidable (Separated d e) :=
  inferInstanceAs (Decidable (¬d <+: e ∧ ¬e <+: d))

lemma Separated.not_leads (h : Separated d e) (hd : d <+: bytes) : ¬e <+: bytes := by
  intro he
  rcases prefix_or_prefix_of_prefix hd he with hde | hed
  · exact h.1 hde
  · exact h.2 hed

lemma Separated.symm (h : Separated d e) : Separated e d :=
  ⟨h.2, h.1⟩

end ByteFraming

import OfflineProtocol.ByteFraming
import Mathlib.Data.List.Basic

/-! A serialization that writes the values of a record one after another, without names:
numbers in groups of seven bits, the least first, and sequences behind their length. A
format is its writer and its reader together with their law. -/
namespace Postcard
open ByteFraming List

/-- The text of UTF-8 bytes, if they are some. -/
def fromUtf8 (bytes : Bytes) : Option String := String.fromUTF8? bytes.toByteArray

lemma fromUtf8_iff {bytes : Bytes} {text : String} :
    fromUtf8 bytes = some text ↔ text.toList.flatMap String.utf8EncodeChar = bytes := by
  have hencoded : text.toByteArray = (text.toList.flatMap String.utf8EncodeChar).toByteArray :=
    String.utf8Encode_toList.symm
  have hinj {l l' : Bytes} (h : l.toByteArray = l'.toByteArray) : l = l' := by
    simpa using congrArg (fun b => b.data.toList) h
  unfold fromUtf8 String.fromUTF8?
  constructor
  · intro h
    split_ifs at h with hvalid
    cases h
    exact hinj hencoded.symm
  · rintro rfl
    have hvalid : (text.toList.flatMap String.utf8EncodeChar).toByteArray.IsValidUTF8 :=
      ⟨text.toList, rfl⟩
    rw [dif_pos hvalid]
    exact congrArg some (String.toByteArray_inj.1 hencoded.symm)

/-- At most `fuel` bytes that another follows, and the last one. -/
def writeVarint : ℕ → ℕ → Bytes
  | 0, n => [UInt8.ofNat n]
  | fuel + 1, n =>
    if n < 128 then [UInt8.ofNat n] else UInt8.ofNat (n % 128 + 128) :: writeVarint fuel (n / 128)

def readVarint : Bytes → Option (ℕ × Bytes)
  | [] => none
  | b :: rest =>
    if b.toNat < 128 then some (b.toNat, rest)
    else (readVarint rest).map fun (n, rest) => (b.toNat - 128 + 128 * n, rest)

/-- Whatever follows, the reader stops where the number ends. -/
lemma readVarint_writeVarint (rest : Bytes) (h : n ≤ fuel) :
    readVarint (writeVarint fuel n ++ rest) = some (n, rest) := by
  have hlast {n : ℕ} (hn : n < 128) : readVarint (UInt8.ofNat n :: rest) = some (n, rest) := by
    have hbyte : (UInt8.ofNat n).toNat = n := by
      rw [UInt8.toNat_ofNat']
      omega
    rw [readVarint, hbyte, if_pos hn]
  induction fuel generalizing n with
  | zero => exact hlast (by omega)
  | succ fuel ih =>
    rw [writeVarint]
    split_ifs with hsmall
    · exact hlast hsmall
    have hbyte : (UInt8.ofNat (n % 128 + 128)).toNat = n % 128 + 128 := by
      rw [UInt8.toNat_ofNat']
      omega
    rw [cons_append, readVarint, if_neg (by omega), ih (by omega), Option.map_some]
    simp only [hbyte]
    congr 2
    omega

structure Format (α : Type) where
  write : α → Bytes
  read : Bytes → Option (α × Bytes)
  read_write : ∀ a rest, read (write a ++ rest) = some (a, rest)

namespace Format
variable {α β : Type}

def byte : Format UInt8 where
  write b := [b]
  read
    | [] => none
    | b :: rest => some (b, rest)
  read_write _ _ := rfl

def size : Format ℕ where
  write n := writeVarint n n
  read := readVarint
  read_write _ rest := readVarint_writeVarint rest le_rfl

def pair (f : Format α) (g : Format β) : Format (α × β) where
  write p := f.write p.1 ++ g.write p.2
  read bytes := (f.read bytes).bind fun (a, rest) =>
    (g.read rest).map fun (b, rest) => ((a, b), rest)
  read_write p rest := by simp [f.read_write, g.read_write]

/-- Values written as others, of which the reader may refuse some. -/
def mapped (f : Format α) (into : β → α) (back : α → Option β) (h : ∀ b, back (into b) = some b) :
    Format β where
  write b := f.write (into b)
  read bytes := (f.read bytes).bind fun (a, rest) => (back a).map (·, rest)
  read_write b rest := by simp [f.read_write, h]

def bool : Format Bool :=
  byte.mapped (fun b => if b then 1 else 0)
    (fun b => if b = 0 then some false else if b = 1 then some true else none) (by decide)

def option (f : Format α) : Format (Option α) where
  write
    | none => [0]
    | some a => 1 :: f.write a
  read
    | [] => none
    | b :: rest =>
      if b = 0 then some (none, rest)
      else if b = 1 then (f.read rest).map fun (a, rest) => (some a, rest)
      else none
  read_write a rest := by cases a <;> simp [f.read_write]

def number (bits : ℕ) : Format (BitVec bits) :=
  size.mapped BitVec.toNat (fun n => if n < 2 ^ bits then some (BitVec.ofNat bits n) else none)
    fun v => by simp [v.isLt]

/-- A signed number, with its sign in the lowest bit. -/
def zigzag : Format Int64 :=
  (number 64).mapped
    (fun v => BitVec.ofNat 64 (if 0 ≤ v.toInt then 2 * v.toInt else -2 * v.toInt - 1).toNat)
    (fun v => some (Int64.ofInt
      (if v.toNat % 2 = 0 then (v.toNat / 2 : ℕ) else -((v.toNat / 2 : ℕ) : ℤ) - 1)))
    fun v => by
      have hlow := v.le_toInt
      have hhigh := v.toInt_lt
      rw [← Int64.ofInt_toInt v]
      congr 2
      rw [Int64.ofInt_toInt, BitVec.toNat_ofNat]
      split_ifs <;> omega

def bytes : Format Bytes where
  write b := size.write b.length ++ b
  read data := (size.read data).bind fun (n, rest) =>
    if n ≤ rest.length then some (rest.take n, rest.drop n) else none
  read_write b rest := by simp [size.read_write]

def text : Format String :=
  bytes.mapped (fun text => text.toList.flatMap String.utf8EncodeChar) fromUtf8
    fun _ => fromUtf8_iff.2 rfl

def fixed (n : ℕ) : Format (FixedBytes n) where
  write b := b.1
  read data :=
    if h : n ≤ data.length then some (⟨data.take n, by simp [h]⟩, data.drop n) else none
  read_write b rest := by
    obtain ⟨b, rfl⟩ := b
    simp

def readMany (f : Format α) : ℕ → Bytes → Option (List α × Bytes)
  | 0, data => some ([], data)
  | n + 1, data => (f.read data).bind fun (a, rest) =>
      (readMany f n rest).map fun (as, rest) => (a :: as, rest)

lemma readMany_flatMap (f : Format α) (as : List α) (rest : Bytes) :
    f.readMany as.length (as.flatMap f.write ++ rest) = some (as, rest) := by
  induction as with
  | nil => rfl
  | cons a as ih => simp [readMany, f.read_write, ih]

def list (f : Format α) : Format (List α) where
  write as := size.write as.length ++ as.flatMap f.write
  read data := (size.read data).bind fun (n, rest) => f.readMany n rest
  read_write as rest := by simp [size.read_write, readMany_flatMap]

end Format

end Postcard

/-!
# Hexadecimal text

Bytes written as two lower-case digits each, and read back with either case.

* `decode_encode`: what is written reads back.
* `encode_injective`, `isAlphanum_of_mem_encode`: different bytes are written differently, in
  letters and digits.
-/

namespace FundRecovery.Hex

/-- Why a text is no sequence of bytes. -/
inductive DecodeError where
  | oddLength
  | invalidCharacter (byte : UInt8) (position : Nat)
  deriving DecidableEq, Repr

/-- The lower-case digit of a value below sixteen. -/
def digit (n : Nat) : Char := Nat.digitChar n

/-- The value of the digit with this code, of either case. -/
def value? (code : Nat) : Option Nat :=
  if 48 ≤ code ∧ code ≤ 57 then some (code - 48)
  else if 97 ≤ code ∧ code ≤ 102 then some (code - 87)
  else if 65 ≤ code ∧ code ≤ 70 then some (code - 55)
  else none

/-- The two digits of a byte, the high one first. -/
def pair (b : UInt8) : List Char := [digit (b.toNat / 16), digit (b.toNat % 16)]

def encode (bytes : List UInt8) : String := String.ofList (bytes.flatMap pair)

/-- Reads digit pairs; `position` counts the bytes of the text before them. -/
def decodePairs (position : Nat) : List UInt8 → Except DecodeError (List UInt8)
  | [] => .ok []
  | [_] => .error .oddLength
  | a :: b :: rest =>
    match value? a.toNat, value? b.toNat with
    | none, _ => .error (.invalidCharacter a position)
    | some _, none => .error (.invalidCharacter b (position + 1))
    | some high, some low =>
      (decodePairs (position + 2) rest).map (UInt8.ofNat (16 * high + low) :: ·)

/-- The bytes that a text in UTF-8 stands for. An odd length is reported before any bad digit. -/
def decode (text : List UInt8) : Except DecodeError (List UInt8) :=
  if text.length % 2 = 1 then .error .oddLength else decodePairs 0 text

/-- `n` in lower-case digits, with zeros in front up to `width` digits. -/
def padded (width n : Nat) : String :=
  let digits := Nat.toDigits 16 n
  String.ofList (List.replicate (width - digits.length) '0' ++ digits)

theorem value?_digit {n : Nat} (h : n < 16) : value? (digit n).toNat = some n := by
  have : ∀ m, m < 16 → value? (digit m).toNat = some m := by decide
  exact this n h

theorem digit_lt {n : Nat} (h : n < 16) : (digit n).toNat < 128 := by
  have : ∀ m, m < 16 → (digit m).toNat < 128 := by decide
  exact this n h

private theorem decodePairs_pairs (bytes : List UInt8) (position : Nat) :
    decodePairs position ((bytes.flatMap pair).map fun c => UInt8.ofNat c.toNat) = .ok bytes := by
  induction bytes generalizing position with
  | nil => rfl
  | cons b rest ih =>
    have hb := b.toNat_lt
    have h1 : b.toNat / 16 < 16 := by omega
    have h2 : b.toNat % 16 < 16 := by omega
    have d1 := digit_lt h1
    have d2 := digit_lt h2
    have e1 : (UInt8.ofNat (digit (b.toNat / 16)).toNat).toNat = (digit (b.toNat / 16)).toNat := by
      rw [UInt8.toNat_ofNat']; omega
    have e2 : (UInt8.ofNat (digit (b.toNat % 16)).toNat).toNat = (digit (b.toNat % 16)).toNat := by
      rw [UInt8.toNat_ofNat']; omega
    have e3 : UInt8.ofNat (16 * (b.toNat / 16) + b.toNat % 16) = b := by
      rw [Nat.div_add_mod]; simp
    simp only [List.flatMap_cons, pair, List.cons_append, List.nil_append, List.map_cons,
      decodePairs, e1, e2, value?_digit h1, value?_digit h2, ih, Except.map, e3]

/-- The written digits, as the codes of their characters, read back as the bytes. -/
theorem decode_encode (bytes : List UInt8) :
    decode ((encode bytes).toList.map fun c => UInt8.ofNat c.toNat) = .ok bytes := by
  have hlen : ((bytes.flatMap pair).map fun c => UInt8.ofNat c.toNat).length % 2 = 0 := by
    rw [List.length_map]
    induction bytes with
    | nil => rfl
    | cons b rest ih => simp only [List.flatMap_cons, List.length_append, pair, List.length_cons,
        List.length_nil] at *; omega
  rw [encode, String.toList_ofList, decode, if_neg (by omega), decodePairs_pairs]

theorem encode_injective {a b : List UInt8} (h : encode a = encode b) : a = b := by
  have ha := decode_encode a
  rw [h, decode_encode b] at ha
  exact (Except.ok.inj ha).symm

theorem isAlphanum_digit {n : Nat} (h : n < 16) : (digit n).isAlphanum = true := by
  have : ∀ m, m < 16 → (digit m).isAlphanum = true := by decide
  exact this n h

theorem isAlphanum_of_mem_encode {bytes : List UInt8} {c : Char} (h : c ∈ (encode bytes).toList) :
    c.isAlphanum = true := by
  rw [encode, String.toList_ofList] at h
  obtain ⟨b, -, hc⟩ := List.mem_flatMap.mp h
  have hb := b.toNat_lt
  simp only [pair, List.mem_cons, List.not_mem_nil, or_false] at hc
  rcases hc with rfl | rfl
  · exact isAlphanum_digit (by omega)
  · exact isAlphanum_digit (by omega)

end FundRecovery.Hex

import FundRecovery.Json.Parser
import FundRecovery.Json.Printer
import Mathlib.Data.List.TakeDrop

/-!
# Written strings and numerals read back

* `stringBody_escaped`: a string body reads back as its code points, escaped or not.
* `bodyText?_codes`: the code points of a text stand for it; none of them is a surrogate.
* `number?_numeral`: a numeral reads back where what follows does not continue it.
-/

namespace FundRecovery.Json

/-! ## Strings -/

/-- The four digits of a control character. -/
theorem padded_control {n : Nat} (h : n < 0x20) :
    (Hex.padded 4 n).toList = ['0', '0', Hex.digit (n / 16), Hex.digit (n % 16)] := by
  have hdigits : ∀ m, m < 0x20 → List.replicate (4 - (Nat.toDigits 16 m).length) '0' ++
      Nat.toDigits 16 m = ['0', '0', Hex.digit (m / 16), Hex.digit (m % 16)] := by decide
  rw [Hex.padded, String.toList_ofList]
  exact hdigits n h

theorem unit?_control {n : Nat} (h : n < 0x20) :
    unit? '0' '0' (Hex.digit (n / 16)) (Hex.digit (n % 16)) = some n := by
  have hzero : Hex.value? '0'.toNat = some 0 := by decide
  have hhigh : n / 16 < 16 := by omega
  have hlow : n % 16 < 16 := by omega
  rw [unit?, hzero, Hex.value?_digit hhigh, Hex.value?_digit hlow]
  show some _ = some n
  congr 1
  omega

/-- What follows a character in a string, with the code of the character in front. -/
def behind (n : Nat) (r : Option (List Nat × List Char)) : Option (List Nat × List Char) :=
  r.map fun r => (n :: r.1, r.2)

/-- A character that is written as it stands reads as its code. -/
theorem stringBody_plain {c : Char} (hquote : c ≠ '"') (hback : c ≠ '\\') (hc : ¬ c.toNat < 0x20)
    (rest : List Char) : stringBody (c :: rest) = behind c.toNat (stringBody rest) := by
  rw [stringBody, if_neg hc]
  · cases stringBody rest <;> rfl
  · exact hquote
  · rintro _ _ _ _ _ rfl
    exact absurd rfl hback
  · rintro _ _ rfl
    exact absurd rfl hback

/-- A letter behind a backslash. -/
theorem stringBody_short {c : Char} {n : Nat} (hc : shortEscape? c = some n) (rest : List Char) :
    stringBody ('\\' :: c :: rest) = behind n (stringBody rest) := by
  have hu : c ≠ 'u' := by
    rintro rfl
    cases hc
  rw [stringBody, hc]
  · cases stringBody rest <;> rfl
  · rintro _ _ _ _ _ rfl
    exact absurd rfl hu

theorem stringBody_unit {a b c d : Char} {n : Nat} (hn : unit? a b c d = some n)
    (rest : List Char) :
    stringBody ('\\' :: 'u' :: a :: b :: c :: d :: rest) = behind n (stringBody rest) := by
  rw [stringBody, hn]
  cases stringBody rest <;> rfl

/-- A character that has a letter, or is written in another way. -/
theorem stringBody_ite {c special letter : Char} {written rest : List Char}
    (hletter : shortEscape? letter = some special.toNat)
    (hwritten : c ≠ special → stringBody (written ++ rest) = behind c.toNat (stringBody rest)) :
    stringBody ((if c = special then ['\\', letter] else written) ++ rest) =
      behind c.toNat (stringBody rest) := by
  by_cases h : c = special
  · rw [if_pos h, h]
    exact stringBody_short hletter rest
  · rw [if_neg h]
    exact hwritten h

/-- However a character is written, it reads as its code. -/
theorem stringBody_escapedChar (c : Char) (rest : List Char) :
    stringBody (escapedChar c ++ rest) = behind c.toNat (stringBody rest) := by
  refine stringBody_ite rfl fun hquote => stringBody_ite rfl fun hback => ?_
  iterate 5 refine stringBody_ite rfl fun _ => ?_
  by_cases h : c.toNat < 0x20
  · rw [if_pos h, padded_control h]
    exact stringBody_unit (unit?_control h) rest
  · rw [if_neg h]
    exact stringBody_plain hquote hback h rest

theorem stringBody_escaped (cs rest : List Char) :
    stringBody (cs.flatMap escapedChar ++ '"' :: rest) = some (cs.map Char.toNat, rest) := by
  induction cs with
  | nil => rw [List.flatMap_nil, List.nil_append, stringBody, List.map_nil]
  | cons c cs ih => rw [List.flatMap_cons, List.append_assoc, stringBody_escapedChar, ih]; rfl

theorem not_surrogate (c : Char) :
    isLeading c.toNat = false ∧ isTrailing c.toNat = false := by
  have hvalid : c.toNat < 0xd800 ∨ 0xdfff < c.toNat ∧ c.toNat < 0x110000 := c.valid
  simp only [isLeading, isTrailing, Bool.and_eq_false_iff, decide_eq_false_iff_not]
  omega

/-- No two characters are taken for one. -/
theorem joinSurrogates_codes (cs : List Char) : joinSurrogates (cs.map Char.toNat) = some cs := by
  induction cs with
  | nil => rfl
  | cons c rest ih =>
    obtain ⟨hleading, htrailing⟩ := not_surrogate c
    cases rest with
    | nil => simp [joinSurrogates, hleading, htrailing, Char.ofNat_toNat]
    | cons d rest =>
      rw [List.map_cons, List.map_cons, joinSurrogates, ← List.map_cons, ih, hleading, htrailing]
      simp [Char.ofNat_toNat]

theorem bodyText?_codes (s : String) : bodyText? (s.toList.map Char.toNat) = some s := by
  rw [bodyText?, joinSurrogates_codes, Option.map_some, String.ofList_toList]

/-! ## Numerals -/

/-- A text that does not go on with a numeral. -/
def Ends (rest : List Char) : Prop :=
  ∀ c ∈ rest.head?, c.isDigit = false ∧ c ≠ '.' ∧ c ≠ 'e' ∧ c ≠ 'E'

theorem ends_nil : Ends [] := by
  intro c hc
  cases hc

theorem ends_cons {c : Char} (h : c.isDigit = false ∧ c ≠ '.' ∧ c ≠ 'e' ∧ c ≠ 'E')
    (rest : List Char) : Ends (c :: rest) := by
  rintro _ ⟨rfl⟩
  exact h

theorem digits_append {ds rest : List Char} (hds : ∀ d ∈ ds, d.isDigit = true)
    (hrest : Ends rest) : digits (ds ++ rest) = (ds, rest) := by
  have htake : rest.takeWhile Char.isDigit = [] := by
    cases rest with
    | nil => rfl
    | cons c rest => rw [List.takeWhile_cons, (hrest c rfl).1]; rfl
  have hdrop : rest.dropWhile Char.isDigit = rest := by
    cases rest with
    | nil => rfl
    | cons c rest => rw [List.dropWhile_cons, (hrest c rfl).1]; rfl
  rw [digits, List.span_eq_takeWhile_dropWhile, List.takeWhile_append_of_pos hds,
    List.dropWhile_append_of_pos hds, htake, hdrop, List.append_nil]

/-- No numeral but zero starts with a zero. -/
theorem eq_zero_of_head_toDigits {n : Nat} (h : (Nat.toDigits 10 n).head? = some '0') : n = 0 := by
  induction n using Nat.base_induction 10 (by decide) with
  | single m hm =>
    rw [Nat.toDigits_of_lt_base hm] at h
    exact Nat.digitChar_eq_zero.mp (Option.some.inj h)
  | digit m k hk hm ih =>
    obtain ⟨d, ds, hds⟩ := List.exists_cons_of_ne_nil (Nat.toDigits_ne_nil : Nat.toDigits 10 m ≠ [])
    rw [← Nat.toDigits_append_toDigits (by decide) hm hk, hds] at h
    exact absurd (ih (by rwa [hds])) (Nat.pos_iff_ne_zero.mp hm)

theorem whole?_numeral (n : Nat) {rest : List Char} (hrest : Ends rest) :
    whole? (Nat.toDigits 10 n ++ rest) = some (Nat.toDigits 10 n, rest) := by
  have hdigits : ∀ d ∈ Nat.toDigits 10 n, d.isDigit = true :=
    fun d => Nat.isDigit_of_mem_toDigits (by decide) (by decide)
  rw [whole?, digits_append hdigits hrest]
  cases hds : Nat.toDigits 10 n with
  | nil => exact absurd hds Nat.toDigits_ne_nil
  | cons d ds =>
    by_cases hd : d = '0'
    · subst hd
      have hn : n = 0 := eq_zero_of_head_toDigits (by rw [hds]; rfl)
      rw [hn, Nat.toDigits_zero] at hds
      cases hds
      rfl
    · split
      case h_1 he => cases he
      case h_2 he =>
        cases he
        exact absurd rfl hd
      case h_3 he =>
        cases he
        exact absurd rfl hd
      case h_4 he =>
        cases he
        rfl

theorem fraction?_ends {rest : List Char} (hrest : Ends rest) :
    fraction? rest = some ([], rest) := by
  cases rest with
  | nil => rfl
  | cons c rest =>
    rw [fraction?]
    rintro _ ⟨rfl, rfl⟩
    exact (hrest '.' rfl).2.1 rfl

theorem exponent?_ends {rest : List Char} (hrest : Ends rest) :
    exponent? rest = some ([], rest) := by
  cases rest with
  | nil => rfl
  | cons c rest =>
    obtain ⟨-, -, hlower, hupper⟩ := hrest c rfl
    rw [exponent?.eq_def]
    exact if_neg (not_or.mpr ⟨hlower, hupper⟩)

/-- The digits are those of the core library. -/
theorem ofDigits_toDigits (n : Nat) : ofDigits (Nat.toDigits 10 n) = n := by
  have hsame : ofDigits (Nat.toDigits 10 n) = Nat.ofDigitChars 10 (Nat.toDigits 10 n) 0 := by
    simp only [ofDigits, Nat.ofDigitChars_eq_foldl, Nat.mul_comm 10]
    rfl
  rw [hsame, Nat.ofDigitChars_ten_toDigits]

theorem number?_numeral (n : Nat) {rest : List Char} (hrest : Ends rest) :
    number? [] (Nat.toDigits 10 n ++ rest) = some (natural n, rest) := by
  rw [number?, whole?_numeral n hrest]
  dsimp only [Option.bind_eq_bind, Option.bind_some]
  rw [fraction?_ends hrest, Option.bind_some, exponent?_ends hrest, Option.bind_some,
    ofDigits_toDigits]
  rfl

end FundRecovery.Json

import DocSelect.Json.Printer
import DocSelect.Proofs.Text.Blank
import DocSelect.Text.CodePoint

/-!
# Digits in base sixteen read back

The digits that a number is written with denote that number, padded or not. Six of them are
enough for every code point, and the code point of a character is never one of a surrogate.
-/

namespace DocSelect.Text

/-- Each of the sixteen digits has its own value. -/
theorem hexValue?_digitChar : ∀ d < 16, hexValue? (Nat.digitChar d) = some d := by decide

/-- One more digit counts by itself, and makes those before it count sixteenfold. -/
theorem hexNumber_snoc (ds : List Char) (d : Char) :
    hexNumber (ds ++ [d]) = hexNumber ds * 16 + (hexValue? d).getD 0 := by
  rw [hexNumber, List.foldl_append]
  rfl

/-- The digits of a number denote it. -/
theorem hexNumber_hexDigits (n : Nat) : hexNumber (hexDigits n) = n := by
  induction n using Nat.strongRecOn with
  | ind n ih =>
    by_cases hn : n < 16
    · rw [hexDigits, Nat.toDigits_of_lt_base hn]
      simp [hexNumber, hexValue?_digitChar n hn]
    · have hlt : n / 16 < n := Nat.div_lt_self (by omega) (by omega)
      have hmod : n % 16 < 16 := Nat.mod_lt n (by omega)
      have hih := ih (n / 16) hlt
      rw [hexDigits] at hih
      rw [hexDigits, Nat.toDigits_of_base_le (by omega) (by omega), hexNumber_snoc, hih,
        hexValue?_digitChar _ hmod, Option.getD_some]
      omega

/-- The digits of a number are digits. -/
theorem isHexDigit_of_mem_hexDigits {n : Nat} : ∀ d ∈ hexDigits n, isHexDigit d = true := by
  induction n using Nat.strongRecOn with
  | ind n ih =>
    have hdigit (k : Nat) (hk : k < 16) : isHexDigit k.digitChar = true := by
      rw [isHexDigit, hexValue?_digitChar k hk]
      rfl
    intro d hd
    by_cases hn : n < 16
    · rw [hexDigits, Nat.toDigits_of_lt_base hn, List.mem_singleton] at hd
      rw [hd]
      exact hdigit n hn
    · have hlt : n / 16 < n := Nat.div_lt_self (by omega) (by omega)
      rw [hexDigits, Nat.toDigits_of_base_le (by omega) (by omega), List.mem_append,
        List.mem_singleton] at hd
      rcases hd with hd | hd
      · exact ih (n / 16) hlt d hd
      · rw [hd]
        exact hdigit _ (Nat.mod_lt n (by omega))

/-- A digit is not white. -/
theorem isWhite_of_isHexDigit {c : Char} (h : isHexDigit c = true) : isWhite c = false := by
  have hrange : 0x21 ≤ c.toNat ∧ c.toNat ≤ 0x7E := by
    have hle (x y : Char) : x ≤ y ↔ x.toNat ≤ y.toNat := Iff.rfl
    unfold isHexDigit hexValue? at h
    simp only [hle] at h
    split at h
    · next hc => exact ⟨Nat.le_trans (by decide) hc.1, Nat.le_trans hc.2 (by decide)⟩
    split at h
    · next hc => exact ⟨Nat.le_trans (by decide) hc.1, Nat.le_trans hc.2 (by decide)⟩
    split at h
    · next hc => exact ⟨Nat.le_trans (by decide) hc.1, Nat.le_trans hc.2 (by decide)⟩
    · cases h
  exact isWhite_eq_false hrange.1 hrange.2

/-- A code point has at most six digits. -/
theorem length_hexDigits_le (c : Char) : (hexDigits c.toNat).length ≤ 6 := by
  rw [hexDigits, Nat.length_toDigits_le_iff (by omega) (by omega)]
  have hvalid : c.toNat.isValidChar := c.valid
  rcases hvalid with h | h
  · omega
  · omega

/-- Digits with zeros before them denote the same number. -/
theorem hexNumber_padHex (width n : Nat) : hexNumber (Json.padHex width n) = n := by
  have hzeros (k : Nat) (ds : List Char) :
      hexNumber (List.replicate k '0' ++ ds) = hexNumber ds := by
    induction k with
    | zero => rfl
    | succ k ih =>
      rw [← ih]
      rfl
  rw [Json.padHex, hzeros, hexNumber_hexDigits]

/-- Digits with zeros before them are digits. -/
theorem isHexDigit_of_mem_padHex {width n : Nat} :
    ∀ d ∈ Json.padHex width n, isHexDigit d = true := by
  intro d hd
  rw [Json.padHex, List.mem_append] at hd
  rcases hd with hd | hd
  · rw [List.eq_of_mem_replicate hd]
    rfl
  · exact isHexDigit_of_mem_hexDigits d hd

/-- A character is the one of its code point. -/
theorem charOfCodePoint?_toNat (c : Char) : charOfCodePoint? c.toNat = some c := by
  have hvalid : c.toNat.isValidChar := c.valid
  rw [charOfCodePoint?, if_pos hvalid, Char.ofNat_toNat]

/-- The code point of a character is no half of a pair. -/
theorem isHighSurrogate_toNat (c : Char) : isHighSurrogate c.toNat = false := by
  have hvalid : c.toNat.isValidChar := c.valid
  rw [isHighSurrogate, Bool.and_eq_false_iff, decide_eq_false_iff_not, decide_eq_false_iff_not]
  rcases hvalid with h | h
  · omega
  · omega

/-- The first half of a pair is the number of no character. -/
theorem charOfCodePoint?_of_isHighSurrogate {n : Nat} (h : isHighSurrogate n = true) :
    charOfCodePoint? n = none := by
  obtain ⟨hfirst, hlast⟩ := Bool.and_eq_true_iff.1 h
  have hfirst := of_decide_eq_true hfirst
  have hlast := of_decide_eq_true hlast
  refine if_neg fun hvalid ↦ ?_
  rcases hvalid with h | h
  · omega
  · omega

end DocSelect.Text

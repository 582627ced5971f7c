import DocSelect.Text.CodePoint
import Mathlib.Data.List.Induction

/-!
# Digits and the numbers that they denote

A run of digits denotes a number in a base, the last digit counting by itself and those before it
as often as the base says. This is said here as a relation, apart from the readers. A reader that
adds digit to digit from the left computes just that, whatever its way to tell and value a digit;
the base sixteen has the digits and values of escapes.
-/

namespace DocSelect.Text

/-- Whether a character is the digit of a value in a base. Letters may be small or capital. -/
structure Digit (base : Nat) (c : Char) (v : Nat) : Prop where
  lt : v < base
  char : c = Nat.digitChar v ∨ c = (Nat.digitChar v).toUpper

/-- Whether digits denote a number in a base. -/
inductive Numeral (base : Nat) : List Char → Nat → Prop
  | digit {c : Char} {v : Nat} (h : Digit base c v) : Numeral base [c] v
  | snoc {ds : List Char} {n : Nat} {c : Char} {v : Nat} (hds : Numeral base ds n)
      (h : Digit base c v) : Numeral base (ds ++ [c]) (n * base + v)

/-- What adding digit to digit from the left gives, with a way to tell and to value digits. -/
theorem numeral_iff {base : Nat} {isDigit : Char → Bool} {value : Char → Nat}
    (hdigit : ∀ c v, Digit base c v ↔ isDigit c = true ∧ value c = v) {ds : List Char} {n : Nat} :
    Numeral base ds n ↔
      ds ≠ [] ∧ (∀ d ∈ ds, isDigit d = true) ∧
        ds.foldl (fun n d ↦ n * base + value d) 0 = n := by
  constructor
  · intro h
    induction h with
    | @digit c v h =>
      obtain ⟨hc, hv⟩ := (hdigit c v).1 h
      exact ⟨List.cons_ne_nil c [], by simpa using hc, by simpa using hv⟩
    | @snoc ds n c v _ h ih =>
      obtain ⟨hc, hv⟩ := (hdigit c v).1 h
      obtain ⟨hne, hall, hfold⟩ := ih
      refine ⟨List.append_ne_nil_of_left_ne_nil hne [c], ?_, ?_⟩
      · exact List.forall_mem_append.2 ⟨hall, by simpa using hc⟩
      · rw [List.foldl_append, hfold, List.foldl_cons, List.foldl_nil, hv]
  · rintro ⟨hne, hall, rfl⟩
    -- from the back, where a numeral grows
    induction ds using List.reverseRecOn with
    | nil => exact absurd rfl hne
    | append_singleton ds d ih =>
      obtain ⟨hds, hd⟩ := List.forall_mem_append.1 hall
      have hdigit' : Digit base d (value d) := (hdigit d (value d)).2 ⟨hd d (by simp), rfl⟩
      rw [List.foldl_append]
      by_cases hnil : ds = []
      · subst hnil
        simpa using Numeral.digit hdigit'
      · exact .snoc (ih hnil hds) hdigit'

/-- Characters that follow one another are told by their distance from the first one. -/
theorem eq_of_between {first c : Char} {k : Nat} (char : Nat → Char)
    (hchar : ∀ v < k, (char v).toNat = first.toNat + v) (hfirst : first.toNat ≤ c.toNat)
    (hlast : c.toNat < first.toNat + k) : c = char (c.toNat - first.toNat) := by
  apply Char.toNat_inj.1
  rw [hchar (c.toNat - first.toNat) (by omega)]
  omega

/-- There are ten characters that are called digits. -/
theorem exists_of_isDigit {c : Char} (h : c.isDigit = true) : ∃ v < 10, c = Nat.digitChar v := by
  obtain ⟨hfirst, hlast⟩ := Bool.and_eq_true_iff.1 h
  have hfirst : '0'.toNat ≤ c.toNat := of_decide_eq_true hfirst
  have hlast : c.toNat < '0'.toNat + 10 := Nat.lt_succ_of_le (of_decide_eq_true hlast)
  exact ⟨c.toNat - '0'.toNat, by omega, eq_of_between Nat.digitChar (by decide) hfirst hlast⟩

/-- What holds of the ten digits holds of a character that is called a digit. -/
theorem of_isDigit {p : Char → Bool} {c : Char} (h : c.isDigit = true)
    (hp : ∀ v < 10, p (Nat.digitChar v) = true) : p c = true := by
  obtain ⟨v, hv, rfl⟩ := exists_of_isDigit h
  exact hp v hv

/-- The digits in base ten are the characters that are called digits. -/
theorem digit_ten {c : Char} {v : Nat} :
    Digit 10 c v ↔ c.isDigit = true ∧ c.toNat - '0'.toNat = v := by
  constructor
  · rintro ⟨hlt, rfl | rfl⟩
    · have hdigits : ∀ v < 10, (Nat.digitChar v).isDigit = true ∧
          (Nat.digitChar v).toNat - '0'.toNat = v := by decide
      exact hdigits v hlt
    · have hdigits : ∀ v < 10, (Nat.digitChar v).toUpper.isDigit = true ∧
          (Nat.digitChar v).toUpper.toNat - '0'.toNat = v := by decide
      exact hdigits v hlt
  · rintro ⟨h, rfl⟩
    obtain ⟨v, hv, rfl⟩ := exists_of_isDigit h
    have hvalue : ∀ v < 10, (Nat.digitChar v).toNat - '0'.toNat = v := by decide
    rw [hvalue v hv]
    exact ⟨hv, .inl rfl⟩

/-- The digits in base sixteen are those of escapes. -/
theorem digit_sixteen {c : Char} {v : Nat} : Digit 16 c v ↔ hexValue? c = some v := by
  constructor
  · rintro ⟨hlt, rfl | rfl⟩
    · have hsmall : ∀ v < 16, hexValue? (Nat.digitChar v) = some v := by decide
      exact hsmall v hlt
    · have hcapital : ∀ v < 16, hexValue? (Nat.digitChar v).toUpper = some v := by decide
      exact hcapital v hlt
  · intro h
    have hle (x y : Char) : x ≤ y ↔ x.toNat ≤ y.toNat := Iff.rfl
    unfold hexValue? at h
    simp only [hle] at h
    split at h
    · next hc =>
      obtain rfl := Option.some.inj h
      have hlast : c.toNat < '0'.toNat + 10 := Nat.lt_succ_of_le hc.2
      exact ⟨by omega, .inl (eq_of_between _ (by decide) hc.1 hlast)⟩
    split at h
    · next hc =>
      obtain rfl := Option.some.inj h
      have hlast : c.toNat < 'a'.toNat + 6 := Nat.lt_succ_of_le hc.2
      have hchar := eq_of_between (fun v ↦ Nat.digitChar (v + 10)) (by decide) hc.1 hlast
      exact ⟨by omega, .inl hchar⟩
    split at h
    · next hc =>
      obtain rfl := Option.some.inj h
      have hlast : c.toNat < 'A'.toNat + 6 := Nat.lt_succ_of_le hc.2
      have hchar := eq_of_between (fun v ↦ (Nat.digitChar (v + 10)).toUpper) (by decide)
        hc.1 hlast
      exact ⟨by omega, .inr hchar⟩
    · cases h

/-- Numerals in base ten are not empty, and the library reads them as their number. -/
theorem numeral_ten {ds : List Char} {n : Nat} :
    Numeral 10 ds n ↔
      ds ≠ [] ∧ (∀ d ∈ ds, d.isDigit = true) ∧ Nat.ofDigitChars 10 ds 0 = n := by
  have hstep : (fun (n : Nat) (d : Char) ↦ n * 10 + (d.toNat - '0'.toNat)) =
      fun n d ↦ 10 * n + (d.toNat - '0'.toNat) := by
    funext n d
    rw [Nat.mul_comm]
  rw [numeral_iff fun _ _ ↦ digit_ten, hstep]
  rfl

/-- The digits that a number is written with denote it. -/
theorem numeral_toDigits (n : Nat) : Numeral 10 (Nat.toDigits 10 n) n := by
  refine numeral_ten.2 ⟨Nat.toDigits_ne_nil, fun d hd ↦ ?_, Nat.ofDigitChars_ten_toDigits⟩
  exact Nat.isDigit_of_mem_toDigits (by decide) (by decide) hd

/-- Numerals in base sixteen are the digits of escapes. -/
theorem numeral_sixteen {ds : List Char} {n : Nat} :
    Numeral 16 ds n ↔ ds ≠ [] ∧ (∀ d ∈ ds, isHexDigit d = true) ∧ hexNumber ds = n := by
  refine numeral_iff fun c v ↦ digit_sixteen.trans ?_
  unfold isHexDigit
  cases hexValue? c with
  | none => simp
  | some w => simp

end DocSelect.Text

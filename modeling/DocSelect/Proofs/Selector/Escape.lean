import DocSelect.Selector.Printer
import DocSelect.Proofs.Selector.Grammar
import DocSelect.Proofs.Text.CodePoint

/-!
# Escapes read back

A written character is itself, itself behind a backslash, or its number with a space that closes
it. Each of these reads back as the character, and the closing space is taken with it, even if
it is the last of the text and trimming has left it out. From the characters of a text names,
strings and raw arguments are put together.
-/

namespace DocSelect

open Text (Ahead Blanks ahead_cons ahead_nil clip clip_append clip_cons isHexDigit hexNumber)

namespace Lexeme

section Hex

/-- All leading digits are taken, or as many as there may be. -/
theorem takeHex_append {n : Nat} {ds t : List Char} (hds : ∀ d ∈ ds, isHexDigit d = true)
    (hlen : ds.length ≤ n) (ht : ds.length = n ∨ Ahead (fun c ↦ !isHexDigit c) t) :
    (takeHex n (ds ++ t)).1 = ds ∧ (takeHex n (ds ++ t)).2.1 = t := by
  induction ds generalizing n with
  | nil =>
    cases n with
    | zero => exact ⟨rfl, rfl⟩
    | succ n =>
      cases t with
      | nil => exact ⟨rfl, rfl⟩
      | cons c t =>
        have hc : isHexDigit c = false := by
          rcases ht with hfull | ht
          · cases hfull
          · simpa using ahead_cons.1 ht
        simp [takeHex, hc]
  | cons d ds ih =>
    cases n with
    | zero => simp at hlen
    | succ n =>
      obtain ⟨hd, hds⟩ := List.forall_mem_cons.1 hds
      obtain ⟨h₁, h₂⟩ := ih hds (by simpa using hlen) (by simpa using ht)
      simp [takeHex, hd, h₁, h₂]

variable {k : Bool} {ds t : List Char}

/-- Digits are taken with the space that closes them. -/
theorem hexEscapeDigits_append (hds : ∀ d ∈ ds, isHexDigit d = true) (hlen : ds.length ≤ 6) :
    (hexEscapeDigits (ds ++ clip k (' ' :: t))).1 = ds ∧
      (hexEscapeDigits (ds ++ clip k (' ' :: t))).2.1 = clip k t := by
  have hahead : Ahead (fun c ↦ !isHexDigit c) (clip k (' ' :: t)) :=
    (ahead_cons.2 rfl).clip
  obtain ⟨h₁, h₂⟩ := takeHex_append hds hlen (.inr hahead)
  refine ⟨h₁, ?_⟩
  show (skipSpace (takeHex 6 _).2.1).1 = clip k t
  rw [h₂]
  rcases Text.clip_space (k := k) t with h | ⟨h, ht⟩
  · rw [h]
    rfl
  · rw [h, ht]
    rfl

/-- An escape by number gives the character of the number, or the one of a pair that its number
begins. -/
theorem gives_hexEscape_iff {cs rest : List Char} {c : Char} :
    Gives (hexEscape cs) c rest ↔
      Text.isHighSurrogate (hexNumber (hexEscapeDigits cs).1) = false ∧
        Text.charOfCodePoint? (hexNumber (hexEscapeDigits cs).1) = some c ∧
        rest = (hexEscapeDigits cs).2.1 ∨
      Text.isHighSurrogate (hexNumber (hexEscapeDigits cs).1) = true ∧
        ∃ low r, lowSurrogate? (hexEscapeDigits cs).2.1 = some (low, r) ∧
          Text.charOfCodePoint? (Text.joinSurrogates (hexNumber (hexEscapeDigits cs).1) low) =
            some c ∧ rest = r.1 := by
  have hnone {n : Nat} (hn : Text.isHighSurrogate n = true) : Text.charOfCodePoint? n = none :=
    Text.charOfCodePoint?_of_isHighSurrogate hn
  -- which numbers are characters is known, and is not to be computed
  obtain ⟨char?, hchar⟩ : ∃ char?, char? = Text.charOfCodePoint? := ⟨_, rfl⟩
  unfold hexEscape
  rw [← hchar] at hnone ⊢
  generalize hexEscapeDigits cs = taken
  obtain ⟨ds, r⟩ := taken
  dsimp only
  cases hhigh : Text.isHighSurrogate (hexNumber ds) with
  | false =>
    cases hc : char? (hexNumber ds) with
    | none => simp
    | some x => simp [eq_comm]
  | true =>
    rw [if_pos rfl]
    cases hlow : lowSurrogate? r.1 with
    | none => simp [hnone hhigh]
    | some found =>
      obtain ⟨low, r'⟩ := found
      cases hc : char? (Text.joinSurrogates (hexNumber ds) low) with
      | none => simp [hc]
      | some x =>
        simp only [hc, gives_ok, Bool.true_eq_false, false_and, false_or, true_and]
        constructor
        · rintro ⟨rfl, rfl⟩
          exact ⟨low, r', rfl, hc, rfl⟩
        · rintro ⟨low', r'', hfound, hc', rfl⟩
          cases hfound
          rw [hc] at hc'
          exact ⟨(Option.some.inj hc').symm, rfl⟩

/-- The digits of a character's number read back as the character. -/
theorem gives_hexEscape {c : Char} (hds : ∀ d ∈ ds, isHexDigit d = true) (hlen : ds.length ≤ 6)
    (hnum : hexNumber ds = c.toNat) :
    Gives (hexEscape (ds ++ clip k (' ' :: t))) c (clip k t) := by
  obtain ⟨h₁, h₂⟩ := hexEscapeDigits_append (k := k) (t := t) hds hlen
  rw [gives_hexEscape_iff, h₁, h₂, hnum]
  exact .inl ⟨Text.isHighSurrogate_toNat c, Text.charOfCodePoint?_toNat c, rfl⟩

end Hex

section Name

/-- A character of names is no white space. -/
theorem isWhite_of_isNameChar {c : Char} (h : isNameChar c = true) : Text.isWhite c = false := by
  have hbetween {first last : Char} (hfirst : 0x21 ≤ first.toNat) (hlast : last.toNat ≤ 0x7E)
      (h : first.val ≤ c.val ∧ c.val ≤ last.val) : Text.isWhite c = false :=
    Text.isWhite_eq_false (Nat.le_trans hfirst h.1) (Nat.le_trans h.2 hlast)
  simp only [isNameChar, Bool.or_eq_true, beq_iff_eq] at h
  rcases h with (h | rfl) | rfl
  · rcases Bool.or_eq_true_iff.1 h with h | h
    · rcases Bool.or_eq_true_iff.1 h with h | h
      · have hupper : 'A'.val ≤ c.val ∧ c.val ≤ 'Z'.val := of_decide_eq_true h
        exact hbetween (by decide) (by decide) hupper
      · obtain ⟨hfirst, hlast⟩ := Bool.and_eq_true_iff.1 h
        have hlower : 'a'.val ≤ c.val ∧ c.val ≤ 'z'.val :=
          ⟨of_decide_eq_true hfirst, of_decide_eq_true hlast⟩
        exact hbetween (by decide) (by decide) hlower
    · obtain ⟨hfirst, hlast⟩ := Bool.and_eq_true_iff.1 h
      have hdigit : '0'.val ≤ c.val ∧ c.val ≤ '9'.val :=
        ⟨of_decide_eq_true hfirst, of_decide_eq_true hlast⟩
      exact hbetween (by decide) (by decide) hdigit
  · decide
  · decide

/-- A character of names is no blank. -/
theorem isBlank_of_isNameChar {c : Char} (h : isNameChar c = true) : Text.isBlank c = false := by
  cases hb : Text.isBlank c with
  | false => rfl
  | true => rw [← Text.isWhite_of_isBlank hb, isWhite_of_isNameChar h]

/-- Whether a character ends a name in front of it. -/
def endsName (c : Char) : Bool := !isNameChar c && c != '\\'

/-- What is said of each piece of punctuation. -/
theorem of_isSpecial {p : Char → Bool} (c : Char) (h : isSpecial c = true)
    (hall : "!\"#$%&'()*+,./;<=>?@[\\]^`\x7b|\x7d~".toList.all p = true) : p c = true :=
  List.all_eq_true.1 hall c (List.contains_iff_mem.1 h)

/-- A backslash and punctuation read back as the punctuation. -/
theorem gives_escaped_special {c : Char} (h : isSpecial c = true) (t : List Char) :
    Gives (escaped (c :: t)) c t := by
  have hc := of_isSpecial (p := fun c ↦ !isHexDigit c) c h (by decide)
  rw [escaped, if_neg (by simpa using hc)]
  exact gives_ok.2 ⟨rfl, rfl⟩

/-- A number behind a backslash reads back as its character. -/
theorem gives_escaped_number {k : Bool} (c : Char) (t : List Char) :
    Gives (escaped (Text.hexDigits c.toNat ++ clip k (' ' :: t))) c (clip k t) := by
  have h := gives_hexEscape (k := k) (t := t) (c := c) Text.isHexDigit_of_mem_hexDigits
    (Text.length_hexDigits_le c) (Text.hexNumber_hexDigits c.toNat)
  cases hds : Text.hexDigits c.toNat with
  | nil => exact absurd hds Nat.toDigits_ne_nil
  | cons d ds =>
    have hd : isHexDigit d = true := Text.isHexDigit_of_mem_hexDigits d (by rw [hds]; simp)
    rw [hds] at h
    rw [List.cons_append] at h ⊢
    rw [escaped, if_pos hd]
    exact h

/-- How a character of a name is written: itself, behind a backslash, or by its number. -/
inductive NameChar (c : Char) : List Char → Prop
  | plain : isNameChar c = true → NameChar c [c]
  | special : isSpecial c = true → NameChar c ['\\', c]
  | number : NameChar c ('\\' :: Text.hexDigits c.toNat ++ [' '])

private theorem nameChar_spell (first : Bool) (c : Char) :
    NameChar c (Spelling.nameChar first c) := by
  unfold Spelling.nameChar
  split
  · next h => exact .special h
  · split
    · next h =>
      apply NameChar.plain
      simp only [isNameChar, Char.isAlphanum, Bool.or_eq_true, Bool.and_eq_true] at h ⊢
      rcases h with ((h | h) | h) | ⟨_, h⟩
      · exact .inr h
      · exact .inl (.inr h)
      · exact .inl (.inl (.inl h))
      · exact .inl (.inl (.inr h))
    · exact .number

/-- A written character of a name is closed. -/
theorem NameChar.closed {c : Char} {cs : List Char} (h : NameChar c cs) : Text.Closed cs := by
  cases h with
  | plain hc => exact Text.closed_concat (isWhite_of_isNameChar hc) []
  | special hc =>
    have hwhite := of_isSpecial (p := fun c ↦ !Text.isWhite c) c hc (by decide)
    exact Text.closed_concat (by simpa using hwhite) ['\\']
  | number =>
    have hne : Text.hexDigits c.toNat ≠ [] := Nat.toDigits_ne_nil
    have hlast := Text.isHexDigit_of_mem_hexDigits _ (List.getLast_mem hne)
    rw [← List.dropLast_concat_getLast hne, ← List.cons_append, List.append_assoc]
    exact Text.closed_concat_space (Text.isWhite_of_isHexDigit hlast) _

/-- A written name is closed. -/
theorem closed_name (s : String) : Text.Closed (Spelling.name s) := by
  unfold Spelling.name
  split
  · exact Text.closed_nil
  · exact (nameChar_spell true _).closed.append
      (Text.closed_flatMap fun c _ ↦ (nameChar_spell false c).closed)

/-- A written character has characters. -/
theorem NameChar.ne_nil {c : Char} {cs : List Char} (h : NameChar c cs) : cs ≠ [] := by
  cases h with
  | plain _ => exact List.cons_ne_nil _ _
  | special _ => exact List.cons_ne_nil _ _
  | number => exact List.cons_ne_nil _ _

variable {k : Bool}

/-- A name goes on with a written character. -/
theorem NameChar.gives {c : Char} {cs t more rest : List Char} (hc : NameChar c cs)
    (h : Gives (name (clip k t)) more rest) :
    Gives (name (clip k (cs ++ t))) (c :: more) rest := by
  cases hc with
  | plain hc =>
    have hne : c ≠ '\\' := by
      rintro rfl
      cases hc
    have hspace : c ≠ ' ' := by
      rintro rfl
      cases hc
    rw [List.singleton_append, clip_cons (.inl hspace), gives_name_cons hne hc]
    exact ⟨more, h, rfl⟩
  | special hc =>
    have hspace : c ≠ ' ' := by
      rintro rfl
      cases hc
    rw [List.cons_append, List.singleton_append, clip_cons (.inl (by decide)),
      clip_cons (.inl hspace), gives_name_escape]
    exact ⟨c, _, gives_escaped_special hc _, more, h, rfl⟩
  | number =>
    rw [List.append_assoc, List.singleton_append, List.cons_append,
      clip_cons (.inl (by decide)), clip_append (List.cons_ne_nil ' ' t), gives_name_escape]
    exact ⟨c, _, gives_escaped_number c t, more, h, rfl⟩

/-- The written characters of a name read back in front of what ends a name. -/
theorem gives_name_tail {rest : List Char} (hrest : Ahead endsName rest) (cs : List Char) :
    Gives (name (clip k (Spelling.nameTail cs ++ rest))) cs (clip k rest) := by
  induction cs with
  | nil =>
    rw [Spelling.nameTail, List.flatMap_nil, List.nil_append]
    have hclip := hrest.clip (k := k)
    cases hr : clip k rest with
    | nil => exact gives_name_nil.2 ⟨rfl, rfl⟩
    | cons c t =>
      rw [hr] at hclip
      have hc := ahead_cons.1 hclip
      simp only [endsName, Bool.and_eq_true, Bool.not_eq_true', bne_iff_ne, ne_eq] at hc
      exact (gives_name_stop hc.2 hc.1).2 ⟨rfl, rfl⟩
  | cons c cs ih =>
    rw [Spelling.nameTail, List.flatMap_cons, List.append_assoc]
    exact (nameChar_spell false c).gives ih

/-- A written name reads back in front of what ends a name. -/
theorem gives_name_spell {rest : List Char} (hrest : Ahead endsName rest) (s : String) :
    Gives (name (clip k (Spelling.name s ++ rest))) s.toList (clip k rest) := by
  unfold Spelling.name
  split
  · next h =>
    rw [h]
    exact gives_name_tail hrest []
  · next c cs h =>
    rw [h, List.append_assoc]
    exact (nameChar_spell true c).gives (gives_name_tail hrest cs)

/-- A written name that is required reads back. -/
theorem gives_requiredName_spell {mark : Char} {rest : List Char} (hrest : Ahead endsName rest)
    {s : String} (hs : s ≠ "") :
    Gives (requiredName mark (clip k (Spelling.name s ++ rest))) s (clip k rest) := by
  refine gives_requiredName.2 ⟨s.toList, gives_name_spell hrest s, ?_, String.ofList_toList.symm⟩
  intro h
  exact hs (String.toList_eq_nil_iff.1 h)

/-- A written name that is not empty has characters. -/
theorem name_ne_nil {s : String} (hs : s ≠ "") : Spelling.name s ≠ [] := by
  unfold Spelling.name
  split
  · next h => exact absurd (String.toList_eq_nil_iff.1 h) hs
  · next c cs _ =>
    exact List.append_ne_nil_of_left_ne_nil (nameChar_spell true c).ne_nil _

/-- A written name begins with a character that begins a name, or with a backslash. -/
theorem ahead_name (s : String) :
    Ahead (fun c ↦ isNameStart c || c == '\\') (Spelling.name s) := by
  unfold Spelling.name
  split
  · exact ahead_nil
  · next c cs _ =>
    unfold Spelling.nameChar
    split
    · exact ahead_cons.2 rfl
    · split
      · next h =>
        apply ahead_cons.2
        simp only [isNameStart, Bool.not_true, Bool.false_and, Bool.or_false,
          Bool.or_eq_true] at h ⊢
        rcases h with (h | h) | h
        · exact .inl (.inr h)
        · exact .inl (.inl (.inr h))
        · exact .inl (.inl (.inl h))
      · exact ahead_cons.2 rfl

/-- No blank begins a name. -/
theorem ahead_name_not_blank (s : String) : Ahead (fun c ↦ !Text.isBlank c) (Spelling.name s) := by
  refine (ahead_name s).mono fun c hc ↦ ?_
  rcases Bool.or_eq_true_iff.1 hc with h | h
  · rw [isBlank_of_isNameChar (isNameChar_of_isNameStart h)]
    rfl
  · rw [eq_of_beq h]
    rfl

end Name

section String

variable {whole t more rest : List Char}

/-- A control character in a string has a number of six digits, the first a zero. -/
theorem padHex_of_isControl {c : Char} (h : Spelling.isControl c = true) :
    (Json.padHex 6 c.toNat).length ≤ 6 ∧ ∃ ds, Json.padHex 6 c.toNat = '0' :: ds := by
  have hlt : c.toNat < 16 ^ 2 := by
    simp only [Spelling.isControl, Bool.or_eq_true, Bool.and_eq_true, decide_eq_true_eq] at h
    omega
  have hlen : (Text.hexDigits c.toNat).length ≤ 2 :=
    (Nat.length_toDigits_le_iff (by omega) (by omega)).2 hlt
  obtain ⟨k, hk⟩ : ∃ k, 6 - (Text.hexDigits c.toNat).length = k + 1 :=
    ⟨5 - (Text.hexDigits c.toNat).length, by omega⟩
  constructor
  · rw [Json.padHex, List.length_append, List.length_replicate]
    omega
  · rw [Json.padHex, hk, List.replicate_succ]
    exact ⟨_, rfl⟩

/-- How a character of a string is written: itself, by an escape of one character, or by its
number. -/
inductive StringChar (c : Char) : List Char → Prop
  | plain : c ≠ '"' → c ≠ '\\' → StringChar c [c]
  | short {e : Char} : (isHexDigit e && (shortEscape? '"' e).isNone) = false →
    (shortEscape? '"' e).getD e = c → StringChar c ['\\', e]
  | number : Spelling.isControl c = true → StringChar c ('\\' :: Json.padHex 6 c.toNat ++ [' '])

private theorem stringChar_spell (c : Char) : StringChar c (Spelling.stringChar c) := by
  unfold Spelling.stringChar
  split
  · next hc => exact .short rfl hc.symm
  split
  · next hc => exact .short rfl hc.symm
  split
  · next hc => exact .short rfl hc.symm
  split
  · next hc => exact .short rfl hc.symm
  split
  · next hc => exact .short rfl hc.symm
  split
  · next hc => exact .short rfl hc.symm
  split
  · next hc => exact .number hc
  · next hq hb _ _ _ _ _ => exact .plain hq hb

/-- A string goes on with a written character. -/
theorem StringChar.gives {c : Char} {cs : List Char} (hc : StringChar c cs)
    (h : Gives (stringTail '"' whole t) more rest) :
    Gives (stringTail '"' whole (cs ++ t)) (c :: more) rest := by
  cases hc with
  | plain hq hb => exact (gives_stringTail_cons hq hb).2 ⟨more, h, rfl⟩
  | short he hc => exact (gives_stringTail_short (by decide) he).2 ⟨more, h, by rw [hc]⟩
  | number hc =>
    obtain ⟨hlen, ds, hds⟩ := padHex_of_isControl hc
    have hhex := gives_hexEscape (k := false) (t := t) (c := c)
      Text.isHexDigit_of_mem_padHex hlen (Text.hexNumber_padHex 6 c.toNat)
    rw [List.append_assoc, List.cons_append]
    rw [hds] at hhex ⊢
    exact (gives_stringTail_hex (by decide) rfl).2 ⟨c, t, hhex, more, h, rfl⟩

/-- The written characters of a string read back up to its closing quote. -/
theorem gives_stringTail_spell (cs : List Char) :
    Gives (stringTail '"' whole (cs.flatMap Spelling.stringChar ++ '"' :: t)) cs t := by
  induction cs with
  | nil => exact gives_stringTail_quote.2 ⟨rfl, rfl⟩
  | cons c cs ih =>
    rw [List.flatMap_cons, List.append_assoc]
    exact (stringChar_spell c).gives ih

/-- A written string reads back from behind its opening quote. -/
theorem gives_string_spell (s : String) :
    Gives (string '"' (s.toList.flatMap Spelling.stringChar ++ '"' :: t)) s t :=
  gives_string.2 ⟨s.toList, gives_stringTail_spell s.toList, String.ofList_toList.symm⟩

end String

section Raw

/-- Blanks behind raw text are left out, if it neither begins nor ends with one. -/
theorem trimRaw_append {raw blanks : List RawChar} (hhead : ∀ x ∈ raw.head?, x.isBlank = false)
    (hlast : ∀ x ∈ raw.getLast?, x.isBlank = false) (hblanks : ∀ x ∈ blanks, x.isBlank = true) :
    trimRaw (raw ++ blanks) = raw := by
  have hright : (blanks.reverse ++ raw.reverse).dropWhile RawChar.isBlank = raw.reverse := by
    rw [List.dropWhile_append_of_pos fun x hx ↦ hblanks x (List.mem_reverse.1 hx)]
    cases hr : raw.reverse with
    | nil => rfl
    | cons x xs =>
      apply List.dropWhile_cons_of_neg
      have hx := hlast x (by rw [← List.head?_reverse, hr]; rfl)
      simp [hx]
  cases raw with
  | nil =>
    have hleft : blanks.dropWhile RawChar.isBlank = [] := by
      rw [← List.append_nil blanks, List.dropWhile_append_of_pos hblanks]
      rfl
    simp [trimRaw, hleft]
  | cons x xs =>
    have hx : ¬ x.isBlank = true := by simp [hhead x rfl]
    rw [trimRaw, List.cons_append, List.dropWhile_cons_of_neg hx, ← List.cons_append,
      List.reverse_append, hright, List.reverse_reverse]

/-- A character of raw text that is written as itself. -/
def RawChar.plain (c : Char) : RawChar := ⟨c, false⟩

/-- Raw text goes on with characters that neither end nor escape anything. -/
theorem gives_rawChars_plain {cs t rest : List Char} {more : List RawChar}
    (hcs : ∀ c ∈ cs, c ≠ ')' ∧ c ≠ '\\') (h : Gives (rawChars t) more rest) :
    Gives (rawChars (cs ++ t)) (cs.map RawChar.plain ++ more) rest := by
  induction cs with
  | nil => exact h
  | cons c cs ih =>
    obtain ⟨⟨hclose, hback⟩, hcs⟩ := List.forall_mem_cons.1 hcs
    exact (gives_rawChars_cons hclose hback).2 ⟨_, ih hcs, rfl⟩

/-- Blanks up to a parenthesis are raw text. -/
theorem gives_rawChars_blanks {g : List Char} (hg : Blanks g) (t : List Char) :
    ∃ raw, (∀ x ∈ raw, x.isBlank = true) ∧ Gives (rawChars (g ++ ')' :: t)) raw (')' :: t) := by
  have hplain : ∀ c ∈ g, c ≠ ')' ∧ c ≠ '\\' := by
    intro c hc
    have hblank := hg c hc
    constructor
    · rintro rfl
      cases hblank
    · rintro rfl
      cases hblank
  have h := gives_rawChars_plain hplain (gives_rawChars_stop.2 ⟨rfl, rfl⟩ : Gives _ _ (')' :: t))
  rw [List.append_nil] at h
  refine ⟨g.map RawChar.plain, ?_, h⟩
  intro x hx
  obtain ⟨c, hc, rfl⟩ := List.mem_map.1 hx
  exact hg c hc

/-- Raw text goes on with a written character of a name, which does not count as a blank. -/
theorem NameChar.gives_rawChars {c : Char} {cs t rest : List Char} {more : List RawChar}
    (hc : NameChar c cs) (h : Gives (rawChars t) more rest) :
    ∃ x : RawChar, x.char = c ∧ x.isBlank = false ∧
      Gives (rawChars (cs ++ t)) (x :: more) rest := by
  cases hc with
  | plain hc =>
    have hne : c ≠ '\\' := by
      rintro rfl
      cases hc
    have hclose : c ≠ ')' := by
      rintro rfl
      cases hc
    have hblank : Text.isBlank c = false := isBlank_of_isNameChar hc
    refine ⟨⟨c, false⟩, rfl, ?_, (gives_rawChars_cons hclose hne).2 ⟨more, h, rfl⟩⟩
    simpa [RawChar.isBlank] using hblank
  | special hc =>
    refine ⟨⟨c, true⟩, rfl, rfl, ?_⟩
    exact gives_rawChars_escape.2 ⟨c, t, gives_escaped_special hc t, more, h, rfl⟩
  | number =>
    refine ⟨⟨c, true⟩, rfl, rfl, ?_⟩
    rw [List.append_assoc, List.cons_append]
    exact gives_rawChars_escape.2 ⟨c, t, gives_escaped_number (k := false) c t, more, h, rfl⟩

/-- Written characters of names are raw text without blanks. -/
theorem gives_rawChars_nameTail {t rest : List Char} {more : List RawChar}
    (h : Gives (rawChars t) more rest) (cs : List Char) :
    ∃ raw : List RawChar, raw.map RawChar.char = cs ∧ (∀ x ∈ raw, x.isBlank = false) ∧
      Gives (rawChars (Spelling.nameTail cs ++ t)) (raw ++ more) rest := by
  induction cs with
  | nil => exact ⟨[], rfl, by simp, h⟩
  | cons c cs ih =>
    obtain ⟨raw, hchars, hraw, h⟩ := ih
    obtain ⟨x, hx, hblank, h⟩ := (nameChar_spell false c).gives_rawChars h
    refine ⟨x :: raw, by rw [List.map_cons, hx, hchars],
      List.forall_mem_cons.2 ⟨hblank, hraw⟩, ?_⟩
    rw [Spelling.nameTail, List.flatMap_cons, List.append_assoc]
    exact h

/-- A written name reads back as a raw argument, blanks behind it left out. -/
theorem gives_rawArgument_name {g : List Char} (hg : Blanks g) (s : String) (t : List Char) :
    Gives (rawArgument (Spelling.name s ++ (g ++ ')' :: t))) s (')' :: t) := by
  obtain ⟨blanks, hblanks, h⟩ := gives_rawChars_blanks hg t
  obtain ⟨raw, hchars, hraw, h⟩ : ∃ raw : List RawChar, raw.map RawChar.char = s.toList ∧
      (∀ x ∈ raw, x.isBlank = false) ∧
      Gives (rawChars (Spelling.name s ++ (g ++ ')' :: t))) (raw ++ blanks) (')' :: t) := by
    unfold Spelling.name
    split
    · next hs => exact ⟨[], hs.symm, by simp, h⟩
    · next c cs hs =>
      obtain ⟨raw, hchars, hraw, h⟩ := gives_rawChars_nameTail h cs
      obtain ⟨x, hx, hblank, h⟩ := (nameChar_spell true c).gives_rawChars h
      refine ⟨x :: raw, by rw [List.map_cons, hx, hchars, hs],
        List.forall_mem_cons.2 ⟨hblank, hraw⟩, ?_⟩
      rw [List.append_assoc]
      exact h
  refine gives_rawArgument.2 ⟨_, h, ?_⟩
  have hhead : ∀ x ∈ raw.head?, x.isBlank = false := fun x hx ↦ hraw x (List.mem_of_mem_head? hx)
  have hlast : ∀ x ∈ raw.getLast?, x.isBlank = false :=
    fun x hx ↦ hraw x (List.mem_of_mem_getLast? hx)
  rw [trimRaw_append hhead hlast hblanks, hchars, String.ofList_toList]

/-- Raw text that is safe to write reads back as a raw argument, blanks behind it left out. -/
theorem gives_rawArgument_safe {g : List Char} (hg : Blanks g) {s : String}
    (hs : Spelling.isRawSafe s.toList = true) (t : List Char) :
    Gives (rawArgument (s.toList ++ (g ++ ')' :: t))) s (')' :: t) := by
  obtain ⟨blanks, hblanks, h⟩ := gives_rawChars_blanks hg t
  simp only [Spelling.isRawSafe, Bool.and_eq_true, Bool.not_eq_true', Option.any_eq_false,
    List.contains_eq_mem, decide_eq_false_iff_not] at hs
  obtain ⟨⟨⟨⟨hhead, hlast⟩, _⟩, hclose⟩, hback⟩ := hs
  have hplain : ∀ c ∈ s.toList, c ≠ ')' ∧ c ≠ '\\' := by
    intro c hc
    constructor
    · rintro rfl
      exact hclose hc
    · rintro rfl
      exact hback hc
  refine gives_rawArgument.2 ⟨_, gives_rawChars_plain hplain h, ?_⟩
  rw [trimRaw_append ?_ ?_ hblanks, List.map_map]
  · have hid : RawChar.char ∘ RawChar.plain = id := rfl
    rw [hid, List.map_id, String.ofList_toList]
  · intro x hx
    rw [List.head?_map] at hx
    obtain ⟨c, hc, rfl⟩ := Option.map_eq_some_iff.1 hx
    simpa [RawChar.isBlank, RawChar.plain] using hhead c hc
  · intro x hx
    rw [List.getLast?_map] at hx
    obtain ⟨c, hc, rfl⟩ := Option.map_eq_some_iff.1 hx
    simpa [RawChar.isBlank, RawChar.plain] using hlast c hc

end Raw

end Lexeme

end DocSelect

import DocSelect.Proofs.Selector.Escape
import DocSelect.Proofs.Selector.Location
import DocSelect.Proofs.Text.Numeral
import Mathlib.Data.List.Forall2

/-!
# All ways to write a string

The characters of a string can each be written in several ways between quotes: as themselves, behind
a backslash, or by number, some of them as two halves. However they are written, they read back, and
nothing behind the closing quote is touched. A number that is the one of no character is refused
with its digits.
-/

namespace DocSelect.Lexeme

open Text (Ahead Digit Numeral ahead_cons isHexDigit hexNumber)

/-! ### Escapes by number -/

/-- Whether digits are those of an escape by number in front of some text: all digits that stand
there, or six of them. -/
structure EscapeDigits (ds : List Char) (n : Nat) (rest : List Char) : Prop where
  numeral : Numeral 16 ds n
  length_le : ds.length ≤ 6
  all : ds.length = 6 ∨ Ahead (fun c ↦ !isHexDigit c) rest

/-- What may close an escape by number: one space, or nothing. -/
inductive Closing : List Char → Prop
  | none : Closing []
  | space : Closing [' ']

/-- Whether the second half of a pair is written next, by number, behind what closes the first. -/
def LowFollows (cs : List Char) : Prop :=
  ∃ gap ds low rest, Closing gap ∧ cs = gap ++ '\\' :: (ds ++ rest) ∧
    EscapeDigits ds low rest ∧ 0xDC00 ≤ low ∧ low ≤ 0xDFFF

/-- Whether a number in front of some text is the one of no character: it is too high, or it is
half of a pair without the other half. -/
inductive Unassigned (n : Nat) (rest : List Char) : Prop
  | beyond (h : 0x10FFFF < n)
  | low (hfirst : 0xDC00 ≤ n) (hlast : n ≤ 0xDFFF)
  | high (hfirst : 0xD800 ≤ n) (hlast : n ≤ 0xDBFF) (hlow : ¬ LowFollows rest)

section Digits

variable {ds rest : List Char} {n : Nat}

/-- The digits of an escape are taken, with one space behind them. -/
theorem EscapeDigits.taken (h : EscapeDigits ds n rest) :
    (hexEscapeDigits (ds ++ rest)).1 = ds ∧
      (hexEscapeDigits (ds ++ rest)).2.1 = (skipSpace rest).1 := by
  obtain ⟨_, hds, _⟩ := Text.numeral_sixteen.1 h.numeral
  obtain ⟨htaken, hleft⟩ := takeHex_append hds h.length_le h.all
  refine ⟨htaken, ?_⟩
  show (skipSpace (takeHex 6 _).2.1).1 = _
  rw [hleft]

/-- Digits that are taken are some of the leading ones, and all of them unless there are too
many. -/
theorem takeHex_spec (k : Nat) (cs : List Char) :
    (∀ d ∈ (takeHex k cs).1, isHexDigit d = true) ∧ (takeHex k cs).1.length ≤ k ∧
      ((takeHex k cs).1.length = k ∨ Ahead (fun c ↦ !isHexDigit c) (takeHex k cs).2.1) := by
  induction k generalizing cs with
  | zero => exact ⟨List.forall_mem_nil _, Nat.le_refl 0, .inl rfl⟩
  | succ k ih =>
    cases cs with
    | nil => exact ⟨List.forall_mem_nil _, Nat.zero_le _, .inr Text.ahead_nil⟩
    | cons c t =>
      rw [takeHex]
      split
      · next hc =>
        obtain ⟨hall, hlen, hrest⟩ := ih t
        refine ⟨List.forall_mem_cons.2 ⟨hc, hall⟩, Nat.succ_le_succ hlen, ?_⟩
        exact hrest.imp_left (congrArg Nat.succ)
      · next hc =>
        exact ⟨List.forall_mem_nil _, Nat.zero_le _, .inr (ahead_cons.2 (by simpa using hc))⟩

/-- A text that begins with a digit begins with the digits of an escape. -/
theorem escapeDigits_takeHex {d : Char} (hd : isHexDigit d = true) (t : List Char) :
    EscapeDigits (takeHex 6 (d :: t)).1 (hexNumber (takeHex 6 (d :: t)).1)
      (takeHex 6 (d :: t)).2.1 := by
  obtain ⟨hall, hlen, hrest⟩ := takeHex_spec 6 (d :: t)
  refine ⟨Text.numeral_sixteen.2 ⟨?_, hall, rfl⟩, hlen, hrest⟩
  rw [takeHex, if_pos hd]
  exact List.cons_ne_nil d _

/-- Digits begin with a digit. -/
theorem EscapeDigits.exists_cons (h : EscapeDigits ds n rest) :
    ∃ d t, ds = d :: t ∧ isHexDigit d = true := by
  obtain ⟨hne, hall, _⟩ := Text.numeral_sixteen.1 h.numeral
  obtain ⟨d, t, rfl⟩ := List.exists_cons_of_ne_nil hne
  exact ⟨d, t, rfl, hall d List.mem_cons_self⟩

/-- What is skipped closes an escape. -/
theorem exists_closing (cs : List Char) : ∃ gap, Closing gap ∧ cs = gap ++ (skipSpace cs).1 := by
  rcases eq_or_skipSpace cs with hcs | hcs
  · exact ⟨[], .none, hcs⟩
  · exact ⟨[' '], .space, hcs⟩

/-- The second half of a pair that is found is written there. -/
theorem lowFollows_of_lowSurrogate? {gap cs : List Char} (hgap : Closing gap)
    {found : Nat × Text.AtMost cs.length} (h : lowSurrogate? cs = some found) :
    LowFollows (gap ++ cs) := by
  obtain ⟨low, r⟩ := found
  obtain ⟨d, t, rfl, hd, rfl, hlow, _⟩ := lowSurrogate?_eq_some.1 h
  obtain ⟨hfirst, hlast⟩ := Bool.and_eq_true_iff.1 hlow
  have htext : d :: t = (takeHex 6 (d :: t)).1 ++ (takeHex 6 (d :: t)).2.1 :=
    takeHex_eq_append 6 (d :: t)
  refine ⟨gap, _, _, _, hgap, ?_, escapeDigits_takeHex hd t, of_decide_eq_true hfirst,
    of_decide_eq_true hlast⟩
  rw [← htext]

/-- The second half of a pair that is written is found. -/
theorem lowSurrogate?_append (h : EscapeDigits ds n rest) (hfirst : 0xDC00 ≤ n)
    (hlast : n ≤ 0xDFFF) :
    ∃ hle, lowSurrogate? ('\\' :: (ds ++ rest)) = some (n, ⟨(skipSpace rest).1, hle⟩) := by
  obtain ⟨htaken, hleft⟩ := h.taken
  obtain ⟨_, _, hnumber⟩ := Text.numeral_sixteen.1 h.numeral
  obtain ⟨d, t, rfl, hd⟩ := h.exists_cons
  have hlow : Text.isLowSurrogate n = true := by simp [Text.isLowSurrogate, hfirst, hlast]
  have hle : (skipSpace rest).1.length ≤ ('\\' :: (d :: t ++ rest)).length := by
    rw [← hleft]
    exact Nat.le_succ_of_le (hexEscapeDigits _).2.2
  refine ⟨hle, lowSurrogate?_eq_some.2 ⟨d, t ++ rest, rfl, hd, ?_, hlow, hleft⟩⟩
  rw [← List.cons_append, htaken, hnumber]

/-- A number that is the one of no character is refused with its digits. -/
theorem hexEscape_eq_error (h : EscapeDigits ds n rest) (hn : Unassigned n rest) :
    hexEscape (ds ++ rest) =
      .error ⟨.invalidEscape (String.ofList ds), '\\' :: (ds ++ rest), (skipSpace rest).1⟩ := by
  obtain ⟨htaken, hleft⟩ := h.taken
  obtain ⟨_, _, hnumber⟩ := Text.numeral_sixteen.1 h.numeral
  have hchar : Text.charOfCodePoint? n = none := by
    refine if_neg fun hvalid ↦ ?_
    have hvalid : n < 0xD800 ∨ 0xDFFF < n ∧ n < 0x110000 := hvalid
    cases hn <;> omega
  have hlow :
      (if Text.isHighSurrogate n then lowSurrogate? (skipSpace rest).1 else none) = none := by
    split
    · next hhigh =>
      obtain ⟨hfirst, hlast⟩ := Bool.and_eq_true_iff.1 hhigh
      have hfirst := of_decide_eq_true hfirst
      have hlast := of_decide_eq_true hlast
      cases hn with
      | beyond h => omega
      | low hfirst' hlast' => omega
      | high _ _ hlow =>
        obtain ⟨gap, hgap, hrest⟩ := exists_closing rest
        refine Option.eq_none_iff_forall_ne_some.2 fun found hfound ↦ hlow ?_
        rw [hrest]
        exact lowFollows_of_lowSurrogate? hgap hfound
    · rfl
  unfold hexEscape
  generalize hexEscapeDigits (ds ++ rest) = taken at htaken hleft
  obtain ⟨ds', r, hr⟩ := taken
  dsimp only at htaken hleft ⊢
  obtain rfl := htaken
  obtain rfl := hleft
  rw [hnumber, hlow, hchar]

end Digits

/-! ### Characters of strings -/

/-- What closes digits in front of some text: one space, or nothing, if the text goes on neither
with a digit that would be taken nor with a space. -/
inductive Closes (ds rest : List Char) : List Char → Prop
  | space : Closes ds rest [' ']
  | bare (hdigit : ds.length = 6 ∨ Ahead (fun c ↦ !isHexDigit c) rest)
    (hspace : Ahead (· != ' ') rest) : Closes ds rest []

/-- The digits of an escape, with what closes them in front of some text. -/
structure NumberEscape (ds : List Char) (n : Nat) (close rest : List Char) : Prop where
  numeral : Numeral 16 ds n
  length_le : ds.length ≤ 6
  closes : Closes ds rest close

/-- The ways to write a character between quotes, in front of some text. -/
inductive Spells (quote c : Char) (rest : List Char) : List Char → Prop
  | plain (hquote : c ≠ quote) (hback : c ≠ '\\') : Spells quote c rest [c]
  | letter {e : Char} (h : (e, c) ∈ [('n', '\n'), ('r', '\r'), ('t', '\t'), ('f', '\x0c')]) :
    Spells quote c rest ['\\', e]
  /-- The quote and the backslash are written in this way, too. -/
  | itself (hdigit : ∀ v, ¬ Digit 16 c v) (hletter : c ∉ ['n', 'r', 't', 'f']) :
    Spells quote c rest ['\\', c]
  /-- A small `f` behind the backslash would be the letter of the form feed. -/
  | number {ds close : List Char} (hds : NumberEscape ds c.toNat close rest)
      (hletter : ds.head? ≠ some 'f') : Spells quote c rest ('\\' :: (ds ++ close))
  | pair {ds gap es close : List Char} {high low : Nat}
      (hds : NumberEscape ds high gap ('\\' :: (es ++ (close ++ rest))))
      (hletter : ds.head? ≠ some 'f') (hes : NumberEscape es low close rest)
      (hhigh : 0xD800 ≤ high ∧ high ≤ 0xDBFF) (hlow : 0xDC00 ≤ low ∧ low ≤ 0xDFFF)
      (hc : c.toNat = 0x10000 + (high - 0xD800) * 0x400 + (low - 0xDC00)) :
    Spells quote c rest ('\\' :: (ds ++ (gap ++ '\\' :: (es ++ close))))

section Number

variable {ds es gap close t : List Char} {n high low : Nat} {c : Char}

/-- The digits of an escape are all that are taken. -/
theorem NumberEscape.escapeDigits (h : NumberEscape ds n close t) :
    EscapeDigits ds n (close ++ t) := by
  refine ⟨h.numeral, h.length_le, ?_⟩
  cases h.closes with
  | space => exact .inr (ahead_cons.2 rfl)
  | bare hdigit _ => exact hdigit

/-- What closes the digits of an escape is skipped. -/
theorem NumberEscape.skipSpace (h : NumberEscape ds n close t) :
    (skipSpace (close ++ t)).1 = t := by
  cases h.closes with
  | space => rfl
  | bare _ hspace =>
    cases t with
    | nil => rfl
    | cons x u =>
      have hx : x ≠ ' ' := by simpa using ahead_cons.1 hspace
      rw [List.nil_append, Lexeme.skipSpace]
      · rfl
      · intro u hu
        exact hx (List.cons.inj hu).1

/-- The number of a character reads back as the character. -/
theorem NumberEscape.gives (h : NumberEscape ds c.toNat close t) :
    Gives (hexEscape (ds ++ (close ++ t))) c t := by
  obtain ⟨htaken, hleft⟩ := h.escapeDigits.taken
  obtain ⟨_, _, hnumber⟩ := Text.numeral_sixteen.1 h.numeral
  rw [h.skipSpace] at hleft
  rw [gives_hexEscape_iff, htaken, hleft, hnumber]
  exact .inl ⟨Text.isHighSurrogate_toNat c, Text.charOfCodePoint?_toNat c, rfl⟩

/-- Two halves of a pair read back as the character that they make up. -/
theorem NumberEscape.gives_pair (hds : NumberEscape ds high gap ('\\' :: (es ++ (close ++ t))))
    (hes : NumberEscape es low close t) (hhigh : 0xD800 ≤ high ∧ high ≤ 0xDBFF)
    (hlow : 0xDC00 ≤ low ∧ low ≤ 0xDFFF)
    (hc : c.toNat = 0x10000 + (high - 0xD800) * 0x400 + (low - 0xDC00)) :
    Gives (hexEscape (ds ++ (gap ++ '\\' :: (es ++ (close ++ t))))) c t := by
  obtain ⟨htaken, hleft⟩ := hds.escapeDigits.taken
  obtain ⟨_, _, hnumber⟩ := Text.numeral_sixteen.1 hds.numeral
  obtain ⟨hle, hfound⟩ := lowSurrogate?_append hes.escapeDigits hlow.1 hlow.2
  have hsurrogate : Text.isHighSurrogate high = true := by
    simp [Text.isHighSurrogate, hhigh.1, hhigh.2]
  have hjoin : Text.joinSurrogates high low = c.toNat := by
    rw [Text.joinSurrogates]
    omega
  rw [hds.skipSpace] at hleft
  rw [gives_hexEscape_iff, htaken, hleft, hnumber]
  refine .inr ⟨hsurrogate, low, _, hfound, ?_, hes.skipSpace.symm⟩
  rw [hjoin, Text.charOfCodePoint?_toNat]

end Number

/-- The rest of a string with one more character in front. -/
def prepend {m n : Nat} (h : m ≤ n) (c : Char) (x : Taken (List Char) m) :
    Taken (List Char) n := do
  let (more, r) ← x
  return (c :: more, ⟨r.1, Nat.le_trans r.2 h⟩)

section Tail

variable {quote c e : Char} {cs t whole : List Char}

/-- A character that is no digit in base sixteen is the digit of no value. -/
theorem isHexDigit_eq_false (h : ∀ v, ¬ Digit 16 c v) : isHexDigit c = false := by
  unfold isHexDigit
  cases hvalue : Text.hexValue? c with
  | none => rfl
  | some v => exact absurd (Text.digit_sixteen.2 hvalue) (h v)

/-- A digit stands for a number in a string, unless it is the letter of the form feed. -/
theorem isHexDigit_and_shortEscape? (hquote : quote = '"' ∨ quote = '\'')
    (hd : isHexDigit e = true) (hletter : e ≠ 'f') :
    (isHexDigit e && (shortEscape? quote e).isNone) = true := by
  have hne {x : Char} (hx : isHexDigit x = false) : e ≠ x := by
    rintro rfl
    rw [hx] at hd
    cases hd
  have hquote' : e ≠ quote := by rcases hquote with rfl | rfl <;> exact hne rfl
  simp [shortEscape?, hd, hne (x := 'n') rfl, hne (x := 'r') rfl, hne (x := 't') rfl, hletter,
    hne (x := '\\') rfl, hquote']

/-- A string goes on behind an escape by number, one character on. -/
theorem stringTail_hexEscape (hquote : quote = '"' ∨ quote = '\'') {ds : List Char} {n : Nat}
    (h : EscapeDigits ds n t) (hletter : ds.head? ≠ some 'f') :
    stringTail quote whole ('\\' :: (ds ++ t)) = do
      let (x, r) ← hexEscape (ds ++ t)
      let (more, r') ← stringTail quote whole r.1
      return (x :: more, ⟨r'.1, Nat.le_trans r'.2 (Nat.le_succ_of_le r.2)⟩) := by
  have hback : '\\' ≠ quote := by rcases hquote with rfl | rfl <;> decide
  obtain ⟨d, ds, rfl, hd⟩ := h.exists_cons
  have hd := isHexDigit_and_shortEscape? hquote hd (by simpa using hletter)
  rw [stringTail.eq_def]
  simp only [List.cons_append, if_neg hback, hd, if_true]

/-- A string goes on behind a character that is written in whatever way. -/
theorem Spells.stringTail_append (h : Spells quote c t cs) (hquote : quote = '"' ∨ quote = '\'')
    (whole : List Char) :
    ∃ hle, stringTail quote whole (cs ++ t) = prepend hle c (stringTail quote whole t) := by
  have hback : '\\' ≠ quote := by rcases hquote with rfl | rfl <;> decide
  have hshort {e : Char} (he : (isHexDigit e && (shortEscape? quote e).isNone) = false)
      (hc : (shortEscape? quote e).getD e = c) :
      ∃ hle, stringTail quote whole ('\\' :: e :: t) =
        prepend hle c (stringTail quote whole t) := by
    rw [stringTail.eq_def]
    simp only [if_neg hback, he, hc, if_true]
    exact ⟨Nat.le_succ_of_le (Nat.le_succ _), rfl⟩
  cases h with
  | plain hplain hbackslash =>
    rw [List.singleton_append, stringTail.eq_def]
    simp only [if_neg hplain, if_neg hbackslash]
    exact ⟨Nat.le_succ _, rfl⟩
  | @letter e he =>
    have hletter : shortEscape? quote e = some c := by
      simp only [List.mem_cons, Prod.mk.injEq, List.not_mem_nil, or_false] at he
      rcases he with ⟨rfl, rfl⟩ | ⟨rfl, rfl⟩ | ⟨rfl, rfl⟩ | ⟨rfl, rfl⟩ <;> rfl
    apply hshort
    · rw [hletter, Option.isNone_some, Bool.and_false]
    · rw [hletter, Option.getD_some]
  | itself hdigit hletter =>
    apply hshort
    · rw [isHexDigit_eq_false hdigit, Bool.false_and]
    · simp only [List.mem_cons, List.not_mem_nil, or_false, not_or] at hletter
      obtain ⟨hn, hr, ht, hf⟩ := hletter
      rw [shortEscape?, if_neg hn, if_neg hr, if_neg ht, if_neg hf]
      split
      · next hc => exact hc.symm
      split
      · next hc => exact hc.symm
      · rfl
  | number hds hletter =>
    obtain ⟨hle, hgives⟩ := hds.gives
    rw [List.cons_append, List.append_assoc, stringTail_hexEscape hquote hds.escapeDigits hletter,
      hgives]
    exact ⟨Nat.le_succ_of_le hle, rfl⟩
  | @pair ds gap es close _ _ hds hletter hes hhigh hlow hc =>
    have htext : '\\' :: (ds ++ (gap ++ '\\' :: (es ++ close))) ++ t =
        '\\' :: (ds ++ (gap ++ '\\' :: (es ++ (close ++ t)))) := by simp
    obtain ⟨hle, hgives⟩ := hds.gives_pair hes hhigh hlow hc
    rw [htext, stringTail_hexEscape hquote hds.escapeDigits hletter, hgives]
    exact ⟨Nat.le_succ_of_le hle, rfl⟩

end Tail

/-! ### Strings -/

/-- The ways to write characters one behind the other, in front of some text. -/
inductive Writes (quote : Char) (rest : List Char) : List Char → List Char → Prop
  | nil : Writes quote rest [] rest
  | cons {c : Char} {s cs t : List Char} (hc : Spells quote c t cs) (ht : Writes quote rest s t) :
    Writes quote rest (c :: s) (cs ++ t)

section Strings

variable {quote : Char} {rest s t whole more r : List Char} {p : Problem}

/-- A string reads on behind characters that are written. -/
theorem Writes.gives (h : Writes quote rest s t) (hquote : quote = '"' ∨ quote = '\'')
    (hrest : Gives (stringTail quote whole rest) more r) :
    Gives (stringTail quote whole t) (s ++ more) r := by
  induction h with
  | nil => exact hrest
  | cons hc _ ih =>
    obtain ⟨hle, heq⟩ := hc.stringTail_append hquote whole
    rw [heq, prepend]
    exact gives_bind.2 ⟨_, _, ih, gives_pure.2 ⟨rfl, rfl⟩⟩

/-- A string that is refused behind characters that are written is refused. -/
theorem Writes.eq_error (h : Writes quote rest s t) (hquote : quote = '"' ∨ quote = '\'')
    (hrest : stringTail quote whole rest = .error p) : stringTail quote whole t = .error p := by
  induction h with
  | nil => exact hrest
  | cons hc _ ih =>
    obtain ⟨hle, heq⟩ := hc.stringTail_append hquote whole
    rw [heq, ih]
    rfl

/-- A string reads back from whatever way its characters are written in, and is read up to its
closing quote. An escape by a number that is the one of no character is refused with its digits,
in a string and outside of strings. -/
theorem string_of_writes (hquote : quote = '"' ∨ quote = '\'') :
    (∀ (s : String) (rest t : List Char), Writes quote (quote :: rest) s.toList t →
      Gives (string quote t) s rest) ∧
    ∀ (ds : List Char) (n : Nat) (rest : List Char),
      EscapeDigits ds n rest → Unassigned n rest →
        let invalid : Problem :=
          ⟨.invalidEscape (String.ofList ds), '\\' :: (ds ++ rest), (skipSpace rest).1⟩
        escaped (ds ++ rest) = .error invalid ∧
          (ds.head? ≠ some 'f' → ∀ s t, Writes quote ('\\' :: (ds ++ rest)) s t →
            string quote t = .error invalid) := by
  constructor
  · intro s rest t h
    have hclose : Gives (stringTail quote (quote :: t) (quote :: rest)) [] rest :=
      gives_stringTail_quote.2 ⟨rfl, rfl⟩
    have htail := h.gives hquote hclose
    rw [List.append_nil] at htail
    exact gives_string.2 ⟨_, htail, String.ofList_toList.symm⟩
  · intro ds n rest hds hn
    have herror := hexEscape_eq_error hds hn
    constructor
    · obtain ⟨d, ds, rfl, hd⟩ := hds.exists_cons
      rw [List.cons_append] at herror ⊢
      rw [escaped, if_pos hd, herror]
    · intro hletter s t h
      rw [string, h.eq_error hquote]
      · rfl
      · rw [stringTail_hexEscape hquote hds hletter, herror]
        rfl

/-- The two halves of a pair are read back in front of an escaped quote, and behind a letter the
first half alone is refused. -/
theorem string_of_writes_pair :
    (('"' = '"' ∨ '"' = '\'') ∧
      Writes '"' ['"', ']'] "😀\"".toList
        ['\\', 'd', '8', '3', 'd', ' ', '\\', 'D', 'E', '0', '0', '\\', '"', '"', ']'] ∧
      Gives (string '"' ['\\', 'd', '8', '3', 'd', ' ', '\\', 'D', 'E', '0', '0', '\\', '"', '"',
        ']']) "😀\"" [']']) ∧
    EscapeDigits ['D', '8', '3', 'D'] 0xD83D [' ', 'x', '"'] ∧
      Unassigned 0xD83D [' ', 'x', '"'] ∧
      Writes '"' ['\\', 'D', '8', '3', 'D', ' ', 'x', '"'] ['a']
        ['a', '\\', 'D', '8', '3', 'D', ' ', 'x', '"'] ∧
      string '"' ['a', '\\', 'D', '8', '3', 'D', ' ', 'x', '"'] =
        .error ⟨.invalidEscape "D83D", ['\\', 'D', '8', '3', 'D', ' ', 'x', '"'], ['x', '"']⟩ := by
  have hnumeral {ds : List Char} (hne : ds ≠ []) (hall : ds.all isHexDigit = true) :
      Numeral 16 ds (hexNumber ds) :=
    Text.numeral_sixteen.2 ⟨hne, List.all_eq_true.1 hall, rfl⟩
  have hhigh : NumberEscape ['d', '8', '3', 'd'] 0xD83D [' ']
      ['\\', 'D', 'E', '0', '0', '\\', '"', '"', ']'] :=
    ⟨hnumeral nofun rfl, by decide, .space⟩
  have hlow : NumberEscape ['D', 'E', '0', '0'] 0xDE00 [] ['\\', '"', '"', ']'] :=
    ⟨hnumeral nofun rfl, by decide, .bare (.inr (ahead_cons.2 rfl)) (ahead_cons.2 rfl)⟩
  have hface : Spells '"' '😀' ['\\', '"', '"', ']']
      ['\\', 'd', '8', '3', 'd', ' ', '\\', 'D', 'E', '0', '0'] :=
    .pair hhigh (by decide) hlow (by decide) (by decide) (by decide)
  have hitself : Spells '"' '"' ['"', ']'] ['\\', '"'] := by
    refine .itself (fun v hv ↦ ?_) (by decide)
    cases Text.digit_sixteen.1 hv
  have hwrites := Writes.cons hface (.cons hitself .nil)
  have hdigits : EscapeDigits ['D', '8', '3', 'D'] 0xD83D [' ', 'x', '"'] :=
    ⟨hnumeral nofun rfl, by decide, .inr (ahead_cons.2 rfl)⟩
  have halone : Unassigned 0xD83D [' ', 'x', '"'] := by
    refine .high (by decide) (by decide) ?_
    rintro ⟨gap, ds, low, rest, hgap, heq, -⟩
    cases hgap with
    | none => cases heq
    | space => cases heq
  have hprefix : Writes '"' ['\\', 'D', '8', '3', 'D', ' ', 'x', '"'] ['a'] _ :=
    .cons (.plain (by decide) (by decide)) .nil
  have hstring := string_of_writes (.inl rfl : '"' = '"' ∨ '"' = '\'')
  exact ⟨⟨.inl rfl, hwrites, hstring.1 "😀\"" _ _ hwrites⟩, hdigits, halone, hprefix,
    (hstring.2 _ _ _ hdigits halone).2 (by decide) _ _ hprefix⟩

end Strings

end DocSelect.Lexeme

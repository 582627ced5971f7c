import DocSelect.Proofs.Selector.Escape
import DocSelect.Proofs.Selector.Rounds

/-!
# Reading makes progress

A reader starts behind some bytes of a text, which end between two characters. The text that it
leaves begins there or further on, and again between two characters, also where a value without
quotes is searched for a byte and not for a character. Whatever is read again and again, the items
of a loop and the selectors within selectors, is read from less text each time, and so comes to
an end.
-/

namespace DocSelect

open Text (skipBlank)

/-! ### Bytes -/

namespace Text

/-- The bytes of a text in UTF-8. -/
def utf8 (cs : List Char) : List UInt8 := cs.flatMap String.utf8EncodeChar

/-- The byte of a bracket occurs in no other character. -/
theorem mem_utf8EncodeChar {c : Char} : 0x5D ∈ String.utf8EncodeChar c ↔ c = ']' := by
  constructor
  · intro h
    have hlow {n : Nat} (hn : UInt8.ofNat n = 0x5D) : n % 256 = 0x5D := congrArg UInt8.toNat hn
    -- all bytes of a character that takes more than one are above those that stand alone
    have hhigh (ns : List Nat) (hns : ∀ n ∈ ns, 128 ≤ n % 256) : 0x5D ∉ ns.map UInt8.ofNat := by
      intro hmem
      obtain ⟨n, hn, hbyte⟩ := List.mem_map.1 hmem
      have hn := hns n hn
      have hbyte := hlow hbyte
      omega
    unfold String.utf8EncodeChar at h
    extract_lets v at h
    by_cases h₁ : v ≤ 0x7F
    · rw [if_pos h₁] at h
      have hbyte := hlow (List.mem_singleton.1 h).symm
      have hv : v = 0x5D := by omega
      exact Char.ext (UInt32.toNat.inj hv)
    rw [if_neg h₁] at h
    by_cases h₂ : v ≤ 0x7FF
    · rw [if_pos h₂] at h
      refine absurd h (hhigh [v / 64 % 32 + 192, v % 64 + 128] ?_)
      simp only [List.forall_mem_cons, List.not_mem_nil, false_implies, implies_true,
        and_true]
      omega
    rw [if_neg h₂] at h
    by_cases h₃ : v ≤ 0xFFFF
    · rw [if_pos h₃] at h
      refine absurd h (hhigh [v / 4096 % 16 + 224, v / 64 % 64 + 128, v % 64 + 128] ?_)
      simp only [List.forall_mem_cons, List.not_mem_nil, false_implies, implies_true,
        and_true]
      omega
    · rw [if_neg h₃] at h
      refine absurd h (hhigh [v / 262144 % 8 + 240, v / 4096 % 64 + 128,
        v / 64 % 64 + 128, v % 64 + 128] ?_)
      simp only [List.forall_mem_cons, List.not_mem_nil, false_implies, implies_true,
        and_true]
      omega
  · rintro rfl
    decide

/-- The byte of a bracket is found first where the first bracket of a text begins. -/
theorem idxOf_utf8 (cs : List Char) :
    (utf8 cs).idxOf 0x5D = byteLength (cs.takeWhile (· != ']')) := by
  induction cs with
  | nil => rfl
  | cons c cs ih =>
    by_cases hc : c = ']'
    · subst hc
      rfl
    · have hne : (c != ']') = true := by simpa using hc
      rw [utf8, List.flatMap_cons, List.takeWhile_cons, if_pos hne,
        List.idxOf_append_of_notMem (mt mem_utf8EncodeChar.1 hc), String.length_utf8EncodeChar,
        byteLength_cons]
      exact congrArg (c.utf8Size + ·) ih

end Text

namespace Diagnostic

/-- The text behind some bytes of another text stands there behind text of as many bytes. -/
theorem exists_of_dropBytes? {pos : Nat} {text cs : List Char}
    (h : dropBytes? pos text = some cs) : ∃ before, text = before ++ cs ∧
      Text.byteLength before = pos := by
  fun_induction dropBytes? pos text with
  | case1 text =>
    obtain rfl := Option.some.inj h
    exact ⟨[], rfl, rfl⟩
  | case2 => cases h
  | case3 n c t hc ih =>
    obtain ⟨before, rfl, hlen⟩ := ih h
    refine ⟨c :: before, rfl, ?_⟩
    rw [Text.byteLength_cons, hlen]
    omega
  | case4 => cases h

/-- Whether some text is what a text ends with, from some byte or a later one on. -/
def EndsFrom (text : List Char) (pos : Nat) (r : List Char) : Prop :=
  ∃ pos', pos ≤ pos' ∧ dropBytes? pos' text = some r

/-- An end of the text behind some bytes begins there or later, and later if it is shorter. -/
theorem endsFrom_of_suffix {pos : Nat} {text cs r : List Char}
    (hcursor : dropBytes? pos text = some cs) (hr : r <:+ cs) :
    EndsFrom text pos r ∧ (r.length < cs.length → EndsFrom text (pos + 1) r) := by
  obtain ⟨before, rfl, rfl⟩ := exists_of_dropBytes? hcursor
  obtain ⟨taken, rfl⟩ := hr
  have hdrop := dropBytes?_byteLength (before ++ taken) r
  rw [List.append_assoc, Text.byteLength_append] at hdrop
  refine ⟨⟨_, Nat.le_add_right _ _, hdrop⟩, fun hlt ↦ ⟨_, ?_, hdrop⟩⟩
  cases taken with
  | nil => exact absurd hlt (Nat.lt_irrefl _)
  | cons c taken =>
    have hpos := c.utf8Size_pos
    rw [Text.byteLength_cons]
    omega

end Diagnostic

namespace Lexeme

open Text (isHexDigit)

/-- An escape by number takes at least the digit that it begins with. -/
theorem length_hexEscapeDigits_lt {c : Char} {t : List Char} (hc : isHexDigit c = true) :
    (hexEscapeDigits (c :: t)).2.1.length < (c :: t).length := by
  obtain ⟨g, _, h⟩ := hexEscapeDigits_eq_append (c :: t)
  have hdigits : (hexEscapeDigits (c :: t)).1 = c :: (takeHex 5 t).1 := by
    simp only [hexEscapeDigits, takeHex, hc, if_true]
  have hlen := congrArg List.length h
  simp only [hdigits, List.length_append, List.length_cons] at hlen ⊢
  omega

/-- An escape by number ends behind its digits, or behind those of the second half of a pair. -/
theorem suffix_of_gives_hexEscape {cs r : List Char} {x : Char} (h : Gives (hexEscape cs) x r) :
    r <:+ (hexEscapeDigits cs).2.1 := by
  rcases gives_hexEscape_iff.1 h with ⟨_, _, rfl⟩ | ⟨_, low, rest, hlow, _, rfl⟩
  · exact List.suffix_refl _
  · exact lowSurrogate?_suffix hlow

/-- An escape by number that is the one of no character is refused behind its digits. -/
theorem stop_of_hexEscape_eq_error {cs : List Char} {p : Problem} (h : hexEscape cs = .error p) :
    p.stop = (hexEscapeDigits cs).2.1 := by
  -- which numbers are characters does not matter here, and is not to be computed
  obtain ⟨char?, hchar⟩ : ∃ char?, char? = Text.charOfCodePoint? := ⟨_, rfl⟩
  unfold hexEscape at h
  rw [← hchar] at h
  generalize hexEscapeDigits cs = q at h ⊢
  obtain ⟨ds, rest⟩ := q
  dsimp only at h ⊢
  split at h
  · split at h
    · cases h
    · rw [← Except.error.inj h]
  · split at h
    · cases h
    · rw [← Except.error.inj h]

end Lexeme

/-! ### Cursors -/

namespace Grammar

open Diagnostic (dropBytes? EndsFrom)
open Lexeme (Gives Taken Loop outcome)
open Text (isHexDigit)

variable {α : Type} {n pos : Nat} {text cs : List Char}

/-- Whether a reader, whatever it gives, leaves an end of a text from some byte or a later one
on. -/
def Lands (text : List Char) (pos : Nat) (x : Taken α n) : Prop :=
  ∀ ⦃v r⦄, Gives x v r → EndsFrom text pos r

private theorem lands_of_suffix {x : Taken α n} (hcursor : dropBytes? pos text = some cs)
    (hx : ∀ v r, Gives x v r → r <:+ cs) : Lands text pos x :=
  fun v r h ↦ (Diagnostic.endsFrom_of_suffix hcursor (hx v r h)).1

/-- Readers of the text behind some bytes leave ends of the text that begin there or later. -/
structure Forward (d : Dialect) (text : List Char) (pos : Nat) (cs : List Char) : Prop where
  chains : Lands text pos (chains d cs)
  chain : Lands text pos (chain? d cs)
  compound : Lands text pos (compound? d cs)
  attributeTest : Lands text pos (attributeTest d cs)
  pseudoClass : Lands text pos (pseudoClass d cs)
  name : Lands text pos (Lexeme.name cs)
  string : ∀ quote t, cs = quote :: t → Lands text pos (Lexeme.string quote t)
  rawArgument : Lands text pos (Lexeme.rawArgument cs)
  /-- A value without quotes ends where the byte of a bracket is found first, or with the text. -/
  rawValue : dropBytes? (min (pos + (Text.utf8 cs).idxOf 0x5D) (Text.byteLength text)) text =
    some (Lexeme.rawValue cs).2.1

/-- The loops of the readers do rounds that take something, and each comes out with one thing. -/
structure Loops (d : Dialect) (cs : List Char) : Prop where
  skipBlank : Loop (fun _ ↦ Lexeme.blank?) cs (.ok (cs.takeWhile Text.isBlank, skipBlank cs))
  takeHex : Loop Lexeme.hexDigit? cs (.ok ((Lexeme.takeHex 6 cs).1, (Lexeme.takeHex 6 cs).2.1))
  name : Loop (fun _ ↦ Lexeme.nameChar?) cs (outcome (Lexeme.name cs))
  stringTail : ∀ quote whole, Loop (fun _ ↦ Lexeme.stringChar? quote whole) cs
    (outcome (Lexeme.stringTail quote whole cs))
  rawChars : Loop (fun _ ↦ Lexeme.rawChar?) cs (outcome (Lexeme.rawChars cs))
  components : Loop (component? d) cs (outcome (components d 0 cs))
  links : Loop (fun _ ↦ link? d) cs (outcome (links d cs))
  chains : Loop (alternative? d) cs (outcome (chains d cs))

private theorem loops (d : Dialect) (cs : List Char) : Loops d cs where
  skipBlank := Lexeme.loop_of_unrolls Lexeme.advances_blank Lexeme.unrolls_skipBlank cs
  takeHex := Lexeme.loop_of_unrolls Lexeme.advances_hexDigit Lexeme.unrolls_takeHex cs
  name := Lexeme.loop_of_unrolls Lexeme.advances_nameChar Lexeme.unrolls_name cs
  stringTail quote whole := Lexeme.loop_of_unrolls (Lexeme.advances_stringChar quote whole)
    (Lexeme.unrolls_stringTail quote whole) cs
  rawChars := Lexeme.loop_of_unrolls Lexeme.advances_rawChar Lexeme.unrolls_rawChars cs
  components := Lexeme.loop_of_unrolls (advances_component d) (unrolls_components d) cs
  links := Lexeme.loop_of_unrolls (advances_link d) (unrolls_links d) cs
  chains := Lexeme.loop_of_unrolls (advances_alternative d) (unrolls_alternatives d) cs

private theorem forward {d : Dialect} (hcursor : dropBytes? pos text = some cs) :
    Forward d text pos cs where
  chains := lands_of_suffix hcursor fun _ _ h ↦
    ((reads_chains cs).rest h).trans (skipBlank_suffix cs)
  chain := lands_of_suffix hcursor fun _ _ h ↦ (suffix_chain h).trans (skipBlank_suffix cs)
  compound := lands_of_suffix hcursor fun _ _ h ↦ suffix_compound h
  attributeTest := lands_of_suffix hcursor fun _ _ h ↦ (reads_attributeTest cs).rest h
  pseudoClass := lands_of_suffix hcursor fun _ _ h ↦ (reads_pseudoClass cs).rest h
  name := lands_of_suffix hcursor fun _ _ h ↦ (Lexeme.reads_name cs).rest h
  string quote t ht := lands_of_suffix hcursor fun _ _ h ↦ by
    rw [ht]
    exact (Lexeme.reads_string quote t).rest h
  rawArgument := lands_of_suffix hcursor fun _ _ h ↦ (Lexeme.reads_rawArgument cs).rest h
  rawValue := by
    obtain ⟨before, rfl, rfl⟩ := Diagnostic.exists_of_dropBytes? hcursor
    have hsplit : cs.takeWhile (· != ']') ++ cs.dropWhile (· != ']') = cs :=
      List.takeWhile_append_dropWhile
    have hle : Text.byteLength (before ++ cs.takeWhile (· != ']')) ≤
        Text.byteLength (before ++ cs) := by
      conv_rhs => rw [← hsplit, ← List.append_assoc, Text.byteLength_append]
      exact Nat.le_add_right _ _
    rw [Text.idxOf_utf8, ← Text.byteLength_append, Nat.min_eq_left hle]
    have hdrop := Diagnostic.dropBytes?_byteLength (before ++ cs.takeWhile (· != ']'))
      (cs.dropWhile (· != ']'))
    rwa [List.append_assoc, hsplit] at hdrop

/-- A pseudo-class with a selector, from what its argument is read as. -/
def closeSelector (name : String) :
    List (Chain Compound) × List Char → Except Problem (PseudoClass × List Char)
  | (alternatives, r) =>
    (expect ')' r).map fun rest ↦ (⟨name, .selector (.ofChains alternatives)⟩, rest.1)

/-- A pseudo-class that takes a selector reads it behind its opening parenthesis. -/
theorem outcome_pseudoClass {d : Dialect} {name : String} {t : List Char}
    (hname : Gives (Lexeme.requiredName ':' cs) name ('(' :: t))
    (hkind : d.argumentKind name = .selector) :
    outcome (pseudoClass d cs) = outcome (chains d (skipBlank t)) >>= closeSelector name := by
  obtain ⟨hlen, hname⟩ := hname
  rw [pseudoClass, hname, Outcome.ok_bind]
  dsimp only
  rw [hkind]
  show outcome (chains d (skipBlank t) >>= _) = _
  cases chains d (skipBlank t) with
  | error p => rfl
  | ok a =>
    obtain ⟨alternatives, r, hr⟩ := a
    show outcome (expect ')' r >>= _) = closeSelector name (alternatives, r)
    rw [closeSelector]
    cases expect ')' r with
    | error p => rfl
    | ok rest => rfl

/-- Whether reading a text may come to a pseudo-class that reads a selector from another text. -/
def Nests (d : Dialect) (r cs : List Char) : Prop :=
  ∃ u name t, u <:+ cs ∧ Gives (Lexeme.requiredName ':' u) name ('(' :: t) ∧
    d.argumentKind name = .selector ∧ r = skipBlank t

/-- The argument of a pseudo-class is shorter than the text behind its colon. -/
theorem shorter_of_requiredName {name : String} {t : List Char}
    (hname : Gives (Lexeme.requiredName ':' cs) name ('(' :: t)) :
    skipBlank t <:+ cs ∧ (skipBlank t).length < cs.length := by
  have ht : '(' :: t <:+ cs := (Lexeme.reads_requiredName ':' cs).rest hname
  have hr : skipBlank t <:+ t := skipBlank_suffix t
  exact ⟨(hr.trans (List.suffix_cons '(' t)).trans ht,
    Nat.lt_of_lt_of_le (Nat.lt_succ_of_le hr.length_le) ht.length_le⟩

/-- Selectors are not read within selectors without end. -/
theorem wellFounded_nests (d : Dialect) : WellFounded (Nests d) := by
  refine Subrelation.wf ?_ (measure List.length).wf
  rintro r cs ⟨u, name, t, hu, hname, _, rfl⟩
  exact Nat.lt_of_lt_of_le (shorter_of_requiredName hname).2 hu.length_le

/-- Readers of the text behind some bytes go forward from there, between characters. A compound is
missing only where nothing was taken, an escape by number takes a digit at least, and loops take
something in every round. The selector of a pseudo-class is read further on, from less text, so
that selectors within selectors come to an end as loops do. -/
theorem progress {d : Dialect} (hcursor : dropBytes? pos text = some cs) :
    Forward d text pos cs ∧
      (∀ v rest, Gives (compound? d cs) v rest → v = none ∧ rest = cs ∨
        ∃ c, v = some c ∧ rest.length < cs.length ∧ Gives (compound d cs) c rest) ∧
      (∀ c t, cs = c :: t → isHexDigit c = true →
        (∀ x r, Gives (Lexeme.hexEscape cs) x r → EndsFrom text (pos + 1) r) ∧
        ∀ p, Lexeme.hexEscape cs = .error p → EndsFrom text (pos + 1) p.stop) ∧
      Loops d cs ∧
      (∀ name t, Gives (Lexeme.requiredName ':' cs) name ('(' :: t) →
        d.argumentKind name = .selector →
        (skipBlank t).length < cs.length ∧ EndsFrom text (pos + 1) (skipBlank t) ∧
          outcome (pseudoClass d cs) = outcome (chains d (skipBlank t)) >>= closeSelector name) ∧
      WellFounded (Nests d) := by
  refine ⟨forward hcursor, fun v rest ↦ gives_compound?, ?_, loops d cs, ?_, wellFounded_nests d⟩
  · rintro c t rfl hc
    -- whatever stands behind the digits of the escape is shorter, as there is one at least
    have hdigits {r : List Char} (hr : r <:+ (Lexeme.hexEscapeDigits (c :: t)).2.1) :
        EndsFrom text (pos + 1) r :=
      (Diagnostic.endsFrom_of_suffix hcursor (hr.trans (Lexeme.hexEscapeDigits_suffix _))).2
        (Nat.lt_of_le_of_lt hr.length_le (Lexeme.length_hexEscapeDigits_lt hc))
    refine ⟨fun x r h ↦ hdigits (Lexeme.suffix_of_gives_hexEscape h), fun p h ↦ hdigits ?_⟩
    rw [Lexeme.stop_of_hexEscape_eq_error h]
  · intro name t hname hkind
    obtain ⟨ht, hlt⟩ := shorter_of_requiredName hname
    exact ⟨hlt, (Diagnostic.endsFrom_of_suffix hcursor ht).2 hlt, outcome_pseudoClass hname hkind⟩

/-- Behind a character of two bytes and a colon, a pseudo-class reads its argument further on and
leaves the text behind its parenthesis. -/
theorem progress_not :
    let text := ['é', ':', 'n', 'o', 't', '(', ' ', 'b', ')', ' ', 'c']
    let cs := ['n', 'o', 't', '(', ' ', 'b', ')', ' ', 'c']
    let b : Compound := { Compound.blank with type := some (.named "b") }
    dropBytes? 3 text = some cs ∧
      Gives (pseudoClass .document cs) ⟨"not", .selector (.chain ⟨b, []⟩)⟩ [' ', 'c'] ∧
      EndsFrom text 3 [' ', 'c'] ∧ EndsFrom text 4 ['b', ')', ' ', 'c'] ∧ Loops .document cs := by
  intro text cs b
  have hcursor : dropBytes? 3 text = some cs := by cbv
  have hpseudo : Gives (pseudoClass .document cs) ⟨"not", .selector (.chain ⟨b, []⟩)⟩ [' ', 'c'] :=
    ⟨by decide, by cbv⟩
  have hname : Gives (Lexeme.requiredName ':' cs) "not" ('(' :: [' ', 'b', ')', ' ', 'c']) :=
    ⟨by decide, by cbv⟩
  obtain ⟨hforward, -, -, hloops, hargument, -⟩ := progress (d := .document) hcursor
  exact ⟨hcursor, hpseudo, hforward.pseudoClass hpseudo,
    (hargument "not" _ hname (by decide)).2.1, hloops⟩

end Grammar

end DocSelect

import DocSelect.Selector.Diagnostic
import DocSelect.Proofs.Selector.Location
import DocSelect.Proofs.Selector.Soundness

/-!
# Where errors point

Each rule of the grammar reads within its text, so that the error of a text that is no selector
points at a part of the text which fits its kind. The span of the error counts the bytes up to
both ends of that part, and the error can be shown against the text.
-/

namespace DocSelect

open Text (AtMost)

namespace Grammar

open Text (skipBlank)
open Lexeme (Gives Taken Reads)

/-- Blanks that are skipped stand in front of the text that is left. -/
theorem skipBlank_suffix (cs : List Char) : skipBlank cs <:+ cs := List.dropWhile_suffix _

/-- A character that is missed is missed where it was expected. -/
theorem within_expect {c : Char} {cs : List Char} {p : Problem} (h : expect c cs = .error p) :
    p.Within cs := by
  unfold expect at h
  split at h
  · obtain rfl := Except.error.inj h
    exact Problem.within_here_nil ⟨rfl, rfl⟩
  · split at h
    · cases h
    · obtain rfl := Except.error.inj h
      exact Problem.within_here rfl

/-- A reader that goes on behind an expected character. -/
theorem reads_bind_expect {α : Type} {m : Nat} {c : Char} {cs whole : List Char}
    {f : AtMost cs.length → Taken α m} (hcs : cs <:+ whole)
    (hf : ∀ t, ∀ h : cs = c :: t, t <:+ whole → Reads whole (f ⟨t, length_le_of_eq_cons h⟩)) :
    Reads whole (expect c cs >>= f) := by
  have htail (t : List Char) (h : cs = c :: t) : t <:+ whole :=
    (h ▸ List.suffix_cons c t).trans hcs
  constructor
  · intro v r hv
    obtain ⟨t, h, hv⟩ := gives_bind_expect.1 hv
    exact (hf t h (htail t h)).rest hv
  · intro p hp
    rcases Outcome.bind_eq_error.1 hp with hp | ⟨⟨t, ht⟩, he, hp⟩
    · exact (within_expect hp).of_suffix hcs
    · have h : cs = c :: t := expect_eq_ok.1 he
      exact (hf t h (htail t h)).problem hp

/-- A type test is read within its text. -/
theorem reads_typeTest (cs : List Char) : Reads cs (typeTest cs) := by
  unfold typeTest
  split
  · exact Reads.of_ok (List.suffix_refl [])
  · next t => exact Reads.of_ok (List.suffix_cons '*' t)
  · next c t _ =>
    split
    · apply (Lexeme.reads_name (c :: t)).bind
      intro chars r _ hr
      exact Reads.of_ok hr
    · exact Reads.of_ok (List.suffix_refl (c :: t))

variable {d : Dialect}

/-- A comparison mark is read within its text. -/
theorem reads_comparisonMark (cs : List Char) : Reads cs (comparisonMark d cs) := by
  unfold comparisonMark
  split
  · exact Reads.of_ok (List.suffix_refl [])
  · next c t =>
    split
    · exact Reads.of_ok (List.suffix_refl (c :: t))
    · split
      · exact Reads.of_ok (List.suffix_cons c t)
      · exact Reads.of_error (Problem.within_here rfl)

/-- The expected side of a comparison is read within its text. -/
theorem reads_operand (cs : List Char) : Reads cs (operand d cs) := by
  have hraw (cs : List Char) : (Lexeme.rawValue cs).2.1 <:+ cs := List.dropWhile_suffix _
  unfold operand
  split
  · next t =>
    apply (Lexeme.reads_string '"' t).bind
    intro s r _ hr
    exact Reads.of_ok hr
  · next t =>
    apply (Lexeme.reads_string '\'' t).bind
    intro s r _ hr
    exact Reads.of_ok hr
  · next t =>
    split
    · apply ((Lexeme.reads_requiredName '$' t).of_suffix (List.suffix_cons '$' t)).bind
      intro s r _ hr
      exact Reads.of_ok hr
    · exact Reads.of_ok (hraw ('$' :: t))
  · exact Reads.of_ok (hraw cs)

/-- A plain argument is read within its text. -/
theorem reads_plainArgument (kind : ArgumentKind) (cs : List Char) :
    Reads cs (plainArgument d kind cs) := by
  unfold plainArgument
  dsimp only
  split
  · next t =>
    apply (Lexeme.reads_string '"' t).bind
    intro s r _ hr
    exact Reads.of_ok hr
  · next t =>
    apply (Lexeme.reads_string '\'' t).bind
    intro s r _ hr
    exact Reads.of_ok hr
  · next t =>
    split
    · apply ((Lexeme.reads_requiredName '$' t).of_suffix (List.suffix_cons '$' t)).bind
      intro s r _ hr
      exact Reads.of_ok hr
    · apply (Lexeme.reads_rawArgument ('$' :: t)).bind
      intro s r _ hr
      exact Reads.of_ok hr
  · apply (Lexeme.reads_rawArgument cs).bind
    intro s r _ hr
    exact Reads.of_ok hr

/-- An attribute test is read within its text. -/
theorem reads_attributeTest (cs : List Char) : Reads cs (attributeTest d cs) := by
  have hblank {r : List Char} (hr : r <:+ cs) : skipBlank r <:+ cs :=
    (skipBlank_suffix r).trans hr
  unfold attributeTest
  apply ((Lexeme.reads_requiredName '[' _).of_suffix (skipBlank_suffix cs)).bind
  intro name r₁ _ h₁
  have h₂ := hblank h₁
  dsimp only
  split
  · next t ht =>
    rw [ht] at h₂
    exact Reads.of_ok ((List.suffix_cons ']' t).trans h₂)
  · apply ((reads_comparisonMark _).of_suffix h₂).bind
    intro op r₃ _ h₃
    apply reads_bind_expect h₃
    intro r₄ _ h₄
    apply ((reads_operand _).of_suffix (hblank h₄)).bind
    intro value r₅ _ h₅
    apply reads_bind_expect (hblank h₅)
    intro r₆ _ h₆
    exact Reads.of_ok h₆

/-- A compound takes at least the character that it begins with. -/
theorem length_lt_compound {cs rest : List Char} {c : Compound} (hs : startsCompound cs = true)
    (h : Gives (compound d cs) c rest) : rest.length < cs.length := by
  obtain ⟨type, r, ps, htype, hps, _⟩ := gives_compound.1 h
  have hr := hps.length_le
  rcases gives_typeTest.1 htype with ⟨rfl, _⟩ | ⟨hname, _, hchars, _⟩ | ⟨hstar, hname, _, rfl⟩
  · exact Nat.lt_succ_of_le hr
  · exact Nat.lt_of_le_of_lt hr (hchars.name_of_startsName hname).2
  · obtain ⟨p, r, hp, more, hmore, _⟩ :=
      (gives_parts_cons (endsParts_eq_false hs hstar hname)).1 hps
    exact Nat.lt_of_le_of_lt hmore.length_le hp.length_lt

/-- Where a compound follows another one unseparated, its first character is unexpected. -/
theorem within_separator {c : Char} {t r : List Char} (hr : r <:+ c :: t)
    (hlt : r.length < (c :: t).length) :
    Problem.Within (c :: t) ⟨.unexpectedChar .separator c, c :: t, r⟩ := by
  obtain ⟨taken, ht⟩ := hr
  refine ⟨[], taken, rfl, ht.symm, ?_⟩
  cases taken with
  | nil =>
    rw [← ht] at hlt
    exact absurd hlt (Nat.lt_irrefl _)
  | cons b more => exact congrArg some (List.cons.inj ht).1

/-- Where no compound begins behind a mark, the problem is the next character or the end of the
text. -/
theorem within_ruleExpected (c : Char) (cs : List Char) :
    (Problem.here (.ruleExpected c) cs).Within cs := by
  cases cs with
  | nil => exact Problem.within_here_nil (.inr ⟨rfl, rfl⟩)
  | cons b t => exact Problem.within_here (.inl rfl)

-- As for well-formedness, the induction is on the length of the text and, at the same length,
-- on how far up the grammar a reader stands.
mutual
/-- Alternatives are read within their text, behind its blanks. -/
theorem reads_chains (cs : List Char) : Reads (skipBlank cs) (chains d cs) := by
  have h₀ := Text.length_skipBlank_le cs
  rw [chains]
  split
  · apply Reads.pair (g := List.cons) h₀ (reads_chain (skipBlank cs))
    intro first r _ hlen hr
    exact (reads_moreChains r).of_suffix hr
  · exact Reads.of_ok (List.suffix_refl _)
termination_by 6 * cs.length + 5

/-- Alternatives behind others are read within their text. -/
theorem reads_moreChains (cs : List Char) : Reads cs (moreChains d cs) := by
  by_cases hc : cs.head? = some ','
  · obtain ⟨t, ht⟩ := List.head?_eq_some_iff.1 hc
    have hlen : cs.length = t.length + 1 := by rw [ht, List.length_cons]
    have h₀ := Text.length_skipBlank_le t
    have hblank : skipBlank t <:+ ',' :: t := (skipBlank_suffix t).trans (List.suffix_cons ',' t)
    rw [ht, moreChains]
    split
    · apply Reads.pair (g := List.cons) (Nat.le_succ_of_le h₀)
        ((reads_chain (skipBlank t)).of_suffix hblank)
      intro next r _ hlen hr
      exact (reads_moreChains r).of_suffix hr
    · exact Reads.of_error ((within_ruleExpected ',' (skipBlank t)).of_suffix hblank)
  · rw [moreChains]
    · exact Reads.of_ok (List.suffix_refl cs)
    · intro t ht
      rw [ht] at hc
      exact hc rfl
termination_by 6 * cs.length + 4

/-- A chain is read within its text. -/
theorem reads_chain (cs : List Char) : Reads cs (chain d cs) := by
  rw [chain]
  apply Reads.pair (g := Chain.mk) (Nat.le_refl _) (reads_compound cs)
  intro head r _ hlen hr
  exact (reads_links r).of_suffix ((skipBlank_suffix r).trans hr)
termination_by 6 * cs.length + 4

/-- Links are read within their text, behind its blanks. -/
theorem reads_links (cs : List Char) : Reads (skipBlank cs) (links d cs) := by
  have h₀ := Text.length_skipBlank_le cs
  have hlinks {r whole : List Char} (hlen : r.length < cs.length) (hr : r <:+ whole) :
      Reads whole (links d r) := (reads_links r).of_suffix ((skipBlank_suffix r).trans hr)
  rw [links]
  split
  · exact Reads.of_ok List.nil_suffix
  · next c t h =>
    rw [h] at h₀
    have h₁ := Text.length_skipBlank_le t
    have hlen : t.length + 1 ≤ cs.length := h₀
    refine Reads.of_suffix (r := c :: t) ?_ ⟨[], h.symm⟩
    have ht : skipBlank t <:+ c :: t := (skipBlank_suffix t).trans (List.suffix_cons c t)
    split
    · exact Reads.of_ok (List.suffix_refl _)
    · split
      · next op _ =>
        extract_lets
        split
        · exact Reads.of_error (Problem.within_here rfl)
        · split
          · have hlen' : (skipBlank t).length ≤ cs.length := by omega
            apply Reads.pair (g := fun (next : Compound) (more : List Compound) ↦
              { next with combinator := some op } :: more) hlen'
              ((reads_compound (skipBlank t)).of_suffix ht)
            intro next r hnext _ hr
            have hle := hnext.length_le
            exact hlinks (by omega) hr
          · exact Reads.of_error ((within_ruleExpected c (skipBlank t)).of_suffix ht)
      · split
        · next hs =>
          split
          · next hlt =>
            apply Reads.pair (g := fun (next : Compound) (more : List Compound) ↦
              { next with combinator := some .descendant } :: more) (Nat.le_of_lt hlt)
              (reads_compound (c :: t))
            intro next r hnext _ hr
            exact hlinks (Nat.lt_of_le_of_lt hnext.length_le hlt) hr
          · apply (reads_compound (c :: t)).bind
            intro next r₁ hnext hr
            exact Reads.of_error (within_separator hr (length_lt_compound hs hnext))
        · exact Reads.of_ok (List.suffix_refl _)
termination_by 6 * cs.length + 3

/-- A compound is read within its text. -/
theorem reads_compound (cs : List Char) : Reads cs (compound d cs) := by
  rw [compound]
  apply Reads.pair (g := Compound.ofParts) (Nat.le_refl _) (reads_typeTest cs)
  intro type r _ hlen hr
  exact (reads_parts r).of_suffix hr
termination_by 6 * cs.length + 2

/-- Parts are read within their text. -/
theorem reads_parts (cs : List Char) : Reads cs (parts d cs) := by
  have hmore (r : List Char) (hlt : r.length < cs.length) (hr : r <:+ cs) :
      Reads cs (parts d r) := (reads_parts r).of_suffix hr
  have hpseudo (t : List Char) (hlt : t.length < cs.length) (ht : t <:+ cs) :
      Reads cs (pseudoClass d t) := (reads_pseudoClass t).of_suffix ht
  rw [parts.eq_def]
  split
  · next t =>
    apply Reads.pair (g := fun name more ↦ Part.className name :: more) (Nat.le_succ _)
      ((Lexeme.reads_requiredName '.' t).of_suffix (List.suffix_cons '.' t))
    intro name r _ hlen hr
    exact hmore r (Nat.lt_succ_of_le hlen) hr
  · next t =>
    apply Reads.pair (g := fun name more ↦ Part.id name :: more) (Nat.le_succ _)
      ((Lexeme.reads_requiredName '#' t).of_suffix (List.suffix_cons '#' t))
    intro name r _ hlen hr
    exact hmore r (Nat.lt_succ_of_le hlen) hr
  · next t =>
    apply Reads.pair (g := fun test more ↦ Part.attr test :: more) (Nat.le_succ _)
      ((reads_attributeTest t).of_suffix (List.suffix_cons '[' t))
    intro test r _ hlen hr
    exact hmore r (Nat.lt_succ_of_le hlen) hr
  · next t =>
    apply Reads.pair (g := fun test more ↦ Part.pseudo test :: more) (Nat.le_succ _)
      (hpseudo t (Nat.lt_succ_self _) (List.suffix_cons ':' t))
    intro test r _ hlen hr
    exact hmore r (Nat.lt_succ_of_le hlen) hr
  · exact Reads.of_ok (List.suffix_refl cs)
termination_by 6 * cs.length + 1

/-- A pseudo-class is read within its text. -/
theorem reads_pseudoClass (cs : List Char) : Reads cs (pseudoClass d cs) := by
  rw [pseudoClass]
  apply (Lexeme.reads_requiredName ':' cs).bind
  intro name r₁ hname h₁
  have hlen := hname.length_le
  dsimp only
  split
  · next t =>
    have h₂ := Text.length_skipBlank_le t
    have hlen : t.length + 1 ≤ cs.length := hlen
    have hblank : skipBlank t <:+ cs :=
      (skipBlank_suffix t).trans ((List.suffix_cons '(' t).trans h₁)
    split
    · apply ((reads_chains (skipBlank t)).of_suffix ((skipBlank_suffix _).trans hblank)).bind
      intro alternatives r₂ _ hr
      apply reads_bind_expect hr
      intro r₃ _ h₃
      exact Reads.of_ok h₃
    · apply ((reads_plainArgument _ (skipBlank t)).of_suffix hblank).bind
      intro argument r₂ _ hr
      apply reads_bind_expect ((skipBlank_suffix r₂).trans hr)
      intro r₃ _ h₃
      exact Reads.of_ok h₃
  · exact Reads.of_ok h₁
termination_by 6 * cs.length
end

/-- The problem of a text that is no selector lies within the text. -/
theorem within_selector {cs : List Char} {p : Problem} (h : selector d cs = .error p) :
    p.Within cs := by
  unfold selector at h
  rcases Outcome.bind_eq_error.1 h with h | ⟨⟨alternatives, rest, hle⟩, hchains, h⟩
  · exact ((reads_chains cs).problem h).of_suffix (skipBlank_suffix cs)
  · have hrest : rest <:+ cs :=
      ((reads_chains cs).rest ⟨hle, hchains⟩).trans (skipBlank_suffix cs)
    cases rest with
    | nil => cases h
    | cons c t =>
      obtain rfl := Except.error.inj h
      have hnext : (Problem.here (.trailingInput c) (c :: t)).Within (c :: t) :=
        Problem.within_here rfl
      exact hnext.of_suffix hrest

end Grammar

/-- The bytes of a text are those of its characters. -/
theorem Text.byteLength_ofList (cs : List Char) :
    Text.byteLength cs = (String.ofList cs).utf8ByteSize := by
  induction cs with
  | nil => rfl
  | cons c cs ih =>
    rw [Text.byteLength_cons, ih, String.ofList_cons, String.utf8ByteSize_append,
      String.utf8ByteSize_singleton]

namespace Diagnostic

/-- The bytes of a text end where the text behind it begins. -/
theorem dropBytes?_byteLength (a b : List Char) :
    dropBytes? (Text.byteLength a) (a ++ b) = some b := by
  induction a with
  | nil => exact dropBytes?.eq_1 b
  | cons c a ih =>
    have hpos := c.utf8Size_pos
    obtain ⟨n, hn⟩ := Nat.exists_eq_add_one_of_ne_zero (Nat.ne_of_gt (Nat.add_pos_left hpos
      (Text.byteLength a)))
    have hrest : n + 1 - c.utf8Size = Text.byteLength a := by omega
    have hle : c.utf8Size ≤ n + 1 := by omega
    rw [Text.byteLength_cons, hn, List.cons_append, dropBytes?, if_pos hle, hrest, ih]

/-- The bytes of a part of a text fit the text. -/
theorem fits_append (before within after : List Char) :
    fits (before ++ within ++ after)
      ⟨Text.byteLength before, Text.byteLength (before ++ within)⟩ = true := by
  have hstart := dropBytes?_byteLength before (within ++ after)
  have hstop := dropBytes?_byteLength (before ++ within) after
  rw [← List.append_assoc] at hstart
  have hle : Text.byteLength before ≤ Text.byteLength (before ++ within) := by
    rw [Text.byteLength_append]
    exact Nat.le_add_right _ _
  simp only [fits, hstart, hstop, hle, decide_true, Option.isSome_some, Bool.and_self]

end Diagnostic

/-- An error whose span fits its text is shown against the text, not by its message alone. -/
theorem ParseError.describe_ne_message {e : ParseError} {text : String}
    (h : Diagnostic.fits text.toList e.span = true) : e.describe text ≠ e.kind.message := by
  unfold describe
  dsimp only
  rw [if_pos h]
  intro he
  have hlen := congrArg (fun s ↦ s.toList.length) he
  simp only [String.toList_ofList, List.length_append, List.length_cons] at hlen
  omega

/-- The error of a text that is no selector points at a part of the text that fits the kind of
the error, and so it can be shown against the text. -/
theorem Selector.marks_of_parse_eq_error {d : Dialect} {text : String} {e : ParseError}
    (h : Selector.parse d text = .error e) :
    ∃ before within after, text.toList = before ++ within ++ after ∧
      e.span = ⟨Text.byteLength before, Text.byteLength (before ++ within)⟩ ∧
      e.kind.Marks within after ∧ e.span.start ≤ e.span.stop ∧
      e.span.stop ≤ text.utf8ByteSize ∧
      Diagnostic.fits text.toList e.span = true ∧ e.describe text ≠ e.kind.message := by
  obtain ⟨p, hp, rfl⟩ := parse_eq_error.1 h
  obtain ⟨before, within, htext, hstart, hmarks⟩ := Grammar.within_selector hp
  rw [hstart, ← List.append_assoc] at htext
  have hspan : (p.toError text.toList).span
      = ⟨Text.byteLength before, Text.byteLength (before ++ within)⟩ := by
    simp only [Problem.toError, htext, hstart, Text.byteLength_append]
    congr 1
    · omega
    · omega
  have hfits : Diagnostic.fits text.toList (p.toError text.toList).span = true := by
    rw [hspan, htext]
    exact Diagnostic.fits_append before within p.stop
  refine ⟨before, within, p.stop, htext, hspan, hmarks, ?_, ?_, hfits,
    ParseError.describe_ne_message hfits⟩
  · rw [hspan, Text.byteLength_append]
    exact Nat.le_add_right _ _
  · have hsize : text.utf8ByteSize = Text.byteLength text.toList := by
      rw [Text.byteLength_ofList, String.ofList_toList]
    rw [hspan, hsize, htext, Text.byteLength_append _ p.stop]
    exact Nat.le_add_right _ _

/-- A character behind one of two bytes is trailing input from the tenth byte on. -/
theorem Selector.marks_trailing_input :
    Selector.parse .document "*[a='é']é" = .error ⟨.trailingInput 'é', ⟨9, 11⟩⟩ ∧
      ∃ before within after, "*[a='é']é".toList = before ++ within ++ after ∧
        (⟨9, 11⟩ : Span) = ⟨Text.byteLength before, Text.byteLength (before ++ within)⟩ ∧
        within = ['é'] := by
  have h : Selector.parse .document "*[a='é']é" = .error ⟨.trailingInput 'é', ⟨9, 11⟩⟩ := by cbv
  obtain ⟨before, within, after, htext, hspan, hmarks, _⟩ := marks_of_parse_eq_error h
  exact ⟨h, before, within, after, htext, hspan, hmarks⟩

end DocSelect

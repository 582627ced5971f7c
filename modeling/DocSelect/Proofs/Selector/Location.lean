import DocSelect.Proofs.Selector.Reading

/-!
# Where the problems of readers lie

A reader that fails names a part of the text that it was given, and the kind of its error says
what that part looks like. A reader that does not fail leaves an end of its text. Both are kept
by readers that go on from one another, and hold of every reader of lexemes.
-/

namespace DocSelect

open Text (AtMost)

/-- Whether an error of a kind may point at some text, with some other text behind it. -/
def ParseErrorKind.Marks (within after : List Char) : ParseErrorKind → Prop
  | unexpectedEnd _ => within = [] ∧ after = []
  | unexpectedChar _ c => within.head? = some c
  | ruleExpected _ => within.length = 1 ∨ within = [] ∧ after = []
  | trailingInput c => within = [c]
  | unterminatedString quote => within.head? = some quote ∧ after = []
  | invalidEscape written =>
    within = '\\' :: written.toList ∨ within = '\\' :: written.toList ++ [' ']
  | emptyIdentifier _ => within.length = 1
  | unknownOperator c => within = [c]

/-- Whether a problem lies within a text, at a place that its kind may point at. -/
def Problem.Within (cs : List Char) (p : Problem) : Prop :=
  ∃ before within, cs = before ++ p.start ∧ p.start = within ++ p.stop ∧
    p.kind.Marks within p.stop

namespace Problem

/-- A problem within an end of a text lies within the text. -/
theorem Within.of_suffix {cs r : List Char} {p : Problem} (h : p.Within r) (hr : r <:+ cs) :
    p.Within cs := by
  obtain ⟨before, within, rfl, hp⟩ := h
  obtain ⟨more, rfl⟩ := hr
  exact ⟨more ++ before, within, (List.append_assoc _ _ _).symm, hp⟩

/-- A problem with the next character of a text. -/
theorem within_here {kind : ParseErrorKind} {c : Char} {t : List Char} (h : kind.Marks [c] t) :
    (here kind (c :: t)).Within (c :: t) :=
  ⟨[], [c], rfl, rfl, h⟩

/-- A problem with the end of a text. -/
theorem within_here_nil {kind : ParseErrorKind} (h : kind.Marks [] []) : (here kind []).Within [] :=
  ⟨[], [], rfl, rfl, h⟩

end Problem

namespace Lexeme

variable {α β : Type} {m n : Nat}

/-- A reader of a text leaves an end of the text, and its problem lies within the text. -/
structure Reads (cs : List Char) (x : Taken α n) : Prop where
  rest {v : α} {r : List Char} (h : Gives x v r) : r <:+ cs
  problem {p : Problem} (h : x = .error p) : p.Within cs

namespace Reads

variable {cs r : List Char} {x : Taken α n}

/-- A reading that leaves an end of the text reads it. -/
theorem of_ok {v : α} {r : AtMost n} (h : r.1 <:+ cs) : Reads cs (.ok (v, r)) where
  rest hv := by rwa [(gives_ok.1 hv).2]
  problem hp := by cases hp

/-- An error within the text is one of reading it. -/
theorem of_error {p : Problem} (h : p.Within cs) : Reads cs (.error p : Taken α n) where
  rest hv := absurd hv not_gives_error
  problem hp := by rwa [← Except.error.inj hp]

/-- A reader of an end of a text is one of the text. -/
theorem of_suffix (h : Reads r x) (hr : r <:+ cs) : Reads cs x where
  rest hv := (h.rest hv).trans hr
  problem hp := (h.problem hp).of_suffix hr

/-- A reader that goes on from an end of a text that another one left. -/
theorem bind {f : α × AtMost n → Taken β m} (hx : Reads cs x)
    (hf : ∀ a r, ∀ h : Gives x a r, r <:+ cs → Reads cs (f (a, ⟨r, h.length_le⟩))) :
    Reads cs (x >>= f) where
  rest hv := by
    obtain ⟨a, r, ha, hv⟩ := gives_bind.1 hv
    exact (hf a r ha (hx.rest ha)).rest hv
  problem hp := by
    rcases Outcome.bind_eq_error.1 hp with hp | ⟨⟨a, r⟩, ha, hp⟩
    · exact hx.problem hp
    · have ha : Gives x a r.1 := ⟨r.2, ha⟩
      exact (hf a r.1 ha (hx.rest ha)).problem hp

/-- Two readers, one behind the other, and a value made from theirs. -/
theorem pair {γ : Type} {k : Nat} {y : (r : List Char) → Taken β r.length} {g : α → β → γ}
    (hk : n ≤ k) (hx : Reads cs x)
    (hy : ∀ a r, Gives x a r → r.length ≤ n → r <:+ cs → Reads cs (y r)) :
    Reads cs (do
      let (a, ⟨r₁, h₁⟩) ← x
      let (b, ⟨r₂, h₂⟩) ← y r₁
      return (g a b, ⟨r₂, by omega⟩) : Taken γ k) := by
  apply hx.bind
  intro a r₁ ha h₁
  apply (hy a r₁ ha ha.length_le h₁).bind
  intro b r₂ _ h₂
  exact of_ok h₂

end Reads

/-- Digits that are taken stand in front of the text that is left. -/
theorem takeHex_eq_append (k : Nat) (cs : List Char) :
    cs = (takeHex k cs).1 ++ (takeHex k cs).2.1 := by
  induction k generalizing cs with
  | zero => rfl
  | succ k ih =>
    cases cs with
    | nil => rfl
    | cons c t =>
      rw [takeHex]
      split
      · exact congrArg (c :: ·) (ih t)
      · rfl

/-- The text without a leading space is an end of it. -/
theorem eq_or_skipSpace (cs : List Char) :
    cs = (skipSpace cs).1 ∨ cs = ' ' :: (skipSpace cs).1 := by
  unfold skipSpace
  split
  · exact .inr rfl
  · exact .inl rfl

/-- The digits of an escape stand in front of the text that is left, with one space at most. -/
theorem hexEscapeDigits_eq_append (cs : List Char) :
    ∃ g, (g = [] ∨ g = [' ']) ∧ cs = (hexEscapeDigits cs).1 ++ g ++ (hexEscapeDigits cs).2.1 := by
  have hdigits := takeHex_eq_append 6 cs
  rcases eq_or_skipSpace (takeHex 6 cs).2.1 with hg | hg
  · refine ⟨[], .inl rfl, ?_⟩
    rw [hg] at hdigits
    simpa [hexEscapeDigits] using hdigits
  · refine ⟨[' '], .inr rfl, ?_⟩
    rw [hg] at hdigits
    simpa [hexEscapeDigits] using hdigits

/-- An escape by number leaves an end of its text. -/
theorem hexEscapeDigits_suffix (cs : List Char) : (hexEscapeDigits cs).2.1 <:+ cs := by
  obtain ⟨g, _, h⟩ := hexEscapeDigits_eq_append cs
  exact ⟨_, h.symm⟩

/-- The second half of a pair is an escape by a number that is one. -/
theorem lowSurrogate?_eq_some {cs : List Char} {low : Nat} {rest : AtMost cs.length} :
    lowSurrogate? cs = some (low, rest) ↔
      ∃ d t, cs = '\\' :: d :: t ∧ Text.isHexDigit d = true ∧
        Text.hexNumber (hexEscapeDigits (d :: t)).1 = low ∧ Text.isLowSurrogate low = true ∧
        (hexEscapeDigits (d :: t)).2.1 = rest.1 := by
  unfold lowSurrogate?
  split
  · next d t =>
    by_cases hd : Text.isHexDigit d = true
    · rw [if_pos hd]
      dsimp only
      constructor
      · intro h
        split at h
        · next hlow =>
          obtain ⟨rfl, rfl⟩ := Prod.mk.inj (Option.some.inj h)
          exact ⟨d, t, rfl, hd, rfl, hlow, rfl⟩
        · cases h
      · rintro ⟨_, _, heq, _, rfl, hlow, hrest⟩
        obtain ⟨rfl, rfl⟩ : d = _ ∧ t = _ := by simpa using heq
        rw [if_pos hlow]
        exact congrArg some (Prod.ext rfl (Subtype.ext hrest))
    · rw [if_neg hd]
      constructor
      · exact nofun
      · rintro ⟨_, _, heq, hd', _⟩
        obtain ⟨rfl, rfl⟩ : d = _ ∧ t = _ := by simpa using heq
        exact absurd hd' hd
  · next hne =>
    constructor
    · exact nofun
    · rintro ⟨d, t, heq, _⟩
      exact absurd heq (hne d t)

/-- The second half of a pair leaves an end of its text. -/
theorem lowSurrogate?_suffix {cs : List Char} {low : Nat} {rest : AtMost cs.length}
    (h : lowSurrogate? cs = some (low, rest)) : rest.1 <:+ cs := by
  obtain ⟨d, t, rfl, _, _, _, hrest⟩ := lowSurrogate?_eq_some.1 h
  rw [← hrest]
  exact (hexEscapeDigits_suffix (d :: t)).trans (List.suffix_cons _ _)

/-- An escape by number is one of the text from its backslash on. -/
theorem reads_hexEscape (cs : List Char) : Reads ('\\' :: cs) (hexEscape cs) := by
  have hsuffix : (hexEscapeDigits cs).2.1 <:+ '\\' :: cs :=
    (hexEscapeDigits_suffix cs).trans (List.suffix_cons '\\' cs)
  have hinvalid : Problem.Within ('\\' :: cs)
      ⟨.invalidEscape (String.ofList (hexEscapeDigits cs).1), '\\' :: cs,
        (hexEscapeDigits cs).2.1⟩ := by
    obtain ⟨g, hg, h⟩ := hexEscapeDigits_eq_append cs
    refine ⟨[], '\\' :: (hexEscapeDigits cs).1 ++ g, rfl, congrArg ('\\' :: ·) h, ?_⟩
    rcases hg with rfl | rfl
    · exact .inl (by simp)
    · exact .inr (by simp)
  -- which numbers are characters does not matter here, and is not to be computed
  obtain ⟨char?, hchar⟩ : ∃ char?, char? = Text.charOfCodePoint? := ⟨_, rfl⟩
  unfold hexEscape
  rw [← hchar]
  generalize hexEscapeDigits cs = p at hsuffix hinvalid
  obtain ⟨ds, r⟩ := p
  dsimp only at hsuffix hinvalid ⊢
  split
  · next low rest hlow =>
    have hrest : rest.1 <:+ r.1 := by
      split at hlow
      · exact lowSurrogate?_suffix hlow
      · cases hlow
    split
    · exact Reads.of_ok (hrest.trans hsuffix)
    · exact Reads.of_error hinvalid
  · split
    · exact Reads.of_ok hsuffix
    · exact Reads.of_error hinvalid

/-- An escape is one of the text from its backslash on. -/
theorem reads_escaped (cs : List Char) : Reads ('\\' :: cs) (escaped cs) := by
  unfold escaped
  split
  · have hend : (Problem.here (.unexpectedEnd .escapedCharacter) []).Within [] :=
      Problem.within_here_nil ⟨rfl, rfl⟩
    exact Reads.of_error (hend.of_suffix (List.nil_suffix))
  · next c t =>
    split
    · exact reads_hexEscape (c :: t)
    · exact Reads.of_ok ((List.suffix_cons c t).trans (List.suffix_cons _ _))

/-- The characters of a name are read within their text. -/
theorem reads_name : (cs : List Char) → Reads cs (name cs)
  | [] => by
    rw [name]
    exact Reads.of_ok (List.suffix_refl [])
  | c :: t => by
    by_cases hc : c = '\\'
    · subst hc
      rw [name]
      apply Reads.pair (g := List.cons) (Nat.le_succ _) (reads_escaped t)
      intro x r _ hlen hr
      exact (reads_name r).of_suffix hr
    · rw [name]
      · split
        · apply ((reads_name t).of_suffix (List.suffix_cons c t)).bind
          intro more r' _ hr
          exact Reads.of_ok hr
        · exact Reads.of_ok (List.suffix_refl (c :: t))
      · exact hc
termination_by cs => cs.length

/-- A required name is read within its text. -/
theorem reads_requiredName (mark : Char) (cs : List Char) : Reads cs (requiredName mark cs) := by
  apply (reads_name cs).bind
  intro chars r _ hr
  dsimp only
  split
  · cases r with
    | nil =>
      have hend : (Problem.here (.unexpectedEnd .identifier) []).Within [] :=
        Problem.within_here_nil ⟨rfl, rfl⟩
      exact Reads.of_error (hend.of_suffix hr)
    | cons c t =>
      have hnext : (Problem.here (.emptyIdentifier mark) (c :: t)).Within (c :: t) :=
        Problem.within_here rfl
      exact Reads.of_error (hnext.of_suffix hr)
  · exact Reads.of_ok hr

/-- The rest of a string is read within the text from its quote on. -/
theorem reads_stringTail {quote : Char} {t : List Char} : (cs : List Char) → cs <:+ t →
    Reads (quote :: t) (stringTail quote (quote :: t) cs)
  | [], _ => by
    rw [stringTail]
    exact Reads.of_error ⟨[], quote :: t, rfl, (List.append_nil _).symm, rfl, rfl⟩
  | c :: u, h => by
    have hcs : c :: u <:+ quote :: t := h.trans (List.suffix_cons quote t)
    have hu : u <:+ t := (List.suffix_cons c u).trans h
    rw [stringTail.eq_def]
    dsimp only
    split
    · exact Reads.of_ok (hu.trans (List.suffix_cons quote t))
    · split
      · next hc =>
        split
        · exact Reads.of_error ⟨[], quote :: t, rfl, (List.append_nil _).symm, rfl, rfl⟩
        · next e w =>
          have hw : w <:+ t := (List.suffix_cons e w).trans hu
          split
          · subst hc
            apply Reads.pair (g := List.cons) (Nat.le_succ _)
              ((reads_hexEscape (e :: w)).of_suffix hcs)
            intro x r hx hlen _
            have hr : r <:+ t := ((reads_hexEscape (e :: w)).rest hx).trans h
            exact reads_stringTail r hr
          · apply (reads_stringTail w hw).bind
            intro more r' _ hr
            exact Reads.of_ok hr
      · apply (reads_stringTail u hu).bind
        intro more r' _ hr
        exact Reads.of_ok hr
termination_by cs => cs.length

/-- A string is read within the text from its quote on. -/
theorem reads_string (quote : Char) (t : List Char) : Reads (quote :: t) (string quote t) := by
  apply (reads_stringTail t (List.suffix_refl t)).bind
  intro chars r _ hr
  exact Reads.of_ok hr

/-- Raw text is read within its text. -/
theorem reads_rawChars : (cs : List Char) → Reads cs (rawChars cs)
  | [] => by
    rw [rawChars]
    exact Reads.of_ok (List.suffix_refl [])
  | c :: t => by
    rw [rawChars]
    split
    · exact Reads.of_ok (List.suffix_refl (c :: t))
    · split
      · next hc =>
        subst hc
        apply Reads.pair (g := fun x more ↦ RawChar.mk x true :: more) (Nat.le_succ _)
          (reads_escaped t)
        intro x r _ hlen hr
        exact (reads_rawChars r).of_suffix hr
      · apply ((reads_rawChars t).of_suffix (List.suffix_cons c t)).bind
        intro more r' _ hr
        exact Reads.of_ok hr
termination_by cs => cs.length

/-- An argument without quotes is read within its text. -/
theorem reads_rawArgument (cs : List Char) : Reads cs (rawArgument cs) := by
  apply (reads_rawChars cs).bind
  intro raw r _ hr
  exact Reads.of_ok hr

end Lexeme

end DocSelect

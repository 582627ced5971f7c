import DocSelect.Proofs.Selector.Escape
import DocSelect.Proofs.Selector.Location

/-!
# Two texts that part at a character

Two texts may be the same up to and with some character, and go on in two ways behind it. As long
as a reader of the first one has not passed that character, a reader of the second one gives the
same, and fails at that character in the same way. This is kept by readers that go on from one
another, and holds of every reader of lexemes: none of them looks at more than the next character
before it decides, but for the second half of a pair, which it reads to its end if it is one.
-/

namespace DocSelect

open Text (AtMost isHexDigit hexNumber skipBlank)

/-- Whether an error of a kind is found at a character that cannot be right, whatever follows. -/
def ParseErrorKind.IsLocal : ParseErrorKind → Prop
  | unexpectedChar (.delimiter _) _ => True
  | ruleExpected _ => True
  | trailingInput _ => True
  | emptyIdentifier _ => True
  | unknownOperator _ => True
  | _ => False

namespace Lexeme

variable {α β : Type} {m n : Nat}

/-- A reader of a text leaves an end of the text, and its problem with a character lies within the
text. -/
structure Stays (cs : List Char) (x : Taken α n) : Prop where
  rest {v : α} {r : List Char} (h : Gives x v r) : r <:+ cs
  start {p : Problem} (hp : p.kind.IsLocal) (h : x = .error p) : p.start <:+ cs

/-- What reads a text stays in it. -/
theorem Reads.stays {cs : List Char} {x : Taken α n} (h : Reads cs x) : Stays cs x where
  rest := h.rest
  start _ hp := by
    obtain ⟨before, _, hcs, _⟩ := h.problem hp
    exact ⟨before, hcs.symm⟩

/-- A reader of an end of a text that may have problems with more of the text, but not with a
character. -/
theorem Stays.of_reads {cs r : List Char} {x : Taken α r.length} (h : Reads cs x) (hr : r <:+ cs)
    (hx : Outcome.FailsOnly (fun p ↦ ¬ p.kind.IsLocal) x) : Stays r x where
  rest hv := List.suffix_of_suffix_length_le (h.rest hv) hr hv.length_le
  start hp he := absurd hp (hx _ he)

namespace Stays

variable {cs r : List Char} {x : Taken α n}

/-- A reader of an end of a text is one of the text. -/
theorem of_suffix (h : Stays r x) (hr : r <:+ cs) : Stays cs x where
  rest hv := (h.rest hv).trans hr
  start hp he := (h.start hp he).trans hr

/-- A reading that leaves an end of the text stays in it. -/
theorem of_ok {v : α} {a : AtMost n} (h : a.1 <:+ cs) : Stays cs (.ok (v, a)) :=
  (Reads.of_ok h).stays

/-- A problem with the next character is one with a character of the text. -/
theorem here (kind : ParseErrorKind) (cs : List Char) :
    Stays cs (.error (.here kind cs) : Taken α n) where
  rest hv := absurd hv not_gives_error
  start _ he := by
    obtain rfl := Except.error.inj he
    exact List.suffix_refl cs

/-- A problem that is not with a character may be anywhere. -/
theorem of_not_isLocal {p : Problem} (h : ¬ p.kind.IsLocal) : Stays cs (.error p : Taken α n) where
  rest hv := absurd hv not_gives_error
  start hp he := by
    obtain rfl := Except.error.inj he
    exact absurd hp h

/-- A reader that goes on from an end of a text that another one left. -/
theorem bind {f : α × AtMost n → Taken β m} (hx : Stays cs x)
    (hf : ∀ a r, ∀ h : Gives x a r, Stays r (f (a, ⟨r, h.length_le⟩))) : Stays cs (x >>= f) where
  rest hv := by
    obtain ⟨a, r, ha, hv⟩ := gives_bind.1 hv
    exact ((hf a r ha).rest hv).trans (hx.rest ha)
  start hp he := by
    rcases Outcome.bind_eq_error.1 he with he | ⟨⟨a, r⟩, ha, he⟩
    · exact hx.start hp he
    · have ha : Gives x a r.1 := ⟨r.2, ha⟩
      exact ((hf a r.1 ha).start hp he).trans (hx.rest ha)

/-- A value made from the one of a reader. -/
theorem map {k : Nat} (g : α → β) (hk : n ≤ k) (hx : Stays cs x) :
    Stays cs (do
      let (a, ⟨r, h⟩) ← x
      return (g a, ⟨r, Nat.le_trans h hk⟩) : Taken β k) := by
  apply hx.bind
  intro a r _
  exact of_ok (List.suffix_refl r)

end Stays

end Lexeme

open Lexeme

/-- Where two texts part: a character, and what follows it in the one and in the other. -/
structure Fork where
  char : Char
  left : List Char
  right : List Char

namespace Fork

variable {f : Fork} {s s' r r' : List Char}

/-- Whether two texts are the same up to the fork. -/
def Alike (f : Fork) (s s' : List Char) : Prop :=
  ∃ front, s = front ++ f.char :: f.left ∧ s' = front ++ f.char :: f.right

/-- Whether two texts are the same up to the fork, or the first of them has passed it. -/
def Near (f : Fork) (s s' : List Char) : Prop := f.Alike s s' ∨ s <:+ f.left

/-- The two texts behind a fork are alike with its character in front. -/
theorem alike_self : f.Alike (f.char :: f.left) (f.char :: f.right) := ⟨[], rfl, rfl⟩

/-- Texts that are alike stay so behind the same front. -/
theorem Alike.append (h : f.Alike s s') (front : List Char) :
    f.Alike (front ++ s) (front ++ s') := by
  obtain ⟨more, rfl, rfl⟩ := h
  exact ⟨front ++ more, by simp, by simp⟩

/-- A text that ends like one of two is the first of two, too. -/
theorem Alike.exists_of_suffix (h : f.Alike s s') (hs : s <:+ r) : ∃ r', f.Alike r r' := by
  obtain ⟨front, rfl⟩ := hs
  exact ⟨front ++ s', h.append front⟩

/-- What is passed is less text. -/
theorem Alike.left_lt (h : f.Alike s s') : f.left.length < s.length := by
  obtain ⟨front, rfl, _⟩ := h
  simp only [List.length_append, List.length_cons]
  omega

private theorem Alike.not_suffix (h : f.Alike s s') : ¬ s <:+ f.left := fun hs ↦
  Nat.not_lt.2 hs.length_le h.left_lt

/-- The second text is known from the first one. -/
theorem Alike.unique (h : f.Alike s s') (hr : f.Alike s r') : s' = r' := by
  obtain ⟨front, rfl, rfl⟩ := h
  obtain ⟨front', heq, rfl⟩ := hr
  rw [List.append_cancel_right heq]

/-- Two texts that are the same up to the fork begin with the same character. -/
theorem Alike.exists_cons (h : f.Alike s s') :
    ∃ b t t', s = b :: t ∧ s' = b :: t' ∧ f.Near t t' := by
  obtain ⟨front, rfl, rfl⟩ := h
  cases front with
  | nil => exact ⟨f.char, _, _, rfl, rfl, .inr (List.suffix_refl _)⟩
  | cons b front => exact ⟨b, _, _, rfl, rfl, .inl ⟨front, rfl, rfl⟩⟩

/-- The first of two texts that are the same up to the fork is longer by as much as what follows the
fork in it. -/
theorem Alike.length (h : f.Alike s s') :
    s.length + f.right.length = s'.length + f.left.length := by
  obtain ⟨front, rfl, rfl⟩ := h
  simp only [List.length_append, List.length_cons]
  omega

/-- Leading characters of some sort are the same up to the fork. -/
theorem Alike.dropWhile (h : f.Alike s s') (p : Char → Bool) :
    f.Alike (s.dropWhile p) (s'.dropWhile p) ∧ s.takeWhile p = s'.takeWhile p ∨
      s.dropWhile p <:+ f.left := by
  obtain ⟨front, rfl, rfl⟩ := h
  induction front with
  | nil =>
    cases hc : p f.char with
    | true =>
      right
      rw [List.nil_append, List.dropWhile_cons_of_pos hc]
      exact List.dropWhile_suffix p
    | false =>
      left
      have hc : ¬ p f.char = true := by simp [hc]
      simp only [List.nil_append, List.dropWhile_cons_of_neg hc, List.takeWhile_cons_of_neg hc]
      exact ⟨alike_self, trivial⟩
  | cons b front ih =>
    cases hb : p b with
    | true => simpa [hb] using ih
    | false =>
      left
      have hb : ¬ p b = true := by simp [hb]
      simp only [List.cons_append, List.dropWhile_cons_of_neg hb, List.takeWhile_cons_of_neg hb]
      exact ⟨⟨b :: front, rfl, rfl⟩, trivial⟩

/-- Blanks are skipped alike. -/
theorem Near.skipBlank (h : f.Near s s') : f.Near (skipBlank s) (skipBlank s') := by
  rcases h with h | h
  · exact (h.dropWhile Text.isBlank).imp_left And.left
  · exact .inr ((List.dropWhile_suffix _).trans h)

section Readers

variable {α β : Type} {m n m' n' : Nat} {x : Taken α n} {x' : Taken α n'}

/-- Whether a reader of the second text does what a reader of the first one does, up to the
fork. -/
structure Tracks (f : Fork) (x : Taken α n) (x' : Taken α n') : Prop where
  given {v : α} {r r' : List Char} (hr : f.Alike r r') (h : Gives x v r) : Gives x' v r'
  failed {p : Problem} (hp : p.kind.IsLocal) (hstart : p.start = f.char :: f.left)
    (h : x = .error p) : p.stop = f.left ∧ x' = .error ⟨p.kind, f.char :: f.right, f.right⟩

namespace Tracks

/-- Of a reader that has passed the fork nothing is said. -/
theorem of_stays (h : Stays s x) (hs : s <:+ f.left) : f.Tracks x x' where
  given hr hv := absurd ((h.rest hv).trans hs) hr.not_suffix
  failed hp hstart he := by
    have hsuffix := (h.start hp he).trans hs
    rw [hstart] at hsuffix
    exact absurd hsuffix alike_self.not_suffix

/-- Two readers of texts that may have passed the fork. -/
theorem of_near (h : f.Near s s') (hx : Stays s x) (hxx : f.Alike s s' → f.Tracks x x') :
    f.Tracks x x' := by
  rcases h with h | h
  · exact hxx h
  · exact of_stays hx h

/-- Readings that leave texts that are alike go on together. -/
theorem of_ok {v : α} {a : AtMost n} {a' : AtMost n'} (h : f.Alike a.1 a'.1) :
    f.Tracks (.ok (v, a)) (.ok (v, a')) where
  given hr hv := by
    obtain ⟨rfl, rfl⟩ := gives_ok.1 hv
    exact gives_ok.2 ⟨rfl, hr.unique h⟩
  failed _ _ he := by cases he

/-- A problem with the next character is one with the character of the fork, or one before. -/
theorem here (h : f.Alike s s') (kind : ParseErrorKind) :
    f.Tracks (.error (.here kind s) : Taken α n) (.error (.here kind s') : Taken α n') where
  given _ hv := absurd hv not_gives_error
  failed _ hstart he := by
    obtain rfl := Except.error.inj he
    obtain rfl : s = f.char :: f.left := hstart
    obtain rfl := h.unique alike_self
    exact ⟨rfl, rfl⟩

/-- Of a problem that is none with one character nothing is said. -/
theorem of_not_isLocal {p : Problem} (h : ¬ p.kind.IsLocal) :
    f.Tracks (.error p : Taken α n) x' where
  given _ hv := absurd hv not_gives_error
  failed hp _ he := by
    obtain rfl := Except.error.inj he
    exact absurd hp h

/-- Readers that go on from one another. -/
theorem bind {g : α × AtMost n → Taken β m} {g' : α × AtMost n' → Taken β m'}
    (hx : f.Tracks x x') (hstays : ∀ a r h, Stays r (g (a, ⟨r, h⟩)))
    (hg : ∀ a r r' h h', f.Alike r r' → f.Tracks (g (a, ⟨r, h⟩)) (g' (a, ⟨r', h'⟩))) :
    f.Tracks (x >>= g) (x' >>= g') where
  given hr hv := by
    obtain ⟨a, t, ha, hv⟩ := gives_bind.1 hv
    obtain ⟨t', ht⟩ := hr.exists_of_suffix ((hstays a t ha.length_le).rest hv)
    have ha' := hx.given ht ha
    exact gives_bind.2 ⟨a, t', ha', (hg a t t' _ ha'.length_le ht).given hr hv⟩
  failed hp hstart he := by
    rcases Outcome.bind_eq_error.1 he with he | ⟨⟨a, t, hle⟩, ha, he⟩
    · obtain ⟨hstop, he'⟩ := hx.failed hp hstart he
      exact ⟨hstop, Outcome.bind_eq_error.2 (.inl he')⟩
    · have hsuffix := (hstays a t hle).start hp he
      rw [hstart] at hsuffix
      obtain ⟨t', ht⟩ := alike_self.exists_of_suffix hsuffix
      obtain ⟨hle', ha'⟩ := hx.given ht ⟨hle, ha⟩
      obtain ⟨hstop, he'⟩ := (hg a t t' hle hle' ht).failed hp hstart he
      exact ⟨hstop, Outcome.bind_eq_error.2 (.inr ⟨_, ha', he'⟩)⟩

/-- A value made from the one of a reader. -/
theorem map {k k' : Nat} (g : α → β) (hk : n ≤ k) (hk' : n' ≤ k') (hx : f.Tracks x x') :
    f.Tracks
      (do
        let (a, ⟨r, h⟩) ← x
        return (g a, ⟨r, Nat.le_trans h hk⟩) : Taken β k)
      (do
        let (a, ⟨r, h⟩) ← x'
        return (g a, ⟨r, Nat.le_trans h hk'⟩) : Taken β k') := by
  apply hx.bind
  · intro a r _
    exact Stays.of_ok (List.suffix_refl r)
  · intro a r r' _ _ hr
    exact of_ok hr

/-- Two readers, one behind the other, and a value made from theirs. -/
theorem pair {γ : Type} {k k' : Nat} {y y' : (r : List Char) → Taken β r.length} {g : α → β → γ}
    (hk : n ≤ k) (hk' : n' ≤ k') (hx : f.Tracks x x') (hstays : ∀ r, Stays r (y r))
    (hy : ∀ r r', r.length ≤ n → f.Alike r r' → f.Tracks (y r) (y' r')) :
    f.Tracks
      (do
        let (a, ⟨r₁, h₁⟩) ← x
        let (b, ⟨r₂, h₂⟩) ← y r₁
        return (g a b, ⟨r₂, Nat.le_trans (Nat.le_trans h₂ h₁) hk⟩) : Taken γ k)
      (do
        let (a, ⟨r₁, h₁⟩) ← x'
        let (b, ⟨r₂, h₂⟩) ← y' r₁
        return (g a b, ⟨r₂, Nat.le_trans (Nat.le_trans h₂ h₁) hk'⟩) : Taken γ k') := by
  apply hx.bind
  · intro a r h
    exact (hstays r).map (g a) (Nat.le_trans h hk)
  · intro a r r' h h' hr
    exact (hy r r' h hr).map (g a) (Nat.le_trans h hk) (Nat.le_trans h' hk')

end Tracks

end Readers

/-! ### Escapes -/

section Escapes

/-- Digits are taken alike. -/
theorem Alike.takeHex {k : Nat} (h : f.Alike s s') (hr : f.Alike (takeHex k s).2.1 r') :
    (Lexeme.takeHex k s').1 = (Lexeme.takeHex k s).1 ∧ (Lexeme.takeHex k s').2.1 = r' := by
  induction k generalizing s s' with
  | zero => exact ⟨rfl, h.unique hr⟩
  | succ k ih =>
    obtain ⟨b, t, t', rfl, rfl, ht⟩ := h.exists_cons
    by_cases hb : isHexDigit b = true
    · simp only [Lexeme.takeHex, if_pos hb] at hr ⊢
      have hsuffix : (Lexeme.takeHex k t).2.1 <:+ t := ⟨_, (takeHex_eq_append k t).symm⟩
      rcases ht with ht | ht
      · obtain ⟨htaken, hleft⟩ := ih ht hr
        exact ⟨congrArg (b :: ·) htaken, hleft⟩
      · exact absurd (hsuffix.trans ht) hr.not_suffix
    · simp only [Lexeme.takeHex, if_neg hb] at hr ⊢
      exact ⟨trivial, h.unique hr⟩

/-- A space is skipped alike. -/
theorem Alike.skipSpace (h : f.Alike s s') (hr : f.Alike (skipSpace s).1 r') :
    (Lexeme.skipSpace s').1 = r' := by
  obtain ⟨b, t, t', rfl, rfl, ht⟩ := h.exists_cons
  by_cases hb : b = ' '
  · subst hb
    rcases ht with ht | ht
    · exact ht.unique hr
    · exact absurd ht hr.not_suffix
  · have hskip (u : List Char) : (Lexeme.skipSpace (b :: u)).1 = b :: u := by
      rw [Lexeme.skipSpace]
      · rfl
      · intro v hv
        exact hb (List.cons.inj hv).1
    rw [hskip] at hr ⊢
    exact h.unique hr

/-- The digits of an escape are taken alike. -/
theorem Alike.hexEscapeDigits (h : f.Alike s s') (hr : f.Alike (hexEscapeDigits s).2.1 r') :
    (Lexeme.hexEscapeDigits s').1 = (Lexeme.hexEscapeDigits s).1 ∧
      (Lexeme.hexEscapeDigits s').2.1 = r' := by
  have hr : f.Alike (Lexeme.skipSpace (Lexeme.takeHex 6 s).2.1).1 r' := hr
  have hskip : (Lexeme.skipSpace (Lexeme.takeHex 6 s).2.1).1 <:+ (Lexeme.takeHex 6 s).2.1 := by
    rcases eq_or_skipSpace (Lexeme.takeHex 6 s).2.1 with heq | heq
    · exact ⟨[], heq.symm⟩
    · exact ⟨[' '], heq.symm⟩
  obtain ⟨t', ht⟩ := hr.exists_of_suffix hskip
  obtain ⟨htaken, hleft⟩ := h.takeHex ht
  refine ⟨htaken, ?_⟩
  show (Lexeme.skipSpace (Lexeme.takeHex 6 s').2.1).1 = r'
  rw [hleft]
  exact ht.skipSpace hr

/-- The second half of a pair is found alike. -/
theorem Alike.lowSurrogate? {low : Nat} {a : AtMost s.length} (h : f.Alike s s')
    (hr : f.Alike a.1 r') (hlow : lowSurrogate? s = some (low, a)) :
    ∃ hle, Lexeme.lowSurrogate? s' = some (low, ⟨r', hle⟩) := by
  obtain ⟨d, t, rfl, hd, hnumber, hrange, hleft⟩ := lowSurrogate?_eq_some.1 hlow
  rw [← hleft] at hr
  have hsuffix := hexEscapeDigits_suffix (d :: t)
  obtain ⟨_, u, u', heq, rfl, hu⟩ := h.exists_cons
  obtain ⟨rfl, rfl⟩ := List.cons.inj heq
  rcases hu with hu | hu
  · obtain ⟨htaken, hleft'⟩ := hu.hexEscapeDigits hr
    obtain ⟨_, t', t'', heq, rfl, _⟩ := hu.exists_cons
    obtain ⟨rfl, rfl⟩ := List.cons.inj heq
    have hle : r'.length ≤ ('\\' :: d :: t'').length := by
      rw [← hleft']
      exact Nat.le_succ_of_le (Lexeme.hexEscapeDigits (d :: t'')).2.2
    refine ⟨hle, lowSurrogate?_eq_some.2 ⟨d, t'', rfl, hd, ?_, hrange, hleft'⟩⟩
    rw [htaken, hnumber]
  · exact absurd (hsuffix.trans hu) hr.not_suffix

/-- An escape by number fails at no character alone. -/
theorem failsOnly_hexEscape (cs : List Char) :
    Outcome.FailsOnly (fun p ↦ ¬ p.kind.IsLocal) (hexEscape cs) := by
  intro p hp
  -- which numbers are characters does not matter here, and is not to be computed
  obtain ⟨char?, hchar⟩ : ∃ char?, char? = Text.charOfCodePoint? := ⟨_, rfl⟩
  unfold hexEscape at hp
  rw [← hchar] at hp
  generalize Lexeme.hexEscapeDigits cs = taken at hp
  dsimp only at hp
  split at hp
  · split at hp
    · cases hp
    · obtain rfl := Except.error.inj hp
      exact id
  · split at hp
    · cases hp
    · obtain rfl := Except.error.inj hp
      exact id

/-- An escape by number is read alike. -/
theorem tracks_hexEscape (h : f.Alike s s') : f.Tracks (hexEscape s) (hexEscape s') where
  given {c r r'} hr hv := by
    rw [gives_hexEscape_iff] at hv ⊢
    rcases hv with ⟨hhigh, hchar, rfl⟩ | ⟨hhigh, low, rest, hlow, hchar, rfl⟩
    · obtain ⟨htaken, hleft⟩ := h.hexEscapeDigits hr
      rw [htaken, hleft]
      exact .inl ⟨hhigh, hchar, rfl⟩
    · obtain ⟨t', ht⟩ := hr.exists_of_suffix (lowSurrogate?_suffix hlow)
      obtain ⟨htaken, hleft⟩ := h.hexEscapeDigits ht
      obtain ⟨hle, hlow'⟩ := ht.lowSurrogate? hr hlow
      rw [htaken, hleft]
      exact .inr ⟨hhigh, low, _, hlow', hchar, rfl⟩
  failed hp _ he := absurd hp (failsOnly_hexEscape s _ he)

/-- An escape fails at no character alone. -/
theorem failsOnly_escaped (cs : List Char) :
    Outcome.FailsOnly (fun p ↦ ¬ p.kind.IsLocal) (escaped cs) := by
  unfold escaped
  split
  · exact Outcome.failsOnly_error id
  · split
    · exact failsOnly_hexEscape _
    · exact Outcome.failsOnly_ok _

/-- An escape leaves an end of its text. -/
theorem stays_escaped (cs : List Char) : Stays cs (escaped cs) :=
  .of_reads (reads_escaped cs) (List.suffix_cons _ _) (failsOnly_escaped cs)

/-- An escape is read alike. -/
theorem tracks_escaped (h : f.Near s s') : f.Tracks (escaped s) (escaped s') := by
  refine .of_near h (stays_escaped s) fun h ↦ ?_
  obtain ⟨b, t, t', rfl, rfl, ht⟩ := h.exists_cons
  unfold escaped
  dsimp only
  split
  · exact tracks_hexEscape h
  · exact .of_near ht (Stays.of_ok (List.suffix_refl t)) fun ht ↦ .of_ok ht

end Escapes

/-! ### Names, strings and raw text -/

section Lexemes

/-- Names are read alike. -/
theorem tracks_name (s s' : List Char) (h : f.Alike s s') : f.Tracks (name s) (name s') := by
  obtain ⟨b, t, t', hs, hs', ht⟩ := h.exists_cons
  have hlen : s.length = t.length + 1 := by rw [hs, List.length_cons]
  have hstays (r : List Char) : Stays r (name r) := (reads_name r).stays
  rw [hs, hs'] at h ⊢
  by_cases hb : b = '\\'
  · subst hb
    rw [name, name]
    apply Tracks.pair (g := List.cons) (Nat.le_succ _) (Nat.le_succ _) (tracks_escaped ht) hstays
    intro r r' hr hrr
    exact tracks_name r r' hrr
  · rw [name, name]
    · split
      · have hname := Tracks.of_near ht (hstays t) (tracks_name t t')
        exact hname.map (b :: ·) (Nat.le_succ _) (Nat.le_succ _)
      · exact .of_ok h
    · exact hb
    · exact hb
termination_by s.length

/-- Required names are read alike. -/
theorem tracks_requiredName (mark : Char) (h : f.Near s s') :
    f.Tracks (requiredName mark s) (requiredName mark s') := by
  refine .of_near h (reads_requiredName mark s).stays fun h ↦ ?_
  apply (tracks_name s s' h).bind
  · intro chars r _
    dsimp only
    split
    · exact Stays.here _ r
    · exact Stays.of_ok (List.suffix_refl r)
  · intro chars r r' _ _ hr
    obtain ⟨b, t, t', rfl, rfl, _⟩ := hr.exists_cons
    dsimp only
    split
    · exact .here hr _
    · exact .of_ok hr

/-- The rest of a string leaves an end of its text that is shorter, and fails at no character
alone. -/
theorem stays_stringTail {quote : Char} {whole : List Char} :
    (s : List Char) → Stays s.tail (stringTail quote whole s)
  | [] => by
    rw [stringTail]
    exact Stays.of_not_isLocal id
  | c :: t => by
    have hmore (r : List Char) (hlen : r.length ≤ t.length) : Stays r (stringTail quote whole r) :=
      (stays_stringTail r).of_suffix (List.tail_suffix r)
    rw [stringTail.eq_def]
    dsimp only [List.tail_cons]
    split
    · exact Stays.of_ok (List.suffix_refl t)
    · split
      · split
        · exact Stays.of_not_isLocal id
        · next e u =>
          split
          · apply (Stays.of_reads (reads_hexEscape (e :: u)) (List.suffix_cons _ _)
              (failsOnly_hexEscape _)).bind
            intro x r hx
            exact (hmore r hx.length_le).map (x :: ·) (Nat.le_succ_of_le hx.length_le)
          · refine Stays.of_suffix ?_ (List.suffix_cons e u)
            exact (hmore u (Nat.le_succ _)).map _ (Nat.le_succ_of_le (Nat.le_succ _))
      · exact (hmore t (Nat.le_refl _)).map (c :: ·) (Nat.le_succ _)
termination_by s => s.length

/-- The rest of a string is read alike, whatever text it is reported with if it is never closed. -/
theorem tracks_stringTail {quote : Char} {whole whole' : List Char} (s s' : List Char)
    (h : f.Alike s s') : f.Tracks (stringTail quote whole s) (stringTail quote whole' s') := by
  obtain ⟨b, t, t', hs, hs', ht⟩ := h.exists_cons
  have hlen : s.length = t.length + 1 := by rw [hs, List.length_cons]
  have hstays (r : List Char) : Stays r (stringTail quote whole r) :=
    (stays_stringTail r).of_suffix (List.tail_suffix r)
  rw [hs, hs']
  rcases ht with ht | ht
  · rw [stringTail.eq_def, stringTail.eq_def]
    dsimp only
    split
    · exact .of_ok ht
    · split
      · obtain ⟨e, u, u', rfl, rfl, hu⟩ := ht.exists_cons
        dsimp only
        split
        · apply Tracks.pair (g := List.cons) (Nat.le_succ _) (Nat.le_succ _) (tracks_hexEscape ht)
            hstays
          intro r r' hr hrr
          exact tracks_stringTail r r' hrr
        · have hmore : f.Tracks (stringTail quote whole u) (stringTail quote whole' u') :=
            .of_near hu (hstays u) (tracks_stringTail u u')
          exact hmore.map _ (Nat.le_succ_of_le (Nat.le_succ _)) (Nat.le_succ_of_le (Nat.le_succ _))
      · exact (tracks_stringTail t t' ht).map (b :: ·) (Nat.le_succ _) (Nat.le_succ _)
  · exact .of_stays (stays_stringTail (b :: t)) ht
termination_by s.length

/-- Strings are read alike. -/
theorem tracks_string (quote : Char) (h : f.Near s s') :
    f.Tracks (string quote s) (string quote s') := by
  have hstays : Stays s (stringTail quote (quote :: s) s) :=
    (stays_stringTail s).of_suffix (List.tail_suffix s)
  have htail : f.Tracks (stringTail quote (quote :: s) s) (stringTail quote (quote :: s') s') :=
    .of_near h hstays (tracks_stringTail s s')
  exact htail.map String.ofList (Nat.le_succ _) (Nat.le_succ _)

/-- Raw text is read alike. -/
theorem tracks_rawChars (s s' : List Char) (h : f.Alike s s') :
    f.Tracks (rawChars s) (rawChars s') := by
  obtain ⟨b, t, t', hs, hs', ht⟩ := h.exists_cons
  have hlen : s.length = t.length + 1 := by rw [hs, List.length_cons]
  have hstays (r : List Char) : Stays r (rawChars r) := (reads_rawChars r).stays
  rw [hs, hs'] at h ⊢
  rw [rawChars, rawChars]
  split
  · exact .of_ok h
  · split
    · apply Tracks.pair (g := fun x more ↦ RawChar.mk x true :: more) (Nat.le_succ _)
        (Nat.le_succ _) (tracks_escaped ht) hstays
      intro r r' hr hrr
      exact tracks_rawChars r r' hrr
    · have hmore := Tracks.of_near ht (hstays t) (tracks_rawChars t t')
      exact hmore.map (⟨b, false⟩ :: ·) (Nat.le_succ _) (Nat.le_succ _)
termination_by s.length

/-- Arguments without quotes are read alike. -/
theorem tracks_rawArgument (h : f.Alike s s') : f.Tracks (rawArgument s) (rawArgument s') :=
  (tracks_rawChars s s' h).map (fun raw ↦ String.ofList ((trimRaw raw).map RawChar.char))
    (Nat.le_refl _) (Nat.le_refl _)

/-- Values without quotes are read alike. -/
theorem tracks_rawValue {α : Type} (g : String → α) (h : f.Alike s s') :
    f.Tracks (.ok (g (rawValue s).1, (rawValue s).2))
      (.ok (g (rawValue s').1, (rawValue s').2)) := by
  rcases h.dropWhile (· != ']') with ⟨hleft, htaken⟩ | hleft
  · unfold rawValue
    rw [htaken]
    exact .of_ok hleft
  · exact .of_stays (Stays.of_ok (List.suffix_refl _)) hleft

end Lexemes

end Fork

end DocSelect

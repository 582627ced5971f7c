import DocSelect.Proofs.Selector.ErrorSpan
import DocSelect.Proofs.Selector.Fork

/-!
# Errors are found at the first character that cannot be right

An error at a character that cannot be right does not depend on what follows that character: each
rule of the grammar goes on alike on two texts that part there. So any text that is the same up to
and with that character fails with the same error.
-/

namespace DocSelect

open Text (AtMost skipBlank)
open Lexeme (Gives Taken Reads Stays)

namespace Lexeme

variable {α β : Type} {n : Nat}

/-- A reader that goes on up to an expected character behind blanks. -/
theorem Reads.closed {k : Nat} {cs : List Char} {x : Taken α n} (g : α → β) (e : Char) (hk : n ≤ k)
    (hx : Reads cs x) :
    Reads cs (do
      let (a, ⟨r₁, h₁⟩) ← x
      let ⟨r₂, h₂⟩ ← Grammar.expect e (skipBlank r₁)
      return (g a, ⟨r₂, Nat.le_trans (Nat.le_trans h₂ (Text.length_skipBlank_le r₁))
        (Nat.le_trans h₁ hk)⟩) : Taken β k) := by
  apply hx.bind
  intro a r₁ _ h₁
  apply Grammar.reads_bind_expect ((Grammar.skipBlank_suffix r₁).trans h₁)
  intro r₂ _ h₂
  exact Reads.of_ok h₂

end Lexeme

namespace Fork

open Grammar (expect startsCompound)

variable {f : Fork} {s s' r r' : List Char} {α β γ : Type} {m m' n n' : Nat}

/-- Whether a compound can begin in a text is told by its next character. -/
theorem Alike.startsCompound_eq (h : f.Alike s s') : startsCompound s = startsCompound s' := by
  obtain ⟨b, t, t', rfl, rfl, _⟩ := h.exists_cons
  rfl

namespace Tracks

/-- Readers that go on from one another behind blanks. -/
theorem bind_blank {x : Taken α n} {x' : Taken α n'} {g : α × AtMost n → Taken β m}
    {g' : α × AtMost n' → Taken β m'} (hx : f.Tracks x x')
    (hreads : ∀ a r h, Reads (skipBlank r) (g (a, ⟨r, h⟩)))
    (hg : ∀ a r r' h h', f.Alike (skipBlank r) (skipBlank r') →
      f.Tracks (g (a, ⟨r, h⟩)) (g' (a, ⟨r', h'⟩))) :
    f.Tracks (x >>= g) (x' >>= g') := by
  apply hx.bind
  · intro a r h
    exact ((hreads a r h).of_suffix (Grammar.skipBlank_suffix r)).stays
  · intro a r r' h h' hr
    exact of_near (Near.skipBlank (.inl hr)) (hreads a r h).stays (hg a r r' h h')

/-- Readers that go on behind an expected character. -/
theorem bind_expect {e : Char} {g : AtMost s.length → Taken β m}
    {g' : AtMost s'.length → Taken β m'} (h : f.Near s s') (hreads : ∀ t ht, Reads t (g ⟨t, ht⟩))
    (hg : ∀ t t' ht ht', f.Alike t t' → f.Tracks (g ⟨t, ht⟩) (g' ⟨t', ht'⟩)) :
    f.Tracks (expect e s >>= g) (expect e s' >>= g') := by
  have hstays : Stays s (expect e s >>= g) := by
    apply Reads.stays
    apply Grammar.reads_bind_expect (List.suffix_refl s)
    intro t _ ht
    exact (hreads t _).of_suffix ht
  refine of_near h hstays fun h ↦ ?_
  obtain ⟨b, t, t', rfl, rfl, ht⟩ := h.exists_cons
  by_cases hb : b = e
  · simp only [expect, if_pos hb]
    exact of_near ht (hreads t _).stays fun ht ↦ hg t t' _ _ ht
  · simp only [expect, if_neg hb]
    exact here h _

/-- Readers that go on up to an expected character behind blanks. -/
theorem closed {k k' : Nat} {x : Taken α n} {x' : Taken α n'} (g : α → β) (e : Char) (hk : n ≤ k)
    (hk' : n' ≤ k') (hx : f.Tracks x x') :
    f.Tracks
      (do
        let (a, ⟨r₁, h₁⟩) ← x
        let ⟨r₂, h₂⟩ ← expect e (skipBlank r₁)
        return (g a, ⟨r₂, Nat.le_trans (Nat.le_trans h₂ (Text.length_skipBlank_le r₁))
          (Nat.le_trans h₁ hk)⟩) : Taken β k)
      (do
        let (a, ⟨r₁, h₁⟩) ← x'
        let ⟨r₂, h₂⟩ ← expect e (skipBlank r₁)
        return (g a, ⟨r₂, Nat.le_trans (Nat.le_trans h₂ (Text.length_skipBlank_le r₁))
          (Nat.le_trans h₁ hk')⟩) : Taken β k') := by
  apply hx.bind
  · intro a r₁ _
    apply Reads.stays
    apply Grammar.reads_bind_expect (Grammar.skipBlank_suffix r₁)
    intro r₂ _ h₂
    exact Reads.of_ok h₂
  · intro a r₁ r₁' _ _ hr
    apply bind_expect (Near.skipBlank (.inl hr))
    · intro t _
      exact Reads.of_ok (List.suffix_refl t)
    · intro t t' _ _ ht
      exact of_ok ht

/-- Two readers, one behind the other, where a compound can begin, and what is done where none
can. -/
theorem ite_startsCompound {k k' : Nat} {y : (r : List Char) → Taken α r.length}
    {z : (r : List Char) → Taken β r.length} {g : α → β → γ} {e : Taken γ k} {e' : Taken γ k'}
    (h : f.Near s s') (hk : s.length ≤ k) (hk' : s'.length ≤ k') (hyreads : ∀ r, Reads r (y r))
    (hzreads : ∀ r, Reads r (z r)) (hereads : Reads s e)
    (hy : f.Alike s s' → f.Tracks (y s) (y s'))
    (hz : ∀ r r', r.length ≤ s.length → f.Alike r r' → f.Tracks (z r) (z r'))
    (he : f.Alike s s' → f.Tracks e e') :
    f.Tracks
      (if startsCompound s then do
        let (a, ⟨r₁, h₁⟩) ← y s
        let (b, ⟨r₂, h₂⟩) ← z r₁
        return (g a b, ⟨r₂, Nat.le_trans (Nat.le_trans h₂ h₁) hk⟩)
      else e)
      (if startsCompound s' then do
        let (a, ⟨r₁, h₁⟩) ← y s'
        let (b, ⟨r₂, h₂⟩) ← z r₁
        return (g a b, ⟨r₂, Nat.le_trans (Nat.le_trans h₂ h₁) hk'⟩)
      else e') := by
  refine of_near h ?_ fun h ↦ ?_
  · apply Reads.stays
    split
    · apply (hyreads s).pair hk
      intro a r _ _ hr
      exact (hzreads r).of_suffix hr
    · exact hereads
  · rw [h.startsCompound_eq]
    split
    · exact (hy h).pair hk hk' (fun r ↦ (hzreads r).stays) hz
    · exact he h

end Tracks

end Fork

namespace Grammar

open Lexeme (string requiredName rawArgument rawValue)

variable {f : Fork} {d : Dialect} {s s' : List Char}

/-- Type tests are read alike. -/
theorem tracks_typeTest (h : f.Alike s s') : f.Tracks (typeTest s) (typeTest s') := by
  obtain ⟨b, t, t', hs, hs', ht⟩ := h.exists_cons
  have hname := Fork.tracks_name s s' h
  rw [hs, hs'] at h hname ⊢
  by_cases hb : b = '*'
  · subst hb
    exact .of_near ht (Stays.of_ok (List.suffix_refl t)) fun ht ↦ .of_ok ht
  · rw [typeTest, typeTest]
    · split
      · exact hname.map (fun chars ↦ some (TypeTest.named (String.ofList chars))) (Nat.le_refl _)
          (Nat.le_refl _)
      · exact .of_ok h
    · exact hb
    · exact hb

/-- Comparison marks are read alike. -/
theorem tracks_comparisonMark (h : f.Alike s s') :
    f.Tracks (comparisonMark d s) (comparisonMark d s') := by
  obtain ⟨b, t, t', rfl, rfl, ht⟩ := h.exists_cons
  unfold comparisonMark
  dsimp only
  split
  · exact .of_ok h
  · split
    · exact .of_near ht (Stays.of_ok (List.suffix_refl t)) fun ht ↦ .of_ok ht
    · exact .here h _

/-- What stands in quotes, for a variable or as it is written is read alike. -/
theorem tracks_written {α : Type} {read : (cs : List Char) → Taken α cs.length}
    (wrap named : String → α)
    (hquoted : ∀ q t, q = '"' ∨ q = '\'' → read (q :: t) = (do
      let (s, rest) ← string q t
      return (wrap s, rest)))
    (hvariable : d.allowsVariables = true → ∀ t, read ('$' :: t) = (do
      let (s, rest) ← requiredName '$' t
      return (named s, .behind rest)))
    (hraw : ∀ c t t', c ≠ '"' → c ≠ '\'' → (c = '$' → ¬ d.allowsVariables = true) →
      f.Alike (c :: t) (c :: t') → f.Tracks (read (c :: t)) (read (c :: t')))
    (h : f.Alike s s') : f.Tracks (read s) (read s') := by
  obtain ⟨b, t, t', rfl, rfl, ht⟩ := h.exists_cons
  by_cases hquote : b = '"' ∨ b = '\''
  · rw [hquoted b t hquote, hquoted b t' hquote]
    exact (Fork.tracks_string b ht).map wrap (Nat.le_refl _) (Nat.le_refl _)
  by_cases hdollar : b = '$' ∧ d.allowsVariables = true
  · obtain ⟨rfl, hd⟩ := hdollar
    rw [hvariable hd, hvariable hd]
    exact (Fork.tracks_requiredName '$' ht).map named (Nat.le_succ _) (Nat.le_succ _)
  · exact hraw b t t' (fun hb ↦ hquote (.inl hb)) (fun hb ↦ hquote (.inr hb))
      (fun hb hd ↦ hdollar ⟨hb, hd⟩) h

/-- The expected sides of comparisons are read alike. -/
theorem tracks_operand (h : f.Near s s') : f.Tracks (operand d s) (operand d s') := by
  refine .of_near h (reads_operand s).stays ?_
  apply tracks_written Operand.text Operand.variable
  · rintro q t (rfl | rfl)
    · rw [operand]
    · rw [operand]
  · intro hd t
    rw [operand, if_pos hd]
  · intro c t t' hdouble hsingle hdollar h
    have hraw := Fork.tracks_rawValue Operand.text h
    by_cases hc : c = '$'
    · subst hc
      rw [operand, operand, if_neg (hdollar rfl), if_neg (hdollar rfl)]
      exact hraw
    · rw [operand, operand]
      · exact hraw
      all_goals
        intro v hv
        obtain ⟨rfl, rfl⟩ := List.cons.inj hv
        contradiction

/-- Plain arguments are read alike. -/
theorem tracks_plainArgument (kind : ArgumentKind) (h : f.Near s s') :
    f.Tracks (plainArgument d kind s) (plainArgument d kind s') := by
  refine .of_near h (reads_plainArgument kind s).stays ?_
  apply tracks_written (plain kind) Argument.variable
  · rintro q t (rfl | rfl)
    · rw [plainArgument]
      rfl
    · rw [plainArgument]
      rfl
  · intro hd t
    rw [plainArgument, if_pos hd]
  · intro c t t' hdouble hsingle hdollar h
    have hraw := (Fork.tracks_rawArgument h).map (plain kind) (Nat.le_refl _) (Nat.le_refl _)
    by_cases hc : c = '$'
    · subst hc
      rw [plainArgument, plainArgument, if_neg (hdollar rfl), if_neg (hdollar rfl)]
      exact hraw
    · rw [plainArgument, plainArgument]
      · exact hraw
      all_goals
        intro v hv
        obtain ⟨rfl, rfl⟩ := List.cons.inj hv
        contradiction

/-- The test of an attribute from behind the comparison mark on. -/
def comparedWith (d : Dialect) (name : String) (op : Comparison) {k : Nat} (r : List Char)
    (hr : r.length ≤ k) : Taken AttributeTest k := do
  let ⟨r₁, h₁⟩ ← expect '=' r
  let (value, ⟨r₂, h₂⟩) ← operand d (skipBlank r₁)
  let ⟨r₃, h₃⟩ ← expect ']' (skipBlank r₂)
  return (⟨name, some (op, value)⟩, ⟨r₃, Nat.le_trans
    (Nat.le_trans h₃ (Text.length_skipBlank_le r₂)) (Nat.le_trans h₂
      (Nat.le_trans (Text.length_skipBlank_le r₁) (Nat.le_trans h₁ hr)))⟩)

section Compared

variable {name : String} {op : Comparison} {k k' : Nat} {r r' : List Char}

/-- What a test compares with is read within its text. -/
theorem reads_comparedWith (hr : r.length ≤ k) : Reads r (comparedWith d name op r hr) := by
  apply reads_bind_expect (List.suffix_refl r)
  intro t ht htr
  have hlen := length_le_of_eq_cons ht
  have hoperand : Reads t (operand d (skipBlank t)) :=
    (reads_operand (skipBlank t)).of_suffix (skipBlank_suffix t)
  exact (hoperand.closed (fun value ↦ AttributeTest.mk name (some (op, value))) ']'
    (Nat.le_trans (Text.length_skipBlank_le t) (Nat.le_trans hlen hr))).of_suffix htr

/-- What a test compares with is read alike. -/
theorem tracks_comparedWith (hr : r.length ≤ k) (hr' : r'.length ≤ k') (h : f.Alike r r') :
    f.Tracks (comparedWith d name op r hr) (comparedWith d name op r' hr') := by
  apply Fork.Tracks.bind_expect (.inl h)
  · intro t ht
    have hoperand : Reads t (operand d (skipBlank t)) :=
      (reads_operand (skipBlank t)).of_suffix (skipBlank_suffix t)
    exact hoperand.closed (fun value ↦ AttributeTest.mk name (some (op, value))) ']'
      (Nat.le_trans (Text.length_skipBlank_le t) (Nat.le_trans ht hr))
  · intro t t' ht ht' htt
    have hoperand : f.Tracks (operand d (skipBlank t)) (operand d (skipBlank t')) :=
      tracks_operand (Fork.Near.skipBlank (.inl htt))
    exact hoperand.closed (fun value ↦ AttributeTest.mk name (some (op, value))) ']'
      (Nat.le_trans (Text.length_skipBlank_le t) (Nat.le_trans ht hr))
      (Nat.le_trans (Text.length_skipBlank_le t') (Nat.le_trans ht' hr'))

end Compared

/-- Attribute tests are read alike. -/
theorem tracks_attributeTest (h : f.Near s s') :
    f.Tracks (attributeTest d s) (attributeTest d s') := by
  refine .of_near h (reads_attributeTest s).stays fun h ↦ ?_
  unfold attributeTest
  apply (Fork.tracks_requiredName '[' (Fork.Near.skipBlank (.inl h))).bind_blank
  · intro name r₁ h₁
    have h₂ := Text.length_skipBlank_le r₁
    have h₃ := Text.length_skipBlank_le s
    dsimp only
    split
    · next t ht => exact Reads.of_ok ⟨[']'], ht.symm⟩
    · apply (reads_comparisonMark _).bind
      intro op r₃ hop hr₃
      have hlen : r₃.length ≤ s.length := by
        have hle := hop.length_le
        omega
      exact (reads_comparedWith hlen).of_suffix hr₃
  · intro name r₁ r₁' h₁ h₁' hr
    have h₂ := Text.length_skipBlank_le r₁
    have h₂' := Text.length_skipBlank_le r₁'
    have h₃ := Text.length_skipBlank_le s
    have h₃' := Text.length_skipBlank_le s'
    obtain ⟨b, t, t', ht, ht', hnear⟩ := hr.exists_cons
    dsimp only
    split
    · next u hu =>
      obtain ⟨rfl, rfl⟩ := List.cons.inj (hu.symm.trans ht)
      split
      · next u' hu' =>
        obtain ⟨_, rfl⟩ := List.cons.inj (hu'.symm.trans ht')
        exact .of_near hnear (Stays.of_ok (List.suffix_refl u)) fun hnext ↦ .of_ok hnext
      · next hne => exact absurd ht' (hne t')
    · next hne =>
      split
      · next u' hu' =>
        obtain ⟨rfl, _⟩ := List.cons.inj (hu'.symm.trans ht')
        exact absurd ht (hne t)
      · apply (tracks_comparisonMark hr).bind
        · intro op r₃ hop
          have hlen : r₃.length ≤ s.length := by omega
          exact (reads_comparedWith hlen).stays
        · intro op r₃ r₃' hop hop' hr₃
          have hlen : r₃.length ≤ s.length := by omega
          have hlen' : r₃'.length ≤ s'.length := by omega
          exact tracks_comparedWith hlen hlen' hr₃

/-- A pseudo-class from behind its opening parenthesis on. -/
def enclosed (d : Dialect) (name : String) {k : Nat} (t : List Char) (ht : t.length ≤ k) :
    Taken PseudoClass k :=
  have hblank := Nat.le_trans (Text.length_skipBlank_le t) ht
  match d.argumentKind name with
  | .selector => do
    let (alternatives, ⟨r₁, h₁⟩) ← chains d (skipBlank t)
    let ⟨r₂, h₂⟩ ← expect ')' r₁
    return (⟨name, .selector (.ofChains alternatives)⟩,
      ⟨r₂, Nat.le_trans h₂ (Nat.le_trans h₁ hblank)⟩)
  | kind => do
    let (argument, ⟨r₁, h₁⟩) ← plainArgument d kind (skipBlank t)
    let ⟨r₂, h₂⟩ ← expect ')' (skipBlank r₁)
    return (⟨name, argument⟩, ⟨r₂, Nat.le_trans
      (Nat.le_trans h₂ (Text.length_skipBlank_le r₁)) (Nat.le_trans h₁ hblank)⟩)

section Enclosed

variable {name : String} {k k' : Nat} {t t' : List Char}

/-- An argument is read within its text, up to its parenthesis. -/
theorem reads_enclosed (ht : t.length ≤ k) : Reads t (enclosed d name t ht) := by
  unfold enclosed
  dsimp only
  split
  · have hchains : Reads t (chains d (skipBlank t)) :=
      (reads_chains (skipBlank t)).of_suffix ((skipBlank_suffix _).trans (skipBlank_suffix t))
    apply hchains.bind
    intro alternatives r _ hr
    apply reads_bind_expect hr
    intro r' _ hr'
    exact Reads.of_ok hr'
  · have hplain : Reads t (plainArgument d (d.argumentKind name) (skipBlank t)) :=
      (reads_plainArgument _ (skipBlank t)).of_suffix (skipBlank_suffix t)
    exact hplain.closed (PseudoClass.mk name) ')' (Nat.le_trans (Text.length_skipBlank_le t) ht)

/-- Arguments are read alike if the alternatives that may stand there are. -/
theorem tracks_enclosed (ht : t.length ≤ k) (ht' : t'.length ≤ k')
    (h : f.Near (skipBlank t) (skipBlank t'))
    (hchains : f.Tracks (chains d (skipBlank t)) (chains d (skipBlank t'))) :
    f.Tracks (enclosed d name t ht) (enclosed d name t' ht') := by
  unfold enclosed
  dsimp only
  split
  · apply hchains.bind
    · intro alternatives r _
      apply Reads.stays
      apply reads_bind_expect (List.suffix_refl r)
      intro u _ hu
      exact Reads.of_ok hu
    · intro alternatives r r' _ _ hr
      apply Fork.Tracks.bind_expect (.inl hr)
      · intro u _
        exact Reads.of_ok (List.suffix_refl u)
      · intro u u' _ _ hu
        exact .of_ok hu
  · exact (tracks_plainArgument _ h).closed (PseudoClass.mk name) ')'
      (Nat.le_trans (Text.length_skipBlank_le t) ht)
      (Nat.le_trans (Text.length_skipBlank_le t') ht')

end Enclosed

/-- Links from the first character on that is no blank. -/
theorem links_eq {cs : List Char} {c : Char} {t : List Char} (h : skipBlank cs = c :: t)
    (hle : t.length + 1 ≤ cs.length) :
    links d cs =
      if c = ',' || c = ')' then .ok ([], ⟨c :: t, hle⟩)
      else
        have h₁ := Text.length_skipBlank_le t
        match Combinator.ofMark? c with
        | some op =>
          if !d.allowsCombinator op then .error (.here (.unknownOperator c) (c :: t))
          else if startsCompound (skipBlank t) then do
            let (next, ⟨r₁, h₂⟩) ← compound d (skipBlank t)
            let (more, ⟨r₂, h₃⟩) ← links d r₁
            return ({ next with combinator := some op } :: more, ⟨r₂, Nat.le_trans
              (Nat.le_trans (Nat.le_trans h₃ h₂) (Nat.le_succ_of_le h₁)) hle⟩)
          else .error (.here (.ruleExpected c) (skipBlank t))
        | none =>
          if startsCompound (c :: t) then
            if _ : (c :: t).length < cs.length then do
              let (next, ⟨r₁, h₂⟩) ← compound d (c :: t)
              let (more, ⟨r₂, h₃⟩) ← links d r₁
              return ({ next with combinator := some .descendant } :: more,
                ⟨r₂, Nat.le_trans (Nat.le_trans h₃ h₂) hle⟩)
            else do
              let (_, ⟨r₁, _⟩) ← compound d (c :: t)
              .error ⟨.unexpectedChar .separator c, c :: t, r₁⟩
          else .ok ([], ⟨c :: t, hle⟩) := by
  rw [links]
  split
  · next hnil => cases hnil.symm.trans h
  · next hcons =>
    obtain ⟨rfl, rfl⟩ := List.cons.inj (hcons.symm.trans h)
    rfl

-- As for where readers read, the induction is on the length of the text and, at the same length, on
-- how far up the grammar a reader stands.
mutual
/-- Alternatives are read alike. -/
theorem tracks_chains (s s' : List Char) (h : f.Near s s') :
    f.Tracks (chains d s) (chains d s') := by
  have h₀ := Text.length_skipBlank_le s
  rw [chains, chains]
  apply Fork.Tracks.ite_startsCompound (g := List.cons) h.skipBlank h₀
    (Text.length_skipBlank_le s') reads_chain reads_moreChains (Reads.of_ok (List.suffix_refl _))
  · exact tracks_chain (skipBlank s) (skipBlank s')
  · intro r r' hr hrr
    exact tracks_moreChains r r' hrr
  · exact fun hs ↦ .of_ok hs
termination_by 6 * s.length + 5

/-- Alternatives behind others are read alike. -/
theorem tracks_moreChains (s s' : List Char) (h : f.Alike s s') :
    f.Tracks (moreChains d s) (moreChains d s') := by
  obtain ⟨b, t, t', hs, hs', ht⟩ := h.exists_cons
  have hlen : s.length = t.length + 1 := by rw [hs, List.length_cons]
  have h₀ := Text.length_skipBlank_le t
  rw [hs, hs'] at h ⊢
  by_cases hb : b = ','
  · subst hb
    rw [moreChains, moreChains]
    apply Fork.Tracks.ite_startsCompound (g := List.cons) ht.skipBlank (Nat.le_succ_of_le h₀)
      (Nat.le_succ_of_le (Text.length_skipBlank_le t')) reads_chain reads_moreChains
      (Reads.of_error (within_ruleExpected ',' (skipBlank t)))
    · exact tracks_chain (skipBlank t) (skipBlank t')
    · intro r r' hr hrr
      exact tracks_moreChains r r' hrr
    · exact fun hs ↦ .here hs _
  · rw [moreChains, moreChains]
    · exact .of_ok h
    · exact fun u hu ↦ hb (List.cons.inj hu).1
    · exact fun u hu ↦ hb (List.cons.inj hu).1
termination_by 6 * s.length + 4

/-- Chains are read alike. -/
theorem tracks_chain (s s' : List Char) (h : f.Alike s s') :
    f.Tracks (chain d s) (chain d s') := by
  have hstays (r : List Char) : Stays r (links d r) :=
    ((reads_links r).of_suffix (skipBlank_suffix r)).stays
  rw [chain, chain]
  apply (tracks_compound s s' h).pair (g := Chain.mk) (Nat.le_refl _) (Nat.le_refl _) hstays
  intro r r' hr hrr
  exact tracks_links r r' hrr
termination_by 6 * s.length + 4

/-- Links are read alike. -/
theorem tracks_links (s s' : List Char) (h : f.Alike s s') :
    f.Tracks (links d s) (links d s') := by
  refine .of_near (Fork.Near.skipBlank (.inl h)) (reads_links s).stays fun hs ↦ ?_
  have h₀ := Text.length_skipBlank_le s
  have h₀' := Text.length_skipBlank_le s'
  obtain ⟨c, t, t', ht, ht', hnear⟩ := hs.exists_cons
  have hlen : t.length + 1 ≤ s.length := by rwa [ht] at h₀
  have hlen' : t'.length + 1 ≤ s'.length := by rwa [ht'] at h₀'
  have h₁ := Text.length_skipBlank_le t
  have h₁' := Text.length_skipBlank_le t'
  have hreads (r : List Char) : Reads r (links d r) :=
    (reads_links r).of_suffix (skipBlank_suffix r)
  have hlength := h.length
  have hlengths := hs.length
  rw [ht, ht'] at hs hlengths
  rw [links_eq ht hlen, links_eq ht' hlen']
  dsimp only
  split
  · exact .of_ok hs
  · split
    · next op hop =>
      split
      · exact .here hs _
      · apply Fork.Tracks.ite_startsCompound
          (g := fun next more ↦ { next with combinator := some op } :: more) hnear.skipBlank
          (by omega) (by omega) reads_compound hreads
          (Reads.of_error (within_ruleExpected c (skipBlank t)))
        · exact tracks_compound (skipBlank t) (skipBlank t')
        · intro r r' hr hrr
          exact tracks_links r r' hrr
        · exact fun hs ↦ .here hs _
    · have hcompound : f.Tracks (compound d (c :: t)) (compound d (c :: t')) :=
        tracks_compound _ _ hs
      split
      · next hstarts =>
        rw [if_pos (show startsCompound (c :: t') = true from hstarts)]
        -- blanks are skipped in the one text if they are in the other
        split
        · next hlt =>
          have hlt' : (c :: t').length < s'.length := by omega
          rw [dif_pos hlt']
          apply hcompound.pair
            (g := fun next more ↦ { next with combinator := some .descendant } :: more)
            (Nat.le_of_lt hlt) (Nat.le_of_lt hlt') fun r ↦ (hreads r).stays
          intro r r' hr hrr
          exact tracks_links r r' hrr
        · next hle =>
          have hle' : ¬ (c :: t').length < s'.length := by omega
          rw [dif_neg hle']
          apply hcompound.bind
          · intro next r _
            exact Stays.of_not_isLocal id
          · intro next r r' _ _ _
            exact .of_not_isLocal id
      · next hstarts =>
        rw [if_neg (show ¬ startsCompound (c :: t') = true from hstarts)]
        exact .of_ok hs
termination_by 6 * s.length + 3

/-- Compounds are read alike. -/
theorem tracks_compound (s s' : List Char) (h : f.Alike s s') :
    f.Tracks (compound d s) (compound d s') := by
  rw [compound, compound]
  apply (tracks_typeTest h).pair (g := Compound.ofParts) (Nat.le_refl _) (Nat.le_refl _)
    fun r ↦ (reads_parts r).stays
  intro r r' hr hrr
  exact tracks_parts r r' hrr
termination_by 6 * s.length + 2

/-- Parts are read alike. -/
theorem tracks_parts (s s' : List Char) (h : f.Alike s s') :
    f.Tracks (parts d s) (parts d s') := by
  obtain ⟨b, t, t', hs, hs', ht⟩ := h.exists_cons
  have hlen : s.length = t.length + 1 := by rw [hs, List.length_cons]
  have hstays (r : List Char) : Stays r (parts d r) := (reads_parts r).stays
  have hmore (r r' : List Char) (hr : r.length ≤ t.length) (hrr : f.Alike r r') :
      f.Tracks (parts d r) (parts d r') := tracks_parts r r' hrr
  have hpseudo : f.Tracks (pseudoClass d t) (pseudoClass d t') := tracks_pseudoClass t t' ht
  rw [hs, hs'] at h ⊢
  by_cases hdot : b = '.'
  · subst hdot
    rw [parts, parts]
    exact (Fork.tracks_requiredName '.' ht).pair (g := fun name more ↦ Part.className name :: more)
      (Nat.le_succ _) (Nat.le_succ _) hstays hmore
  by_cases hhash : b = '#'
  · subst hhash
    rw [parts, parts]
    exact (Fork.tracks_requiredName '#' ht).pair (g := fun name more ↦ Part.id name :: more)
      (Nat.le_succ _) (Nat.le_succ _) hstays hmore
  by_cases hbracket : b = '['
  · subst hbracket
    rw [parts, parts]
    exact (tracks_attributeTest ht).pair (g := fun test more ↦ Part.attr test :: more)
      (Nat.le_succ _) (Nat.le_succ _) hstays hmore
  by_cases hcolon : b = ':'
  · subst hcolon
    rw [parts, parts]
    exact hpseudo.pair (g := fun test more ↦ Part.pseudo test :: more)
      (Nat.le_succ _) (Nat.le_succ _) hstays hmore
  · have hstop (u : List Char) : parts d (b :: u) = .ok ([], .whole (b :: u)) := by
      rw [parts]
      · exact fun v hv ↦ hdot (List.cons.inj hv).1
      · exact fun v hv ↦ hhash (List.cons.inj hv).1
      · exact fun v hv ↦ hbracket (List.cons.inj hv).1
      · exact fun v hv ↦ hcolon (List.cons.inj hv).1
    rw [hstop, hstop]
    exact .of_ok h
termination_by 6 * s.length + 1

/-- Pseudo-classes are read alike. -/
theorem tracks_pseudoClass (s s' : List Char) (h : f.Near s s') :
    f.Tracks (pseudoClass d s) (pseudoClass d s') := by
  refine .of_near h (reads_pseudoClass s).stays fun h ↦ ?_
  rw [pseudoClass, pseudoClass]
  apply (Fork.tracks_requiredName ':' (.inl h)).bind
  · intro name r₁ h₁
    apply Reads.stays
    dsimp only
    split
    · next t =>
      have hlen : t.length ≤ s.length := Nat.le_of_lt h₁
      exact (reads_enclosed hlen).of_suffix (List.suffix_cons '(' t)
    · exact Reads.of_ok (List.suffix_refl r₁)
  · intro name r₁ r₁' h₁ h₁' hr
    obtain ⟨b, t, t', rfl, rfl, ht⟩ := hr.exists_cons
    have h₂ := Text.length_skipBlank_le t
    have hlen : t.length + 1 ≤ s.length := h₁
    have hlen' : t'.length + 1 ≤ s'.length := h₁'
    by_cases hb : b = '('
    · subst hb
      have hchains : f.Tracks (chains d (skipBlank t)) (chains d (skipBlank t')) :=
        tracks_chains (skipBlank t) (skipBlank t') ht.skipBlank
      exact tracks_enclosed (Nat.le_of_succ_le hlen) (Nat.le_of_succ_le hlen') ht.skipBlank hchains
    · dsimp only
      split
      · next heq => exact absurd (List.cons.inj heq).1 hb
      · split
        · next heq => exact absurd (List.cons.inj heq).1 hb
        · exact .of_ok hr
termination_by 6 * s.length
end

/-- A text that is no selector because of a character has the same problem up to the fork. -/
theorem selector_fork {p : Problem} (h : f.Alike s s') (hp : p.kind.IsLocal)
    (hstart : p.start = f.char :: f.left) (he : selector d s = .error p) :
    p.stop = f.left ∧ selector d s' = .error ⟨p.kind, f.char :: f.right, f.right⟩ := by
  have hchains := tracks_chains (d := d) s s' (.inl h)
  unfold selector at he ⊢
  rcases Outcome.bind_eq_error.1 he with he | ⟨⟨alternatives, rest, hle⟩, hgives, he⟩
  · obtain ⟨hstop, he'⟩ := hchains.failed hp hstart he
    exact ⟨hstop, Outcome.bind_eq_error.2 (.inl he')⟩
  · cases rest with
    | nil => cases he
    | cons c t =>
      obtain rfl := Except.error.inj he
      obtain ⟨rfl, rfl⟩ : c = f.char ∧ t = f.left := List.cons.inj hstart
      obtain ⟨hle', hgives'⟩ := hchains.given Fork.alike_self ⟨hle, hgives⟩
      exact ⟨rfl, Outcome.bind_eq_error.2 (.inr ⟨_, hgives', rfl⟩)⟩

end Grammar

namespace Text

/-- The bytes of a text begin with those of its first part. -/
theorem extract_append (a b : String) :
    (a ++ b).toByteArray.extract 0 a.utf8ByteSize = a.toByteArray := by
  rw [String.toByteArray_append, ← String.size_toByteArray]
  exact ByteArray.extract_append_eq_left rfl

/-- A text that begins with the bytes of some characters begins with these characters. -/
theorem exists_toList_eq_append {front t : List Char} {text : String}
    (h : (String.ofList (front ++ t)).toByteArray.extract 0 (byteLength front) =
      text.toByteArray.extract 0 (byteLength front)) : ∃ t', text.toList = front ++ t' := by
  rw [byteLength_ofList, String.ofList_append, extract_append] at h
  have hsize : (String.ofList front).utf8ByteSize ≤ text.utf8ByteSize := by
    have hsize := congrArg ByteArray.size h
    rw [ByteArray.size_extract, String.size_toByteArray, String.size_toByteArray] at hsize
    omega
  have hvalid : String.Pos.Raw.IsValid text ⟨(String.ofList front).utf8ByteSize⟩ := by
    apply String.Pos.Raw.isValid_iff_isValidUTF8_extract_zero.2
    refine ⟨hsize, ?_⟩
    rw [← h]
    exact (String.ofList front).isValidUTF8
  obtain ⟨a, b, rfl, hpos⟩ := String.Pos.Raw.isValid_iff_exists_append.1 hvalid
  have hlen : (String.ofList front).utf8ByteSize = a.utf8ByteSize :=
    congrArg String.Pos.Raw.byteIdx hpos
  rw [hlen, extract_append] at h
  obtain rfl := String.toByteArray_inj.1 h
  exact ⟨b.toList, by rw [String.toList_append, String.toList_ofList]⟩

end Text

namespace Selector

variable {d : Dialect} {text text' : String} {e : ParseError}

/-- A text that is no selector because of a character that cannot be right is told by the bytes up
to the end of that character: every text with the same first bytes fails with the same error. -/
theorem parse_eq_error_of_extract (h : Selector.parse d text = .error e) (hlocal : e.kind.IsLocal)
    (hspan : e.span.start < e.span.stop)
    (hbytes : text.toByteArray.extract 0 e.span.stop = text'.toByteArray.extract 0 e.span.stop) :
    Selector.parse d text' = .error e := by
  obtain ⟨p, hp, rfl⟩ := parse_eq_error.1 h
  obtain ⟨front, within, htext, _⟩ := Grammar.within_selector hp
  cases hstart : p.start with
  | nil =>
    simp only [Problem.toError, hstart, Text.byteLength_nil] at hspan
    omega
  | cons c t =>
    rw [hstart] at htext
    -- the text itself tells where the error ends
    obtain ⟨hstop, _⟩ :=
      Grammar.selector_fork (f := ⟨c, t, t⟩) ⟨front, htext, htext⟩ hlocal hstart hp
    have hfront : text.toList = (front ++ [c]) ++ t := by rw [htext]; simp
    have hend : (p.toError text.toList).span.stop = Text.byteLength (front ++ [c]) := by
      simp only [Problem.toError, hstop, hfront, Text.byteLength_append]
      omega
    rw [hend, ← String.ofList_toList (s := text), hfront] at hbytes
    obtain ⟨t', ht'⟩ := Text.exists_toList_eq_append hbytes
    have htext' : text'.toList = front ++ c :: t' := by rw [ht']; simp
    obtain ⟨_, hp'⟩ :=
      Grammar.selector_fork (f := ⟨c, t, t'⟩) ⟨front, htext, htext'⟩ hlocal hstart hp
    refine parse_eq_error.2 ⟨_, hp', ?_⟩
    simp only [Problem.toError, hstart, hstop, htext, htext', Text.byteLength_append,
      Text.byteLength_cons]
    congr 2
    · omega
    · omega

/-- What stands behind a character where a bracket had to be does not matter, even if it is an
escape that is none. -/
theorem parse_eq_error_of_extract_bracket :
    let e : ParseError := ⟨.unexpectedChar (.delimiter ']') 'x', ⟨8, 9⟩⟩
    Selector.parse .document "*[a='é'x]" = .error e ∧ e.kind.IsLocal ∧
      e.span.start < e.span.stop ∧
      "*[a='é'x]".toByteArray.extract 0 e.span.stop =
        "*[a='é'x\\D800".toByteArray.extract 0 e.span.stop ∧
      Selector.parse .document "*[a='é'x\\D800" = .error e := by
  intro e
  have h : Selector.parse .document "*[a='é'x]" = .error e := by cbv
  have hbytes : "*[a='é'x]".toByteArray.extract 0 9 = "*[a='é'x\\D800".toByteArray.extract 0 9 := by
    decide
  exact ⟨h, trivial, by decide, hbytes, parse_eq_error_of_extract h trivial (by decide) hbytes⟩

end Selector

end DocSelect

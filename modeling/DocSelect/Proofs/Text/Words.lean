import DocSelect.Proofs.Text.Blank

/-!
# Words and parts of a text

A word of a text is a run of characters that are not white, between white space or the ends of the
text. Splitting a text at a white character splits its words, so what its words are is shown by
splitting it at one white character after the other, down to texts without any.
-/

namespace DocSelect.Text

/-- Whether a run of characters that are not white stands in a text between white space or the ends
of the text. -/
def IsWordOf (word cs : List Char) : Prop :=
  word ≠ [] ∧ (∀ c ∈ word, isWhite c = false) ∧
    ∃ before behind, cs = before ++ word ++ behind ∧
      Ahead isWhite before.reverse ∧ Ahead isWhite behind

/-- Words are split at a white character. -/
theorem words_append_white {c : Char} (hc : isWhite c = true) (a b : List Char) :
    words (a ++ c :: b) = words a ++ words b := by
  rw [words, List.splitOnP_append_cons a b hc, List.filter_append]
  rfl

/-- A text without white characters is one word. -/
theorem words_of_forall_not_white {cs : List Char} (hne : cs ≠ [])
    (h : ∀ c ∈ cs, isWhite c = false) : words cs = [cs] := by
  rw [words, List.splitOnP_eq_singleton h]
  simp [hne]

namespace IsWordOf

variable {word cs : List Char} {c : Char}

/-- A word of a text stays one in front of a white character. -/
theorem append_white (h : IsWordOf word cs) (hc : isWhite c = true) (b : List Char) :
    IsWordOf word (cs ++ c :: b) := by
  obtain ⟨hne, hword, before, behind, rfl, hbefore, hbehind⟩ := h
  refine ⟨hne, hword, before, behind ++ c :: b, by simp, hbefore, ?_⟩
  exact hbehind.append fun _ ↦ ahead_cons.2 hc

/-- A word of a text stays one behind a white character. -/
theorem white_append (h : IsWordOf word cs) (hc : isWhite c = true) (a : List Char) :
    IsWordOf word (a ++ c :: cs) := by
  obtain ⟨hne, hword, before, behind, rfl, hbefore, hbehind⟩ := h
  refine ⟨hne, hword, a ++ c :: before, behind, by simp, ?_, hbehind⟩
  rw [List.reverse_append, List.reverse_cons, List.append_assoc]
  exact hbefore.append fun _ ↦ ahead_cons.2 hc

/-- A word is a part of its text. -/
theorem isInfix (h : IsWordOf word cs) : word <:+: cs := by
  obtain ⟨_, _, before, behind, rfl, _, _⟩ := h
  exact List.infix_append before word behind

end IsWordOf

private theorem isWordOf_of_mem_words {word cs : List Char} (h : word ∈ words cs) :
    IsWordOf word cs := by
  by_cases hwhite : ∃ c ∈ cs, isWhite c = true
  · obtain ⟨c, hmem, hc⟩ := hwhite
    obtain ⟨a, b, hcs⟩ := List.append_of_mem hmem
    have hlen : cs.length = a.length + (b.length + 1) := by rw [hcs, List.length_append]; rfl
    rw [hcs, words_append_white hc, List.mem_append] at h
    rw [hcs]
    rcases h with h | h
    · exact (isWordOf_of_mem_words h).append_white hc b
    · exact (isWordOf_of_mem_words h).white_append hc a
  · have hall : ∀ c ∈ cs, isWhite c = false := by simpa using hwhite
    by_cases hne : cs = []
    · subst hne
      cases h
    · rw [words_of_forall_not_white hne hall, List.mem_singleton] at h
      subst h
      exact ⟨hne, hall, [], [], by simp, ahead_nil, ahead_nil⟩
termination_by cs.length
decreasing_by all_goals omega

private theorem mem_words_of_isWordOf {word cs : List Char} (h : IsWordOf word cs) :
    word ∈ words cs := by
  obtain ⟨hne, hword, before, behind, rfl, hbefore, hbehind⟩ := h
  have hfirst : word ∈ words (word ++ behind) := by
    cases behind with
    | nil => simp [words_of_forall_not_white hne hword]
    | cons c b =>
      rw [words_append_white (ahead_cons.1 hbehind), words_of_forall_not_white hne hword]
      exact List.mem_append_left _ (List.mem_singleton_self word)
  rcases List.eq_nil_or_concat before with rfl | ⟨a, c, rfl⟩
  · exact hfirst
  · rw [List.concat_eq_append, List.reverse_append] at hbefore
    rw [List.concat_eq_append, List.append_assoc, List.append_assoc, List.singleton_append,
      words_append_white (ahead_cons.1 hbefore)]
    exact List.mem_append_right _ hfirst

/-- The words of a text are the runs of characters that are not white between white space. -/
theorem mem_words {word cs : List Char} : word ∈ words cs ↔ IsWordOf word cs :=
  ⟨isWordOf_of_mem_words, mem_words_of_isWordOf⟩

/-- A text occurs within another one if it is a part of it. -/
theorem occursIn_iff_infix {part cs : List Char} : occursIn part cs = true ↔ part <:+: cs := by
  induction cs with
  | nil => rw [occursIn, List.isEmpty_iff, List.infix_nil]
  | cons c cs ih =>
    rw [occursIn, Bool.or_eq_true, ih, List.isPrefixOf_iff_prefix, List.infix_cons_iff]

end DocSelect.Text

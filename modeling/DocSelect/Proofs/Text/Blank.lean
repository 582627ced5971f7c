import DocSelect.Text.Blank

/-!
# Runs of blanks, and text that lost its last space

Runs of blanks may stand between the parts of selector text and are skipped. A text that is
written ends in a space only where that closes an escape by number, so trimming takes that one
space at most. What trimming leaves is said without a look at the whole text, by `clip`, so that
readers can be followed through a text that may have lost its last space.
-/

namespace DocSelect.Text

/-- A run of blanks, which may be empty. -/
def Blanks (g : List Char) : Prop := ∀ c ∈ g, isBlank c = true

/-- Whether the next character, if there is one, has a property. -/
def Ahead (p : Char → Bool) (cs : List Char) : Prop := ∀ c ∈ cs.head?, p c = true

/-- A text, without its last character if that is a space and is to be left out. -/
def clip (k : Bool) (cs : List Char) : List Char :=
  if k && cs.getLast? == some ' ' then cs.dropLast else cs

/-- Whether a text is empty or ends with a character that is not white, with one space behind
it at most. -/
def Closed (cs : List Char) : Prop :=
  cs = [] ∨ ∃ a c, isWhite c = false ∧ (cs = a ++ [c] ∨ cs = a ++ [c, ' '])

section Blanks

/-- The empty text is blank. -/
theorem blanks_nil : Blanks [] := by simp [Blanks]

/-- A text is blank if its first character is and the rest is. -/
theorem blanks_cons {c : Char} {g : List Char} : Blanks (c :: g) ↔ isBlank c = true ∧ Blanks g :=
  List.forall_mem_cons

/-- A run of blanks is skipped. -/
theorem skipBlank_append {g : List Char} (hg : Blanks g) (cs : List Char) :
    skipBlank (g ++ cs) = skipBlank cs := by
  induction g with
  | nil => rfl
  | cons c g ih =>
    obtain ⟨hc, hg⟩ := blanks_cons.1 hg
    rw [List.cons_append, skipBlank_cons_of_blank hc, ih hg]

/-- Nothing is skipped in front of a character that is not blank. -/
theorem skipBlank_eq_self {cs : List Char} (h : Ahead (fun c ↦ !isBlank c) cs) :
    skipBlank cs = cs := by
  cases cs with
  | nil => rfl
  | cons c t =>
    have hc : (!isBlank c) = true := h c rfl
    exact skipBlank_cons_of_not_blank (by simpa using hc) t

end Blanks

section Ahead

variable {p q : Char → Bool}

/-- At the end of a text no character is in the way. -/
theorem ahead_nil : Ahead p [] := by simp [Ahead]

/-- Of a text the first character is ahead. -/
theorem ahead_cons {c : Char} {cs : List Char} : Ahead p (c :: cs) ↔ p c = true := by
  simp [Ahead]

/-- A property of the next character that follows from another. -/
theorem Ahead.mono {cs : List Char} (h : Ahead p cs) (hpq : ∀ c, p c = true → q c = true) :
    Ahead q cs := fun c hc ↦ hpq c (h c hc)

/-- The next character of a text that is not empty does not depend on what follows. -/
theorem Ahead.append {a b : List Char} (ha : Ahead p a) (hb : a = [] → Ahead p b) :
    Ahead p (a ++ b) := by
  cases a with
  | nil => exact hb rfl
  | cons c t => exact ahead_cons.2 (ahead_cons.1 ha)

/-- A property of blanks and of the character behind them. -/
theorem Ahead.behind_blanks {g cs : List Char} (hg : Blanks g) (h : Ahead p cs)
    (hp : ∀ c, isBlank c = true → p c = true) : Ahead p (g ++ cs) := by
  refine Ahead.append (fun c hc ↦ ?_) fun _ ↦ h
  exact hp c (hg c (List.mem_of_mem_head? hc))

end Ahead

section Clip

variable {k : Bool}

/-- Unless it is to be clipped a text stays as it is. -/
@[simp] theorem clip_false (cs : List Char) : clip false cs = cs := rfl

/-- Of the empty text nothing is clipped. -/
@[simp] theorem clip_nil : clip k [] = [] := by
  cases k <;> rfl

/-- What stands before the end of a text stays. -/
theorem clip_append {b : List Char} (hb : b ≠ []) (a : List Char) :
    clip k (a ++ b) = a ++ clip k b := by
  have hlast : (a ++ b).getLast? = b.getLast? := by
    rw [List.getLast?_append]
    cases hb' : b.getLast? with
    | none => exact absurd (List.getLast?_eq_none_iff.1 hb') hb
    | some c => rfl
  unfold clip
  rw [hlast]
  split
  · exact List.dropLast_append_of_ne_nil hb
  · rfl

/-- A character stays unless it is the last and a space. -/
theorem clip_cons {c : Char} {cs : List Char} (h : c ≠ ' ' ∨ cs ≠ []) :
    clip k (c :: cs) = c :: clip k cs := by
  cases cs with
  | nil =>
    have hc : c ≠ ' ' := by simpa using h
    simp [clip, hc]
  | cons c' t => exact clip_append (List.cons_ne_nil c' t) [c]

/-- Everything up to a character that is no space stays. -/
theorem clip_append_cons {c : Char} (hc : c ≠ ' ') (a cs : List Char) :
    clip k (a ++ c :: cs) = a ++ c :: clip k cs := by
  rw [clip_append (List.cons_ne_nil c cs), clip_cons (.inl hc)]

/-- A space stays in front of what stays, or it is the last of a text. -/
theorem clip_space (cs : List Char) :
    clip k (' ' :: cs) = ' ' :: clip k cs ∨ clip k (' ' :: cs) = [] ∧ clip k cs = [] := by
  cases cs with
  | nil => cases k <;> simp [clip]
  | cons c t => exact .inl (clip_cons (.inr (List.cons_ne_nil c t)))

/-- The next character stays the same if there still is one. -/
theorem Ahead.clip {p : Char → Bool} {cs : List Char} (h : Ahead p cs) :
    Ahead p (clip k cs) := by
  cases cs with
  | nil => rwa [clip_nil]
  | cons c t =>
    by_cases hc : c ≠ ' ' ∨ t ≠ []
    · rw [clip_cons hc]
      exact ahead_cons.2 (ahead_cons.1 h)
    · obtain ⟨rfl, rfl⟩ : c = ' ' ∧ t = [] := by simpa [not_or] using hc
      cases k with
      | false => exact h
      | true => exact ahead_nil

/-- It does not matter whether blanks are skipped before or after a last space is left out. -/
theorem skipBlank_clip (cs : List Char) : skipBlank (clip k cs) = clip k (skipBlank cs) := by
  induction cs with
  | nil => rw [clip_nil, skipBlank_nil, clip_nil]
  | cons c t ih =>
    by_cases hc : c ≠ ' ' ∨ t ≠ []
    · rw [clip_cons hc]
      cases hb : isBlank c with
      | true => rw [skipBlank_cons_of_blank hb, skipBlank_cons_of_blank hb, ih]
      | false =>
        rw [skipBlank_cons_of_not_blank hb, skipBlank_cons_of_not_blank hb, clip_cons hc]
    · obtain ⟨rfl, rfl⟩ : c = ' ' ∧ t = [] := by simpa [not_or] using hc
      cases k <;> rfl

end Clip

section Trim

/-- No visible character of seven bits is white. -/
theorem isWhite_eq_false {c : Char} (hfirst : 0x21 ≤ c.toNat) (hlast : c.toNat ≤ 0x7E) :
    isWhite c = false := by
  simp only [isWhite, inRanges, whiteRanges, List.any_cons, List.any_nil, Bool.or_eq_false_iff,
    Bool.and_eq_false_iff, decide_eq_false_iff_not, Bool.or_false]
  omega

/-- Trimming takes nothing from a text without white space. -/
theorem trim_eq_self {cs : List Char} (h : ∀ c ∈ cs, isWhite c = false) : trim cs = cs := by
  have keep {ds : List Char} (hds : ∀ c ∈ ds, isWhite c = false) : ds.dropWhile isWhite = ds := by
    cases ds with
    | nil => rfl
    | cons c t => simp [hds c (by simp)]
  have hback : ∀ c ∈ cs.reverse, isWhite c = false := by simpa using h
  rw [trim, keep h, keep hback, List.reverse_reverse]

/-- The empty text is closed. -/
theorem closed_nil : Closed [] := .inl rfl

/-- A text is closed by its last character. -/
theorem closed_concat {c : Char} (h : isWhite c = false) (a : List Char) :
    Closed (a ++ [c]) := .inr ⟨a, c, h, .inl rfl⟩

/-- A text is closed by a character with a space behind it. -/
theorem closed_concat_space {c : Char} (h : isWhite c = false) (a : List Char) :
    Closed (a ++ [c, ' ']) := .inr ⟨a, c, h, .inr rfl⟩

/-- A closed text that is not empty stays closed behind any other. -/
theorem Closed.behind {b : List Char} (h : Closed b) (hb : b ≠ []) (a : List Char) :
    Closed (a ++ b) := by
  rcases h with h | ⟨x, c, hc, rfl | rfl⟩
  · exact absurd h hb
  · rw [← List.append_assoc]
    exact closed_concat hc (a ++ x)
  · rw [← List.append_assoc]
    exact closed_concat_space hc (a ++ x)

/-- Two closed texts are closed together. -/
theorem Closed.append {a b : List Char} (ha : Closed a) (hb : Closed b) : Closed (a ++ b) := by
  by_cases h : b = []
  · rw [h, List.append_nil]
    exact ha
  · exact hb.behind h a

/-- Closed texts are closed together. -/
theorem closed_flatMap {α : Type} {f : α → List Char} {xs : List α}
    (h : ∀ x ∈ xs, Closed (f x)) : Closed (xs.flatMap f) := by
  induction xs with
  | nil => exact closed_nil
  | cons x xs ih =>
    obtain ⟨hx, hxs⟩ := List.forall_mem_cons.1 h
    rw [List.flatMap_cons]
    exact hx.append (ih hxs)

/-- Of a closed text that does not begin with white space, trimming takes one last space. -/
theorem Closed.trim_eq {cs : List Char} (h : Closed cs) (hs : Ahead (fun c ↦ !isWhite c) cs) :
    trim cs = clip true cs := by
  have hleft : cs.dropWhile isWhite = cs := by
    cases cs with
    | nil => rfl
    | cons c t =>
      have hc : (!isWhite c) = true := ahead_cons.1 hs
      exact List.dropWhile_cons_of_neg (by simpa using hc)
  obtain rfl | ⟨a, c, hc, rfl | rfl⟩ := h
  · rfl
  · have hne : c ≠ ' ' := by
      intro he
      rw [he] at hc
      cases hc
    have hright : ((a ++ [c]).reverse.dropWhile isWhite).reverse = a ++ [c] := by simp [hc]
    rw [trim, hleft, hright, clip_append (List.cons_ne_nil c []), clip_cons (.inl hne), clip_nil]
  · have hspace : isWhite ' ' = true := by decide
    have hright : ((a ++ [c, ' ']).reverse.dropWhile isWhite).reverse = a ++ [c] := by
      simp [hc, hspace]
    rw [trim, hleft, hright, clip_append (List.cons_ne_nil c _),
      clip_cons (.inr (List.cons_ne_nil _ _))]
    rfl

end Trim

end DocSelect.Text

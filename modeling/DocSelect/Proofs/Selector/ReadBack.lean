import DocSelect.Proofs.Selector.Spelling
import Mathlib.Data.List.Basic

/-!
# Parts of a compound read back

Each text of a well-formed part is read as the part, in front of anything that may stand behind
parts and even if the whole text has lost its last space. A pseudo-class with a selector as its
argument needs that the selector is read up to the closing parenthesis, which is left to the
induction over the syntax.
-/

namespace DocSelect

open Text (Ahead Blanks ahead_cons ahead_nil clip clip_append clip_append_cons clip_cons clip_nil
  isBlank skipBlank skipBlank_append skipBlank_clip skipBlank_eq_self)
open Lexeme (Gives endsName)
open Grammar (GivesPart)

namespace Grammar

/-- Whether a character may stand behind a part: it neither goes on with a name nor opens an
argument. -/
def endsPart (c : Char) : Bool := endsName c && c != '('

/-- Whether a character may stand behind a compound. -/
def endsCompound (c : Char) : Bool :=
  isBlank c || c == ',' || c == ')' || c == '>' || c == '+' || c == '~'

/-- Whether a character may stand behind a chain and the blanks that follow it. -/
def endsChain (c : Char) : Bool := c == ',' || c == ')'

/-- Whether a part begins with a character. -/
def marksPart (c : Char) : Bool := c == '.' || c == '#' || c == '[' || c == ':'

/-- What marks a part ends the one before. -/
theorem endsPart_of_marksPart {c : Char} (h : marksPart c = true) : endsPart c = true := by
  simp only [marksPart, Bool.or_eq_true, beq_iff_eq] at h
  rcases h with ((rfl | rfl) | rfl) | rfl <;> decide

/-- What ends a compound ends its last part. -/
theorem endsPart_of_endsCompound {c : Char} (h : endsCompound c = true) : endsPart c = true := by
  simp only [endsCompound, isBlank, Bool.or_eq_true, beq_iff_eq] at h
  rcases h with (((((((((rfl | rfl) | rfl) | rfl) | rfl) | rfl) | rfl) | rfl) | rfl) | rfl) <;>
    decide

/-- What ends a part ends a name. -/
theorem endsName_of_endsPart {c : Char} (h : endsPart c = true) : endsName c = true := by
  rw [endsPart, Bool.and_eq_true] at h
  exact h.1

variable {d : Dialect} {cs rest t : List Char} {k : Bool}

/-- A part begins with its mark. -/
theorem GivesPart.ahead {p : Part} (h : GivesPart d cs p rest) :
    cs ≠ [] ∧ Ahead marksPart cs := by
  cases h with
  | className _ => exact ⟨List.cons_ne_nil _ _, ahead_cons.2 rfl⟩
  | id _ => exact ⟨List.cons_ne_nil _ _, ahead_cons.2 rfl⟩
  | attr _ => exact ⟨List.cons_ne_nil _ _, ahead_cons.2 rfl⟩
  | pseudo _ => exact ⟨List.cons_ne_nil _ _, ahead_cons.2 rfl⟩

/-- Parts do not end where one begins. -/
theorem GivesPart.endsParts_eq_false {p : Part} (h : GivesPart d cs p rest) :
    endsParts cs = false := by
  cases h with
  | className _ => rfl
  | id _ => rfl
  | attr _ => rfl
  | pseudo _ => rfl

/-- Parts end behind a compound. -/
theorem endsParts_of_endsCompound (h : Ahead endsCompound cs) : endsParts cs = true := by
  cases cs with
  | nil => rfl
  | cons c t =>
    have hc := ahead_cons.1 h
    simp only [endsCompound, isBlank, Bool.or_eq_true, beq_iff_eq] at hc
    rcases hc with (((((((((rfl | rfl) | rfl) | rfl) | rfl) | rfl) | rfl) | rfl) | rfl) | rfl) <;>
      rfl

end Grammar

namespace Part

open Grammar

/-- A text is read as a part, in front of anything that may stand behind parts. -/
def ReadFrom (d : Dialect) (p : Part) (t : List Char) : Prop :=
  ∀ k rest, Ahead endsPart rest → GivesPart d (clip k (t ++ rest)) p (clip k rest)

/-- A text is read as some parts, one behind the other. -/
def AllReadFrom (d : Dialect) : List Part → List Char → Prop
  | [], t => t = []
  | p :: ps, t => ∃ u v, p.ReadFrom d u ∧ AllReadFrom d ps v ∧ t = u ++ v

variable {d : Dialect} {t rest : List Char} {k : Bool}

/-- The text of a part begins with a mark. -/
theorem ReadFrom.ahead {p : Part} (h : p.ReadFrom d t) : t ≠ [] ∧ Ahead marksPart t := by
  have h := (h false [] ahead_nil).ahead
  rwa [Text.clip_false, List.append_nil] at h

/-- The texts of some parts begin with a mark, if there are any. -/
theorem AllReadFrom.ahead {ps : List Part} (h : AllReadFrom d ps t) : Ahead marksPart t := by
  cases ps with
  | nil =>
    rw [show t = [] from h]
    exact ahead_nil
  | cons p ps =>
    obtain ⟨u, v, hp, _, rfl⟩ := h
    exact hp.ahead.2.append fun hu ↦ absurd hu hp.ahead.1

/-- The texts of at least one part have characters. -/
theorem AllReadFrom.ne_nil {ps : List Part} (h : AllReadFrom d ps t) (hps : ps ≠ []) : t ≠ [] := by
  cases ps with
  | nil => exact absurd rfl hps
  | cons p ps =>
    obtain ⟨u, v, hp, _, rfl⟩ := h
    exact List.append_ne_nil_of_left_ne_nil hp.ahead.1 v

/-- What stands behind a compound may stand behind parts, and so may more of them. -/
theorem AllReadFrom.endsPart_ahead {ps : List Part} (h : AllReadFrom d ps t)
    (hrest : Ahead endsCompound rest) : Ahead endsPart (t ++ rest) :=
  (h.ahead.mono fun _ ↦ endsPart_of_marksPart).append
    fun _ ↦ hrest.mono fun _ ↦ endsPart_of_endsCompound

/-- Some parts and then others are read from their texts. -/
theorem AllReadFrom.append {ps qs : List Part} {u v : List Char} (hp : AllReadFrom d ps u)
    (hq : AllReadFrom d qs v) : AllReadFrom d (ps ++ qs) (u ++ v) := by
  induction ps generalizing u with
  | nil =>
    rw [show u = [] from hp]
    exact hq
  | cons p ps ih =>
    obtain ⟨x, y, hx, hy, rfl⟩ := hp
    exact ⟨x, y ++ v, hx, ih hy, List.append_assoc x y v⟩

/-- Parts are read from their texts behind a compound. -/
theorem AllReadFrom.gives {ps : List Part} (h : AllReadFrom d ps t)
    (hrest : Ahead endsCompound rest) :
    Gives (parts d (clip k (t ++ rest))) ps (clip k rest) := by
  induction ps generalizing t with
  | nil =>
    rw [show t = [] from h]
    exact (gives_parts_stop (endsParts_of_endsCompound hrest.clip)).2 ⟨rfl, rfl⟩
  | cons p ps ih =>
    obtain ⟨u, v, hp, hps, rfl⟩ := h
    have hpart := hp k (v ++ rest) (hps.endsPart_ahead hrest)
    rw [List.append_assoc]
    exact (gives_parts_cons hpart.endsParts_eq_false).2 ⟨p, _, hpart, ps, ih hps, rfl⟩

/-- An identifier is read behind its mark. -/
theorem id_readFrom {s : String} (hs : s ≠ "") :
    (Part.id s).ReadFrom d ('#' :: Spelling.name s) := by
  intro k rest hrest
  rw [List.cons_append, clip_cons (.inl (by decide))]
  exact .id (Lexeme.gives_requiredName_spell (hrest.mono fun _ ↦ endsName_of_endsPart) hs)

/-- A class is read behind its mark. -/
theorem className_readFrom {s : String} (hs : s ≠ "") :
    (Part.className s).ReadFrom d ('.' :: Spelling.name s) := by
  intro k rest hrest
  rw [List.cons_append, clip_cons (.inl (by decide))]
  exact .className (Lexeme.gives_requiredName_spell (hrest.mono fun _ ↦ endsName_of_endsPart) hs)

/-- An identifier is read from its text if there is one. -/
theorem allReadFrom_id {id : Option String} (h : ∀ s ∈ id, s ≠ "") :
    AllReadFrom d (id.toList.map .id) (id.elim [] ('#' :: Spelling.name ·)) := by
  cases id with
  | none => rfl
  | some s => exact ⟨_, [], id_readFrom (h s rfl), rfl, (List.append_nil _).symm⟩

/-- Classes are read from their texts. -/
theorem allReadFrom_classes {classes : List String} (h : ∀ s ∈ classes, s ≠ "") :
    AllReadFrom d (classes.map .className) (classes.flatMap ('.' :: Spelling.name ·)) := by
  induction classes with
  | nil => rfl
  | cons s classes ih =>
    obtain ⟨hs, hclasses⟩ := List.forall_mem_cons.1 h
    exact ⟨_, _, className_readFrom hs, ih hclasses, List.flatMap_cons⟩

end Part

namespace Grammar

variable {d : Dialect} {g : List Char}

/-- A blank ends a name. -/
theorem endsName_of_isBlank (c : Char) (h : isBlank c = true) : endsName c = true := by
  simp only [isBlank, Bool.or_eq_true, beq_iff_eq] at h
  rcases h with (((rfl | rfl) | rfl) | rfl) | rfl <;> decide

/-- The expected side of a comparison reads back up to the blanks behind it. -/
theorem gives_operand_spell {v : Operand} (hv : v.WellFormed d) (hg : Blanks g) (t : List Char) :
    Gives (operand d (Spelling.operand v ++ (g ++ ']' :: t))) v (g ++ ']' :: t) := by
  match v, hv with
  | .text s, _ =>
    rw [Spelling.operand, Spelling.string, List.append_assoc]
    exact gives_operand.2 (.inl ⟨'"', _, s, .inl rfl, rfl, Lexeme.gives_string_spell s, rfl⟩)
  | .variable s, hv =>
    have hahead : Ahead endsName (g ++ ']' :: t) :=
      (ahead_cons.2 rfl).behind_blanks hg endsName_of_isBlank
    refine gives_operand.2 (.inr (.inl ⟨_, s, rfl, hv.1, ?_, rfl⟩))
    exact Lexeme.gives_requiredName_spell (k := false) hahead hv.2

/-- An attribute test reads back from behind its bracket. -/
theorem gives_attributeTest_spell {v : AttributeTest} {g' u : List Char} (hv : v.WellFormed d)
    (hg : Blanks g) (hg' : Blanks g') (hu : AttributeTest.ComparedBy v.comparison u)
    (t : List Char) :
    Gives (attributeTest d (g ++ (Spelling.name v.name ++ (u ++ (g' ++ ']' :: t))))) v t := by
  obtain ⟨name, comparison⟩ := v
  have hclose : Ahead endsName (g' ++ ']' :: t) :=
    (ahead_cons.2 rfl).behind_blanks hg' endsName_of_isBlank
  have hskip : skipBlank (g' ++ ']' :: t) = ']' :: t := by
    rw [skipBlank_append hg']
    rfl
  have hname : Ahead endsName (u ++ (g' ++ ']' :: t)) →
      Gives (Lexeme.requiredName '[' (skipBlank (g ++ (Spelling.name name ++
        (u ++ (g' ++ ']' :: t)))))) name (u ++ (g' ++ ']' :: t)) := by
    intro hahead
    rw [skipBlank_append hg, skipBlank_eq_self]
    · exact Lexeme.gives_requiredName_spell (k := false) hahead hv.1
    · exact (Lexeme.ahead_name_not_blank name).append
        fun h ↦ absurd h (Lexeme.name_ne_nil hv.1)
  cases comparison with
  | none =>
    obtain rfl : u = [] := hu
    exact gives_attributeTest.2 ⟨name, _, hname hclose, .inl ⟨hskip, rfl⟩⟩
  | some c =>
    obtain ⟨op, value⟩ := c
    obtain ⟨g₁, g₂, hg₁, hg₂, rfl⟩ := hu
    obtain ⟨hop, hvalue⟩ := hv.2 _ rfl
    have hmark (r : List Char) : Ahead endsName (op.mark?.toList ++ '=' :: r) ∧
        skipBlank (op.mark?.toList ++ '=' :: r) = op.mark?.toList ++ '=' :: r := by
      cases op <;> exact ⟨ahead_cons.2 rfl, rfl⟩
    have hquote : skipBlank (g₂ ++ (Spelling.operand value ++ (g' ++ ']' :: t)))
        = Spelling.operand value ++ (g' ++ ']' :: t) := by
      rw [skipBlank_append hg₂]
      cases value <;> rfl
    simp only [List.append_assoc, List.cons_append] at hname ⊢
    refine gives_attributeTest.2 ⟨name, _, hname ?_, 
      .inr ⟨op, g₂ ++ (Spelling.operand value ++ (g' ++ ']' :: t)), value, _, ?_, ?_, hskip, rfl⟩⟩
    · exact (hmark _).1.behind_blanks hg₁ endsName_of_isBlank
    · rw [skipBlank_append hg₁, (hmark _).2]
      exact gives_comparisonMark.2 ⟨rfl, hop⟩
    · rw [hquote]
      exact gives_operand_spell hvalue hg' t

end Grammar

/-- An attribute test is read from each of its texts. -/
theorem AttributeTest.readFrom {d : Dialect} {v : AttributeTest} {t : List Char}
    (hv : v.WellFormed d) (ht : v.SpelledBy t) : (Part.attr v).ReadFrom d t := by
  obtain ⟨g, g', u, hg, hg', hu, rfl⟩ := ht
  intro k rest _
  have hclip : clip k ('[' :: (g ++ (Spelling.name v.name ++ (u ++ (g' ++ [']'])))) ++ rest)
      = '[' :: (g ++ (Spelling.name v.name ++ (u ++ (g' ++ ']' :: clip k rest)))) := by
    have h := clip_append_cons (k := k) (by decide : ']' ≠ ' ')
      ('[' :: (g ++ (Spelling.name v.name ++ (u ++ g')))) rest
    simpa using h
  rw [hclip]
  exact .attr (Grammar.gives_attributeTest_spell hv hg hg' hu (clip k rest))

/-- Attribute tests are read from each of their texts. -/
theorem AttributeTest.allReadFrom {d : Dialect} {vs : List AttributeTest} {t : List Char}
    (hvs : ∀ v ∈ vs, v.WellFormed d) (ht : AttributeTest.AllSpelledBy vs t) :
    Part.AllReadFrom d (vs.map .attr) t := by
  induction vs generalizing t with
  | nil => exact ht
  | cons v vs ih =>
    obtain ⟨hv, hvs⟩ := List.forall_mem_cons.1 hvs
    obtain ⟨u, w, hu, hw, rfl⟩ := ht
    exact ⟨u, w, readFrom hv hu, ih hvs hw, rfl⟩

namespace Grammar

variable {d : Dialect} {kind : ArgumentKind} {inner g g' : List Char}

/-- Whether a raw argument may begin with a character. -/
def startsPlain (c : Char) : Bool := !isBlank c && c != '"' && c != '\'' && c != '$'

/-- No text of a name is taken for a string or a variable. -/
theorem startsPlain_of_startsName (c : Char)
    (h : (Lexeme.isNameStart c || c == '\\') = true) : startsPlain c = true := by
  rcases Bool.or_eq_true_iff.1 h with h | h
  · have hblank := Lexeme.isBlank_of_isNameChar (Lexeme.isNameChar_of_isNameStart h)
    have hne (q : Char) (hq : Lexeme.isNameStart q = false) : (c != q) = true := by
      rw [bne_iff_ne]
      rintro rfl
      rw [h] at hq
      cases hq
    rw [startsPlain, hblank, hne '"' (by decide), hne '\'' (by decide), hne '$' (by decide)]
    rfl
  · rw [eq_of_beq h]
    rfl

/-- Neither a string nor a variable begins with any character but their marks. -/
theorem startsRaw_of_ahead {cs : List Char}
    (h : Ahead (fun c ↦ c != '"' && c != '\'' && c != '$') cs) : startsRaw d cs = true := by
  cases cs with
  | nil => rfl
  | cons c t =>
    have hc := ahead_cons.1 h
    simp only [Bool.and_eq_true, bne_iff_ne, ne_eq] at hc
    simp [startsRaw, hc]

/-- A raw argument reads back without the blanks around it. -/
theorem gives_plainArgument_raw {s : String} (hstart : Ahead startsPlain inner)
    (hread : ∀ g, Blanks g → ∀ t,
      Gives (Lexeme.rawArgument (inner ++ (g ++ ')' :: t))) s (')' :: t))
    (hg : Blanks g) (hg' : Blanks g') (t : List Char) :
    Gives (plainArgument d kind (skipBlank (g ++ (inner ++ (g' ++ ')' :: t))))) (plain kind s)
      (')' :: t) := by
  obtain ⟨g'', hg'', hskip⟩ : ∃ g'', Blanks g'' ∧
      skipBlank (g ++ (inner ++ (g' ++ ')' :: t))) = inner ++ (g'' ++ ')' :: t) := by
    rw [skipBlank_append hg]
    cases inner with
    | nil =>
      refine ⟨[], Text.blanks_nil, ?_⟩
      rw [List.nil_append, skipBlank_append hg']
      rfl
    | cons c u =>
      refine ⟨g', hg', skipBlank_eq_self (ahead_cons.2 ?_)⟩
      have hc := ahead_cons.1 hstart
      simp only [startsPlain, Bool.and_eq_true] at hc
      exact hc.1.1.1
  have hraw : startsRaw d (inner ++ (g'' ++ ')' :: t)) = true := by
    have hclose : Ahead (fun c ↦ c != '"' && c != '\'' && c != '$') (g'' ++ ')' :: t) := by
      refine (ahead_cons.2 rfl).behind_blanks hg'' fun c hc ↦ ?_
      simp only [isBlank, Bool.or_eq_true, beq_iff_eq] at hc
      rcases hc with (((rfl | rfl) | rfl) | rfl) | rfl <;> decide
    refine startsRaw_of_ahead ((hstart.mono fun c hc ↦ ?_).append fun _ ↦ hclose)
    simp only [startsPlain, Bool.and_eq_true] at hc ⊢
    exact ⟨⟨hc.1.1.2, hc.1.2⟩, hc.2⟩
  rw [hskip]
  exact gives_plainArgument.2 (.inr (.inr ⟨hraw, s, hread g'' hg'' t, rfl⟩))

/-- A variable as an argument reads back up to the blanks behind it. -/
theorem gives_plainArgument_variable {s : String} (hd : d.allowsVariables = true) (hs : s ≠ "")
    (hg : Blanks g) (hg' : Blanks g') (t : List Char) :
    Gives (plainArgument d kind (skipBlank (g ++ ('$' :: Spelling.name s ++ (g' ++ ')' :: t)))))
      (.variable s) (g' ++ ')' :: t) := by
  have hahead : Ahead endsName (g' ++ ')' :: t) :=
    (ahead_cons.2 rfl).behind_blanks hg' endsName_of_isBlank
  have hskip : skipBlank (g ++ ('$' :: Spelling.name s ++ (g' ++ ')' :: t)))
      = '$' :: (Spelling.name s ++ (g' ++ ')' :: t)) := by
    rw [skipBlank_append hg]
    rfl
  rw [hskip]
  refine gives_plainArgument.2 (.inr (.inl ⟨_, s, rfl, hd, ?_, rfl⟩))
  exact Lexeme.gives_requiredName_spell (k := false) hahead hs

/-- A text written as a name reads back as a raw argument. -/
theorem gives_plainArgument_name (s : String) (hg : Blanks g) (hg' : Blanks g') (t : List Char) :
    Gives (plainArgument d kind (skipBlank (g ++ (Spelling.name s ++ (g' ++ ')' :: t)))))
      (plain kind s) (')' :: t) := by
  refine gives_plainArgument_raw ?_ ?_ hg hg' t
  · exact (Lexeme.ahead_name s).mono startsPlain_of_startsName
  · intro g hg t
    exact Lexeme.gives_rawArgument_name hg s t

/-- A text that is safe to write reads back as it stands. -/
theorem gives_plainArgument_safe {s : String} (hs : Spelling.isRawSafe s.toList = true)
    (hg : Blanks g) (hg' : Blanks g') (t : List Char) :
    Gives (plainArgument d kind (skipBlank (g ++ (s.toList ++ (g' ++ ')' :: t))))) (plain kind s)
      (')' :: t) := by
  refine gives_plainArgument_raw ?_ ?_ hg hg' t
  · intro c hc
    simp only [Spelling.isRawSafe, Bool.and_eq_true, Bool.not_eq_true', Option.any_eq_false] at hs
    obtain ⟨⟨⟨⟨hblank, _⟩, hquote⟩, _⟩, _⟩ := hs
    have hblank := hblank c hc
    have hquote := hquote c hc
    simp only [Bool.or_eq_false_iff, beq_eq_false_iff_ne] at hquote
    simp [startsPlain, hblank, hquote]
  · intro g hg t
    exact Lexeme.gives_rawArgument_safe hg hs t

end Grammar

/-- An opening parenthesis ends a name. -/
theorem Argument.Encloses.ahead {inner u rest : List Char} (h : Argument.Encloses inner u) :
    Ahead endsName (u ++ rest) := by
  obtain ⟨g, g', _, _, rfl⟩ := h
  exact ahead_cons.2 rfl

namespace PseudoClass

variable {d : Dialect} {name : String} {u inner : List Char}

/-- What stands between parentheses stays there, whatever comes behind. -/
theorem clip_encloses (h : Argument.Encloses inner u) : ∃ g g', Blanks g ∧ Blanks g' ∧
    ∀ k rest, clip k (u ++ rest) = '(' :: (g ++ (inner ++ (g' ++ ')' :: clip k rest))) := by
  obtain ⟨g, g', hg, hg', rfl⟩ := h
  refine ⟨g, g', hg, hg', fun k rest ↦ ?_⟩
  have h := clip_append_cons (k := k) (by decide : ')' ≠ ' ') ('(' :: (g ++ (inner ++ g'))) rest
  simpa using h

/-- The name of a pseudo-class reads back in front of what ends a name. -/
theorem gives_name (hname : name ≠ "") (k : Bool) {t : List Char} (ht : Ahead endsName t) :
    Gives (Lexeme.requiredName ':' (clip k (Spelling.name name ++ t))) name (clip k t) :=
  Lexeme.gives_requiredName_spell ht hname

/-- A pseudo-class without parentheses is read from its text. -/
theorem readFrom_none (hname : name ≠ "") :
    (Part.pseudo ⟨name, .none⟩).ReadFrom d (':' :: Spelling.name name) := by
  intro k rest hrest
  rw [List.cons_append, clip_cons (.inl (by decide))]
  apply GivesPart.pseudo
  refine Grammar.gives_pseudoClass.2 ⟨name, clip k rest,
    gives_name hname k (hrest.mono fun _ ↦ Grammar.endsName_of_endsPart), .inl ⟨?_, rfl, rfl⟩⟩
  intro hopen
  have h := hrest.clip (k := k) '(' hopen
  cases h

/-- A pseudo-class is read from its text if its plain argument is. -/
theorem readFrom_plain {a : Argument} (hname : name ≠ "") (hkind : d.argumentKind name ≠ .selector)
    (hu : Argument.Encloses inner u)
    (hread : ∀ g g' t, Blanks g → Blanks g' → ∃ r,
      Gives (Grammar.plainArgument d (d.argumentKind name)
        (skipBlank (g ++ (inner ++ (g' ++ ')' :: t))))) a r ∧ skipBlank r = ')' :: t) :
    (Part.pseudo ⟨name, a⟩).ReadFrom d (':' :: (Spelling.name name ++ u)) := by
  obtain ⟨g, g', hg, hg', hclip⟩ := clip_encloses hu
  intro k rest _
  obtain ⟨r, ha, hr⟩ := hread g g' (clip k rest) hg hg'
  rw [List.cons_append, List.append_assoc, clip_cons (.inl (by decide))]
  apply GivesPart.pseudo
  refine Grammar.gives_pseudoClass.2 ⟨name, clip k (u ++ rest),
    gives_name hname k hu.ahead, .inr (.inr ⟨_, a, r, hclip k rest, hkind, ha, hr, rfl⟩)⟩

/-- A pseudo-class is read from its text if the selector that is its argument is. -/
theorem readFrom_selector {s : Selector} (hname : name ≠ "")
    (hkind : d.argumentKind name = .selector) (hs : Selector.ofChains s.chains = s)
    (hu : Argument.Encloses inner u)
    (hread : ∀ g g' t, Blanks g → Blanks g' →
      Gives (Grammar.chains d (skipBlank (g ++ (inner ++ (g' ++ ')' :: t))))) s.chains (')' :: t)) :
    (Part.pseudo ⟨name, .selector s⟩).ReadFrom d (':' :: (Spelling.name name ++ u)) := by
  obtain ⟨g, g', hg, hg', hclip⟩ := clip_encloses hu
  intro k rest _
  rw [List.cons_append, List.append_assoc, clip_cons (.inl (by decide))]
  apply GivesPart.pseudo
  refine Grammar.gives_pseudoClass.2 ⟨name, clip k (u ++ rest),
    gives_name hname k hu.ahead, .inr (.inl ⟨_, s.chains, hclip k rest, hkind, ?_, ?_⟩)⟩
  · exact hread g g' (clip k rest) hg hg'
  · rw [hs]

/-- A pseudo-class without a selector as its argument is read from each of its texts. -/
theorem readFrom_simple {a : Argument} (h : PseudoClass.WellFormed d ⟨name, a⟩)
    (ha : ∀ s, a ≠ .selector s) (hu : a.SpelledBy u) :
    (Part.pseudo ⟨name, a⟩).ReadFrom d (':' :: (Spelling.name name ++ u)) := by
  obtain ⟨hname, hkind⟩ := h
  match a, hkind, hu with
  | .none, _, hu =>
    obtain rfl : u = [] := hu
    rw [List.append_nil]
    exact readFrom_none hname
  | .text s, hkind, hu =>
    have hkind : d.argumentKind name = .text := hkind
    refine readFrom_plain hname (by simp [hkind]) hu fun g g' t hg hg' ↦ ⟨')' :: t, ?_, rfl⟩
    rw [hkind]
    exact Grammar.gives_plainArgument_name s hg hg' t
  | .formula s, hkind, hu =>
    have hkind : d.argumentKind name = .formula := hkind
    rcases hu with hu | ⟨hsafe, hu⟩
    · refine readFrom_plain hname (by simp [hkind]) hu fun g g' t hg hg' ↦ ⟨')' :: t, ?_, rfl⟩
      rw [hkind]
      exact Grammar.gives_plainArgument_name s hg hg' t
    · refine readFrom_plain hname (by simp [hkind]) hu fun g g' t hg hg' ↦ ⟨')' :: t, ?_, rfl⟩
      rw [hkind]
      exact Grammar.gives_plainArgument_safe hsafe hg hg' t
  | .variable s, hkind, hu =>
    obtain ⟨hkind, hd, hs⟩ := hkind
    refine readFrom_plain hname hkind hu fun g g' t hg hg' ↦ ⟨g' ++ ')' :: t, ?_, ?_⟩
    · exact Grammar.gives_plainArgument_variable hd hs hg hg' t
    · rw [skipBlank_append hg']
      rfl
  | .selector s, _, _ => exact absurd rfl (ha s)

end PseudoClass

namespace Compound

variable {d : Dialect} {t : List Char}

/-- The parts of a compound, in the order of its texts. -/
def parts (c : Compound) : List Part :=
  c.id.toList.map .id ++ (c.classes.map .className ++ (c.attributes.map .attr
    ++ c.pseudos.map .pseudo))

/-- A compound is that of its type and its parts. -/
theorem ofParts_parts (c : Compound) :
    ofParts c.type c.parts = { c with combinator := none } := by
  obtain ⟨type, id, classes, attributes, pseudos, combinator⟩ := c
  cases id <;> simp [ofParts, parts, List.filterMap_cons, Part.id?, Part.class?, Part.attribute?,
    Part.pseudo?, Function.comp_def]

end Compound

end DocSelect

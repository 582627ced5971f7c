import DocSelect.Proofs.Selector.ReadBack

/-!
# Parsing undoes rendering

From its parts a compound is read back in front of what may stand behind it, and links, chains
and alternatives follow, each in front of the next. Selectors as arguments make all this one
induction over the syntax. A rendered selector is its plain spelling without a last space, and
that space, if there was one, only closed an escape. Hence parsing undoes rendering, and blanks
between the parts of a text never change what it is parsed as.
-/

namespace DocSelect

open Text (Ahead Blanks Closed ahead_cons ahead_nil clip clip_append clip_cons clip_nil isBlank
  skipBlank skipBlank_append skipBlank_clip skipBlank_eq_self)
open Lexeme (Gives endsName)

namespace Grammar

variable {k : Bool} {cs t rest : List Char}

/-- Whether a character may stand behind a selector and the blanks that follow it. -/
def endsSelector (c : Char) : Bool := c == ')'

private theorem endsChain_of_endsSelector {c : Char} (h : endsSelector c = true) :
    endsChain c = true := by
  rw [eq_of_beq h]
  rfl

/-- A compound begins with a character that is not white. -/
theorem ahead_of_startsCompound (h : startsCompound cs = true) :
    cs ≠ [] ∧ Ahead (fun c ↦ !Text.isWhite c) cs := by
  cases cs with
  | nil => cases h
  | cons c t =>
    refine ⟨List.cons_ne_nil c t, ahead_cons.2 ?_⟩
    simp only [startsCompound, Bool.or_eq_true, beq_iff_eq] at h
    rcases h with (((((rfl | h) | rfl) | rfl) | rfl) | rfl) | rfl
    · decide
    · rw [Lexeme.isWhite_of_isNameChar (Lexeme.isNameChar_of_isNameStart h)]
      rfl
    all_goals decide

/-- A compound begins with a character that is not blank. -/
theorem ahead_not_isBlank (h : startsCompound cs = true) : Ahead (fun c ↦ !isBlank c) cs := by
  refine (ahead_of_startsCompound h).2.mono fun c hc ↦ ?_
  cases hb : isBlank c with
  | false => rfl
  | true =>
    rw [Text.isWhite_of_isBlank hb] at hc
    cases hc

/-- Where a compound begins, it still does with anything behind it. -/
theorem startsCompound_append (h : startsCompound cs = true) (rest : List Char) :
    startsCompound (cs ++ rest) = true := by
  cases cs with
  | nil => cases h
  | cons c t => exact h

/-- A text that may have lost its last space still begins with a compound. -/
theorem startsCompound_clip (h : startsCompound cs = true) : startsCompound (clip k cs) = true := by
  cases cs with
  | nil => cases h
  | cons c t =>
    have hc : c ≠ ' ' := by
      rintro rfl
      cases h
    rw [clip_cons (.inl hc)]
    exact h

/-- A compound begins behind the blanks in front of it. -/
theorem skipBlank_clip_compound {g : List Char} (hg : Blanks g) (h : startsCompound cs = true) :
    skipBlank (clip k (g ++ cs)) = clip k cs := by
  rw [skipBlank_clip, skipBlank_append hg, skipBlank_eq_self (ahead_not_isBlank h)]

/-- Behind blanks stands what follows a chain, or blanks do. -/
theorem endsCompound_of_skipBlank (h : Ahead endsChain (skipBlank rest)) :
    Ahead endsCompound rest := by
  cases rest with
  | nil => exact ahead_nil
  | cons c t =>
    apply ahead_cons.2
    cases hb : isBlank c with
    | true => simp [endsCompound, hb]
    | false =>
      rw [Text.skipBlank_cons_of_not_blank hb] at h
      have hc := ahead_cons.1 h
      simp only [endsChain, Bool.or_eq_true, beq_iff_eq] at hc
      rcases hc with rfl | rfl <;> rfl

/-- No compound begins and no combinator stands where a chain ends. -/
theorem stops_of_endsChain (h : Ahead endsChain cs) :
    startsCompound cs = false ∧ cs.head?.bind Combinator.ofMark? = none := by
  cases cs with
  | nil => exact ⟨rfl, rfl⟩
  | cons c t =>
    have hc := ahead_cons.1 h
    simp only [endsChain, Bool.or_eq_true, beq_iff_eq] at hc
    rcases hc with rfl | rfl <;> exact ⟨rfl, rfl⟩

/-- Where a type test by name begins, a compound does. -/
theorem startsCompound_of_startsName (h : startsName cs = true) : startsCompound cs = true := by
  cases cs with
  | nil => cases h
  | cons c t =>
    have hc : (Lexeme.isNameStart c || decide (c = '\\')) = true := h
    rcases Bool.or_eq_true_iff.1 hc with hc | hc
    · simp [startsCompound, hc]
    · rw [of_decide_eq_true hc]
      rfl

/-- A written name is where a type test by name begins. -/
theorem startsName_name {s : String} (hs : s ≠ "") :
    startsName (clip k (Spelling.name s ++ rest)) = true := by
  have hahead := Lexeme.ahead_name s
  cases hname : Spelling.name s with
  | nil => exact absurd hname (Lexeme.name_ne_nil hs)
  | cons c t =>
    rw [hname] at hahead
    have hc := ahead_cons.1 hahead
    have hspace : c ≠ ' ' := by
      rintro rfl
      cases hc
    rw [List.cons_append, clip_cons (.inl hspace)]
    simpa [startsName] using hc

/-- A type test, if there is one, reads back in front of the rest of a compound. -/
theorem gives_typeTest_spell {type : Option TypeTest} (htype : ∀ v ∈ type, v.WellFormed)
    (hrest : Ahead (fun c ↦ marksPart c || endsCompound c) rest) :
    Gives (typeTest (clip k (type.elim [] Spelling.typeTest ++ rest))) type (clip k rest) := by
  match type, htype with
  | none, _ =>
    refine gives_typeTest.2 (.inr (.inr ?_))
    rw [Option.elim_none, List.nil_append]
    have hclip := hrest.clip (k := k)
    cases hcs : clip k rest with
    | nil => exact ⟨by simp, rfl, rfl, rfl⟩
    | cons c t =>
      rw [hcs] at hclip
      have hc := ahead_cons.1 hclip
      simp only [marksPart, endsCompound, isBlank, Bool.or_eq_true, beq_iff_eq] at hc
      refine ⟨?_, ?_, rfl, rfl⟩
      · rintro hstar
        obtain rfl := Option.some.inj hstar
        simp at hc
      · rcases hc with (((rfl | rfl) | rfl) | rfl) |
          (((((((((rfl | rfl) | rfl) | rfl) | rfl) | rfl) | rfl) | rfl) | rfl) | rfl) <;> rfl
  | some .any, _ =>
    refine gives_typeTest.2 (.inl ⟨?_, rfl⟩)
    exact clip_cons (.inl (by decide))
  | some (.named s), htype =>
    have hends : Ahead endsName rest := by
      refine hrest.mono fun c hc ↦ endsName_of_endsPart ?_
      rcases Bool.or_eq_true_iff.1 hc with hc | hc
      · exact endsPart_of_marksPart hc
      · exact endsPart_of_endsCompound hc
    refine gives_typeTest.2 (.inr (.inl ⟨startsName_name (htype _ rfl), s.toList, ?_, ?_⟩))
    · exact Lexeme.gives_name_spell hends s
    · rw [String.ofList_toList]

end Grammar

open Grammar

namespace Compound

variable {d : Dialect}

/-- A text is read as a compound, in front of anything that may stand behind compounds. -/
def ReadFrom (d : Dialect) (c : Compound) (t : List Char) : Prop :=
  startsCompound t = true ∧ ∀ k rest, Ahead endsCompound rest →
    Gives (compound d (clip k (t ++ rest))) { c with combinator := none } (clip k rest)

/-- A compound with the combinator that it has. -/
theorem withCombinator_eq {op : Option Combinator} (c : Compound) (h : c.combinator = op) :
    { c with combinator := op } = c := by
  cases c
  rw [← h]

/-- A compound that is not blank has a type test or parts. -/
theorem parts_ne_nil {c : Compound} (h : c.isBlank = false) (htype : c.type = none) :
    c.parts ≠ [] := by
  intro hparts
  simp only [parts, List.append_eq_nil_iff, List.map_eq_nil_iff, Option.toList_eq_nil_iff] at hparts
  simp [isBlank, htype, hparts] at h

/-- A compound is read from its type test and its parts. -/
theorem readFrom_parts {c : Compound} {v : List Char} (hblank : c.isBlank = false)
    (htype : ∀ t ∈ c.type, t.WellFormed) (hv : Part.AllReadFrom d c.parts v) :
    c.ReadFrom d (c.type.elim [] Spelling.typeTest ++ v) := by
  constructor
  · match htest : c.type with
    | none =>
      have hahead := hv.ahead
      cases v with
      | nil => exact absurd rfl (hv.ne_nil (parts_ne_nil hblank htest))
      | cons x v =>
        have hx := ahead_cons.1 hahead
        simp only [marksPart, Bool.or_eq_true, beq_iff_eq] at hx
        rcases hx with ((rfl | rfl) | rfl) | rfl <;> rfl
    | some .any => rfl
    | some (.named s) =>
      exact startsCompound_of_startsName (startsName_name (k := false) (htype _ htest))
  · intro k rest hrest
    rw [List.append_assoc, ← ofParts_parts]
    refine gives_compound.2 ⟨c.type, clip k (v ++ rest), c.parts, ?_, hv.gives hrest, rfl⟩
    refine gives_typeTest_spell htype ?_
    refine (hv.ahead.mono fun x hx ↦ ?_).append fun _ ↦ hrest.mono fun x hx ↦ ?_
    · rw [hx, Bool.true_or]
    · rw [hx, Bool.or_true]

end Compound

namespace Selector

variable {d : Dialect} {u v g : List Char}

/-- A text is read as some links, in front of anything that may stand behind a chain. -/
def LinksReadFrom (d : Dialect) (links : List Compound) (t : List Char) : Prop :=
  ∀ k rest, Ahead endsChain (skipBlank rest) → Ahead endsCompound (t ++ rest) ∧
    Gives (Grammar.links d (clip k (t ++ rest))) links (clip k (skipBlank rest))

/-- A text is read as a chain, in front of anything that may stand behind chains. -/
def ChainReadFrom (d : Dialect) (c : Chain Compound) (t : List Char) : Prop :=
  startsCompound t = true ∧ ∀ k rest, Ahead endsChain (skipBlank rest) →
    Gives (Grammar.chain d (clip k (t ++ rest))) c (clip k (skipBlank rest))

/-- A text is read as more alternatives, in front of anything that may stand behind selectors. -/
def MoreReadFrom (d : Dialect) (cs : List (Chain Compound)) (t : List Char) : Prop :=
  ∀ k rest, Ahead endsSelector (skipBlank rest) → Ahead endsChain (skipBlank (t ++ rest)) ∧
    Gives (moreChains d (clip k (skipBlank (t ++ rest)))) cs (clip k (skipBlank rest))

/-- A text is read as some alternatives, behind blanks and in front of anything that may stand
behind selectors. -/
def ChainsReadFrom (d : Dialect) (cs : List (Chain Compound)) (t : List Char) : Prop :=
  ∀ k g rest, Blanks g → Ahead endsSelector (skipBlank rest) →
    Gives (Grammar.chains d (clip k (g ++ (t ++ rest)))) cs (clip k (skipBlank rest))

/-- No links are read from no text. -/
theorem linksReadFrom_nil : LinksReadFrom d [] [] := by
  intro k rest hrest
  obtain ⟨hstart, hmark⟩ := stops_of_endsChain (hrest.clip (k := k))
  rw [← skipBlank_clip] at hstart hmark
  refine ⟨endsCompound_of_skipBlank hrest, (gives_links_stop hstart hmark).2 ⟨rfl, ?_⟩⟩
  rw [skipBlank_clip]

/-- A link is read behind blanks. -/
theorem linksReadFrom_blank {c : Compound} {links : List Compound}
    (hop : c.combinator = some .descendant) (hg : Blanks g) (hne : g ≠ [])
    (hc : c.ReadFrom d u) (hlinks : LinksReadFrom d links v) :
    LinksReadFrom d (c :: links) (g ++ (u ++ v)) := by
  intro k rest hrest
  obtain ⟨hahead, hmore⟩ := hlinks k rest hrest
  have hstart : startsCompound (u ++ (v ++ rest)) = true := startsCompound_append hc.1 _
  have hcompound := hc.2 k (v ++ rest) hahead
  have hskip := skipBlank_clip_compound (k := k) hg hstart
  have hclip := startsCompound_clip (k := k) hstart
  rw [List.append_assoc, List.append_assoc]
  refine ⟨?_, ?_⟩
  · refine Ahead.append (fun x hx ↦ ?_) fun h ↦ absurd h hne
    rw [endsCompound, hg x (List.mem_of_mem_head? hx)]
    rfl
  · have hlt : (clip k (u ++ (v ++ rest))).length < (clip k (g ++ (u ++ (v ++ rest)))).length := by
      rw [clip_append (ahead_of_startsCompound hstart).1, List.length_append]
      have hpos := List.length_pos_iff.2 hne
      omega
    cases hcs : clip k (u ++ (v ++ rest)) with
    | nil =>
      rw [hcs] at hclip
      cases hclip
    | cons x t =>
      rw [hcs] at hskip hclip hcompound hlt
      refine (gives_links_blank hskip hclip).2 ⟨hlt, _, _, hcompound, links, hmore, ?_⟩
      rw [c.withCombinator_eq hop]

/-- A link is read behind the mark of its combinator and the blanks around that. -/
theorem linksReadFrom_mark {c : Compound} {op : Combinator} {links : List Compound} {m : Char}
    {g' : List Char} (hop : c.combinator = some op) (hmark : op.mark? = some m)
    (hallowed : d.allowsCombinator op = true) (hg : Blanks g) (hg' : Blanks g')
    (hc : c.ReadFrom d u) (hlinks : LinksReadFrom d links v) :
    LinksReadFrom d (c :: links) (g ++ m :: (g' ++ (u ++ v))) := by
  intro k rest hrest
  obtain ⟨hahead, hmore⟩ := hlinks k rest hrest
  have hstart : startsCompound (u ++ (v ++ rest)) = true := startsCompound_append hc.1 _
  have hcompound := hc.2 k (v ++ rest) hahead
  have hm : endsCompound m = true ∧ isBlank m = false ∧ m ≠ ' ' := by
    cases op <;> cases hmark <;> decide
  have hskip : skipBlank (clip k (g ++ m :: (g' ++ (u ++ (v ++ rest)))))
      = m :: clip k (g' ++ (u ++ (v ++ rest))) := by
    rw [skipBlank_clip, skipBlank_append hg, Text.skipBlank_cons_of_not_blank hm.2.1,
      clip_cons (.inl hm.2.2)]
  rw [List.append_assoc, List.cons_append, List.append_assoc, List.append_assoc]
  refine ⟨?_, (gives_links_mark hskip (Combinator.ofMark?_eq_some.2 hmark)).2 ?_⟩
  · refine (ahead_cons.2 hm.1).behind_blanks hg fun x hx ↦ ?_
    rw [endsCompound, hx]
    rfl
  · rw [skipBlank_clip_compound hg' hstart]
    refine ⟨hallowed, startsCompound_clip hstart, _, _, hcompound, links, hmore, ?_⟩
    rw [c.withCombinator_eq hop]

/-- A link is read from the text of its combinator and that of its compound. -/
theorem linksReadFrom_cons {c : Compound} {op : Combinator} {links : List Compound}
    (hop : c.combinator = some op) (hallowed : d.allowsCombinator op = true)
    (hg : op.SpelledBy g) (hc : c.ReadFrom d u) (hlinks : LinksReadFrom d links v) :
    LinksReadFrom d (c :: links) (g ++ (u ++ v)) := by
  unfold Combinator.SpelledBy at hg
  cases hmark : op.mark? with
  | none =>
    rw [hmark] at hg
    obtain rfl : op = .descendant := by
      cases op with
      | descendant => rfl
      | _ => cases hmark
    exact linksReadFrom_blank hop hg.1 hg.2 hc hlinks
  | some m =>
    rw [hmark] at hg
    obtain ⟨g₁, g₂, hg₁, hg₂, rfl⟩ := hg
    rw [List.append_assoc, List.cons_append]
    exact linksReadFrom_mark hop hmark hallowed hg₁ hg₂ hc hlinks

/-- A chain is read from the text of its head and those of its links. -/
theorem chainReadFrom_mk {head : Compound} {links : List Compound}
    (hhead : head.combinator = none) (hu : head.ReadFrom d u) (hv : LinksReadFrom d links v) :
    ChainReadFrom d ⟨head, links⟩ (u ++ v) := by
  refine ⟨startsCompound_append hu.1 v, fun k rest hrest ↦ ?_⟩
  obtain ⟨hahead, hlinks⟩ := hv k rest hrest
  have hcompound := hu.2 k (v ++ rest) hahead
  rw [head.withCombinator_eq hhead] at hcompound
  rw [List.append_assoc]
  exact gives_chain.2 ⟨head, _, links, hcompound, hlinks, rfl⟩

/-- No more alternatives are read from no text. -/
theorem moreReadFrom_nil : MoreReadFrom d [] [] := by
  intro k rest hrest
  rw [List.nil_append]
  refine ⟨hrest.mono fun _ ↦ endsChain_of_endsSelector, (gives_moreChains_stop ?_).2 ⟨rfl, rfl⟩⟩
  intro hcomma
  have hc := hrest.clip (k := k) ',' hcomma
  cases hc

/-- Another alternative is read from its text behind a comma and blanks. -/
theorem moreReadFrom_cons {c : Chain Compound} {cs : List (Chain Compound)} {g' : List Char}
    (hg : Blanks g) (hg' : Blanks g') (hc : ChainReadFrom d c u) (hcs : MoreReadFrom d cs v) :
    MoreReadFrom d (c :: cs) (g ++ ',' :: (g' ++ (u ++ v))) := by
  intro k rest hrest
  obtain ⟨hahead, hmore⟩ := hcs k rest hrest
  have hskip : skipBlank (g ++ ',' :: (g' ++ (u ++ v)) ++ rest)
      = ',' :: (g' ++ (u ++ (v ++ rest))) := by
    rw [List.append_assoc, skipBlank_append hg, List.cons_append, List.append_assoc,
      List.append_assoc]
    rfl
  have hstart : startsCompound (u ++ (v ++ rest)) = true := startsCompound_append hc.1 _
  rw [hskip, clip_cons (.inl (by decide))]
  refine ⟨ahead_cons.2 rfl, gives_moreChains_comma.2 ?_⟩
  rw [skipBlank_clip_compound hg' hstart]
  exact ⟨startsCompound_clip hstart, c, _, hc.2 k (v ++ rest) hahead, cs, hmore, rfl⟩

/-- No alternatives are read from no text. -/
theorem chainsReadFrom_nil : ChainsReadFrom d [] [] := by
  intro k g rest hg hrest
  have hskip : skipBlank (clip k (g ++ ([] ++ rest))) = clip k (skipBlank rest) := by
    rw [List.nil_append, skipBlank_clip, skipBlank_append hg]
  refine gives_chains.2 (.inl ?_)
  rw [hskip]
  exact ⟨(stops_of_endsChain (hrest.mono fun _ ↦ endsChain_of_endsSelector).clip).1, rfl, rfl⟩

/-- Alternatives are read from the text of the first and those of the others. -/
theorem chainsReadFrom_cons {c : Chain Compound} {cs : List (Chain Compound)}
    (hc : ChainReadFrom d c u) (hcs : MoreReadFrom d cs v) :
    ChainsReadFrom d (c :: cs) (u ++ v) := by
  intro k g rest hg hrest
  obtain ⟨hahead, hmore⟩ := hcs k rest hrest
  have hstart : startsCompound (u ++ (v ++ rest)) = true := startsCompound_append hc.1 _
  have hchain := hc.2 k (v ++ rest) hahead
  rw [List.append_assoc]
  refine gives_chains.2 (.inr ?_)
  rw [skipBlank_clip_compound hg hstart]
  exact ⟨startsCompound_clip hstart, c, _, cs, hchain, hmore, rfl⟩

/-- Alternatives are read as an argument, up to its closing parenthesis. -/
theorem ChainsReadFrom.argument {cs : List (Chain Compound)} {t g' : List Char}
    (h : ChainsReadFrom d cs t) (hg : Blanks g) (hg' : Blanks g') (r : List Char) :
    Gives (Grammar.chains d (skipBlank (g ++ (t ++ (g' ++ ')' :: r))))) cs (')' :: r) := by
  have hskip : skipBlank (g' ++ ')' :: r) = ')' :: r := by
    rw [skipBlank_append hg']
    rfl
  have hchains := h false g (g' ++ ')' :: r) hg (by rw [hskip]; exact ahead_cons.2 rfl)
  rw [Text.clip_false, Text.clip_false, hskip, gives_chains] at hchains
  rw [gives_chains, Text.skipBlank_idem]
  exact hchains

/-- A well-formed selector is the one of its alternatives. -/
theorem ofChains_chains : (s : Selector) → s.WellFormed d → ofChains s.chains = s
  | .chain _, _ => rfl
  | .list [], _ => rfl
  | .list [_], h => absurd rfl h.1
  | .list (_ :: _ :: _), _ => rfl

end Selector

section ReadFrom

variable {d : Dialect}

mutual
/-- The alternatives of a well-formed selector are read from each of its texts. -/
theorem Selector.readFrom : (s : Selector) → s.WellFormed d → (t : List Char) →
    s.SpelledBy t → Selector.ChainsReadFrom d s.chains t
  | .chain c, h, t, ht => by
    have hc := Selector.chainReadFrom c h t ht
    have hchains := Selector.chainsReadFrom_cons hc Selector.moreReadFrom_nil
    rwa [List.append_nil] at hchains
  | .list cs, h, t, ht => Selector.chainsReadFrom cs h.2 t ht

/-- Well-formed alternatives are read from each of their texts. -/
theorem Selector.chainsReadFrom : (cs : List (Chain Compound)) →
    Selector.ChainsWellFormed d cs → (t : List Char) → Selector.ChainsSpelledBy cs t →
    Selector.ChainsReadFrom d cs t
  | [], _, _, ht => by
    obtain rfl := ht
    exact Selector.chainsReadFrom_nil
  | c :: cs, h, _, ⟨u, v, hu, hv, ht⟩ => by
    rw [ht]
    exact Selector.chainsReadFrom_cons (Selector.chainReadFrom c h.1 u hu)
      (Selector.moreReadFrom cs h.2 v hv)

/-- Well-formed alternatives behind another one are read from each of their texts. -/
theorem Selector.moreReadFrom : (cs : List (Chain Compound)) →
    Selector.ChainsWellFormed d cs → (t : List Char) → Selector.MoreSpelledBy cs t →
    Selector.MoreReadFrom d cs t
  | [], _, _, ht => by
    obtain rfl := ht
    exact Selector.moreReadFrom_nil
  | c :: cs, h, _, ⟨g, g', u, v, hg, hg', hu, hv, ht⟩ => by
    rw [ht]
    exact Selector.moreReadFrom_cons hg hg' (Selector.chainReadFrom c h.1 u hu)
      (Selector.moreReadFrom cs h.2 v hv)

/-- A well-formed chain is read from each of its texts. -/
theorem Selector.chainReadFrom : (c : Chain Compound) → Selector.ChainWellFormed d c →
    (t : List Char) → Selector.ChainSpelledBy c t → Selector.ChainReadFrom d c t
  | ⟨head, links⟩, ⟨hnone, hhead, hlinks⟩, _, ⟨u, v, hu, hv, ht⟩ => by
    rw [ht]
    exact Selector.chainReadFrom_mk hnone (Compound.readFrom head hhead u hu)
      (Selector.linksReadFrom links hlinks v hv)

/-- Well-formed links are read from each of their texts. -/
theorem Selector.linksReadFrom : (links : List Compound) → Selector.LinksWellFormed d links →
    (t : List Char) → Selector.LinksSpelledBy links t → Selector.LinksReadFrom d links t
  | [], _, _, ht => by
    obtain rfl := ht
    exact Selector.linksReadFrom_nil
  | c :: links, ⟨⟨op, hop, hallowed⟩, hc, hlinks⟩, _, ⟨g, u, v, hg, hu, hv, ht⟩ => by
    rw [ht]
    exact Selector.linksReadFrom_cons hop hallowed (hg op hop) (Compound.readFrom c hc u hu)
      (Selector.linksReadFrom links hlinks v hv)

/-- A well-formed compound is read from each of its texts. -/
theorem Compound.readFrom : (c : Compound) → c.WellFormed d → (t : List Char) →
    c.SpelledBy t → c.ReadFrom d t
  | ⟨type, id, classes, attributes, pseudos, combinator⟩,
    ⟨hblank, htype, hid, hclasses, hattributes, hpseudos⟩, _, ⟨u, v, hu, hv, ht⟩ => by
    rw [ht]
    refine Compound.readFrom_parts hblank htype ((Part.allReadFrom_id hid).append ?_)
    refine (Part.allReadFrom_classes hclasses).append ?_
    exact (AttributeTest.allReadFrom hattributes hu).append
      (PseudoClass.allReadFrom pseudos hpseudos v hv)

/-- Well-formed pseudo-classes are read from each of their texts. -/
theorem PseudoClass.allReadFrom : (ps : List PseudoClass) → PseudoClass.AllWellFormed d ps →
    (t : List Char) → PseudoClass.AllSpelledBy ps t → Part.AllReadFrom d (ps.map .pseudo) t
  | [], _, _, ht => ht
  | p :: ps, h, _, ⟨u, v, hu, hv, ht⟩ =>
    ⟨u, v, PseudoClass.readFrom p h.1 u hu, PseudoClass.allReadFrom ps h.2 v hv, ht⟩

/-- A well-formed pseudo-class is read from each of its texts. -/
theorem PseudoClass.readFrom : (p : PseudoClass) → p.WellFormed d → (t : List Char) →
    p.SpelledBy t → (Part.pseudo p).ReadFrom d t
  | ⟨name, argument⟩, h, _, ⟨u, hu, ht⟩ => by
    rw [ht]
    cases argument with
    | selector s =>
      obtain ⟨hname, hkind, hs⟩ := h
      obtain ⟨inner, hinner, hu⟩ := hu
      have hchains := Selector.readFrom s hs inner hinner
      exact PseudoClass.readFrom_selector hname hkind (Selector.ofChains_chains s hs) hu
        fun _ _ r hg hg' ↦ hchains.argument hg hg' r
    | _ => exact PseudoClass.readFrom_simple h (fun _ he ↦ by cases he) hu
end

/-- A text of a well-formed selector is read as the selector, with blanks around it and even
if it has lost its last space. -/
theorem Selector.selector_clip {s : Selector} {t g g' : List Char} (h : s.WellFormed d)
    (ht : s.SpelledBy t) (hg : Blanks g) (hg' : Blanks g') (k : Bool) :
    Grammar.selector d (clip k (g ++ (t ++ g'))) = .ok s := by
  have hskip : skipBlank g' = [] := by
    have hskip := skipBlank_append hg' []
    rwa [List.append_nil] at hskip
  have hchains := Selector.readFrom s h t ht k g g' hg (by rw [hskip]; exact ahead_nil)
  rw [hskip, clip_nil] at hchains
  exact selector_eq_ok.2 ⟨s.chains, hchains, (ofChains_chains s h).symm⟩

end ReadFrom

section Closed

variable {d : Dialect}

/-- The spelling of an argument is closed by its parenthesis. -/
theorem Argument.closed_spell (a : Argument) : Closed a.spell := by
  match a with
  | .none => exact Text.closed_nil
  | .text _ => exact Text.closed_concat (by decide) _
  | .formula _ => exact Text.closed_concat (by decide) _
  | .variable _ => exact Text.closed_concat (by decide) _
  | .selector _ => exact Text.closed_concat (by decide) _

/-- The spellings of pseudo-classes are closed. -/
theorem PseudoClass.closed_spellAll (ps : List PseudoClass) : Closed (PseudoClass.spellAll ps) := by
  induction ps with
  | nil => exact Text.closed_nil
  | cons p ps ih =>
    obtain ⟨name, argument⟩ := p
    have hcolon : Closed [':'] := Text.closed_concat (by decide) []
    rw [PseudoClass.spellAll, PseudoClass.spell]
    exact ((hcolon.append (Lexeme.closed_name name)).append argument.closed_spell).append ih

/-- The spelling of a compound is closed. -/
theorem Compound.closed_spell (c : Compound) : Closed c.spell := by
  have hmarked (m : Char) (hm : Text.isWhite m = false) (s : String) :
      Closed (m :: Spelling.name s) :=
    (Text.closed_concat hm []).append (Lexeme.closed_name s)
  have htype : Closed (c.type.elim [] Spelling.typeTest) := by
    match c.type with
    | none => exact Text.closed_nil
    | some .any => exact Text.closed_concat (by decide) []
    | some (.named s) => exact Lexeme.closed_name s
  have hid : Closed (c.id.elim [] ('#' :: Spelling.name ·)) := by
    cases c.id with
    | none => exact Text.closed_nil
    | some s => exact hmarked '#' (by decide) s
  have hclasses : Closed (c.classes.flatMap ('.' :: Spelling.name ·)) :=
    Text.closed_flatMap fun s _ ↦ hmarked '.' (by decide) s
  have hattributes : Closed (c.attributes.flatMap Spelling.attributeTest) :=
    Text.closed_flatMap fun _ _ ↦ Text.closed_concat (by decide) _
  exact (((htype.append hid).append hclasses).append hattributes).append
    (PseudoClass.closed_spellAll c.pseudos)

/-- The spelling of a well-formed compound begins one. -/
theorem Compound.startsCompound_spell {c : Compound} (h : c.WellFormed d) :
    startsCompound c.spell = true :=
  (Compound.readFrom c h c.spell (Compound.spelledBy_spell c h)).1

/-- The spellings of well-formed links are closed. -/
theorem Selector.closed_spellLinks {links : List Compound} (h : LinksWellFormed d links) :
    Closed (spellLinks links) := by
  induction links with
  | nil => exact Text.closed_nil
  | cons c links ih =>
    obtain ⟨_, hc, hlinks⟩ := h
    have hne : c.spell ≠ [] := (ahead_of_startsCompound (Compound.startsCompound_spell hc)).1
    rw [spellLinks, Compound.spellLinked_eq]
    exact (c.closed_spell.behind hne _).append (ih hlinks)

/-- The spelling of a well-formed chain is closed. -/
theorem Selector.closed_spellChain {c : Chain Compound} (h : ChainWellFormed d c) :
    Closed (spellChain c) := by
  obtain ⟨head, links⟩ := c
  obtain ⟨hnone, _, hlinks⟩ := h
  rw [spellChain, Compound.spellLinked_eq, hnone]
  exact head.closed_spell.append (closed_spellLinks hlinks)

/-- The spellings of well-formed alternatives behind another one are closed. -/
theorem Selector.closed_spellMore {cs : List (Chain Compound)} (h : ChainsWellFormed d cs) :
    Closed (cs.flatMap fun c ↦ ',' :: ' ' :: spellChain c) := by
  induction cs with
  | nil => exact Text.closed_nil
  | cons c cs ih =>
    obtain ⟨hc, hcs⟩ := h
    have hcomma : Closed [',', ' '] := Text.closed_concat_space (by decide) []
    rw [List.flatMap_cons]
    exact (hcomma.append (closed_spellChain hc)).append (ih hcs)

/-- The spelling of a well-formed chain begins a compound. -/
theorem Selector.startsCompound_spellChain {c : Chain Compound} (h : ChainWellFormed d c) :
    startsCompound (spellChain c) = true :=
  (Selector.chainReadFrom c h (spellChain c) (chainSpelledBy_spellChain c h)).1

/-- Rendering a well-formed selector takes its last space at most. -/
theorem Selector.trim_spell {s : Selector} (h : s.WellFormed d) :
    Text.trim s.spell = clip true s.spell := by
  cases s with
  | chain c =>
    exact (closed_spellChain h).trim_eq
      (ahead_of_startsCompound (startsCompound_spellChain h)).2
  | list cs =>
    cases cs with
    | nil => rfl
    | cons c cs =>
      obtain ⟨_, hc, hcs⟩ := h
      have hstart := startsCompound_append (startsCompound_spellChain hc)
        (cs.flatMap fun c ↦ ',' :: ' ' :: spellChain c)
      rw [spell, spellChains_cons]
      exact ((closed_spellChain hc).append (closed_spellMore hcs)).trim_eq
        (ahead_of_startsCompound hstart).2

end Closed

/-- The text that a well-formed selector is rendered to is parsed as the selector. -/
theorem Selector.parse_render {d : Dialect} {s : Selector} (h : s.WellFormed d) :
    Selector.parse d s.render = .ok s := by
  have hread := Selector.selector_clip h (Selector.spelledBy_spell s h) Text.blanks_nil
    Text.blanks_nil true
  rw [List.nil_append, List.append_nil] at hread
  rw [Selector.parse_eq_ok, Selector.render, String.toList_ofList, Selector.trim_spell h]
  exact hread

/-- A selector whose text has lost the space that closes its last escape. -/
theorem Selector.parse_render_escape :
    let s : Selector := .chain
      ⟨⟨some (.named "item"), none, [], [], [⟨"nth-child", .formula "2n+1"⟩], none⟩,
        [⟨none, some "é", [], [], [], some .child⟩]⟩
    s.WellFormed .document ∧ s.render = "item:nth-child(2n+1) > #\\e9" ∧
      Selector.parse .document s.render = .ok s := by
  intro s
  have hs : s.WellFormed .document := by
    have hkind : Dialect.document.argumentKind "nth-child" = .formula := by decide
    have hchild : Dialect.document.allowsCombinator .child = true := by decide
    simp [s, WellFormed, ChainWellFormed, LinksWellFormed, Compound.WellFormed, Compound.isBlank,
      TypeTest.WellFormed, PseudoClass.AllWellFormed, PseudoClass.WellFormed, Argument.WellFormed,
      hkind, hchild]
  exact ⟨hs, rfl, parse_render hs⟩

/-- Every text of a well-formed selector is parsed as the selector, whatever runs of blanks stand
between its parts and around it. -/
theorem Selector.parse_of_spelledBy {d : Dialect} {s : Selector} {t g g' : List Char}
    (h : s.WellFormed d) (ht : s.SpelledBy t) (hg : Blanks g) (hg' : Blanks g') :
    Selector.parse d (String.ofList (g ++ (t ++ g'))) = .ok s := by
  rw [Selector.parse_eq_ok, String.toList_ofList]
  exact Selector.selector_clip h ht hg hg' false

/-- A selector with blanks wherever they may stand. The first space behind the digits of an
escape belongs to the escape. -/
theorem Selector.parse_of_spelledBy_blanks :
    let test : AttributeTest := ⟨"b", some (.hasWord, .text "c")⟩
    let alternatives : List (Chain Compound) :=
      [⟨⟨none, none, [], [test], [], none⟩, []⟩, ⟨⟨none, some "é", [], [], [], none⟩, []⟩]
    let s : Selector := .chain ⟨⟨some (.named "item"), none, [], [], [], none⟩,
      [⟨none, none, ["a"], [], [], some .child⟩,
        ⟨none, none, [], [], [⟨"not", .selector (.list alternatives)⟩], some .descendant⟩]⟩
    s.WellFormed .document ∧
      Selector.parse .document "\n item\t>.a  :not( [ b\x0c~= \"c\" ]\r, #\\e9  )\n" = .ok s := by
  intro test alternatives s
  have hs : s.WellFormed .document := by
    have hkind : Dialect.document.argumentKind "not" = .selector := by decide
    have hchild : Dialect.document.allowsCombinator .child = true := by decide
    have hword : Dialect.document.allowsComparison .hasWord = true := by decide
    simp [s, alternatives, test, WellFormed, ChainWellFormed, ChainsWellFormed, LinksWellFormed,
      Compound.WellFormed, Compound.isBlank, TypeTest.WellFormed, AttributeTest.WellFormed,
      Operand.WellFormed, PseudoClass.AllWellFormed, PseudoClass.WellFormed, Argument.WellFormed,
      hkind, hchild, hword]
  have blanks {g : List Char} (h : g.all Text.isBlank = true) : Blanks g := List.all_eq_true.1 h
  have htest : test.SpelledBy _ := ⟨[' '], [' '], _, blanks rfl, blanks rfl,
    ⟨['\x0c'], [' '], blanks rfl, blanks rfl, rfl⟩, rfl⟩
  have hlist : Selector.ChainsSpelledBy alternatives _ :=
    ⟨_, _, ⟨_, _, ⟨_, _, ⟨_, _, htest, rfl, rfl⟩, rfl, rfl⟩, rfl, rfl⟩, ⟨['\r'], [' '], _, _,
      blanks rfl, blanks rfl, ⟨_, _, ⟨_, _, rfl, rfl, rfl⟩, rfl, rfl⟩, rfl, rfl⟩, rfl⟩
  have hnot : PseudoClass.SpelledBy ⟨"not", .selector (.list alternatives)⟩ _ :=
    ⟨_, ⟨_, hlist, [' '], [' '], blanks rfl, blanks rfl, rfl⟩, rfl⟩
  have hmark : ∀ op ∈ some Combinator.child, op.SpelledBy ['\t', '>'] := by
    rintro _ ⟨⟩
    exact ⟨['\t'], [], blanks rfl, Text.blanks_nil, rfl⟩
  have hspace : ∀ op ∈ some Combinator.descendant, op.SpelledBy [' ', ' '] := by
    rintro _ ⟨⟩
    exact ⟨blanks rfl, List.cons_ne_nil _ _⟩
  obtain ⟨t, ht, htext⟩ : ∃ t, s.SpelledBy t ∧
      "\n item\t>.a  :not( [ b\x0c~= \"c\" ]\r, #\\e9  )\n"
        = String.ofList (['\n', ' '] ++ (t ++ ['\n'])) :=
    ⟨_, ⟨_, _, ⟨_, _, rfl, rfl, rfl⟩, ⟨_, _, _, hmark, ⟨_, _, rfl, rfl, rfl⟩, ⟨_, _, _, hspace,
      ⟨_, _, rfl, ⟨_, _, hnot, rfl, rfl⟩, rfl⟩, rfl, rfl⟩, rfl⟩, rfl⟩, by decide +kernel⟩
  rw [htext]
  exact ⟨hs, Selector.parse_of_spelledBy hs ht (blanks rfl) (blanks rfl)⟩

end DocSelect

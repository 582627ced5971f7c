import DocSelect.Proofs.Selector.Location

/-!
# Readers that repeat a round

Most readers repeat a round: read one item and go on with the text behind it, until a round reads
none or fails. `Repeats` runs such a loop round by round and asks nothing of the rounds, so a loop
may have no end. A round advances if it leaves less text whenever it reads an item. A reader that
unrolls to a round that advances, followed by itself, is what its loop ends with, and the only
thing. The loops of lexemes are given here: blanks, the digits of an escape, names, strings and raw
text.
-/

namespace DocSelect

open Text (AtMost isHexDigit skipBlank)

namespace Lexeme

variable {α β : Type} {m n : Nat}

/-! ### What readers come out with -/

/-- What a reader gives and leaves, or its problem. -/
def outcome (x : Taken α n) : Except Problem (α × List Char) := x.map fun (v, rest) ↦ (v, rest.1)

@[simp] private theorem outcome_ok (v : α) (rest : AtMost n) :
    outcome (.ok (v, rest)) = .ok (v, rest.1) :=
  rfl

/-- A reader comes out with a value and a text exactly if it gives the value and leaves the text. -/
theorem outcome_eq_ok {x : Taken α n} {v : α} {rest : List Char} :
    outcome x = .ok (v, rest) ↔ Gives x v rest := by
  constructor
  · intro h
    cases x with
    | error p => cases h
    | ok a =>
      obtain ⟨w, r⟩ := a
      obtain ⟨rfl, rfl⟩ := Prod.mk.inj (Except.ok.inj h)
      exact gives_ok.2 ⟨rfl, rfl⟩
  · rintro ⟨h, rfl⟩
    rfl

/-! ### Loops -/

/-- A round of a loop reads an item, or none to end the loop. It knows how many rounds there were
before it. -/
abbrev Round (α : Type) := Nat → (cs : List Char) → Taken (Option α) cs.length

/-- What a loop comes out with: its items and the text behind the last round, or a problem. -/
abbrev LoopOutcome (α : Type) := Except Problem (List α × List Char)

/-- An item in front of those that a loop comes out with. -/
def LoopOutcome.cons (a : α) (out : LoopOutcome α) : LoopOutcome α :=
  out.map fun (as, rest) ↦ (a :: as, rest)

/-- A loop with some rounds behind it, run round by round from the start of a text. -/
inductive Repeats (round : Round α) : Nat → List Char → LoopOutcome α → Prop where
  | stop {k : Nat} {cs rest : List Char} (h : outcome (round k cs) = .ok (none, rest)) :
    Repeats round k cs (.ok ([], rest))
  | fail {k : Nat} {cs : List Char} {p : Problem} (h : outcome (round k cs) = .error p) :
    Repeats round k cs (.error p)
  | goOn {k : Nat} {cs r : List Char} {a : α} {out : LoopOutcome α}
    (h : outcome (round k cs) = .ok (some a, r)) (hmore : Repeats round (k + 1) r out) :
    Repeats round k cs (out.cons a)

/-- A reader of a text that reads an item leaves an end of the text that is shorter. -/
def Shortens (cs : List Char) (x : Taken (Option α) n) : Prop :=
  ∀ ⦃a r⦄, Gives x (some a) r → r <:+ cs ∧ r.length < cs.length

/-- Every round of a loop that reads an item leaves less text. -/
def Advances (round : Round α) : Prop := ∀ k cs, Shortens cs (round k cs)

namespace Shortens

variable {cs : List Char}

/-- A round that takes no item need not leave less. -/
theorem of_none {r : AtMost n} : Shortens cs (.ok (none, r) : Taken (Option α) n) := by
  intro a rest h
  cases (gives_ok.1 h).1

/-- A round that fails need not leave less. -/
theorem of_error {p : Problem} : Shortens cs (.error p : Taken (Option α) n) :=
  fun _ _ h ↦ absurd h not_gives_error

/-- A round that takes an item leaves a shorter end of the text. -/
theorem of_ok {item : Option α} {r : AtMost n} (hr : r.1 <:+ cs) (hlt : r.1.length < cs.length) :
    Shortens cs (.ok (item, r)) := by
  intro a rest h
  obtain ⟨-, rfl⟩ := gives_ok.1 h
  exact ⟨hr, hlt⟩

/-- A reader that takes one character. -/
theorem of_tail {c : Char} {t : List Char} {item : Option α} :
    Shortens (c :: t) (.ok (item, .tail t)) :=
  of_ok (List.suffix_cons c t) (Nat.lt_succ_self _)

/-- A reader that goes on from an end of a text that another one left. -/
theorem bind {x : Taken β m} {f : β × AtMost m → Taken (Option α) n}
    (hf : ∀ b r, ∀ h : Gives x b r, Shortens cs (f (b, ⟨r, h.length_le⟩))) :
    Shortens cs (x >>= f) := by
  intro a rest h
  obtain ⟨b, r, hb, hr⟩ := gives_bind.1 h
  exact hf b r hb hr

/-- An item made from what a reader of less text gives. -/
theorem made {x : Taken β m} {g : β → α} (hx : Reads cs x) (hm : m < cs.length) :
    Shortens cs (do
      let (b, rest) ← x
      return (some (g b), .behind rest) : Taken (Option α) (m + 1)) := by
  apply bind
  intro b r h
  exact of_ok (hx.rest h) (Nat.lt_of_le_of_lt h.length_le hm)

end Shortens

/-- What a loop comes out with behind a round: it goes on if an item was read. -/
def behindRound (more : List Char → LoopOutcome α) : Option α × List Char → LoopOutcome α
  | (none, rest) => .ok ([], rest)
  | (some a, r) => (more r).cons a

/-- A reader does a round and, if an item was read, goes on as a reader with one more round
behind it. -/
def Unrolls (round : Round α) (loop : Nat → (cs : List Char) → Taken (List α) cs.length) : Prop :=
  ∀ k cs, outcome (loop k cs) =
    outcome (round k cs) >>= behindRound fun r ↦ outcome (loop (k + 1) r)

variable {round : Round α}

/-- A reader that unrolls to a round that advances is what the loop ends with. -/
theorem repeats_of_unrolls {loop : Nat → (cs : List Char) → Taken (List α) cs.length}
    (hu : Unrolls round loop) (ha : Advances round) (k : Nat) (cs : List Char) :
    Repeats round k cs (outcome (loop k cs)) := by
  rw [hu]
  cases hround : outcome (round k cs) with
  | error p => exact .fail hround
  | ok a =>
    obtain ⟨item, r⟩ := a
    cases item with
    | none => exact .stop hround
    | some a =>
      -- what is left is shorter than the text, so the loop behind this round is known to end
      have hshorter := (ha k cs (outcome_eq_ok.1 hround)).2
      exact .goOn hround (repeats_of_unrolls hu ha (k + 1) r)
termination_by cs.length

/-- A loop comes out with one thing only, as a round does. -/
theorem Repeats.unique {k : Nat} {cs : List Char} {out out' : LoopOutcome α}
    (h : Repeats round k cs out) (h' : Repeats round k cs out') : out = out' := by
  induction h generalizing out' with
  | stop h =>
    cases h' with
    | stop h' =>
      obtain ⟨-, rfl⟩ := Prod.mk.inj (Except.ok.inj (h.symm.trans h'))
      rfl
    | fail h' => cases h.symm.trans h'
    | goOn h' _ => cases h.symm.trans h'
  | fail h =>
    cases h' with
    | stop h' => cases h.symm.trans h'
    | fail h' => exact congrArg _ (Except.error.inj (h.symm.trans h'))
    | goOn h' _ => cases h.symm.trans h'
  | goOn h _ ih =>
    cases h' with
    | stop h' => cases h.symm.trans h'
    | fail h' => cases h.symm.trans h'
    | goOn h' hmore' =>
      obtain ⟨ha, rfl⟩ := Prod.mk.inj (Except.ok.inj (h.symm.trans h'))
      rw [Option.some.inj ha, ih hmore']

/-- A loop of rounds that advance, and the one thing that it comes out with. -/
structure Loop (round : Round α) (cs : List Char) (out : LoopOutcome α) : Prop where
  advances : Advances round
  repeats_iff : ∀ end', Repeats round 0 cs end' ↔ end' = out

/-- A reader that unrolls to a round that advances is the loop of such rounds. -/
theorem loop_of_unrolls {loop : Nat → (cs : List Char) → Taken (List α) cs.length}
    (ha : Advances round) (hu : Unrolls round loop) (cs : List Char) :
    Loop round cs (outcome (loop 0 cs)) where
  advances := ha
  repeats_iff end' := by
    have hloop := repeats_of_unrolls hu ha 0 cs
    constructor
    · intro h
      exact h.unique hloop
    · rintro rfl
      exact hloop

/-- A reader that puts an item in front of those that another reader gives. -/
theorem outcome_cons {k : Nat} {y : Taken (List α) n} (a : α) (hk : n ≤ k) :
    outcome (do
      let (as, ⟨rest, h⟩) ← y
      return (a :: as, ⟨rest, by omega⟩) : Taken (List α) k) =
    LoopOutcome.cons a (outcome y) := by
  cases y with
  | error p => rfl
  | ok b => rfl

/-- A reader unrolls to a round if they begin with the same reader and what is behind it
unrolls. -/
theorem outcome_bind {k : Nat} {x : Taken β n} {f : β × AtMost n → Taken (List α) m}
    {f' : β × AtMost n → Taken (Option α) k} {more : List Char → LoopOutcome α}
    (h : ∀ b r, outcome (f (b, r)) = outcome (f' (b, r)) >>= behindRound more) :
    outcome (x >>= f) = outcome (x >>= f') >>= behindRound more := by
  cases x with
  | error p => rfl
  | ok a => exact h a.1 a.2

/-! ### Loops of lexemes -/

/-- The character at the start of a text, if it passes a test. -/
def charIf? (test : Char → Bool) (cs : List Char) : Taken (Option Char) cs.length :=
  match cs with
  | [] => .ok (none, .whole [])
  | c :: t => if test c then .ok (some c, .tail t) else .ok (none, .whole (c :: t))

private theorem shortens_charIf (test : Char → Bool) (cs : List Char) :
    Shortens cs (charIf? test cs) := by
  unfold charIf?
  split
  · exact Shortens.of_none
  · next c t =>
    split
    · exact Shortens.of_tail
    · exact Shortens.of_none

/-- The blank at the start of a text, if there is one. -/
def blank? (cs : List Char) : Taken (Option Char) cs.length := charIf? Text.isBlank cs

/-- A blank takes a character. -/
theorem advances_blank : Advances fun _ ↦ blank? := fun _ cs ↦ shortens_charIf Text.isBlank cs

/-- Skipping blanks is a loop that reads one blank after the other. -/
theorem unrolls_skipBlank :
    Unrolls (fun _ ↦ blank?) fun _ cs ↦
      .ok (cs.takeWhile Text.isBlank, ⟨skipBlank cs, Text.length_skipBlank_le cs⟩) := by
  intro k cs
  cases cs with
  | nil => rfl
  | cons c t =>
    cases hc : Text.isBlank c with
    | true =>
      simp only [blank?, charIf?, hc, if_true, outcome_ok, Text.skipBlank_cons_of_blank hc,
        List.takeWhile_cons]
      rfl
    | false =>
      simp only [blank?, charIf?, hc, outcome_ok, Text.skipBlank_cons_of_not_blank hc,
        List.takeWhile_cons]
      rfl

/-- The digit in base sixteen at the start of a text, unless there were six before it. -/
def hexDigit? (k : Nat) (cs : List Char) : Taken (Option Char) cs.length :=
  charIf? (fun c ↦ k < 6 && isHexDigit c) cs

/-- A hexadecimal digit takes a character. -/
theorem advances_hexDigit : Advances hexDigit? := fun _ cs ↦ shortens_charIf _ cs

/-- Digits in base sixteen are taken by a loop that reads one after the other, six at most. -/
theorem unrolls_takeHex : Unrolls hexDigit? fun k cs ↦ .ok (takeHex (6 - k) cs) := by
  intro k cs
  cases cs with
  | nil =>
    dsimp only
    cases 6 - k with
    | zero => rfl
    | succ n => rfl
  | cons c t =>
    by_cases hk : k < 6
    · obtain ⟨n, hn⟩ : ∃ n, 6 - k = n + 1 := ⟨5 - k, by omega⟩
      have hn' : 6 - (k + 1) = n := by omega
      simp only [hexDigit?, charIf?, hk, decide_true, Bool.true_and, hn, hn', takeHex]
      split
      · rfl
      · rfl
    · have hn : 6 - k = 0 := by omega
      simp only [hexDigit?, charIf?, hk, hn, takeHex]
      rfl

/-- The character of a name at the start of a text, if there is one. -/
def nameChar? (cs : List Char) : Taken (Option Char) cs.length :=
  match cs with
  | '\\' :: t => do
    let (c, rest) ← escaped t
    return (some c, .behind rest)
  | cs => charIf? isNameChar cs

/-- A character of a name, escaped or not, takes some of the text. -/
theorem advances_nameChar : Advances fun _ ↦ nameChar? := by
  intro k cs
  show Shortens cs (nameChar? cs)
  unfold nameChar?
  split
  · next t => exact Shortens.made (g := id) (reads_escaped t) (Nat.lt_succ_self _)
  · exact shortens_charIf isNameChar cs

/-- A name is read character by character. -/
theorem unrolls_name : Unrolls (fun _ ↦ nameChar?) fun _ ↦ name := by
  intro k cs
  show outcome (name cs) = outcome (nameChar? cs) >>= behindRound fun r ↦ outcome (name r)
  unfold nameChar?
  split
  · next t =>
    rw [name]
    exact outcome_bind fun c r ↦ outcome_cons c (Nat.le_succ_of_le r.2)
  · next hescape =>
    cases cs with
    | nil =>
      rw [name]
      rfl
    | cons c t =>
      rw [name, charIf?]
      · split
        · exact outcome_cons c (Nat.le_succ _)
        · rfl
      · rintro rfl
        exact hescape t rfl

/-- The character of a string at the start of a text, if its quote is not there. -/
def stringChar? (quote : Char) (whole cs : List Char) : Taken (Option Char) cs.length :=
  match cs with
  | [] => .error ⟨.unterminatedString quote, whole, []⟩
  | c :: t =>
    if c = quote then .ok (none, .tail t)
    else if c = '\\' then
      match t with
      | [] => .error ⟨.unterminatedString quote, whole, []⟩
      | e :: u =>
        if isHexDigit e && (shortEscape? quote e).isNone then do
          let (x, rest) ← hexEscape (e :: u)
          return (some x, .behind rest)
        else .ok (some ((shortEscape? quote e).getD e), .behind (.tail u))
    else .ok (some c, .tail t)

/-- A character of a string, escaped or not, takes some of the text. -/
theorem advances_stringChar (quote : Char) (whole : List Char) :
    Advances fun _ ↦ stringChar? quote whole := by
  intro k cs
  show Shortens cs (stringChar? quote whole cs)
  unfold stringChar?
  split
  · exact Shortens.of_error
  · next c t =>
    split
    · exact Shortens.of_none
    split
    · next hc =>
      subst hc
      split
      · exact Shortens.of_error
      · next e u =>
        split
        · exact Shortens.made (g := id) (reads_hexEscape (e :: u)) (Nat.lt_succ_self _)
        · exact Shortens.of_ok ((List.suffix_cons e u).trans (List.suffix_cons _ _))
            (Nat.lt_succ_of_lt (Nat.lt_succ_self _))
    · exact Shortens.of_tail

/-- A string is read character by character up to its quote. -/
theorem unrolls_stringTail (quote : Char) (whole : List Char) :
    Unrolls (fun _ ↦ stringChar? quote whole) fun _ ↦ stringTail quote whole := by
  intro k cs
  show outcome (stringTail quote whole cs) =
    outcome (stringChar? quote whole cs) >>= behindRound fun r ↦ outcome (stringTail quote whole r)
  rw [stringTail.eq_def]
  unfold stringChar?
  cases cs with
  | nil => rfl
  | cons c t =>
    dsimp only
    split
    · rfl
    split
    · cases t with
      | nil => rfl
      | cons e u =>
        dsimp only
        split
        · exact outcome_bind fun c r ↦ outcome_cons c (Nat.le_succ_of_le r.2)
        · exact outcome_cons _ (Nat.le_succ_of_le (Nat.le_succ _))
    · exact outcome_cons c (Nat.le_succ _)

/-- The character of raw text at the start of a text, if no parenthesis is there. -/
def rawChar? (cs : List Char) : Taken (Option RawChar) cs.length :=
  match cs with
  | [] => .ok (none, .whole [])
  | c :: t =>
    if c = ')' then .ok (none, .whole (c :: t))
    else if c = '\\' then do
      let (x, rest) ← escaped t
      return (some ⟨x, true⟩, .behind rest)
    else .ok (some ⟨c, false⟩, .tail t)

/-- A character of a raw text takes some of the text. -/
theorem advances_rawChar : Advances fun _ ↦ rawChar? := by
  intro k cs
  show Shortens cs (rawChar? cs)
  unfold rawChar?
  split
  · exact Shortens.of_none
  · next c t =>
    split
    · exact Shortens.of_none
    split
    · next hc =>
      subst hc
      exact Shortens.made (g := fun x ↦ RawChar.mk x true) (reads_escaped t) (Nat.lt_succ_self _)
    · exact Shortens.of_tail

/-- A raw text is read character by character. -/
theorem unrolls_rawChars : Unrolls (fun _ ↦ rawChar?) fun _ ↦ rawChars := by
  intro k cs
  show outcome (rawChars cs) = outcome (rawChar? cs) >>= behindRound fun r ↦ outcome (rawChars r)
  rw [rawChars.eq_def]
  unfold rawChar?
  cases cs with
  | nil => rfl
  | cons c t =>
    dsimp only
    split
    · rfl
    split
    · exact outcome_bind fun x r ↦ outcome_cons (RawChar.mk x true) (Nat.le_succ_of_le r.2)
    · exact outcome_cons (RawChar.mk c false) (Nat.le_succ _)

end Lexeme

end DocSelect

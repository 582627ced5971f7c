import DocSelect.Selector.Basic

/-!
# Equality of selectors

Selectors contain lists of chains whose compounds contain selectors again. Equality is decided
by one comparison for each kind of part.
-/

namespace DocSelect

mutual
/-- Whether two selectors are equal. -/
def Selector.decEq : (a b : Selector) → Decidable (a = b)
  | .chain a, .chain b =>
    match Selector.decEqChain a b with
    | isTrue h => isTrue (h ▸ rfl)
    | isFalse h => isFalse fun e ↦ h (by injection e)
  | .list a, .list b =>
    match Selector.decEqChains a b with
    | isTrue h => isTrue (h ▸ rfl)
    | isFalse h => isFalse fun e ↦ h (by injection e)
  | .chain _, .list _ | .list _, .chain _ => isFalse nofun

/-- Whether two chains of compounds are equal. -/
def Selector.decEqChain : (a b : Chain Compound) → Decidable (a = b)
  | ⟨a, as⟩, ⟨b, bs⟩ =>
    match Compound.decEq a b, Selector.decEqLinks as bs with
    | isTrue h, isTrue hs => isTrue (h ▸ hs ▸ rfl)
    | isFalse h, _ => isFalse fun e ↦ h (by injection e)
    | _, isFalse hs => isFalse fun e ↦ hs (by injection e)

/-- Whether two lists of chains are equal. -/
def Selector.decEqChains : (a b : List (Chain Compound)) → Decidable (a = b)
  | [], [] => isTrue rfl
  | [], _ :: _ | _ :: _, [] => isFalse nofun
  | a :: as, b :: bs =>
    match Selector.decEqChain a b, Selector.decEqChains as bs with
    | isTrue h, isTrue hs => isTrue (h ▸ hs ▸ rfl)
    | isFalse h, _ => isFalse fun e ↦ h (by injection e)
    | _, isFalse hs => isFalse fun e ↦ hs (by injection e)

/-- Whether two lists of compounds are equal. -/
def Selector.decEqLinks : (a b : List Compound) → Decidable (a = b)
  | [], [] => isTrue rfl
  | [], _ :: _ | _ :: _, [] => isFalse nofun
  | a :: as, b :: bs =>
    match Compound.decEq a b, Selector.decEqLinks as bs with
    | isTrue h, isTrue hs => isTrue (h ▸ hs ▸ rfl)
    | isFalse h, _ => isFalse fun e ↦ h (by injection e)
    | _, isFalse hs => isFalse fun e ↦ hs (by injection e)

/-- Whether two compounds are equal. -/
def Compound.decEq : (a b : Compound) → Decidable (a = b)
  | ⟨t, i, c, a, ps, o⟩, ⟨t', i', c', a', ps', o'⟩ =>
    match PseudoClass.decEqAll ps ps' with
    | isTrue h =>
      decidable_of_iff (t = t' ∧ i = i' ∧ c = c' ∧ a = a' ∧ o = o') (by simp [h])
    | isFalse h => isFalse fun e ↦ h (by injection e)

/-- Whether two lists of pseudo-classes are equal. -/
def PseudoClass.decEqAll : (a b : List PseudoClass) → Decidable (a = b)
  | [], [] => isTrue rfl
  | [], _ :: _ | _ :: _, [] => isFalse nofun
  | a :: as, b :: bs =>
    match PseudoClass.decEq a b, PseudoClass.decEqAll as bs with
    | isTrue h, isTrue hs => isTrue (h ▸ hs ▸ rfl)
    | isFalse h, _ => isFalse fun e ↦ h (by injection e)
    | _, isFalse hs => isFalse fun e ↦ hs (by injection e)

/-- Whether two pseudo-classes are equal. -/
def PseudoClass.decEq : (a b : PseudoClass) → Decidable (a = b)
  | ⟨n, a⟩, ⟨m, b⟩ =>
    match Argument.decEq a b with
    | isTrue h => decidable_of_iff (n = m) (by simp [h])
    | isFalse h => isFalse fun e ↦ h (by injection e)

/-- Whether two arguments are equal. -/
def Argument.decEq : (a b : Argument) → Decidable (a = b)
  | .none, .none => isTrue rfl
  | .text a, .text b => decidable_of_iff (a = b) (by simp)
  | .formula a, .formula b => decidable_of_iff (a = b) (by simp)
  | .variable a, .variable b => decidable_of_iff (a = b) (by simp)
  | .selector a, .selector b =>
    match Selector.decEq a b with
    | isTrue h => isTrue (h ▸ rfl)
    | isFalse h => isFalse fun e ↦ h (by injection e)
  | .none, .text _ | .none, .formula _ | .none, .variable _ | .none, .selector _
  | .text _, .none | .text _, .formula _ | .text _, .variable _ | .text _, .selector _
  | .formula _, .none | .formula _, .text _ | .formula _, .variable _ | .formula _, .selector _
  | .variable _, .none | .variable _, .text _ | .variable _, .formula _ | .variable _, .selector _
  | .selector _, .none | .selector _, .text _ | .selector _, .formula _
  | .selector _, .variable _ => isFalse nofun
end

/-- Selectors are compared alternative by alternative. -/
instance : DecidableEq Selector := Selector.decEq

/-- Compounds are compared part by part. -/
instance : DecidableEq Compound := Compound.decEq

/-- Pseudo-classes are compared by name and argument. -/
instance : DecidableEq PseudoClass := PseudoClass.decEq

/-- Arguments are compared by kind and by what they hold. -/
instance : DecidableEq Argument := Argument.decEq

end DocSelect

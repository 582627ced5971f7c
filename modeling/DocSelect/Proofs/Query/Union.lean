import DocSelect.Tree.Node
import DocSelect.Proofs.Query.Depth
import DocSelect.Proofs.Query.FindAll

/-!
# Alternatives searched together

A search for several chains keeps all that waits in common lists, where steps are known by their
numbers among all chains. Still the steps of different chains do not touch one another. If the
chains are dealt out to two searches, then at every node the steps that wait are those that wait in
one or the other, up to their numbers. So the search has an answer exactly if both have one, and it
finds the nodes that one or the other finds.
-/

namespace DocSelect

variable {α : Type}

namespace Waiting

/-- The part of its chain that a waiting step begins. -/
def remainder (w : Waiting α) : Chain (Step α) := ⟨w.step, w.rest⟩

/-- The parts of chains that some waiting steps begin, whatever their numbers are. -/
def remainders (ws : List (Waiting α)) : Set (Chain (Step α)) := {c | ∃ w ∈ ws, w.remainder = c}

private theorem remainders_append (ws vs : List (Waiting α)) :
    remainders (ws ++ vs) = remainders ws ∪ remainders vs := by
  ext c
  simp [remainders, or_and_right, exists_or]

/-- The heads begin whole chains. -/
theorem remainders_heads (chains : List (Chain (Step α))) :
    remainders (heads chains) = {c | c ∈ chains} := by
  ext c
  constructor
  · rintro ⟨w, hw, rfl⟩
    obtain ⟨i, c, hc, rfl⟩ := mem_heads.1 hw
    exact List.mem_of_getElem? hc
  · intro hc
    obtain ⟨⟨chain, link, step, rest⟩, hw, rfl, rfl⟩ := exists_head hc
    exact ⟨_, hw, rfl⟩

/-- Steps of some chains wait, and they are those that wait for the chains of two parts together. -/
structure Dealt (cs as bs : List (Chain (Step α))) (ws us vs : List (Waiting α)) : Prop where
  whole : ∀ w ∈ ws, w.Belongs cs
  left : ∀ w ∈ us, w.Belongs as
  right : ∀ w ∈ vs, w.Belongs bs
  remainders : remainders ws = remainders us ∪ remainders vs

namespace Dealt

variable {cs as bs : List (Chain (Step α))} {ws us vs ws' us' vs' : List (Waiting α)}

/-- Where nothing waits there is nothing to deal out. -/
theorem nil : Dealt cs as bs [] [] [] where
  whole := by simp
  left := by simp
  right := by simp
  remainders := by simp

/-- Steps that are dealt in two parts are dealt. -/
theorem append (h : Dealt cs as bs ws us vs) (h' : Dealt cs as bs ws' us' vs') :
    Dealt cs as bs (ws ++ ws') (us ++ us') (vs ++ vs') where
  whole := List.forall_mem_append.2 ⟨h.whole, h'.whole⟩
  left := List.forall_mem_append.2 ⟨h.left, h'.left⟩
  right := List.forall_mem_append.2 ⟨h.right, h'.right⟩
  remainders := by
    simp only [remainders_append, h.remainders, h'.remainders]
    exact Set.union_union_union_comm _ _ _ _

/-- The heads of chains are dealt out with the chains. -/
theorem heads (hcs : cs.Perm (as ++ bs)) :
    Dealt cs as bs (Waiting.heads cs) (Waiting.heads as) (Waiting.heads bs) where
  whole _ := belongs_of_mem_heads
  left _ := belongs_of_mem_heads
  right _ := belongs_of_mem_heads
  remainders := by
    ext c
    simp [remainders_heads, hcs.mem_iff]

/-- One of the steps that wait is of some kind exactly if one is in either part. -/
theorem exists_iff (h : Dealt cs as bs ws us vs) (P : Chain (Step α) → Prop) :
    (∃ w ∈ ws, P w.remainder) ↔ (∃ w ∈ us, P w.remainder) ∨ ∃ w ∈ vs, P w.remainder := by
  have hmem (xs : List (Waiting α)) :
      (∃ w ∈ xs, P w.remainder) ↔ ∃ c ∈ Waiting.remainders xs, P c := by
    simp [Waiting.remainders]
  simp only [hmem, h.remainders, Set.mem_union, or_and_right, exists_or]

/-- All steps that wait are of some kind exactly if all in both parts are. -/
theorem forall_iff (h : Dealt cs as bs ws us vs) (P : Chain (Step α) → Prop) :
    (∀ w ∈ ws, P w.remainder) ↔ (∀ w ∈ us, P w.remainder) ∧ ∀ w ∈ vs, P w.remainder := by
  have hnot := not_congr (h.exists_iff fun c ↦ ¬ P c)
  push Not at hnot
  exact hnot

end Dealt

end Waiting

namespace Search

open Waiting

/-- What waits where a combinator says once a part of a chain was tried at a node: what is behind
its first step, if that is accepted, or the part itself, if that goes on waiting. -/
def Leaves (setting : Setting) (place : Place α) (position : Option Position) (op : Combinator)
    (tried left : Chain (Step α)) : Prop :=
  left.head.reach = op ∧
    (tried.head.Accepts setting place position ∧ tried.links = left.toList ∨
      left = tried ∧
        (left.head.combinator = some .descendant ∨ left.head.combinator = some .laterSibling))

/-- The search that is the same but for its chains. -/
def seeking (s : Search α) (chains : List (Chain (Step α))) : Search α :=
  { s with chains := chains }

@[simp] private theorem firstOnly_seeking (s : Search α) (chains : List (Chain (Step α))) :
    (s.seeking chains).firstOnly = s.firstOnly := rfl

@[simp] private theorem maxDepth_seeking (s : Search α) (chains : List (Chain (Step α))) :
    (s.seeking chains).maxDepth = s.maxDepth := rfl

@[simp] private theorem isOver_seeking (s : Search α) (chains : List (Chain (Step α)))
    (found : List (Place α)) : (s.seeking chains).isOver found = s.isOver found := rfl

variable {s : Search α} {as bs : List (Chain (Step α))} {ws us vs : List (Waiting α)}

/-- What waits after a full trial, whatever its numbers are. -/
theorem remainders_waitingFor {chains : List (Chain (Step α))} {setting : Setting}
    {place : Place α} {position : Option Position} {found : Bool} {visits : Nat} {t : Trial α}
    (hs : s.firstOnly = false) (hws : ∀ w ∈ ws, w.Belongs chains)
    (h : s.tryAll setting place position ws ⟨.none, found, visits⟩ = .ok t) (op : Combinator) :
    remainders (t.pending.waitingFor op) =
      {left | ∃ w ∈ ws, Leaves setting place position op w.remainder left} := by
  have hmem := mem_waitingFor_tryAll hs hws Pending.within_none h op
  have hnone (x : Waiting α) : x ∉ (Pending.none : Pending α).waitingFor op := by
    cases op <;> exact List.not_mem_nil
  simp only [hnone, false_or] at hmem
  have goesOn {x : Waiting α} : x.stays = true ↔
      x.step.combinator = some .descendant ∨ x.step.combinator = some .laterSibling := by
    simp [stays]
  ext left
  constructor
  · rintro ⟨x, hx, rfl⟩
    obtain ⟨hop, ⟨w, hw, ha, hn⟩ | ⟨hx, hst⟩⟩ := (hmem x).1 hx
    · exact ⟨w, hw, hop, .inl ⟨ha, (next?_eq_some.1 hn).1⟩⟩
    · exact ⟨x, hx, hop, .inr ⟨rfl, goesOn.1 hst⟩⟩
  · rintro ⟨w, hw, hop, ⟨ha, hl⟩ | ⟨rfl, hst⟩⟩
    · refine ⟨⟨w.chain, w.link + 1, left.head, left.links⟩, (hmem _).2 ⟨hop, .inl ?_⟩, rfl⟩
      exact ⟨w, hw, ha, next?_eq_some.2 ⟨hl, rfl, rfl⟩⟩
    · exact ⟨w, (hmem w).2 ⟨hop, .inr ⟨hw, goesOn.2 hst⟩⟩, rfl⟩

/-- Steps that are dealt out leave steps waiting that are. -/
theorem dealt_tryAll {setting : Setting} {place : Place α} {position : Option Position}
    {found : Bool} {visits : Nat} {t ta tb : Trial α} {cs : List (Chain (Step α))}
    {sa sb : Search α} (hs : s.firstOnly = false) (hsa : sa.firstOnly = false)
    (hsb : sb.firstOnly = false) (hw : Dealt cs as bs ws us vs)
    (h : s.tryAll setting place position ws ⟨.none, found, visits⟩ = .ok t)
    (ha : sa.tryAll setting place position us ⟨.none, found, visits⟩ = .ok ta)
    (hb : sb.tryAll setting place position vs ⟨.none, found, visits⟩ = .ok tb) (op : Combinator) :
    Dealt cs as bs (t.pending.waitingFor op) (ta.pending.waitingFor op)
      (tb.pending.waitingFor op) where
  whole := Pending.All.tryAll (fun _ _ ↦ Belongs.next) hw.whole Pending.all_none h op
  left := Pending.All.tryAll (fun _ _ ↦ Belongs.next) hw.left Pending.all_none ha op
  right := Pending.All.tryAll (fun _ _ ↦ Belongs.next) hw.right Pending.all_none hb op
  remainders := by
    rw [remainders_waitingFor hs hw.whole h, remainders_waitingFor hsa hw.left ha,
      remainders_waitingFor hsb hw.right hb]
    ext left
    exact hw.exists_iff fun c ↦ Leaves setting place position op c left

/-- Trials where the steps that wait are dealt out: the node is found if either trial finds it, and
the steps that wait behind it are dealt out again. -/
structure DealtTrial (cs as bs : List (Chain (Step α))) (t ta tb : Trial α) : Prop where
  found : t.found = true ↔ ta.found = true ∨ tb.found = true
  below : Dealt cs as bs t.pending.below ta.pending.below tb.pending.below
  beside : Dealt cs as bs t.pending.beside ta.pending.beside tb.pending.beside

/-- A node is among those found if it is found by either trial. -/
theorem DealtTrial.mem_found {cs : List (Chain (Step α))} {t ta tb : Trial α}
    (h : DealtTrial cs as bs t ta tb) (place p : Place α) :
    p ∈ (if t.found then [place] else []) ↔
      p ∈ (if ta.found then [place] else []) ∨ p ∈ (if tb.found then [place] else []) := by
  simp only [List.mem_ite_nil_right, h.found, or_and_right]

/-- A full trial has an answer exactly if the trials of both parts have, and then it is theirs. -/
theorem unites_trial {depth : Nat} {place : Place α} {position : Option Position}
    (hs : s.firstOnly = false) (hcs : s.chains.Perm (as ++ bs))
    (hw : Dealt s.chains as bs ws us vs) :
    Outcome.Unites (DealtTrial s.chains as bs) (s.trial depth place position ws)
      ((s.seeking as).trial depth place position us)
      ((s.seeking bs).trial depth place position vs) := by
  have htried := hw.append (.heads hcs)
  have hsa : (s.seeking as).firstOnly = false := by rw [firstOnly_seeking, hs]
  have hsb : (s.seeking bs).firstOnly = false := by rw [firstOnly_seeking, hs]
  apply Outcome.Unites.of_iff
  · have hdeal := htried.forall_iff fun c ↦
      ∃ v, c.head.test (s.setting depth) place position = .ok v
    exact (exists_tryAll_iff hs).trans
      (hdeal.trans (and_congr (exists_tryAll_iff hsa).symm (exists_tryAll_iff hsb).symm))
  · intro t ta tb h ha hb
    have hdeal := dealt_tryAll hs hsa hsb htried h ha hb
    refine ⟨?_, (hdeal .descendant).append (hdeal .child),
      (hdeal .laterSibling).append (hdeal .nextSibling)⟩
    rw [found_tryAll hs h, found_tryAll hsa ha, found_tryAll hsb hb]
    simp only [Bool.false_eq_true, false_or]
    exact htried.exists_iff fun c ↦
      c.head.Accepts (s.setting depth) place position ∧ c.links = []

/-- Searches where the steps that wait are dealt out: a node is found if either search finds it. -/
structure DealtHits (cs as bs : List (Chain (Step α))) (h ha hb : Hits α) : Prop where
  found : ∀ p, p ∈ h.found ↔ p ∈ ha.found ∨ p ∈ hb.found
  beside : Dealt cs as bs h.beside ha.beside hb.beside

variable [Element α]

mutual
/-- A full search of a subtree has an answer exactly if the searches for both parts have, and then
it is theirs. -/
theorem unites_visit (hs : s.firstOnly = false) (hcs : s.chains.Perm (as ++ bs)) :
    (t : Tree α) → {depth : Nat} → {path : Path} → {position : Option Position} →
    {ws us vs : List (Waiting α)} → Dealt s.chains as bs ws us vs →
    Outcome.Unites (DealtHits s.chains as bs) (s.visit depth path position ws t)
      ((s.seeking as).visit depth path position us t)
      ((s.seeking bs).visit depth path position vs t)
  | .leaf a, depth, path, position, ws, us, vs, hw => by
    rw [visit, visit, visit]
    exact (unites_trial hs hcs hw).bind fun t ta tb ht ↦
      .ok ⟨ht.mem_found ⟨path, .leaf a⟩, ht.beside⟩
  | .parent a cs, depth, path, position, ws, us, vs, hw => by
    rw [visit, visit, visit]
    refine (unites_trial hs hcs hw).bind fun t ta tb ht ↦ ?_
    have hhere := ht.mem_found ⟨path, .parent a cs⟩
    simp only [isOver_seeking, maxDepth_seeking, isOver_full hs, Bool.false_eq_true, if_false]
    split
    · exact .ok ⟨hhere, ht.beside⟩
    · by_cases hdeep : s.maxDepth ≤ depth
      · simp only [hdeep, if_true]
        exact .left
      · simp only [hdeep, if_false]
        apply (unites_visitAll hs hcs cs ht.below .nil).bind
        refine fun below ba bb hbelow ↦ .ok ⟨fun p ↦ ?_, ht.beside⟩
        simp only [List.mem_append, hhere, hbelow.found]
        exact or_or_or_comm

/-- A full search of siblings has an answer exactly if the searches for both parts have. -/
theorem unites_visitAll (hs : s.firstOnly = false) (hcs : s.chains.Perm (as ++ bs)) :
    (ts : List (Tree α)) → {depth index : Nat} → {path : Path} → {positions : List Position} →
    {ws us vs ws' us' vs' : List (Waiting α)} → Dealt s.chains as bs ws us vs →
    Dealt s.chains as bs ws' us' vs' →
    Outcome.Unites (DealtHits s.chains as bs) (s.visitAll depth path index positions ws ws' ts)
      ((s.seeking as).visitAll depth path index positions us us' ts)
      ((s.seeking bs).visitAll depth path index positions vs vs' ts)
  | [], _, _, _, _, _, _, _, _, _, _, _, _ => .ok ⟨by simp, .nil⟩
  | t :: ts, depth, index, path, positions, ws, us, vs, ws', us', vs', hin, hca => by
    rw [visitAll, visitAll, visitAll]
    refine (unites_visit hs hcs t (hin.append hca)).bind fun here ha hb hhere ↦ ?_
    simp only [isOver_seeking, isOver_full hs, Bool.false_eq_true, if_false]
    apply (unites_visitAll hs hcs ts hin hhere.beside).bind
    refine fun behind ca cb hbehind ↦ .ok ⟨fun p ↦ ?_, .nil⟩
    simp only [List.mem_append, hhere.found, hbehind.found]
    exact or_or_or_comm
end

end Search

namespace Query

/-- The query that is the same but for its alternatives. -/
def selecting (q : Query α) (alternatives : List (Chain (Matcher α))) : Query α :=
  { q with alternatives := alternatives }

variable [Element α] {q : Query α} {as bs : List (Chain (Matcher α))} {root : Tree α}

/-- A query finds some nodes of a tree, in document order. -/
theorem sublist_findAll {found : List (Place α)} (h : q.findAll root = .ok found) :
    found.Sublist root.places := by
  obtain ⟨hits, hr, h⟩ := Outcome.bind_eq_ok.1 h
  obtain rfl := Except.ok.inj h
  exact Search.sublist_visit root hr

/-- A query has an answer exactly if the queries for both parts of its alternatives have, and then
it finds what either of them finds. -/
theorem unites_findAll (h : q.alternatives.Perm (as ++ bs)) (root : Tree α) :
    Outcome.Unites (fun found xs ys ↦ ∀ p, p ∈ found ↔ p ∈ xs ∨ p ∈ ys) (q.findAll root)
      ((q.selecting as).findAll root) ((q.selecting bs).findAll root) := by
  have hcs : (q.search false root).chains.Perm (Matcher.chains as ++ Matcher.chains bs) := by
    simpa only [search, Matcher.chains_eq_map, List.map_append] using h.map Matcher.chain
  have hrun : Outcome.Unites (Search.DealtHits (q.search false root).chains (Matcher.chains as)
      (Matcher.chains bs)) ((q.search false root).run root)
      (((q.selecting as).search false root).run root)
      (((q.selecting bs).search false root).run root) :=
    Search.unites_visit (s := q.search false root) rfl hcs root .nil
  exact hrun.bind fun hits xs ys hits' ↦ .ok hits'.found

open scoped Classical in
/-- The answer of a query from the answers for two parts of its alternatives. -/
theorem findAll_eq_ok_iff (h : q.alternatives.Perm (as ++ bs)) (found : List (Place α)) :
    q.findAll root = .ok found ↔
      ∃ xs ys, (q.selecting as).findAll root = .ok xs ∧ (q.selecting bs).findAll root = .ok ys ∧
        found = root.places.filter fun p ↦ p ∈ xs ∨ p ∈ ys := by
  have hunited := unites_findAll h root
  have hordered {l : List (Place α)} (hl : q.findAll root = .ok l) {xs ys : List (Place α)}
      (hxs : (q.selecting as).findAll root = .ok xs)
      (hys : (q.selecting bs).findAll root = .ok ys) :
      l = root.places.filter fun p ↦ p ∈ xs ∨ p ∈ ys := by
    have hsub := sublist_findAll hl
    apply Place.eq_of_ordered ((Tree.ordered_places root).sublist hsub)
      ((Tree.ordered_places root).filter _)
    intro p
    rw [List.mem_filter, decide_eq_true_iff, ← hunited.rel hl hxs hys p]
    exact ⟨fun hp ↦ ⟨hsub.subset hp, hp⟩, And.right⟩
  constructor
  · intro hl
    obtain ⟨⟨xs, hxs⟩, ys, hys⟩ := hunited.exists_iff.1 ⟨found, hl⟩
    exact ⟨xs, ys, hxs, hys, hordered hl hxs hys⟩
  · rintro ⟨xs, ys, hxs, hys, rfl⟩
    obtain ⟨l, hl⟩ := hunited.exists_iff.2 ⟨⟨xs, hxs⟩, ys, hys⟩
    rw [hl, hordered hl hxs hys]

open scoped Classical in
/-- However its alternatives are dealt out to two queries, a query has an answer exactly if both
have one. It then finds the nodes that one or the other finds, in document order and each once. So
the order of its alternatives matters neither to whether there is an answer nor to the answer. -/
theorem findAll_union (h : q.alternatives.Perm (as ++ bs)) (root : Tree α) :
    ((∃ found, q.findAll root = .ok found) ↔
      (∃ xs, (q.selecting as).findAll root = .ok xs) ∧
        ∃ ys, (q.selecting bs).findAll root = .ok ys) ∧
    (∀ found xs ys, q.findAll root = .ok found → (q.selecting as).findAll root = .ok xs →
      (q.selecting bs).findAll root = .ok ys →
      found = root.places.filter fun p ↦ p ∈ xs ∨ p ∈ ys) ∧
    ∀ cs, cs.Perm q.alternatives → ∀ found,
      (q.selecting cs).findAll root = .ok found ↔ q.findAll root = .ok found := by
  refine ⟨(unites_findAll h root).exists_iff, fun found xs ys hl hxs hys ↦ ?_,
    fun cs hcs found ↦ ?_⟩
  · obtain ⟨xs', ys', hxs', hys', rfl⟩ := (findAll_eq_ok_iff h found).1 hl
    obtain rfl := Except.ok.inj (hxs.symm.trans hxs')
    obtain rfl := Except.ok.inj (hys.symm.trans hys')
    rfl
  · -- both are dealt out to the query itself and to one without alternatives
    have hq : q.alternatives.Perm (q.alternatives ++ []) := by rw [List.append_nil]
    have hperm : (q.selecting cs).alternatives.Perm (q.alternatives ++ []) := hcs.trans hq
    exact (findAll_eq_ok_iff hperm found).trans (findAll_eq_ok_iff hq found).symm

open scoped Classical in
/-- In a list of an item, a text and two more items `text, item ~ item, item + item` finds the text
and the last two items; the last one is found by both siblings, the one before by `~` alone. -/
theorem findAll_union_siblings :
    let item : Matcher Content := ⟨some "item", none, [], [], [], none⟩
    let text : Chain (Matcher Content) := ⟨⟨some "text", none, [], [], [], none⟩, []⟩
    let later : Chain (Matcher Content) := ⟨item, [{ item with combinator := some .laterSibling }]⟩
    let next : Chain (Matcher Content) := ⟨item, [{ item with combinator := some .nextSibling }]⟩
    let q : Query Content := ⟨.empty, [text, later, next], 512⟩
    let a := Node.ofType "item"
    let b := Node.ofType "text"
    let root := Node.ofChildren "list" [a, b, a, a]
    let xs : List (Place Content) := [⟨[2], a⟩, ⟨[3], a⟩]
    let ys : List (Place Content) := [⟨[1], b⟩, ⟨[3], a⟩]
    q.alternatives.Perm ([later] ++ [text, next]) ∧
      q.findAll root = .ok [⟨[1], b⟩, ⟨[2], a⟩, ⟨[3], a⟩] ∧
      (q.selecting [later]).findAll root = .ok xs ∧
      (q.selecting [text, next]).findAll root = .ok ys ∧
      [⟨[1], b⟩, ⟨[2], a⟩, ⟨[3], a⟩] = root.places.filter fun p ↦ p ∈ xs ∨ p ∈ ys := by
  intro item text later next q a b root xs ys
  have h : q.alternatives.Perm ([later] ++ [text, next]) := .swap later text [next]
  have hall : q.findAll root = .ok [⟨[1], b⟩, ⟨[2], a⟩, ⟨[3], a⟩] := rfl
  have hxs : (q.selecting [later]).findAll root = .ok xs := rfl
  have hys : (q.selecting [text, next]).findAll root = .ok ys := rfl
  exact ⟨h, hall, hxs, hys, (findAll_union h root).2.1 _ xs ys hall hxs hys⟩

end Query

end DocSelect

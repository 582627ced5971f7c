import DocSelect.Proofs.Outcome
import DocSelect.Run.Basic
import Mathlib

/-!
# What a run does, in order

A run first reads its inputs, all of them or all up to one that cannot be read. Then, if nothing can
be made of what was read, it reports that and ends; else it writes. So nothing is written before the
last thing that can go wrong has gone well.
-/

namespace DocSelect

/-- The answer that gives the contents of an input. -/
def answered (p : Input × String) : Input × Except SystemFailure String := (p.1, .ok p.2)

/-- Contents are known from the answers that give them. -/
theorem answered_injective : Function.Injective answered := by
  intro p q h
  obtain ⟨hinput, htext⟩ := Prod.mk.inj h
  exact Prod.ext hinput (Except.ok.inj htext)

namespace Event

/-- The event of an input that has been read. -/
def gave (p : Input × String) : Event := read p.1 (.ok p.2)

/-- The event of a text that has been written. -/
def wrote (text : String) : Event := write text (.ok ())

variable {α γ : Type} {f : Event → Option γ} {g : α → Event}

/-- Events that tell nothing leave nothing. -/
theorem filterMap_map_eq_nil (h : ∀ a, f (g a) = none) (l : List α) :
    (l.map g).filterMap f = [] := by
  rw [List.filterMap_map, List.filterMap_eq_nil_iff]
  exact fun a _ ↦ h a

/-- Events that all tell something leave that. -/
theorem filterMap_map_eq_map {k : α → γ} (h : ∀ a, f (g a) = some (k a)) (l : List α) :
    (l.map g).filterMap f = l.map k := by
  rw [List.filterMap_map, ← List.filterMap_eq_map]
  exact List.filterMap_congr fun a _ ↦ h a

end Event

namespace Transcript

/-- A run has reported one error, and found and written nothing. -/
def Failed {σ : Type} (t : Transcript σ Bool) : Prop :=
  ∃ e, t.reported = [e] ∧ t.result = false ∧ t.written = []

variable {σ β γ : Type} {t : Transcript σ β}

/-- Behind what is silent, writing texts is told by these texts. -/
theorem told_of_wrote {r : Transcript σ γ} (hsilent : r.written = [] ∧ r.reported = [])
    {texts : List String} (h : t.events = r.events ++ texts.map .wrote) :
    t.answers = r.answers ∧ t.written = texts ∧ t.reported = [] := by
  obtain ⟨hwritten, hreported⟩ := hsilent
  simp only [answers, written, reported] at hwritten hreported ⊢
  rw [h, List.filterMap_append, List.filterMap_append, List.filterMap_append, hwritten, hreported]
  refine ⟨?_, ?_, ?_⟩
  · rw [Event.filterMap_map_eq_nil (fun _ ↦ rfl), List.append_nil]
  · rw [Event.filterMap_map_eq_map (f := Event.written?) (k := id) (fun _ ↦ rfl), List.map_id,
      List.nil_append]
  · rw [Event.filterMap_map_eq_nil (fun _ ↦ rfl), List.append_nil]

/-- Behind what is silent, a report is told by its error. -/
theorem told_of_report {r : Transcript σ γ} (hsilent : r.written = [] ∧ r.reported = [])
    {e : RunError} (h : t.events = r.events ++ [.report e]) :
    t.answers = r.answers ∧ t.written = [] ∧ t.reported = [e] := by
  obtain ⟨hwritten, hreported⟩ := hsilent
  simp only [answers, written, reported] at hwritten hreported ⊢
  rw [h, List.filterMap_append, List.filterMap_append, List.filterMap_append, hwritten, hreported]
  exact ⟨List.append_nil _, rfl, rfl⟩

end Transcript

namespace Program

variable {σ β γ : Type} {sys : System σ}

/-- What has happened before comes first. -/
theorem after_after (a b : List Event) (t : Transcript σ β) :
    (t.after b).after a = t.after (a ++ b) := by
  simp [Transcript.after]

/-- Of two programs, the second goes on from the result and the state of the first. -/
theorem exec_bind (p : Program β) (f : β → Program γ) (s : σ) :
    (p >>= f).exec sys s = ((f (p.exec sys s).result).exec sys (p.exec sys s).state).after
      (p.exec sys s).events := by
  -- a step of the first program is a step of both, and the rest is the same for any state
  induction p generalizing s with
  | done b => rfl
  | read input next ih =>
    show (((next (sys.read input s).1) >>= f).exec sys (sys.read input s).2).after _ = _
    rw [ih, after_after]
    rfl
  | write text next ih =>
    show (((next (sys.write text s).1) >>= f).exec sys (sys.write text s).2).after _ = _
    rw [ih, after_after]
    rfl
  | report e next ih =>
    show ((next >>= f).exec sys (sys.report e s)).after _ = _
    rw [ih, after_after]
    rfl

variable {x : ExceptT RunError Program β} {f : β → ExceptT RunError Program γ} {s s' : σ}
  {events : List Event}

/-- A program that only has a result leaves everything as it is. -/
theorem exec_pure (b : β) :
    (pure b : ExceptT RunError Program β).run.exec sys s = ⟨.ok b, [], s⟩ := rfl

/-- Steps that ask nothing of the system can be taken one after the other or at once. -/
theorem ofExcept_bind {α : Type} (a : Except RunError α) (g : α → Except RunError β) :
    ofExcept (a >>= g) >>= f = ofExcept a >>= fun b ↦ ofExcept (g b) >>= f := by
  cases a <;> rfl

/-- A program goes on behind a result. -/
theorem exec_bind_of_ok {b : β} (h : x.run.exec sys s = ⟨.ok b, events, s'⟩) :
    (x >>= f).run.exec sys s = ((f b).run.exec sys s').after events := by
  rw [ExceptT.run_bind, exec_bind, h]

/-- A program ends at an error. -/
theorem exec_bind_of_error {e : RunError} (h : x.run.exec sys s = ⟨.error e, events, s'⟩) :
    (x >>= f).run.exec sys s = ⟨.error e, events, s'⟩ := by
  rw [ExceptT.run_bind, exec_bind, h]
  simp [Transcript.after, exec, pure]

/-- An input that can be read is read. -/
theorem exec_readInput_of_ok {input : Input} {text : String}
    (h : sys.read input s = (.ok text, s')) :
    (readInput input).run.exec sys s = ⟨.ok text, [.gave (input, text)], s'⟩ := by
  simp only [readInput, ExceptT.run_mk, exec, h]
  rfl

/-- An input that cannot be read is an error. -/
theorem exec_readInput_of_error {input : Input} {failure : SystemFailure}
    (h : sys.read input s = (.error failure, s')) :
    (readInput input).run.exec sys s =
      ⟨.error (.fileRead input failure), [.read input (.error failure)], s'⟩ := by
  simp only [readInput, ExceptT.run_mk, exec, h]
  rfl

/-- Reading some inputs gives the contents of all of them, or ends at the first that cannot be
read. -/
theorem exec_readInputs (sys : System σ) (inputs : List Input) (s : σ) :
    (∃ (contents : List (Input × String)) (s' : σ), contents.map Prod.fst = inputs ∧
      (Sources.readInputs readInput inputs).run.exec sys s =
        ⟨.ok contents, contents.map .gave, s'⟩) ∨
    ∃ (contents : List (Input × String)) (input : Input) (failure : SystemFailure) (s' : σ),
      contents.map Prod.fst ++ [input] <+: inputs ∧
      (Sources.readInputs readInput inputs).run.exec sys s =
        ⟨.error (.fileRead input failure), contents.map .gave ++ [.read input (.error failure)],
          s'⟩ := by
  -- the induction is on the inputs left, with the state that the answers so far have led to
  induction inputs generalizing s with
  | nil => exact .inl ⟨[], s, rfl, rfl⟩
  | cons input rest ih =>
    unfold Sources.readInputs
    rcases hread : sys.read input s with ⟨failure | text, s₁⟩
    · refine .inr ⟨[], input, failure, s₁, ?_, ?_⟩
      · exact List.prefix_append [input] rest
      · exact exec_bind_of_error (exec_readInput_of_error hread)
    · rw [exec_bind_of_ok (exec_readInput_of_ok hread)]
      rcases ih s₁ with ⟨contents, s₂, hc, hrest⟩ | ⟨contents, stop, failure, s₂, hc, hrest⟩
      · refine .inl ⟨(input, text) :: contents, s₂, by rw [List.map_cons, hc], ?_⟩
        rw [exec_bind_of_ok hrest, exec_pure]
        simp [Transcript.after]
      · refine .inr ⟨(input, text) :: contents, stop, failure, s₂, by simpa using hc, ?_⟩
        rw [exec_bind_of_error hrest]
        rfl

/-- Reading writes nothing and reports nothing. -/
theorem silent_readInputs (sys : System σ) (inputs : List Input) (s : σ) :
    let t := (Sources.readInputs readInput inputs).run.exec sys s
    t.written = [] ∧ t.reported = [] := by
  intro t
  rcases exec_readInputs sys inputs s with
    ⟨contents, s', _, h⟩ | ⟨contents, input, failure, s', _, h⟩
  · simp only [t, h, Transcript.written, Transcript.reported]
    exact ⟨Event.filterMap_map_eq_nil (fun _ ↦ rfl) contents,
      Event.filterMap_map_eq_nil (fun _ ↦ rfl) contents⟩
  · simp only [t, h, Transcript.written, Transcript.reported, List.filterMap_append,
      List.append_eq_nil_iff]
    exact ⟨⟨Event.filterMap_map_eq_nil (fun _ ↦ rfl) contents, rfl⟩,
      ⟨Event.filterMap_map_eq_nil (fun _ ↦ rfl) contents, rfl⟩⟩

/-- Where writing never fails, all texts are written. -/
theorem exec_writeAll (hwrite : ∀ text s, (sys.write text s).1 = .ok ()) (texts : List String)
    (s : σ) : ∃ s', (writeAll texts).run.exec sys s = ⟨.ok (), texts.map .wrote, s'⟩ := by
  induction texts generalizing s with
  | nil => exact ⟨s, rfl⟩
  | cons text rest ih =>
    obtain ⟨s', hrest⟩ := ih (sys.write text s).2
    have htext : (writeText text).run.exec sys s =
        ⟨.ok (), [.wrote text], (sys.write text s).2⟩ := by
      simp only [writeText, ExceptT.run_mk, exec, hwrite]
      rfl
    refine ⟨s', ?_⟩
    rw [writeAll, exec_bind_of_ok htext, hrest]
    rfl

end Program

namespace RunOptions

/-- The inputs that a run reads: none unless its selector is a query. -/
def inputs (o : RunOptions) : List Input :=
  match o.task with
  | .ok (.search _) => Sources.inputs o.paths
  | .ok (.render _) | .error _ => []

/-- What a run makes of the contents of its inputs: whether anything matched and the pieces of text
to write, or why there is nothing to write. -/
def evaluate (o : RunOptions) (readers : Readers) (contents : List (Input × String)) :
    Except RunError (Bool × List String) := do
  match ← o.task with
  | .render text => return (true, o.audible [text ++ "\n"])
  | .search query =>
    let roots ← o.roots readers contents
    let results ← o.results query roots
    return (results.found, o.audible (o.pieces results.nodes))

variable {σ : Type} {sys : System σ} (o : RunOptions) (readers : Readers)

/-- A run reads all of its inputs, then makes up its mind, and then writes. -/
theorem attempt_eq :
    o.attempt readers = do
      let contents ← Sources.readInputs Program.readInput o.inputs
      let (found, texts) ← ofExcept (o.evaluate readers contents)
      Program.writeAll texts
      return found := by
  unfold attempt inputs evaluate
  -- only a search reads, and between reading and writing it asks nothing of the system
  rcases o.task with e | ⟨text⟩ | ⟨query⟩
  · rfl
  · rfl
  · simp only [Outcome.ok_bind, Program.ofExcept_bind]
    rfl

/-- Where writing never fails, an attempt ends with what is made of the inputs. Then all texts are
written; behind an error nothing happens. -/
theorem exec_attempt (hwrite : ∀ text s, (sys.write text s).1 = .ok ()) (s : σ) :
    let reading := (Sources.readInputs Program.readInput o.inputs).run.exec sys s
    let t := (o.attempt readers).run.exec sys s
    (∃ found texts, reading.result >>= o.evaluate readers = .ok (found, texts) ∧
      t.result = .ok found ∧ t.events = reading.events ++ texts.map .wrote) ∨
    ∃ e, reading.result >>= o.evaluate readers = .error e ∧ t.result = .error e ∧
      t.events = reading.events := by
  intro reading t
  have ht : t = (o.attempt readers).run.exec sys s := rfl
  rw [attempt_eq] at ht
  rcases hreading : reading with ⟨e | contents, events, s₁⟩
  · rw [Program.exec_bind_of_error hreading] at ht
    exact .inr ⟨e, rfl, by rw [ht], by rw [ht]⟩
  · rw [Program.exec_bind_of_ok hreading] at ht
    rw [Outcome.ok_bind]
    cases hmade : o.evaluate readers contents with
    | error e =>
      rw [hmade] at ht
      refine .inr ⟨e, rfl, by rw [ht]; rfl, ?_⟩
      rw [ht]
      exact List.append_nil events
    | ok made =>
      obtain ⟨found, texts⟩ := made
      obtain ⟨s₂, htexts⟩ := Program.exec_writeAll hwrite texts s₁
      rw [hmade] at ht
      change t = ((Program.writeAll texts >>= fun _ ↦ pure found).run.exec sys s₁).after events
        at ht
      rw [Program.exec_bind_of_ok htexts, Program.exec_pure] at ht
      refine .inl ⟨found, texts, rfl, by rw [ht]; rfl, ?_⟩
      simp [ht, Transcript.after]

/-- Where writing never fails, a run reads its inputs and then writes what it makes of them, or
reports why it makes nothing of them. -/
theorem exec_perform (hwrite : ∀ text s, (sys.write text s).1 = .ok ()) (s : σ) :
    let reading := (Sources.readInputs Program.readInput o.inputs).run.exec sys s
    let t := (o.perform readers).exec sys s
    (∃ texts, reading.result >>= o.evaluate readers = .ok (t.result, texts) ∧
      t.events = reading.events ++ texts.map .wrote) ∨
    ∃ e, reading.result >>= o.evaluate readers = .error e ∧ t.result = false ∧
      t.events = reading.events ++ [.report e] := by
  intro reading t
  have ht : t = (o.perform readers).exec sys s := rfl
  rw [perform, Program.exec_bind] at ht
  rcases o.exec_attempt readers hwrite s with
    ⟨found, texts, hmade, hresult, hevents⟩ | ⟨e, hmade, hresult, hevents⟩
  · rw [hresult, hevents] at ht
    refine .inl ⟨texts, ?_, ?_⟩
    · rw [ht]
      exact hmade
    · rw [ht]
      exact List.append_nil _
  · rw [hresult, hevents] at ht
    refine .inr ⟨e, hmade, ?_, ?_⟩
    · rw [ht]
      rfl
    · rw [ht]
      rfl

/-- Where writing never fails, a run has written what it makes of its inputs, or has failed. -/
theorem told_perform (hwrite : ∀ text s, (sys.write text s).1 = .ok ()) (s : σ) :
    let reading := (Sources.readInputs Program.readInput o.inputs).run.exec sys s
    let t := (o.perform readers).exec sys s
    t.answers = reading.answers ∧
      (reading.result >>= o.evaluate readers = .ok (t.result, t.written) ∧ t.reported = [] ∨
        ∃ e, reading.result >>= o.evaluate readers = .error e ∧ t.reported = [e] ∧
          t.result = false ∧ t.written = []) := by
  intro reading t
  have hsilent := Program.silent_readInputs sys o.inputs s
  rcases o.exec_perform readers hwrite s with
    ⟨texts, hmade, hevents⟩ | ⟨e, hmade, hresult, hevents⟩
  · obtain ⟨hanswers, hwritten, hreported⟩ := Transcript.told_of_wrote hsilent hevents
    rw [← hwritten] at hmade
    exact ⟨hanswers, .inl ⟨hmade, hreported⟩⟩
  · obtain ⟨hanswers, hwritten, hreported⟩ := Transcript.told_of_report hsilent hevents
    exact ⟨hanswers, .inr ⟨e, hmade, hreported, hresult, hwritten⟩⟩

/-- If documents in JSON give trees, each of them is one. -/
theorem exists_of_jsonRoots {readers : Readers} {contents : List (Input × String)}
    {roots : List Node} (h : jsonRoots readers contents = .ok roots) {p : Input × String}
    (hp : p ∈ contents) : ∃ node, Node.ofReading (readers.json p.2) = .ok node := by
  induction contents generalizing roots with
  | nil => cases hp
  | cons head rest ih =>
    obtain ⟨node, hnode, h⟩ := Outcome.bind_eq_ok.1 h
    obtain ⟨nodes, hnodes, _⟩ := Outcome.bind_eq_ok.1 h
    rcases List.mem_cons.1 hp with rfl | hp
    · exact ⟨node, Outcome.mapError_eq_ok.1 hnode⟩
    · exact ih hnodes hp

/-- If trees give results, so does each of them that is not behind one with results enough. -/
theorem exists_of_collect {untilFound : Bool} {f : Node → Except RunError Results}
    {before behind : List Node} {root : Node} {r : Results}
    (h : collect untilFound f (before ++ root :: behind) = .ok r)
    (hbefore : untilFound = true →
      ∀ node ∈ before, ∃ here, f node = .ok here ∧ here.found = false) :
    ∃ here, f root = .ok here := by
  induction before generalizing r with
  | nil =>
    obtain ⟨here, hhere, _⟩ := Outcome.bind_eq_ok.1 h
    exact ⟨here, hhere⟩
  | cons node before ih =>
    obtain ⟨here, hhere, h⟩ := Outcome.bind_eq_ok.1 h
    -- what stands before does not end the search, so the rest has results of its own
    have hgo : (untilFound && here.found) = false := by
      cases untilFound with
      | false => rfl
      | true =>
        obtain ⟨here', hhere', hnone⟩ := hbefore rfl node List.mem_cons_self
        rw [hhere] at hhere'
        rw [Except.ok.inj hhere', hnone]
        rfl
    rw [hgo] at h
    obtain ⟨rest, hrest, _⟩ := Outcome.bind_eq_ok.1 h
    exact ih hrest fun hu b hb ↦ hbefore hu b (List.mem_cons_of_mem node hb)

/-- Something is wrong with the inputs of a run that searches, as they have been answered. -/
inductive Spoilt (query : Query Content)
    (answers : List (Input × Except SystemFailure String)) : Prop where
  /-- An input cannot be read. -/
  | unread {input : Input} {failure : SystemFailure} (h : (input, .error failure) ∈ answers)
  /-- The contents of all inputs are no document in Markdown. -/
  | notMarkdown {contents : List (Input × String)} {message : String} (hinput : o.input = .markdown)
    (hanswers : answers = contents.map answered)
    (h : readers.markdown (Sources.joined o.paths contents) = .error message)
  /-- The contents of an input are no tree in JSON. -/
  | notJson {input : Input} {text : String} {e : TreeError} (hinput : o.input = .json)
    (hanswer : (input, .ok text) ∈ answers) (h : Node.ofReading (readers.json text) = .error e)
  /-- A tree cannot be searched, and is not behind the first match where no more is wanted. -/
  | notSearched {contents : List (Input × String)} {before behind : List Node} {root : Node}
    {e : RunError} (hanswers : answers = contents.map answered)
    (hroots : o.roots readers contents = .ok (before ++ root :: behind))
    (hbefore : o.mode = .first → ∀ node ∈ before, query.findFirst node = .ok none)
    (h : o.search query root = .error e)

/-- A run that makes something of its inputs finds nothing wrong with them. -/
theorem not_spoilt_of_evaluate {query : Query Content} (htask : o.task = .ok (.search query))
    {contents : List (Input × String)} {made : Bool × List String}
    (h : o.evaluate readers contents = .ok made) :
    ¬ o.Spoilt readers query (contents.map answered) := by
  rw [evaluate, htask, Outcome.ok_bind] at h
  obtain ⟨roots, hroots, h⟩ := Outcome.bind_eq_ok.1 h
  obtain ⟨results, hresults, _⟩ := Outcome.bind_eq_ok.1 h
  intro hspoilt
  cases hspoilt with
  | unread hmem =>
    obtain ⟨p, _, hp⟩ := List.mem_map.1 hmem
    cases (Prod.mk.inj hp).2
  | notMarkdown hinput hcontents hread =>
    obtain rfl := (List.map_inj_right answered_injective).1 hcontents
    simp only [RunOptions.roots, hinput] at hroots
    obtain ⟨node, hnode, _⟩ := Outcome.bind_eq_ok.1 hroots
    rw [Outcome.mapError_eq_ok, hread] at hnode
    cases hnode
  | notJson hinput hmem hread =>
    obtain ⟨p, hp, hpair⟩ := List.mem_map.1 hmem
    simp only [RunOptions.roots, hinput] at hroots
    obtain ⟨node, hnode⟩ := exists_of_jsonRoots hroots hp
    obtain ⟨_, htext⟩ := Prod.mk.inj hpair
    rw [Except.ok.inj htext, hread] at hnode
    cases hnode
  | notSearched hcontents hroots' hbefore hsearch =>
    obtain rfl := (List.map_inj_right answered_injective).1 hcontents
    obtain rfl := Except.ok.inj (hroots.symm.trans hroots')
    obtain ⟨here, hhere⟩ := exists_of_collect hresults fun hfirst node hnode ↦ by
      have hmode : o.mode = .first := by simpa using hfirst
      refine ⟨.ofNodes [], ?_, rfl⟩
      simp only [search, hmode, hbefore hmode node hnode]
      rfl
    rw [hsearch] at hhere
    cases hhere

/-- A run does all or nothing. If writing never fails, it reports one error, finds nothing and
writes nothing, or it reports none, and then what it tells and writes is what it makes of all of its
inputs. So where something is wrong with one of them, nothing is written of the others. -/
theorem perform_all_or_nothing (hwrite : ∀ text s, (sys.write text s).1 = .ok ()) (s : σ) :
    let t := (o.perform readers).exec sys s
    (t.Failed ∨ t.reported = [] ∧ ∃ contents : List (Input × String),
      contents.map Prod.fst = o.inputs ∧ t.answers = contents.map answered ∧
      o.evaluate readers contents = .ok (t.result, t.written)) ∧
    ∀ query, o.task = .ok (.search query) → o.Spoilt readers query t.answers → t.Failed := by
  intro t
  have hrun : t.Failed ∨ t.reported = [] ∧ ∃ contents : List (Input × String),
      contents.map Prod.fst = o.inputs ∧ t.answers = contents.map answered ∧
      o.evaluate readers contents = .ok (t.result, t.written) := by
    obtain ⟨hanswers, ⟨hmade, hreported⟩ | ⟨e, _, hfailed⟩⟩ :=
      o.told_perform readers hwrite s
    · rcases Program.exec_readInputs sys o.inputs s with
        ⟨contents, s', hinputs, hreading⟩ | ⟨contents, input, failure, s', _, hreading⟩
      · rw [hreading] at hmade hanswers
        refine .inr ⟨hreported, contents, hinputs, ?_, hmade⟩
        rw [hanswers]
        exact Event.filterMap_map_eq_map (f := Event.answer?) (fun _ ↦ rfl) contents
      · rw [hreading] at hmade
        cases hmade
    · exact .inl ⟨e, hfailed⟩
  refine ⟨hrun, fun query htask hspoilt ↦ ?_⟩
  rcases hrun with hfailed | ⟨_, contents, _, hanswers, hmade⟩
  · exact hfailed
  · rw [hanswers] at hspoilt
    exact absurd hspoilt (o.not_spoilt_of_evaluate readers htask hmade)

/-- Of two files the second is gone when its turn comes, and nothing is written of the first. -/
theorem perform_all_or_nothing_gone :
    let o : RunOptions :=
      { RunOptions.default with input := .json, selector := "a", paths := ["first", "second"] }
    let gone : SystemFailure := ⟨"gone", "not found"⟩
    let sys : System Nat := ⟨fun _ n ↦ (if n = 0 then .ok "{}" else .error gone, n + 1),
      fun _ n ↦ (.ok (), n + 1), fun _ n ↦ n + 1⟩
    let a : Compound := ⟨some (.named "a"), none, [], [], [], none⟩
    let query : Query Content := ⟨.chain ⟨a, []⟩, [⟨⟨some "a", none, [], [], [], none⟩, []⟩], 512⟩
    let readers : Readers := ⟨fun _ ↦ .error "", fun _ ↦ (.object [] none, none)⟩
    let t := (o.perform readers).exec sys 0
    (∀ text n, (sys.write text n).1 = .ok ()) ∧ o.task = .ok (.search query) ∧
      o.Spoilt readers query t.answers ∧ t.Failed := by
  intro o gone sys a query readers t
  have hwrite : ∀ text n, (sys.write text n).1 = .ok () := fun _ _ ↦ rfl
  have htask : o.task = .ok (.search query) := by cbv
  have hanswers : t.answers = [(.file "first", .ok "{}"), (.file "second", .error gone)] := by
    simp only [t, perform, attempt, htask]
    rfl
  have hspoilt : o.Spoilt readers query t.answers := by
    rw [hanswers]
    exact .unread (.tail _ (.head _))
  exact ⟨hwrite, htask, hspoilt,
    (o.perform_all_or_nothing readers hwrite 0).2 query htask hspoilt⟩

end RunOptions

end DocSelect

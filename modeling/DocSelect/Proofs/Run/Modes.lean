import DocSelect.Proofs.Query.FindFirst
import DocSelect.Proofs.Run.Effects

/-!
# What the modes agree on

The modes go through the same trees with the same query, each in its own way: one takes all nodes,
one stops at the first, and those that prune ask for the first and then for all. If the run that
takes all nodes has no error, none of the others has, and all of them tell the same.
-/

namespace DocSelect

namespace Results

/-- The nodes found in two parts of the input are found in the whole. -/
theorem append_ofNodes (ns ms : List Node) :
    (ofNodes ns).append (ofNodes ms) = ofNodes (ns ++ ms) := by
  cases ns <;> rfl

end Results

/-- The result of a program that goes on behind another. -/
theorem Program.result_bind {σ β γ : Type} {sys : System σ} (x : ExceptT RunError Program β)
    (f : β → ExceptT RunError Program γ) (s : σ) :
    ((x >>= f).run.exec sys s).result = (x.run.exec sys s).result >>= fun b ↦
      ((f b).run.exec sys (x.run.exec sys s).state).result := by
  rcases h : x.run.exec sys s with ⟨e | b, events, s'⟩
  · rw [exec_bind_of_error h]
    rfl
  · rw [exec_bind_of_ok h]
    rfl

namespace RunOptions

/-- The options of a run in some mode, which cascades or not. -/
def inMode (o : RunOptions) (mode : Mode) (cascade : Bool) : RunOptions :=
  { o with mode := mode, cascade := cascade }

/-- The options of a run that is quiet or not, and that writes in some format. -/
def printing (o : RunOptions) (quiet : Bool) (output : OutputFormat) : RunOptions :=
  { o with quiet := quiet, output := output }

variable {o : RunOptions} {env : Environment}

section Run

/-- Sources answer a program as they answer each time. -/
theorem result_readInputs (env : Environment) (inputs : List Input) :
    ((Sources.readInputs Program.readInput inputs).run.exec env.system ()).result =
      Sources.readInputs env.sources.read inputs := by
  induction inputs with
  | nil => rfl
  | cons input rest ih =>
    unfold Sources.readInputs
    rw [Program.result_bind]
    refine congrArg (env.sources.read input >>= ·) (funext fun text ↦ ?_)
    rw [Program.result_bind]
    exact congrArg (· >>= _) ih

/-- What a run leaves, from what it has made of its inputs. -/
def outcome : Except RunError (Bool × List String) → RunOutcome
  | .ok (found, texts) => ⟨found, String.join texts, none⟩
  | .error e => ⟨false, "", some e⟩

/-- A run without an error has made something of its inputs. -/
theorem exists_of_outcome {x : Except RunError (Bool × List String)}
    (h : (outcome x).error = none) : ∃ made, x = .ok made := by
  cases x with
  | error e => cases h
  | ok made => exact ⟨made, rfl⟩

/-- A run that can write leaves what it makes of its inputs. -/
theorem run_eq (hwrite : env.writeFailure = none) :
    o.run env = outcome
      (Sources.readInputs env.sources.read o.inputs >>= o.evaluate env.readers) := by
  have hsystem : ∀ text s, (env.system.write text s).1 = .ok () := by
    simp [Environment.system, hwrite]
  rw [← result_readInputs env o.inputs, run]
  obtain ⟨_, ⟨hmade, hreported⟩ | ⟨e, hmade, hreported, hresult, hwritten⟩⟩ :=
    o.told_perform env.readers hsystem ()
  · rw [hmade, hreported]
    rfl
  · rw [hmade, hreported, hresult, hwritten]
    rfl

end Run

section Results

variable {q : Query Content} {roots : List Node} {finds : List (List (Place Content))}

/-- What a query finds in some trees, tree by tree. -/
def Finds (q : Query Content) (roots : List Node) (finds : List (List (Place Content))) : Prop :=
  List.Forall₂ (fun root found ↦ q.findAll root = .ok found) roots finds

/-- The mode that wants all nodes has those of each tree in turn, if each tree gives some. -/
theorem exists_finds (hmode : o.mode = .all) {r : Results} (h : o.results q roots = .ok r) :
    ∃ finds, Finds q roots finds ∧ r = .ofNodes (finds.flatten.map Place.tree) := by
  have hfirst : (o.mode == .first) = false := by rw [hmode]; rfl
  rw [results, hfirst] at h
  induction roots generalizing r with
  | nil => exact ⟨[], .nil, (Except.ok.inj h).symm⟩
  | cons root rest ih =>
    obtain ⟨here, hhere, h⟩ := Outcome.bind_eq_ok.1 h
    obtain ⟨behind, hbehind, h⟩ := Outcome.bind_eq_ok.1 h
    simp only [search, hmode] at hhere
    obtain ⟨found, hfound, hhere⟩ := Outcome.bind_eq_ok.1 hhere
    obtain ⟨finds, hfinds, hrest⟩ := ih hbehind
    refine ⟨found :: finds, .cons (Outcome.mapError_eq_ok.1 hfound) hfinds, ?_⟩
    rw [← Except.ok.inj h, ← Except.ok.inj hhere, hrest, List.flatten_cons, List.map_append]
    exact Results.append_ofNodes ..

/-- The mode that wants one node has the first of all. -/
theorem results_first (hmode : o.mode = .first) (h : Finds q roots finds) :
    o.results q roots = .ok (.ofNodes (finds.flatten.head?.toList.map Place.tree)) := by
  have hfirst : (o.mode == .first) = true := by rw [hmode]; rfl
  rw [results, hfirst]
  induction h with
  | nil => rfl
  | @cons root found roots finds hfound _ ih =>
    have hhere : o.search q root = .ok (.ofNodes (found.head?.toList.map Place.tree)) := by
      simp only [search, hmode, Query.findFirst_of_findAll hfound]
      rfl
    rw [collect, hhere, Outcome.ok_bind]
    -- a tree without a match leaves the search to the rest, one with a match ends it
    cases found with
    | nil =>
      rw [ih]
      rfl
    | cons p ps => rfl

/-- A mode that prunes has a match in a tree if any node is found there. -/
theorem exists_tree (hmode : o.mode.prunes = true) {root : Node} {found : List (Place Content)}
    (h : q.findAll root = .ok found) :
    ∃ tree : Option Node, o.search q root = .ok ⟨!found.isEmpty, tree.toList⟩ := by
  have hfirst := Query.findFirst_of_findAll h
  cases hm : o.mode with
  | reject =>
    refine ⟨root.reject (Query.isAmong found) o.cascade, ?_⟩
    simp only [search, hm, hfirst, Query.reject, h]
    cases found <;> rfl
  | filter =>
    refine ⟨root.filter (Query.isAmong found) o.cascade, ?_⟩
    simp only [search, hm, hfirst, Query.filter, h]
    cases found <;> rfl
  | all | first | render => simp [hm, Mode.prunes] at hmode

/-- A mode that prunes has a match if there is one in some tree. -/
theorem results_prunes (hmode : o.mode.prunes = true) (h : Finds q roots finds) :
    ∃ trees, o.results q roots = .ok ⟨!finds.flatten.isEmpty, trees⟩ := by
  have hfirst : (o.mode == .first) = false := by
    cases hm : o.mode with
    | first => simp [hm, Mode.prunes] at hmode
    | _ => rfl
  rw [results, hfirst]
  induction h with
  | nil => exact ⟨[], rfl⟩
  | @cons root found roots finds hfound _ ih =>
    obtain ⟨trees, hrest⟩ := ih
    obtain ⟨tree, hhere⟩ := exists_tree hmode hfound
    rw [collect, hhere, Outcome.ok_bind, hrest]
    refine ⟨tree.toList ++ trees, ?_⟩
    cases found <;> rfl

end Results

section Agreement

variable {q : Query Content} {contents : List (Input × String)} {roots : List Node} {r : Results}

/-- A run searches some trees with a query, has some results, and leaves them written. -/
structure Produces (o : RunOptions) (env : Environment) (q : Query Content) (roots : List Node)
    (r : Results) : Prop where
  task : o.task = .ok (.search q)
  results : o.results q roots = .ok r
  run : o.run env = ⟨r.found, String.join (o.audible (o.pieces r.nodes)), none⟩

/-- A run that has results leaves them. -/
theorem produces_of_results (hwrite : env.writeFailure = none) (htask : o.task = .ok (.search q))
    (hread : env.sources.readEach o.paths = .ok contents)
    (hroots : o.roots env.readers contents = .ok roots) (h : o.results q roots = .ok r) :
    o.Produces env q roots r := by
  refine ⟨htask, h, ?_⟩
  have hinputs : Sources.readInputs env.sources.read o.inputs = .ok contents := by
    rw [inputs, htask]
    exact hread
  rw [run_eq hwrite, hinputs, Outcome.ok_bind, evaluate, htask, Outcome.ok_bind]
  simp only [hroots, h, Outcome.ok_bind]
  rfl

/-- A selector asks for a search in every mode but the one that renders it. -/
theorem exists_query (hmode : o.mode ≠ .render) {t : Task} (h : o.task = .ok t) :
    ∃ q, t = .search q := by
  rw [task] at h
  simp only [hmode, if_false] at h
  obtain ⟨_, _, h⟩ := Outcome.bind_eq_ok.1 h
  obtain ⟨q, _, h⟩ := Outcome.bind_eq_ok.1 h
  exact ⟨q, (Except.ok.inj h).symm⟩

/-- A run without an error that is to search has results. -/
theorem exists_results (hwrite : env.writeFailure = none) (hmode : o.mode ≠ .render)
    (h : (o.run env).error = none) :
    ∃ q contents roots r, o.task = .ok (.search q) ∧ env.sources.readEach o.paths = .ok contents ∧
      o.roots env.readers contents = .ok roots ∧ o.results q roots = .ok r := by
  rw [run_eq hwrite] at h
  obtain ⟨made, hmade⟩ := exists_of_outcome h
  obtain ⟨contents, hread, hmade⟩ := Outcome.bind_eq_ok.1 hmade
  obtain ⟨task, htask, hmade⟩ := Outcome.bind_eq_ok.1 hmade
  obtain ⟨q, rfl⟩ := exists_query hmode htask
  obtain ⟨roots, hroots, hmade⟩ := Outcome.bind_eq_ok.1 hmade
  obtain ⟨r, hr, _⟩ := Outcome.bind_eq_ok.1 hmade
  rw [inputs, htask] at hread
  exact ⟨q, contents, roots, r, htask, hread, hroots, hr⟩

/-- What a selector asks for is the same in all modes that search. -/
theorem task_inMode (hmode : o.mode ≠ .render) {mode : Mode} (hmode' : mode ≠ .render)
    (cascade : Bool) : (o.inMode mode cascade).task = o.task := by
  simp only [task, inMode, hmode, hmode', if_false]
  rfl

/-- How a run prints changes neither what it tells nor the error that it reports. -/
theorem run_printing (hwrite : env.writeFailure = none) (o : RunOptions) (quiet : Bool)
    (output : OutputFormat) :
    ((o.printing quiet output).run env).found = (o.run env).found ∧
      ((o.printing quiet output).run env).error = (o.run env).error := by
  rw [run_eq hwrite, run_eq hwrite]
  have hinputs : (o.printing quiet output).inputs = o.inputs := rfl
  have htask : (o.printing quiet output).task = o.task := rfl
  have hroots : (o.printing quiet output).roots = o.roots := rfl
  have hresults : (o.printing quiet output).results = o.results := rfl
  rw [hinputs]
  -- every step up to the results is the same, and so is its error
  rcases Sources.readInputs env.sources.read o.inputs with e | contents
  · exact ⟨rfl, rfl⟩
  simp only [Outcome.ok_bind, evaluate, htask, hroots, hresults]
  rcases o.task with e | ⟨text⟩ | ⟨q⟩
  · exact ⟨rfl, rfl⟩
  · exact ⟨rfl, rfl⟩
  simp only [Outcome.ok_bind]
  rcases o.roots env.readers contents with e | roots
  · exact ⟨rfl, rfl⟩
  simp only [Outcome.ok_bind]
  rcases o.results q roots with e | r
  · exact ⟨rfl, rfl⟩
  · exact ⟨rfl, rfl⟩

/-- The modes agree. If writing never fails and the run in the mode that wants all nodes reports no
error, then it has what the query finds in each tree in turn. The run that wants one node has the
first of these, the runs that prune have trees, and all of them tell alike whether there is any and
report no error. How a run prints changes nothing of that. -/
theorem run_agrees (hwrite : env.writeFailure = none) (hmode : o.mode = .all)
    (hall : (o.run env).error = none) :
    (∃ q contents roots finds, env.sources.readEach o.paths = .ok contents ∧
      o.roots env.readers contents = .ok roots ∧ Finds q roots finds ∧
      let nodes := finds.flatten.map Place.tree
      o.Produces env q roots ⟨!nodes.isEmpty, nodes⟩ ∧
      (∀ cascade, (o.inMode .first cascade).Produces env q roots
        ⟨!nodes.isEmpty, nodes.head?.toList⟩) ∧
      ∀ mode, mode.prunes → ∀ cascade, ∃ trees,
        (o.inMode mode cascade).Produces env q roots ⟨!nodes.isEmpty, trees⟩) ∧
    ∀ mode cascade quiet output,
      (((o.inMode mode cascade).printing quiet output).run env).found =
        ((o.inMode mode cascade).run env).found ∧
      (((o.inMode mode cascade).printing quiet output).run env).error =
        ((o.inMode mode cascade).run env).error := by
  have hsearch : o.mode ≠ .render := by rw [hmode]; exact nofun
  obtain ⟨q, contents, roots, r, htask, hread, hroots, hr⟩ := exists_results hwrite hsearch hall
  obtain ⟨finds, hfinds, rfl⟩ := exists_finds hmode hr
  refine ⟨⟨q, contents, roots, finds, hread, hroots, hfinds, ?_, fun cascade ↦ ?_,
    fun mode hprunes cascade ↦ ?_⟩, fun mode cascade ↦ run_printing hwrite _⟩
  · exact produces_of_results hwrite htask hread hroots hr
  · have hresults := results_first (o := o.inMode .first cascade) rfl hfinds
    have hfirst : Results.ofNodes (finds.flatten.head?.toList.map Place.tree) =
        ⟨!(finds.flatten.map Place.tree).isEmpty,
          (finds.flatten.map Place.tree).head?.toList⟩ := by
      cases finds.flatten <;> rfl
    rw [← hfirst]
    exact produces_of_results hwrite ((task_inMode hsearch (by decide) cascade).trans htask) hread
      hroots hresults
  · have hrender : mode ≠ .render := by
      rintro rfl
      cases hprunes
    obtain ⟨trees, hresults⟩ := results_prunes (o := o.inMode mode cascade) hprunes hfinds
    rw [List.isEmpty_map]
    exact ⟨trees, produces_of_results hwrite ((task_inMode hsearch hrender cascade).trans htask)
      hread hroots hresults⟩

/-- In a list of two items, read from JSON, each mode finds something, and none has an error. -/
theorem run_agrees_items :
    let o : RunOptions :=
      { RunOptions.default with input := .json, selector := "item", output := .type }
    let items := "[\x7b\"type\":\"item\"\x7d,\x7b\"type\":\"item\"\x7d]"
    let text := "\x7b\"type\":\"list\",\"children\":" ++ items ++ "\x7d"
    let item : Draft := .object [("type", .string "item")] none
    let list : Draft :=
      .object [("type", .string "list"), ("children", .array [item, item] none)] none
    let env : Environment :=
      ⟨⟨.ok text, fun _ ↦ .error ⟨"gone", "not found"⟩⟩,
        ⟨fun _ ↦ .error "", fun _ ↦ (list, none)⟩, none⟩
    env.writeFailure = none ∧ o.mode = .all ∧ (o.run env).error = none ∧
      (o.run env).output = "item\nitem\n" ∧ ((o.inMode .first true).run env).error = none ∧
      ((o.inMode .reject false).run env).found = (o.run env).found := by
  intro o items text item list env
  have htask : o.task = .ok (.search ⟨.chain ⟨⟨some (.named "item"), none, [], [], [], none⟩, []⟩,
      [⟨⟨some "item", none, [], [], [], none⟩, []⟩], 512⟩) := by cbv
  have hall : (o.run env).error = none ∧ (o.run env).output = "item\nitem\n" := by
    simp only [run, perform, attempt, htask]
    exact ⟨rfl, rfl⟩
  obtain ⟨⟨q, contents, roots, finds, _, _, _, hrun, hfirst, hprunes⟩, _⟩ :=
    @run_agrees o env rfl rfl hall.1
  obtain ⟨trees, hreject⟩ := hprunes .reject rfl false
  refine ⟨rfl, rfl, hall.1, hall.2, ?_, ?_⟩
  · rw [(hfirst true).run]
  · rw [hreject.run, hrun.run]

end Agreement

end RunOptions

end DocSelect

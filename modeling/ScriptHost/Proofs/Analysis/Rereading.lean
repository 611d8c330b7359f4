import ScriptHost.Proofs.Analysis.Answers

/-!
# When scripts are read again

A request makes the engine look at scripts, one after the other (`Request.query_engine`), and a script is read at such a
look if it is not remembered in its present version.  So between two readings of a script something has outdated the
first one: the script was released, it was not tracked when the engine looked at it, or its version was another one then
(`Situation.read_again_only_if_outdated`).  A request that is repeated at once finds all scripts as it has left them.
-/

namespace ScriptHost.Analysis

/-- Every script that has a version has a text. -/
def ScriptView.Shown (view : ScriptView) : Prop :=
  ∀ fileName, view.version fileName ≠ untracked → (view.snapshot fileName).isSome = true

namespace SyntaxEngine

/-! ### Requests -/

/-- What an engine can be asked for. -/
inductive Request where
  | sourceFile (fileName : String)
  | ask (topic : Host.Topic) (fileName : String) (offset : Nat)

namespace Request

/-- What is answered to a request. -/
def Answer : Request → Type
  | sourceFile _ => Option SourceUnit
  | ask topic _ _ => Option topic.Answer

/-- How the engine answers. -/
def query (view : ScriptView) : (r : Request) → Query r.Answer
  | sourceFile fileName => engine.sourceFile view fileName
  | ask topic fileName offset => topic.question engine view fileName offset

/-- The scripts that are searched when the name is found, some of them twice. -/
def searches (view : ScriptView) (s : String → Option ParsedScript) (fileName : String) (target : Target) :
    Host.Topic → List String
  | .definitions | .typeDefinitions | .quickInfo => searchOrder view fileName
  | .references => searchOrder view fileName ++ searchOrder view fileName
  | .implementations =>
    searchOrder view fileName ++ if (heirs view s fileName target.name).isEmpty then searchOrder view fileName else []

/-- The scripts that the engine looks at, one after the other, if the given scripts are `s`. -/
def looks (view : ScriptView) (s : String → Option ParsedScript) : Request → List String
  | sourceFile fileName => [fileName]
  | ask topic fileName offset =>
    fileName :: (nameAt s fileName offset).elim [] fun target => searches view s fileName target topic

end Request

/-- The engine after it has looked at scripts. -/
def lookAt (view : ScriptView) (names : List String) (e : SyntaxEngine) : SyntaxEngine :=
  names.foldl (fun e name => (ensure view name e).2) e

private theorem lookAt_append (view : ScriptView) (names names' : List String) (e : SyntaxEngine) :
    lookAt view (names ++ names') e = lookAt view names' (lookAt view names e) := List.foldl_append

/-- If the given scripts are `s`, a query looks at the scripts `names`. -/
def LooksAt {α : Type} (view : ScriptView) (s : String → Option ParsedScript) (q : Query α) (names : List String) :
    Prop :=
  ∀ e, given view e = s → (q e).2 = lookAt view names e

namespace LooksAt

variable {α β : Type} {view : ScriptView} {s : String → Option ParsedScript}

private theorem pure (a : α) : LooksAt view s (Pure.pure a : Query α) [] := fun _ _ => rfl

private theorem bind {q : Query α} {f : α → Query β} {a : α} {names names' : List String} (ha : Answers view s q a)
    (hq : LooksAt view s q names) (hf : LooksAt view s (f a) names') : LooksAt view s (q >>= f) (names ++ names') := by
  intro e he
  obtain ⟨hanswer, hgiven⟩ := ha e he
  show (f (q e).1 (q e).2).2 = lookAt view (names ++ names') e
  rw [hanswer, hf (q e).2 hgiven, hq e he, lookAt_append]

private theorem map {q : Query α} {a : α} {names : List String} (ha : Answers view s q a) (hq : LooksAt view s q names)
    (g : α → β) : LooksAt view s (do return g (← q)) names := by
  have h : LooksAt view s (q >>= fun a => Pure.pure (g a)) (names ++ []) := bind ha hq (pure (g a))
  rwa [List.append_nil] at h

private theorem ensure (fileName : String) : LooksAt view s (ensure view fileName) [fileName] := fun _ _ => rfl

private theorem search (first : String) : LooksAt view s (search view first) (searchOrder view first) := by
  unfold SyntaxEngine.search
  induction searchOrder view first with
  | nil => exact pure []
  | cons name names ih =>
    rw [List.filterMapM_cons]
    change LooksAt view s _ ([name] ++ names)
    refine bind (.map (.ensure name) (·.map (name, ·))) (map (.ensure name) (ensure name) _) ?_
    cases s name with
    | none => exact ih
    | some script =>
      exact map (.filterMapM (fun name => .map (.ensure name) (·.map (name, ·))) names) ih ((name, script) :: ·)

private theorem declarationsNamed (first name : String) :
    LooksAt view s (declarationsNamed view first name) (searchOrder view first) :=
  map (.search first) (search first) _

private theorem withTarget {fileName : String} {offset : Nat} {answer : Target → Query (Option α)}
    {names : Target → List String} (h : ∀ target, LooksAt view s (answer target) (names target)) :
    LooksAt view s (withTarget view fileName offset answer)
      (fileName :: (nameAt s fileName offset).elim [] names) := by
  change LooksAt view s _ ([fileName] ++ (nameAt s fileName offset).elim [] names)
  refine bind (.map (.ensure fileName) (·.bind (ParsedScript.target? · offset)))
    (map (.ensure fileName) (ensure fileName) _) ?_
  rw [nameAt]
  cases (s fileName).bind (ParsedScript.target? · offset) with
  | none => exact pure none
  | some target => exact h target

/-- A request looks at the scripts that are listed for it. -/
private theorem request (r : Request) : LooksAt view s (r.query view) (r.looks view s) := by
  cases r with
  | sourceFile fileName => exact map (.ensure fileName) (ensure fileName) _
  | ask topic fileName offset =>
    have hdeclared (target : Target) : LooksAt view s _ _ := declarationsNamed fileName target.name
    have hsearch : LooksAt view s _ _ := search fileName
    cases topic with
    | definitions | typeDefinitions | quickInfo =>
      exact withTarget fun target => map (.declarationsNamed fileName target.name) (hdeclared target) _
    | references =>
      exact withTarget fun target => bind (.declarationsNamed fileName target.name) (hdeclared target)
        (map (.search fileName) hsearch _)
    | implementations =>
      refine withTarget fun target => bind (.search fileName) hsearch ?_
      show LooksAt view s (if !(heirs view s fileName target.name).isEmpty then _ else _) _
      cases (heirs view s fileName target.name).isEmpty with
      | false => exact pure _
      | true => exact map (.declarationsNamed fileName target.name) (hdeclared target) _

end LooksAt

/-- A request is answered from the given scripts. -/
private theorem exists_answers_request (view : ScriptView) (s : String → Option ParsedScript) (r : Request) :
    ∃ a, Answers view s (r.query view) a := by
  cases r with
  | sourceFile fileName => exact ⟨_, .map (.ensure fileName) _⟩
  | ask topic fileName offset =>
    cases topic with
    | definitions => exact ⟨_, .definitionsAt fileName offset⟩
    | typeDefinitions => exact ⟨_, .typeDefinitionsAt fileName offset⟩
    | references => exact ⟨_, .referencesAt fileName offset⟩
    | implementations => exact ⟨_, .implementationsAt fileName offset⟩
    | quickInfo => exact ⟨_, .quickInfoAt fileName offset⟩

/-! ### A look at a script -/

/-- What comes of an engine that looks at a script. -/
inductive Look (view : ScriptView) (fileName : String) (e : SyntaxEngine) : SyntaxEngine → Prop where
  | dropped (hu : view.version fileName = untracked) :
    Look view fileName e { e with scripts := e.scripts.erase fileName }
  | kept {script} (hu : view.version fileName ≠ untracked) (hs : e.scripts.get? fileName = some script)
    (hv : script.unit.version = view.version fileName) : Look view fileName e e
  | missed (hu : view.version fileName ≠ untracked) (ht : view.snapshot fileName = none) :
    Look view fileName e { e with snapshotCount := e.snapshotCount + 1 }
  | read {source} (hu : view.version fileName ≠ untracked)
    (hv : ∀ script, e.scripts.get? fileName = some script → script.unit.version ≠ view.version fileName)
    (ht : view.snapshot fileName = some source) :
    Look view fileName e
      { scripts := e.scripts.insert fileName (.read fileName (view.version fileName) source)
        parseCount := e.parseCount + 1
        snapshotCount := e.snapshotCount + 1 }

private theorem look_ensure (view : ScriptView) (fileName : String) (e : SyntaxEngine) :
    Look view fileName e (ensure view fileName e).2 := by
  unfold ensure
  by_cases hu : view.version fileName = untracked
  · rw [if_pos hu]
    exact .dropped hu
  · simp only [if_neg hu]
    have hload : (∀ script, e.scripts.get? fileName = some script → script.unit.version ≠ view.version fileName) →
        Look view fileName e (ensure.load view fileName (view.version fileName) e).2 := by
      intro hv
      unfold ensure.load
      cases ht : view.snapshot fileName with
      | none => exact .missed hu ht
      | some source => exact .read hu hv ht
    cases hs : e.scripts.get? fileName with
    | none => exact hload (by simp [hs])
    | some script =>
      dsimp only
      split
      · rename_i hv
        exact .kept hu hs hv
      · rename_i hv
        exact hload (by simpa [hs] using hv)

/-! ### Repeated requests -/

/-- What is remembered of a script is its present version, and nothing is if it is not tracked. -/
def Current (view : ScriptView) (e : SyntaxEngine) (fileName : String) : Prop :=
  if view.version fileName = untracked then e.scripts.get? fileName = none
  else ∃ script, e.scripts.get? fileName = some script ∧ script.unit.version = view.version fileName

variable {view : ScriptView} {e e' : SyntaxEngine} {fileName : String}

/-- A script of which the present version is remembered is not read. -/
private theorem ensure_of_current (h : Current view e fileName) : (ensure view fileName e).2 = e := by
  unfold Current at h
  unfold ensure
  split at h
  · rename_i hu
    rw [if_pos hu, Table.erase_of_not_found h]
  · rename_i hu
    obtain ⟨script, hscript, hversion⟩ := h
    simp only [if_neg hu, hscript, if_pos hversion]

private theorem Look.current (hview : view.Shown) (h : Look view fileName e e') : Current view e' fileName := by
  unfold Current
  cases h with
  | dropped hu => simp [hu]
  | kept hu hs hv =>
    rw [if_neg hu]
    exact ⟨_, hs, hv⟩
  | missed hu ht =>
    have hshown := hview fileName hu
    rw [ht] at hshown
    cases hshown
  | read hu hv ht =>
    rw [if_neg hu]
    exact ⟨_, by rw [Table.get?_insert, if_pos rfl], rfl⟩

private theorem Current.ensure (h : Current view e fileName) (other : String) :
    Current view (SyntaxEngine.ensure view other e).2 fileName := by
  by_cases hne : fileName = other
  · subst hne
    rwa [ensure_of_current h]
  · unfold Current
    rw [get?_ensure_of_ne view hne]
    exact h

private theorem Current.lookAt (h : Current view e fileName) (names : List String) :
    Current view (SyntaxEngine.lookAt view names e) fileName := by
  induction names generalizing e with
  | nil => exact h
  | cons name names ih => exact ih (h.ensure name)

private theorem current_lookAt (hview : view.Shown) {names : List String} (h : fileName ∈ names) :
    Current view (lookAt view names e) fileName := by
  induction names generalizing e with
  | nil => cases h
  | cons name names ih =>
    rcases List.mem_cons.1 h with rfl | h
    · exact ((look_ensure view fileName e).current hview).lookAt names
    · exact ih h

private theorem lookAt_of_current {names : List String} (h : ∀ fileName ∈ names, Current view e fileName) :
    lookAt view names e = e := by
  induction names with
  | nil => rfl
  | cons name names ih =>
    obtain ⟨hname, hnames⟩ := List.forall_mem_cons.1 h
    show lookAt view names (ensure view name e).2 = e
    rw [ensure_of_current hname, ih hnames]

/-- A request that is repeated is answered alike and leaves the engine as it is. -/
private theorem Request.query_again (hview : view.Shown) (r : Request) (e : SyntaxEngine) :
    r.query view (r.query view e).2 = r.query view e := by
  obtain ⟨a, ha⟩ := exists_answers_request view (given view e) r
  obtain ⟨hanswer, hgiven⟩ := ha e rfl
  have hlook : LooksAt view (given view e) (r.query view) (r.looks view (given view e)) := .request r
  refine Prod.ext ((ha _ hgiven).1.trans hanswer.symm) ?_
  rw [hlook _ hgiven, lookAt_of_current]
  intro fileName hmem
  rw [hlook e rfl]
  exact current_lookAt hview hmem

/-! ### Runs -/

/-- What happens to an engine. -/
inductive Event where
  /-- From now on, scripts are as `view` shows them. -/
  | change (view : ScriptView)
  | release (fileName : String)
  | request (r : Request)

/-- What the engine does with a single script. -/
inductive Contact where
  | look (view : ScriptView) (fileName : String)
  | release (fileName : String)

/-- The engine after it has done something with a script. -/
def Contact.next (e : SyntaxEngine) : Contact → SyntaxEngine
  | look view fileName => (ensure view fileName e).2
  | release fileName => engine.release fileName e

/-- An engine and what it is shown. -/
structure Situation where
  view : ScriptView
  engine : SyntaxEngine

namespace Situation

/-- The situation after something has happened. -/
def next (s : Situation) : Event → Situation
  | .change view => { s with view := view }
  | .release fileName => { s with engine := SyntaxEngine.engine.release fileName s.engine }
  | .request r => { s with engine := (r.query s.view s.engine).2 }

/-- The situation after a run. -/
def after (s : Situation) (run : List Event) : Situation := run.foldl next s

/-- What the engine does with single scripts when something happens. -/
def contactsAt (s : Situation) : Event → List Contact
  | .change _ => []
  | .release fileName => [.release fileName]
  | .request r => (r.looks s.view (given s.view s.engine)).map (.look s.view)

/-- What the engine does with single scripts in a run. -/
def contacts (s : Situation) : List Event → List Contact
  | [] => []
  | event :: run => s.contactsAt event ++ (s.next event).contacts run

private theorem engine_next (s : Situation) (event : Event) :
    (s.next event).engine = (s.contactsAt event).foldl Contact.next s.engine := by
  cases event with
  | change | release => rfl
  | request r =>
    show (r.query s.view s.engine).2 = _
    rw [contactsAt, List.foldl_map, LooksAt.request r s.engine rfl]
    rfl

/-- A run does nothing to the engine but what it does with single scripts. -/
private theorem engine_after (s : Situation) (run : List Event) :
    (s.after run).engine = (s.contacts run).foldl Contact.next s.engine := by
  induction run generalizing s with
  | nil => rfl
  | cons event run ih =>
    rw [contacts, List.foldl_append, ← engine_next]
    exact ih (s.next event)

private theorem shown_after {s : Situation} {run : List Event} (hview : s.view.Shown)
    (hrun : ∀ view, .change view ∈ run → view.Shown) : (s.after run).view.Shown := by
  induction run generalizing s with
  | nil => exact hview
  | cons event run ih =>
    refine ih (s := s.next event) ?_ fun view hmem => hrun view (List.mem_cons_of_mem _ hmem)
    cases event with
    | change view => exact hrun view (List.mem_cons_self ..)
    | release | request => exact hview

end Situation

/-! ### Readings -/

namespace Contact

/-- The engine reads a script. -/
def Reads (fileName : String) (e : SyntaxEngine) (c : Contact) : Prop :=
  (∃ view, c = .look view fileName) ∧ (c.next e).parseCount = e.parseCount + 1

/-- What the engine has read of a script is outdated. -/
inductive Outdates (fileName : String) (e : SyntaxEngine) : Contact → Prop where
  | released : Outdates fileName e (.release fileName)
  | untracked {view : ScriptView} (h : view.version fileName = untracked) : Outdates fileName e (.look view fileName)
  | changed {view : ScriptView} {script} (hs : e.scripts.get? fileName = some script)
    (h : script.unit.version ≠ view.version fileName) : Outdates fileName e (.look view fileName)

variable {c : Contact}

/-- A script that has been read is remembered. -/
private theorem Reads.remembered (h : c.Reads fileName e) : ((c.next e).scripts.get? fileName).isSome = true := by
  obtain ⟨⟨view, rfl⟩, hcount⟩ := h
  have hlook := look_ensure view fileName e
  change (ensure view fileName e).2.parseCount = e.parseCount + 1 at hcount
  change ((ensure view fileName e).2.scripts.get? fileName).isSome = true
  generalize (ensure view fileName e).2 = e' at hlook hcount
  cases hlook with
  | dropped | kept | missed => exact absurd hcount (Nat.ne_of_lt (Nat.lt_succ_self _))
  | read => simp

/-- A script that is remembered is still remembered, and it is not read, unless it is outdated. -/
private theorem remembered_of_not_outdates (hr : (e.scripts.get? fileName).isSome = true)
    (h : ¬ c.Outdates fileName e) : ((c.next e).scripts.get? fileName).isSome = true ∧ ¬ c.Reads fileName e := by
  obtain ⟨script, hs⟩ := Option.isSome_iff_exists.1 hr
  cases c with
  | release other =>
    have hne : fileName ≠ other := by
      rintro rfl
      exact h .released
    refine ⟨?_, fun hreads => nomatch hreads.1⟩
    simpa [next, hne] using hr
  | look view other =>
    by_cases hne : fileName = other
    · subst hne
      have hcurrent : Current view e fileName := by
        unfold Current
        rw [if_neg fun hu => h (.untracked hu)]
        exact ⟨script, hs, of_not_not fun hv => h (.changed hs hv)⟩
      have hnext : next e (.look view fileName) = e := ensure_of_current hcurrent
      refine ⟨by rwa [hnext], fun hreads => ?_⟩
      rw [Reads, hnext] at hreads
      exact absurd hreads.2 (Nat.ne_of_lt (Nat.lt_succ_self _))
    · refine ⟨?_, ?_⟩
      · rw [next, get?_ensure_of_ne view hne]
        exact hr
      · rintro ⟨⟨view', heq⟩, -⟩
        exact hne (Contact.look.inj heq).2.symm

/-- Before a script that is remembered is read, it is outdated. -/
private theorem exists_outdates {between : List Contact} (hr : (e.scripts.get? fileName).isSome = true)
    (h : c.Reads fileName (between.foldl next e)) : ∃ middle x rest, between ++ [c] = middle ++ x :: rest ∧
      x.Outdates fileName (middle.foldl next e) := by
  induction between generalizing e with
  | nil =>
    by_cases ho : c.Outdates fileName e
    · exact ⟨[], c, [], rfl, ho⟩
    · exact absurd h (remembered_of_not_outdates hr ho).2
  | cons first between ih =>
    by_cases ho : first.Outdates fileName e
    · exact ⟨[], first, between ++ [c], rfl, ho⟩
    · obtain ⟨middle, x, rest, heq, hx⟩ := ih (remembered_of_not_outdates hr ho).1 h
      exact ⟨first :: middle, x, rest, congrArg (first :: ·) heq, hx⟩

end Contact

/-- In every run of changes, releases and requests, the engine does with single scripts what `contacts` lists.  If it
reads a script at two of these places, then behind the first one, and not behind the second, it has been told that the
script is outdated: the script was released, it was not tracked, or its version differed from the remembered one.  And a
request after the run that is repeated at once has an equal answer and leaves the engine as it is: no script is read,
and none is asked for. -/
theorem Situation.read_again_only_if_outdated {s : Situation} {run : List Event} (hview : s.view.Shown)
    (hrun : ∀ view, .change view ∈ run → view.Shown) :
    (s.after run).engine = (s.contacts run).foldl Contact.next s.engine ∧
    (∀ fileName before c between c' behind, s.contacts run = before ++ c :: (between ++ c' :: behind) →
      c.Reads fileName (before.foldl Contact.next s.engine) →
      c'.Reads fileName ((before ++ c :: between).foldl Contact.next s.engine) →
      ∃ middle x rest, between ++ [c'] = middle ++ x :: rest ∧
        x.Outdates fileName ((before ++ c :: middle).foldl Contact.next s.engine)) ∧
    ∀ r : Request, r.query (s.after run).view (r.query (s.after run).view (s.after run).engine).2 =
      r.query (s.after run).view (s.after run).engine := by
  refine ⟨s.engine_after run, fun fileName before c between c' behind _ hc hc' => ?_, fun r => ?_⟩
  · rw [List.foldl_append] at hc'
    obtain ⟨middle, x, rest, heq, hx⟩ := Contact.exists_outdates hc.remembered hc'
    refine ⟨middle, x, rest, heq, ?_⟩
    rw [List.foldl_append]
    exact hx
  · exact r.query_again (Situation.shown_after hview hrun) _

/-- A script that is changed between two requests is read at both. -/
theorem Situation.read_again_only_if_outdated_of_change : ∃ (s : Situation) (run : List Event) (c c' : Contact)
    (behind : List Contact), s.view.Shown ∧ (∀ view, .change view ∈ run → view.Shown) ∧
      s.contacts run = c :: c' :: behind ∧ c.Reads "/a.ts" s.engine ∧ c'.Reads "/a.ts" (c.next s.engine) ∧
      (∃ middle x rest, [c'] = middle ++ x :: rest ∧
        x.Outdates "/a.ts" ((c :: middle).foldl Contact.next s.engine)) ∧
      (Request.ask .references "/a.ts" 4).query (s.after run).view
          ((Request.ask .references "/a.ts" 4).query (s.after run).view (s.after run).engine).2 =
        (Request.ask .references "/a.ts" 4).query (s.after run).view (s.after run).engine := by
  let view (version : Version) (text : String) : ScriptView :=
    { names := ["/a.ts"]
      version := fun name => if name = "/a.ts" then version else untracked
      snapshot := fun name => if name = "/a.ts" then some text else none }
  have hview : ∀ version text, (view version text).Shown := by
    intro version text fileName hversion
    by_cases hname : fileName = "/a.ts"
    · show (if fileName = "/a.ts" then some text else none).isSome = true
      rw [if_pos hname]
      rfl
    · exact absurd (if_neg hname) hversion
  let s : Situation := ⟨view 1 "let a = 1;", fresh⟩
  let run : List Event := [.request (.sourceFile "/a.ts"), .change (view 2 "let a = 2;"),
    .request (.ask .definitions "/a.ts" 4)]
  have hrun : ∀ view, .change view ∈ run → view.Shown := by
    intro view hmem
    simp only [run, List.mem_cons, reduceCtorEq, Event.change.injEq, List.not_mem_nil, false_or, or_false] at hmem
    rw [hmem]
    exact hview _ _
  let c : Contact := .look s.view "/a.ts"
  let c' : Contact := .look (view 2 "let a = 2;") "/a.ts"
  have hcontacts : ∃ behind, s.contacts run = c :: c' :: behind := ⟨_, rfl⟩
  have hc : c.Reads "/a.ts" s.engine := ⟨⟨_, rfl⟩, by decide +kernel⟩
  have hc' : c'.Reads "/a.ts" (c.next s.engine) := ⟨⟨_, rfl⟩, by decide +kernel⟩
  obtain ⟨behind, hcontacts⟩ := hcontacts
  obtain ⟨-, hoften, hagain⟩ := Situation.read_again_only_if_outdated (s := s) (hview _ _) hrun
  exact ⟨s, run, c, c', behind, hview _ _, hrun, hcontacts, hc, hc',
    hoften "/a.ts" [] c [] c' behind hcontacts hc hc', hagain _⟩

end SyntaxEngine

end ScriptHost.Analysis

import Cosim.Command.Run
import Cosim.Proofs.Dictionary.Grammar
import Cosim.Proofs.Span
import Cosim.Proofs.Watch.Bounds
import Cosim.Proofs.Watch.Watching

/-!
# Ends of watching

The program that watches results, with every bound checked that reading a plan and reading, joining
and cutting tables depends on.  No bound is ever exceeded, so that the checked program is the
program.  It ends with a table or with a failure, unless a number of seconds on its command line is
too great for a span.
-/

namespace Cosim.Command

open Watch

/-! ## Checked work -/

/-- Why a checked program stops. -/
inductive Fault where
  | setback (s : Setback)
  /-- an index, a slice or a difference is out of bounds -/
  | outOfBounds

/-- What a checked program does. -/
abbrev Guarded := EStateM Fault Disk

namespace Guarded

variable {α β : Type}

def ofWork (x : Work α) : Guarded α := fun d =>
  match x d with
  | .ok a d => .ok a d
  | .error s d => .error (.setback s) d

/-- An action outside all contexts. -/
def ofAction (x : Action α) : Guarded α := ofWork (.ofAction none x)

/-- A result that there is only within bounds. -/
def within : Option α → Guarded α
  | some a => pure a
  | none => throw .outOfBounds

/-- Work that goes on from other work is checked step by step. -/
theorem ofWork_bind (x : Work α) (f : α → Work β) :
  ofWork (x >>= f) = ofWork x >>= fun a => ofWork (f a)
  := by
  funext d
  simp only [ofWork, bind, EStateM.bind]
  cases x d <;> rfl

theorem ofAction_pure (a : α) :
  ofAction (pure a) = pure a
  := rfl

/-- Actions one after the other are checked work one after the other. -/
theorem ofWork_ofAction_bind (context : Option String) (x : Action α) (f : α → Action β) :
  ofWork (.ofAction context (x >>= f)) =
    ofWork (.ofAction context x) >>= fun a => ofWork (.ofAction context (f a))
  := by
  funext d
  simp only [ofWork, Work.ofAction, bind, EStateM.bind]
  cases x d <;> rfl

/-- Actions one after the other are checked one after the other. -/
theorem ofAction_bind (x : Action α) (f : α → Action β) :
  ofAction (x >>= f) = ofAction x >>= fun a => ofAction (f a)
  := ofWork_ofAction_bind none x f

theorem within_some (a : α) :
  within (some a) = pure a
  := rfl

/-! ## Checked plans -/

/-- Reads the plan of a watch dictionary. -/
def readPlan (context : Option String) (path : String) : Guarded Plan := do
  let d ← ofWork (.ofAction context (Dictionary.load path))
  match Settings.ofDictionary? d with
  | some settings =>
    within (settings.plan? (((Path.parent? path).bind Path.fileName?).getD "simulation"))
  | none => ofWork (.ofAction context (throw (.case .malformedWatch)))

/-- Reads the plan and the spans. -/
def prepare (o : WatchOptions) : Guarded (Watcher × Span) := do
  let plan ← readPlan (some s!"Reading {o.watchFile}") o.watchFile
  let interval ← ofWork (Work.span o.interval)
  let limit ← ofWork (Work.span o.timeout)
  pure (o.watcher plan limit, interval)

/-- Checked reading of a plan reads the plan, and nothing is out of range. -/
theorem readPlan_eq (context : Option String) (path : String) :
  readPlan context path = ofWork (.ofAction context (Plan.load path))
  := by
  rw [readPlan, Plan.load, ofWork_ofAction_bind]
  congr 1
  funext d
  simp only [Plan.ofDictionary, Settings.map_plan_ofDictionary?]
  cases Settings.ofDictionary? d with
  | none => rfl
  | some settings =>
    simp only [Settings.plan?_eq, within_some, Option.map_some]
    rfl

/-- Checked preparing prepares, and nothing is out of range. -/
theorem prepare_eq (o : WatchOptions) :
  prepare o = ofWork o.prepare
  := by
  simp only [prepare, WatchOptions.prepare, readPlan_eq, ofWork_bind]
  rfl

/-! ## Checked looks -/

/-- Reads a result file. -/
def load? (file : ResultFile) (how : Source.Reading) :
    Guarded (Option (Selection × List Row)) := do
  let d ← ofAction get
  match (d.content? file.path).bind Content.text? with
  | none => ofAction (throw .tableFormat)
  | some text =>
    match Csv.records how.delimiter text with
    | [] => pure none
    | header :: records =>
      if header.isEmpty then pure none
      else
        let s ← within (Selection.open? file.source (header.map Text.trim) how.configured
          how.timeColumn)
        let rows ← within (s.rows? records)
        pure (some (s, rows))

def readSources (plan : Plan) : Entries ResultFile → Guarded (List (Selection × List Row))
  | [] => pure []
  | (name, file) :: files => do
    let how : Source.Reading :=
      ⟨(plan.dataColumns.get? name).getD [], plan.timeColumn, plan.delimiter⟩
    let found ← load? file how
    let more ← readSources plan files
    pure (found.toList ++ more)

/-- One look at the results. -/
def look (w : Watcher) : Guarded (Sight × Table) := do
  let files ← ofAction (ResultFile.discover w.folder)
  let sources ← readSources w.plan files
  let joined ← within (Table.join? sources)
  let t ← within (joined.window? w.window)
  ofAction (w.writeResults t)
  pure (⟨files.values.map (·.path), t.rows.length⟩, t)

/-- A header that is not empty is opened in range, as the source that it makes. -/
theorem open?_of_ne_nil {header : List String} (hne : header ≠ []) (name : String)
    (configured : List ℕ) (timeColumn : String) :
  ∃ s, Source.ofHeaders? name header configured timeColumn = some s ∧
    Selection.open? name header configured timeColumn = some (Selection.ofSource s)
  := by
  obtain ⟨s, hsource, rfl, hselects⟩ := Source.exists_ofHeaders? hne name configured timeColumn
  exact ⟨s, hsource, Selection.open?_of_selects hselects⟩

/-- Reading within bounds is reading. -/
theorem load?_eq (file : ResultFile) (how : Source.Reading) :
  load? file how = ofAction (Option.map Selection.ofRead <$> Source.load? file how)
  := by
  funext d
  have hget (f : Disk → Guarded (Option (Selection × List Row))) :
      (ofAction get >>= f) d = f d d := rfl
  rw [load?, hget, Source.load?]
  simp only [ofAction, ofWork, Work.ofAction, map_bind, Action.get_bind]
  cases (d.content? file.path).bind Content.text? with
  | none => rfl
  | some text =>
    simp only [Source.ofText?]
    cases Csv.records how.delimiter text with
    | nil => rfl
    | cons header records =>
      cases header with
      | nil => rfl
      | cons field header =>
        have htrimmed : (field :: header).map Text.trim ≠ [] := List.cons_ne_nil _ _
        obtain ⟨s, hsource, hopen⟩ :=
          open?_of_ne_nil htrimmed file.source how.configured how.timeColumn
        simp only [hsource, hopen, List.isEmpty_cons, Bool.false_eq_true, if_false, within_some,
          pure_bind, Selection.rows?_ofSource, Option.map_some]
        rfl

/-- Checked reading of sources reads the sources, and nothing is out of range. -/
theorem readSources_eq (plan : Plan) (files : Entries ResultFile) :
  readSources plan files = ofAction (List.map Selection.ofRead <$> Watcher.readSources plan files)
  := by
  induction files with
  | nil => rfl
  | cons entry files ih =>
    obtain ⟨name, file⟩ := entry
    have hmap (found : Option (Source × List Row)) :
        (found.map Selection.ofRead).toList = found.toList.map Selection.ofRead := by
      cases found <;> rfl
    simp only [readSources, Watcher.readSources, load?_eq, ih, map_eq_pure_bind, ofAction_bind,
      ofAction_pure, bind_assoc, pure_bind, List.map_append, hmap]

/-- A look within bounds is a look. -/
theorem look_eq (w : Watcher) :
  look w = ofAction w.look
  := by
  simp only [look, Watcher.look, Watcher.readFiles, readSources_eq, map_eq_pure_bind,
    ofAction_bind, ofAction_pure, bind_assoc, pure_bind, Table.join?_ofRead, Table.window?_eq,
    within_some]

/-! ## Checked runs -/

/-- Looks again and again, until nothing changes or the time is up. -/
def follow? (w : Watcher) (p : Progress) : List Moment → Guarded (Option Table)
  | [] => pure none
  | m :: moments => do
    ofAction (modify m.change)
    let (sight, t) ← look w
    let p := p.see sight
    if p.isSettled || m.timeUp then pure (some t) else follow? w p moments

/-- Waits for results, watches them, and dumps the last table if that is asked for. -/
def finish (w : Watcher) (dumping : Bool) (moments : List Moment) : Guarded (Option Table) := do
  let awaited ← ofAction (Watcher.await? w.folder w.limit moments)
  let found ← match awaited with
    | some (_, moments) => follow? w .initial moments
    | none => pure none
  match found with
  | some t => if dumping then ofAction (w.dump t)
  | none => pure ()
  pure found

/-- Watches results as the options ask for it. -/
def watch (o : WatchOptions) (moments : (interval limit : Span) → List Moment) :
    Guarded (Option Table) := do
  let (w, interval) ← prepare o
  finish w o.dump (moments interval w.limit)

/-- Checked watching watches, and nothing is out of range. -/
theorem follow?_eq (w : Watcher) (p : Progress) (moments : List Moment) :
  follow? w p moments = ofAction (w.follow? p moments)
  := by
  induction moments generalizing p with
  | nil => rfl
  | cons m moments ih =>
    simp only [follow?, Watcher.follow?, Watcher.watchStep, look_eq, ofAction_bind,
      bind_assoc, pure_bind, ih]
    congr 1
    funext _
    congr 1
    funext found
    split <;> rfl

/-- Checked watching to the end does as watching to the end, and nothing is out of range. -/
theorem finish_eq (w : Watcher) (dumping : Bool) (moments : List Moment) :
  finish w dumping moments = ofAction (w.finish dumping moments)
  := by
  simp only [finish, Watcher.finish, Watcher.run?, ofAction_bind, follow?_eq, bind_assoc]
  congr 1
  funext awaited
  cases awaited with
  | none => rfl
  | some awaited =>
    simp only
    congr 1
    funext found
    cases found with
    | none => rfl
    | some t =>
      cases dumping with
      | false => rfl
      | true => exact (ofAction_bind (w.dump t) fun _ => pure (some t)).symm

/-- The checked program is the program. -/
theorem watch_eq (o : WatchOptions) (moments : (interval limit : Span) → List Moment) :
  watch o moments = ofWork (o.run moments)
  := by
  simp only [watch, WatchOptions.run, prepare_eq, ofWork_bind, finish_eq]
  rfl

end Guarded

/-! ## The end of the time -/

section Time

open Cosim.Action (bind_eq_ok pure_eq_ok throw_ne_ok)

variable {w : Watcher} {folder : String} {limit : Span} {d d' : Disk} {p : Progress} {m : Moment}
  {moments before : List Moment} {found : Option Table}
  {awaited : Option (Entries ResultFile × List Moment)}

/-- Looking goes on only before the time is up. -/
theorem follow?_cons_cases (h : w.follow? p (m :: moments) d = .ok found d') :
  found.isSome ∨ m.timeUp = false ∧ ∃ p' d₁, w.follow? p' moments d₁ = .ok found d'
  := by
  obtain ⟨⟨p', t, ended⟩, d₁, hstep, h⟩ := bind_eq_ok.mp h
  obtain ⟨-, -, -, -, -, hended⟩ := Watcher.watchStep_eq_ok.mp hstep
  cases ended with
  | true =>
    obtain ⟨rfl, -⟩ := pure_eq_ok.mp h
    exact .inl rfl
  | false => exact .inr ⟨(Bool.or_eq_false_iff.mp hended.symm).2, p', d₁, h⟩

/-- So does waiting. -/
theorem await?_cons_cases (h : Watcher.await? folder limit (m :: moments) d = .ok awaited d') :
  (∃ files, awaited = some (files, moments)) ∨
    m.timeUp = false ∧ ∃ d₁, Watcher.await? folder limit moments d₁ = .ok awaited d'
  := by
  obtain ⟨found, d₁, hstep, h⟩ := bind_eq_ok.mp h
  cases found with
  | some files =>
    obtain ⟨rfl, -⟩ := pure_eq_ok.mp h
    exact .inl ⟨files, rfl⟩
  | none =>
    simp only [Watcher.waitStep, bind_eq_ok] at hstep
    obtain ⟨-, -, -, files, d₂, -, hstep⟩ := hstep
    cases hempty : files.isEmpty with
    | false => simp [hempty, pure_eq_ok] at hstep
    | true =>
      cases htime : m.timeUp with
      | true => simp [hempty, htime, throw_ne_ok] at hstep
      | false => exact .inr ⟨rfl, d₁, h⟩

/-- Looks of which the last one is after the time end with a table. -/
theorem isSome_of_follow? (hm : m.timeUp = true)
    (h : w.follow? p (before ++ [m]) d = .ok found d') :
  found.isSome
  := by
  induction before generalizing p d with
  | nil =>
    obtain hsome | ⟨hlate, -⟩ := follow?_cons_cases h
    · exact hsome
    · rw [hm] at hlate
      cases hlate
  | cons first before ih =>
    obtain hsome | ⟨-, p', d₁, h⟩ := follow?_cons_cases h
    · exact hsome
    · apply ih h

/-- Waiting that ends in time leaves the last moment for looking. -/
theorem exists_of_await? {last : Moment} (hm : m.timeUp = true)
    (h : Watcher.await? folder limit (before ++ [m, last]) d = .ok awaited d') :
  ∃ files rest, awaited = some (files, rest ++ [last])
  := by
  induction before generalizing d with
  | nil =>
    obtain ⟨files, rfl⟩ | ⟨hlate, -⟩ := await?_cons_cases h
    · exact ⟨files, [], rfl⟩
    · rw [hm] at hlate
      cases hlate
  | cons first before ih =>
    obtain ⟨files, rfl⟩ | ⟨-, d₁, h⟩ := await?_cons_cases h
    · exact ⟨files, before ++ [m], by rw [List.append_assoc]; rfl⟩
    · apply ih h

/-- Moments of which the last two are after the time, one for waiting and one for looking. -/
def RunsOut (moments : List Moment) : Prop :=
  ∃ before m last, moments = before ++ [m, last] ∧ m.timeUp = true ∧ last.timeUp = true

/-- A watch whose time runs out ends with a table, if it does not fail. -/
theorem isSome_of_finish {dumping : Bool} (htime : RunsOut moments)
    (h : w.finish dumping moments d = .ok found d') :
  found.isSome
  := by
  obtain ⟨before, m, last, rfl, hm, hlast⟩ := htime
  obtain ⟨d₁, hrun⟩ := Watcher.run?_of_finish h
  obtain ⟨awaited, d₂, hawait, hfollow⟩ := bind_eq_ok.mp hrun
  obtain ⟨files, rest, rfl⟩ := exists_of_await? hm hawait
  apply isSome_of_follow? hlast hfollow

end Time

/-! ## Numbers of seconds -/

namespace Work

/-- There is no span of a number of seconds that is too long. -/
theorem span_of_overlong {x : Double} (h : x.Overlong) :
  span x = throw (.unrepresentable x)
  := by
  have hnone : Span.ofSeconds? x = none := (Span.ofSeconds?_eq_none_iff h.1 h.2.1).mpr h
  rw [span]
  simp only [h.1, h.2.1, Bool.or_self, Bool.false_eq_true, if_false, hnone]

/-- What is below zero and what is no number counts as zero, which has a span. -/
theorem exists_span {x : Double} (h : ¬ x.Overlong) :
  ∃ s, span x = pure s
  := by
  have hnothing : Span.ofSeconds? Double.zero = some ⟨0⟩ := by
    decide +kernel
  have hfloored : ∃ s, Span.ofSeconds? (if x.isNaN || x.isNegative then Double.zero else x) =
      some s := by
    cases hzero : x.isNaN || x.isNegative with
    | true => exact ⟨⟨0⟩, hnothing⟩
    | false =>
      obtain ⟨hnan, hnegative⟩ := Bool.or_eq_false_iff.mp hzero
      apply Option.ne_none_iff_exists'.mp
      exact fun hnone => h ((Span.ofSeconds?_eq_none_iff hnan hnegative).mp hnone)
  obtain ⟨s, hs⟩ := hfloored
  exact ⟨s, by simp only [span, hs]⟩

end Work

/-! ## Ends -/

/-- A checked program ends with a table, or with a failure that it reports. -/
def Ends : EStateM.Result Fault Disk (Option Table) → Prop
  | .ok found _ => found.isSome
  | .error (.setback (.failure _ _)) _ => True
  | .error _ _ => False

section Ends

variable {o : WatchOptions} (moments : (interval limit : Span) → List Moment) {d d' : Disk}
  {plan : Plan}

/-- Without a plan a watch fails where the plan is read. -/
theorem run_of_load_error {f : Failure} (h : Plan.load o.watchFile d = .error f d') :
  o.run moments d = .error (.failure (some s!"Reading {o.watchFile}") f) d'
  := by
  simp only [WatchOptions.run, WatchOptions.prepare, Work.ofAction, bind, EStateM.bind, h]

/-- With a plan a watch takes its spans and then goes on to its end. -/
theorem run_of_load (h : Plan.load o.watchFile d = .ok plan d') :
  o.run moments d = (do
    let interval ← Work.span o.interval
    let limit ← Work.span o.timeout
    Work.ofAction none ((o.watcher plan limit).finish o.dump (moments interval limit))) d'
  := by
  simp only [WatchOptions.run, WatchOptions.prepare, bind_assoc, pure_bind]
  simp only [Work.ofAction, bind, EStateM.bind, h]
  rfl

/-- A watch one of whose spans is too long fails there. -/
theorem run_of_overlong (h : Plan.load o.watchFile d = .ok plan d')
    (hlong : o.interval.Overlong ∨ o.timeout.Overlong) :
  ∃ x, o.run moments d = .error (.unrepresentable x) d'
  := by
  rw [run_of_load moments h]
  by_cases hinterval : o.interval.Overlong
  · rw [Work.span_of_overlong hinterval]
    exact ⟨o.interval, rfl⟩
  · obtain ⟨interval, hspan⟩ := Work.exists_span hinterval
    rw [hspan, pure_bind, Work.span_of_overlong (hlong.resolve_left hinterval)]
    exact ⟨o.timeout, rfl⟩

/-- A watch whose spans are not too long goes on to its end. -/
theorem run_of_spans (h : Plan.load o.watchFile d = .ok plan d')
    (hinterval : ¬ o.interval.Overlong) (htimeout : ¬ o.timeout.Overlong) :
  ∃ interval limit, o.run moments d =
    Work.ofAction none ((o.watcher plan limit).finish o.dump (moments interval limit)) d'
  := by
  obtain ⟨interval, hspan⟩ := Work.exists_span hinterval
  obtain ⟨limit, hlimit⟩ := Work.exists_span htimeout
  rw [run_of_load moments h, hspan, pure_bind, hlimit, pure_bind]
  exact ⟨interval, limit, rfl⟩

/-- Watching exceeds no bound, and it ends with a table or a failure unless the plan can be read and
a number of seconds is too great. -/
theorem watch_ends_iff (o : WatchOptions) {moments : (interval limit : Span) → List Moment}
    (htime : ∀ interval limit, RunsOut (moments interval limit)) (d : Disk) :
  Guarded.watch o moments = Guarded.ofWork (o.run moments) ∧
  (Ends (Guarded.watch o moments d) ↔ ∀ plan d', Plan.load o.watchFile d = .ok plan d' →
    ¬ o.interval.Overlong ∧ ¬ o.timeout.Overlong)
  := by
  refine ⟨Guarded.watch_eq o moments, ?_⟩
  rw [Guarded.watch_eq, Guarded.ofWork]
  cases hload : Plan.load o.watchFile d with
  | error f d' =>
    rw [run_of_load_error moments hload]
    constructor
    · intro _ _ _ hplan
      cases hplan
    · intro _
      trivial
  | ok plan d' =>
    constructor
    · intro hends _ _ _
      rw [← not_or]
      intro hlong
      obtain ⟨x, hrun⟩ := run_of_overlong moments hload hlong
      rw [hrun] at hends
      exact hends
    · intro hshort
      obtain ⟨hinterval, htimeout⟩ := hshort plan d' rfl
      obtain ⟨interval, limit, hrun⟩ := run_of_spans moments hload hinterval htimeout
      rw [hrun, Work.ofAction]
      cases hfinish : (o.watcher plan limit).finish o.dump (moments interval limit) d' with
      | ok found d'' => exact isSome_of_finish (htime interval limit) hfinish
      | error f d'' => trivial

end Ends

/-! ## A folder of results -/

/-- A folder with an empty watch dictionary and a result file. -/
def watchedDisk : Disk where
  items := [(["case"], .folder), (["case", "watchDict"], .file (.ofText "") false),
    (["case", "A_20240101_120000_1.csv"], .file (.ofText "Time,v\n0,1\n") false)]
  current := []

/-- Looks again at once, and never gives up. -/
def patient : WatchOptions where
  watchFile := "/case/watchDict"
  plot := false
  dump := false
  skip := none
  latest := none
  interval := Double.zero
  timeout := Double.infinity
  logging := ⟨.info, none, .warn⟩

/-- The plan of the patient watch is loaded. -/
theorem load_patient :
  ∃ plan, Plan.load patient.watchFile watchedDisk = .ok plan watchedDisk
  := by
  have hfile : watchedDisk.isFile patient.watchFile = true := by
    decide +kernel
  have htext : Action.readText patient.watchFile watchedDisk = .ok "" watchedDisk := by
    rfl
  have hload : Dictionary.load patient.watchFile watchedDisk = .ok [] watchedDisk := by
    rw [Dictionary.load, Action.get_bind, hfile]
    simp only [Bool.not_true, Bool.false_eq_true, if_false]
    rw [Action.bind_of_ok htext, Dictionary.ofText, Dictionary.document_empty]
    rfl
  rw [Plan.load, Action.bind_of_ok hload]
  exact ⟨_, rfl⟩

/-- Moments without disturbance, and one more. -/
def calm (_interval limit : Span) : List Moment := Moment.undisturbed limit ++ [⟨id, true⟩]

/-- Moments in which nothing happens run out of time. -/
theorem runsOut_calm (interval limit : Span) :
  RunsOut (calm interval limit)
  := ⟨_, ⟨id, true⟩, ⟨id, true⟩, List.append_assoc _ _ _, rfl, rfl⟩

/-- A watch that gives up at once ends. -/
theorem watch_ends_iff_impatient :
  Ends (Guarded.watch { patient with timeout := Double.zero } calm watchedDisk)
  := by
  obtain ⟨-, hends⟩ :=
    watch_ends_iff { patient with timeout := Double.zero } runsOut_calm watchedDisk
  apply hends.mpr
  intro _ _ _
  decide +kernel

/-- Infinite patience can be asked for on the command line. -/
theorem read_patient :
  WatchOptions.read ["--interval", "0", "--timeout", "inf", "/case/watchDict"] = .ok patient
  := by
  rfl

/-- The command line may ask for a watch that never gives up.  It stops with neither a table nor a
failure, although the plan has been read. -/
theorem not_ends_patient :
  ∃ o, WatchOptions.read ["--interval", "0", "--timeout", "inf", "/case/watchDict"] = .ok o ∧
    ∀ moments, ¬ Ends (Guarded.watch o moments watchedDisk)
  := by
  refine ⟨patient, read_patient, ?_⟩
  intro moments
  obtain ⟨plan, hload⟩ := load_patient
  have hlong : patient.interval.Overlong ∨ patient.timeout.Overlong := by
    decide +kernel
  obtain ⟨x, hrun⟩ := run_of_overlong moments hload hlong
  rw [Guarded.watch_eq, Guarded.ofWork, hrun]
  exact id

end Cosim.Command

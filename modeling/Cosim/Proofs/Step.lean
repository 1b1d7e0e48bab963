import Cosim.Proofs.Archive.Writing

/-!
# Runs of steps

A run of steps passes from moment to moment.  At each of them a step may fail, also for a reason
that does not lie on the disk, and the run then leaves the disk as it is.  What a run on a disk
comes to is one of its moments.
-/

namespace Cosim.Step

variable {place : String} {change : Archive.Listing → Except Failure Archive.Listing}
  {failure : Failure} {step : Step} {steps : List Step} {d d' : Disk}

/-! ## Moments -/

/-- How far a run has come: some steps are left, or it has returned, or a step has failed. -/
inductive Progress where
  | running (left : List Step)
  | returned
  | failed

/-- How far a run has come, and the disk at that time. -/
structure Moment where
  progress : Progress
  disk : Disk

/-- What comes next in a run.  A step is done or fails, and where it fails it leaves the disk as it
is.  An edit replaces its archive all at once, but a text is written bit by bit, so that its file
can hold anything before the step is done. -/
inductive Moment.Next : Moment → Moment → Prop where
  | done {step : Step} {steps : List Step} {d d' : Disk} (hrun : step.run d = .ok () d') :
    Next ⟨.running (step :: steps), d⟩ ⟨.running steps, d'⟩
  | failed {step : Step} {steps : List Step} {d : Disk} :
    Next ⟨.running (step :: steps), d⟩ ⟨.failed, d⟩
  | writing {path text : String} {content : Content} {steps : List Step} {d d' : Disk}
    (hwrite : Action.write path content d = .ok () d') :
    Next ⟨.running (.write path text :: steps), d⟩ ⟨.running (.write path text :: steps), d'⟩
  | returned {d : Disk} : Next ⟨.running [], d⟩ ⟨.returned, d⟩

/-- The moments of the runs of steps on a disk. -/
def Moment.Of (steps : List Step) (d : Disk) : Moment → Prop :=
  Relation.ReflTransGen Moment.Next ⟨.running steps, d⟩

/-- What holds at the start and is kept from each moment to the next one holds at all moments. -/
theorem Moment.Of.induction {P : Moment → Prop} {m : Moment} (hstart : P ⟨.running steps, d⟩)
    (hnext : ∀ m m', P m → m.Next m' → P m') (h : Moment.Of steps d m) :
  P m
  := by
  induction h with
  | refl => exact hstart
  | tail _ hstep ih => exact hnext _ _ ih hstep

/-! ## Single steps -/

/-- A step that edits an archive is done exactly if the edit is. -/
theorem run_edit_eq_ok_iff {u : PUnit} :
  (edit place change failure).run d = .ok u d' ↔
    Archive.succeeds (Archive.edit place change) d = .ok true d'
  := by
  rw [run, Action.bind_eq_ok]
  constructor
  · rintro ⟨done, d₁, hedit, hrest⟩
    cases done with
    | false => exact absurd hrest Action.throw_ne_ok
    | true =>
      cases hrest
      exact hedit
  · intro hedit
    exact ⟨true, d', hedit, rfl⟩

/-- A step whose edit is refused fails with its own failure. -/
theorem run_edit_of_refused
    (h : Archive.succeeds (Archive.edit place change) d = .ok false d') :
  (edit place change failure).run d = .error failure d'
  := Action.bind_of_ok h

/-- A step that is not done leaves the disk as it is. -/
theorem run_eq_error {e : Failure} (h : step.run d = .error e d') :
  d' = d
  := by
  cases step with
  | write path text => exact Action.write_eq_error h
  | edit path change failure =>
    rw [run] at h
    obtain hedit | ⟨d₁, hedit, -⟩ := Archive.succeeds_edit_cases path change d
    · rw [Action.bind_of_ok hedit] at h
      cases h
      rfl
    · rw [Action.bind_of_ok hedit] at h
      cases h

/-- The file that a step changes. -/
def path : Step → String
  | edit path _ _ => path
  | write path _ => path

/-- A step that is done has changed its file alone. -/
theorem changedAt_run {u : PUnit} (h : step.run d = .ok u d') :
  Archive.ChangedAt step.path d d'
  := by
  cases step with
  | write path text => exact Archive.changedAt_of_write h
  | edit path change failure =>
    have hdone := run_edit_eq_ok_iff.mp h
    obtain hedit | ⟨d₁, hedit, hchanged⟩ := Archive.succeeds_edit_cases path change d
    · rw [hedit] at hdone
      cases hdone
    · rw [hedit] at hdone
      cases hdone
      exact hchanged

/-! ## Whole runs -/

/-- The first step is done, and then the others. -/
theorem runAll_cons_of_ok (h : step.run d = .ok () d') (steps : List Step) :
  runAll (step :: steps) d = runAll steps d'
  := Action.bind_of_ok h

/-- No step follows one that fails. -/
theorem runAll_cons_of_error {e : Failure} (h : step.run d = .error e d') (steps : List Step) :
  runAll (step :: steps) d = .error e d'
  := Action.bind_of_error h

/-- A run that fails has changed the files of the steps in front of the last one at most. -/
theorem changedAt_of_runAll_error {file : String} {e : Failure}
    (hsteps : ∀ step ∈ steps.dropLast, step.path = file) (h : runAll steps d = .error e d') :
  Archive.ChangedAt file d d'
  := by
  induction steps generalizing d with
  | nil => cases h
  | cons step steps ih =>
    cases hrun : step.run d with
    | error e' d₁ =>
      rw [runAll_cons_of_error hrun] at h
      cases h
      rw [run_eq_error hrun]
      exact .refl file d
    | ok u d₁ =>
      rw [runAll_cons_of_ok hrun] at h
      cases steps with
      | nil => cases h
      | cons next steps =>
        rw [List.dropLast_cons_cons, List.forall_mem_cons] at hsteps
        have hchanged := changedAt_run hrun
        rw [hsteps.1] at hchanged
        exact hchanged.trans (ih hsteps.2 h)

/-- What a run comes to is a moment of it. -/
theorem moment_runAll (steps : List Step) (d : Disk) :
  match runAll steps d with
  | .ok _ d' => Moment.Of steps d ⟨.returned, d'⟩
  | .error _ d' => Moment.Of steps d ⟨.failed, d'⟩
  := by
  induction steps generalizing d with
  | nil => exact .single .returned
  | cons step steps ih =>
    cases hrun : step.run d with
    | ok u d₁ =>
      rw [runAll_cons_of_ok hrun]
      have hnext : Moment.Next ⟨.running (step :: steps), d⟩ ⟨.running steps, d₁⟩ := .done hrun
      have hrest := ih d₁
      cases hall : runAll steps d₁ with
      | ok u d' =>
        rw [hall] at hrest
        exact .head hnext hrest
      | error e d' =>
        rw [hall] at hrest
        exact .head hnext hrest
    | error e d₁ =>
      rw [runAll_cons_of_error hrun]
      obtain rfl := run_eq_error hrun
      exact .single .failed

end Cosim.Step

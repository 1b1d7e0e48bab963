import Cosim.Proofs.Fmu
import Cosim.Script.Launcher

/-!
# Scripts as tools

A call of a script is refused for its folder or for its program, and then nothing has happened on
the disk.  An FMU whose proxy program is refused stands for its own proxy, and one whose proxy
program is a script has what the script makes.
-/

namespace Cosim

namespace Script

variable {d d' : Disk} {call : Call} {limit : Span} {reason : String}

/-- Why a call cannot be started, if it cannot. -/
def refusal? (d : Disk) (call : Call) : Option Trouble :=
  match folderOf d call, Start.ofCall d call with
  | .error t, _ => some t
  | .ok _, .error t => some t
  | .ok _, .ok _ => none

/-- A call that is refused is told so and changes nothing. -/
theorem launcher_of_refusal {t : Trouble} (h : refusal? d call = some t) (limit : Span) :
  launcher call limit d = .ok (.notStarted t.numbered) d
  := by
  unfold refusal? at h
  rw [launcher, Action.get_bind]
  split at h
  · rename_i hfolder
    cases h
    rw [hfolder]
    rfl
  · rename_i hfolder hstart
    cases h
    rw [hfolder, hstart]
    rfl
  · cases h

/-- Working for a program is not the same as not starting it. -/
theorem ne_notStarted_of_endingOf {run : Run PUnit} {m m' : Machine} {ending : Ending}
    (h : endingOf run m d = .ok (ending, m') d') :
  ending ≠ .notStarted reason
  := by
  simp only [endingOf, Action.bind_eq_ok, Action.pure_eq_ok, Prod.mk.injEq] at h
  obtain ⟨⟨r, m₁⟩, d₁, -, ⟨rfl, -⟩, -⟩ := h
  split <;> rintro ⟨⟩

/-- A shell that has been started ends in one of the ways in which programs end. -/
theorem ne_notStarted_of_endingOfShell {run : Run PUnit} {m : Machine} {ending : Ending}
    (h : endingOfShell run m d = .ok ending d') :
  ending ≠ .notStarted reason
  := by
  rw [endingOfShell, Action.get_bind, Action.bind_eq_ok] at h
  obtain ⟨⟨ending', m'⟩, d₁, hending, h⟩ := h
  dsimp only at h
  split at h
  · cases h
    rintro ⟨⟩
  · split at h
    · simp only [Action.bind_eq_ok, Action.pure_eq_ok] at h
      obtain ⟨_, d₂, -, ⟨_, _⟩, d₃, hagain, rfl, rfl⟩ := h
      exact ne_notStarted_of_endingOf hagain
    · cases h
      exact ne_notStarted_of_endingOf hending

/-- A call is not started exactly if it is refused, and then the disk is as it was. -/
theorem launcher_eq_notStarted_iff :
  launcher call limit d = .ok (.notStarted reason) d' ↔
    d' = d ∧ ∃ t, refusal? d call = some t ∧ reason = t.numbered
  := by
  constructor
  · intro h
    cases hrefusal : refusal? d call with
    | some t =>
      rw [launcher_of_refusal hrefusal] at h
      cases h
      exact ⟨rfl, t, rfl, rfl⟩
    | none =>
      exfalso
      rw [launcher, Action.get_bind] at h
      unfold refusal? at hrefusal
      split at hrefusal
      · cases hrefusal
      · cases hrefusal
      · rename_i hfolder hstart
        rw [hfolder, hstart] at h
        dsimp only at h
        -- a program that has been started ends in some way, and none of the ways is not to start
        split at h
        · cases h
        · split at h
          · exact ne_notStarted_of_endingOfShell h rfl
          · simp only [Action.bind_eq_ok, Action.pure_eq_ok] at h
            obtain ⟨⟨ending, m⟩, d₁, hending, hsame, -⟩ := h
            exact ne_notStarted_of_endingOf hending hsame
  · rintro ⟨rfl, t, hrefusal, rfl⟩
    exact launcher_of_refusal hrefusal limit

/-- A run of a program that is refused fails and changes nothing. -/
theorem run_of_refusal {t : Trouble} (h : refusal? d call = some t) (limit : Span) :
  ∃ u, launcher.run call limit d = .error u d
  := by
  rw [Launcher.run]
  split
  · exact ⟨_, rfl⟩
  · exact ⟨_, Action.bind_of_ok (launcher_of_refusal h _)⟩

end Script

/-- An FMU stands for its own proxy where the program that makes proxies is refused. -/
theorem Fmu.proxify_of_refusal {f : Fmu} {name program host : String} {portNumber : Nat} {d : Disk}
    {t : Script.Trouble} (hname : Path.fileName? f.file = some name)
    (h : Script.refusal? d ⟨program, [name, s!"--remote={host}:{portNumber}"],
      some (Path.folder f.file)⟩ = some t) :
  f.proxify host portNumber (Script.launcher.proxyTool program) d = .ok f d
  := by
  obtain ⟨u, hrun⟩ := Script.run_of_refusal h Launcher.toolLimit
  have htool : Script.launcher.proxyTool program f.file host portNumber d = .error u d := by
    rw [Launcher.proxyTool, hname]
    exact Action.bind_of_error hrun
  exact Action.tryCatch_of_error (Action.bind_of_error htool)

/-- An FMU beside a script that copies it under the name of its proxy. -/
def Fmu.copyingDisk : Disk where
  items := [(["speed.fmu"], .file (.archive [(descriptionEntry, .ofText speedText)]) false),
    (["copy"], .file (.ofText "#!/bin/sh\ncp \"$1\" \"$\x7b1%.fmu\x7d-proxy.fmu\"\n") true)]
  current := []

set_option maxRecDepth 100000 in
example : (Fmu.speed.proxify "north" 1 (Script.launcher.proxyTool "/copy")).gives Fmu.copyingDisk
    (fun f _ => f.file == "/speed-proxy.fmu") = true := by
  decide +kernel

end Cosim

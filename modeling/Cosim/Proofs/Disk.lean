import Mathlib
import Cosim.Disk

/-!
# Runs of actions

An action that returns a value has run all its parts: `Action.bind_eq_ok` takes it apart.  An action
that only reads a file ends alike on all disks that have the same file.
-/

namespace Cosim.Action

variable {α β : Type} {d d' d'' : Disk}

/-- Two actions succeed exactly if the first one does and the second one goes on from it. -/
theorem bind_eq_ok {x : Action α} {f : α → Action β} {b : β} :
  (x >>= f) d = .ok b d'' ↔ ∃ a d', x d = .ok a d' ∧ f a d' = .ok b d''
  := by
  simp only [bind, EStateM.bind]
  cases h : x d with
  | ok a d' =>
    constructor
    · intro hf
      exact ⟨a, d', rfl, hf⟩
    · rintro ⟨_, _, ⟨⟩, hf⟩
      apply hf
  | error e d' => simp

/-- Behind a part that returns a value the rest runs. -/
theorem bind_of_ok {x : Action α} {f : α → Action β} {a : α} (h : x d = .ok a d') :
  (x >>= f) d = f a d'
  := by
  simp only [bind, EStateM.bind, h]

/-- A part that fails ends the whole. -/
theorem bind_of_error {x : Action α} {f : α → Action β} {e : Failure} (h : x d = .error e d') :
  (x >>= f) d = .error e d'
  := by
  simp only [bind, EStateM.bind, h]

/-- What comes behind reading the disk runs with it. -/
theorem get_bind (f : Disk → Action α) (d : Disk) :
  ((get : Action Disk) >>= f) d = f d d
  := rfl

/-- What succeeds needs no rescue. -/
theorem tryCatch_of_ok {x : Action α} {f : Failure → Action α} {a : α} (h : x d = .ok a d') :
  tryCatch x f d = .ok a d'
  := by
  simp only [tryCatch, tryCatchThe, MonadExceptOf.tryCatch, EStateM.tryCatch, h]

/-- What fails is rescued on the disk that it has left. -/
theorem tryCatch_of_error {x : Action α} {f : Failure → Action α} {e : Failure}
    (h : x d = .error e d') :
  tryCatch x f d = f e d'
  := by
  simp only [tryCatch, tryCatchThe, MonadExceptOf.tryCatch, EStateM.tryCatch, h]
  rfl

/-- Giving a value changes nothing. -/
theorem pure_eq_ok {a b : α} :
  (pure a : Action α) d = .ok b d' ↔ a = b ∧ d = d'
  := by
  simp [pure, EStateM.pure]

theorem get_eq_ok {a : Disk} :
  (get : Action Disk) d = .ok a d' ↔ d = a ∧ d = d'
  := by
  simp [get, getThe, MonadStateOf.get, EStateM.get]

/-- A failure is no success. -/
theorem throw_ne_ok {e : Failure} {a : α} :
  (throw e : Action α) d ≠ .ok a d'
  := by
  simp [throw, throwThe, MonadExceptOf.throw, EStateM.throw]

/-- A result succeeds as an action exactly if it is one, and changes nothing. -/
theorem ofExcept_eq_ok {r : Except Failure α} {a : α} :
  ofExcept r d = .ok a d' ↔ r = .ok a ∧ d = d'
  := by
  cases r with
  | ok b =>
    rw [Except.ok.injEq]
    apply pure_eq_ok
  | error e => simp [ofExcept, throw_ne_ok]

/-! ## Actions that read -/

/-- An action that changes nothing, and that ends alike on disks with the same item at a path. -/
def Reads (path : String) (x : Action α) : Prop :=
  ∀ d e : Disk, e.find? path = d.find? path →
    (∃ a, x d = .ok a d ∧ x e = .ok a e) ∨ ∃ u, x d = .error u d ∧ x e = .error u e

variable {path : String}

theorem reads_pure (path : String) (a : α) :
  Reads path (pure a)
  := fun _ _ _ => .inl ⟨a, rfl, rfl⟩

theorem reads_throw (path : String) (u : Failure) :
  Reads path (throw u : Action α)
  := fun _ _ _ => .inr ⟨u, rfl, rfl⟩

theorem reads_ofExcept (path : String) (r : Except Failure α) :
  Reads path (ofExcept r)
  := by
  cases r with
  | ok a => apply reads_pure
  | error u => apply reads_throw

/-- Two actions that read a path read it one after the other. -/
theorem reads_bind {x : Action α} {f : α → Action β} (h : Reads path x)
    (hf : ∀ a, Reads path (f a)) :
  Reads path (x >>= f)
  := by
  intro d e hde
  obtain ⟨a, hd, he⟩ | ⟨u, hd, he⟩ := h d e hde
  · rw [bind_of_ok hd, bind_of_ok he]
    apply hf a d e hde
  · rw [bind_of_error hd, bind_of_error he]
    exact .inr ⟨u, rfl, rfl⟩

/-- Reading a file reads its path. -/
theorem reads_read (path : String) :
  Reads path (read path)
  := by
  intro d e hde
  rw [read, get_bind, get_bind, Disk.content?, Disk.content?, hde]
  rcases d.find? path with _ | _ | ⟨content, executable⟩
  · exact .inr ⟨.file, rfl, rfl⟩
  · exact .inr ⟨.file, rfl, rfl⟩
  · exact .inl ⟨content, rfl, rfl⟩

/-- Reading a text reads the path of its file. -/
theorem reads_readText (path : String) :
  Reads path (readText path)
  := by
  apply reads_bind (reads_read path)
  intro content
  cases content.text? with
  | none => apply reads_throw
  | some s => apply reads_pure

/-- What is read only from a file is read, and nothing more. -/
theorem reads_of_isFile {x : Action α} (h : Reads path x) (u : Failure) :
  Reads path (do
    if !(← get).isFile path then throw u
    x)
  := by
  intro d e hde
  rw [get_bind, get_bind, Disk.isFile, Disk.isFile, hde]
  rcases hitem : d.find? path with _ | _ | ⟨content, executable⟩
  · exact .inr ⟨u, rfl, rfl⟩
  · exact .inr ⟨u, rfl, rfl⟩
  · exact h d e hde

/-- What reads a path changes nothing, and finds the same wherever that path leads to the same. -/
theorem Reads.eq_ok {x : Action α} {a : α} (h : Reads path x) (hx : x d = .ok a d') :
  d' = d ∧ ∀ e : Disk, e.find? path = d.find? path → x e = .ok a e
  := by
  have hboth (e : Disk) (he : e.find? path = d.find? path) : d' = d ∧ x e = .ok a e := by
    obtain ⟨b, hd, he⟩ | ⟨u, hd, -⟩ := h d e he
    · cases hx.symm.trans hd
      exact ⟨rfl, he⟩
    · cases hx.symm.trans hd
  exact ⟨(hboth d rfl).1, fun e he => (hboth e he).2⟩

/-! ## Runs of one input -/

/-- Whether an action gives something with a property. -/
def gives (x : Action α) (d : Disk) (p : α → Disk → Bool) : Bool :=
  match x d with
  | .ok a d' => p a d'
  | .error _ _ => false

/-- An action that gives something succeeds with it. -/
theorem exists_of_gives {x : Action α} {p : α → Disk → Bool}
    (h : x.gives d p = true) :
  ∃ a d', x d = .ok a d' ∧ p a d' = true
  := by
  rw [Action.gives] at h
  cases hx : x d with
  | ok a d' => exact ⟨a, d', rfl, by rwa [hx] at h⟩
  | error e d' =>
    rw [hx] at h
    cases h

/-- Whether an action fails and leaves a disk with a property. -/
def fails (x : Action α) (d : Disk) (p : Disk → Bool) : Bool :=
  match x d with
  | .ok _ _ => false
  | .error _ d' => p d'

/-- An action that fails and leaves something leaves a disk with it. -/
theorem exists_of_fails {x : Action α} {p : Disk → Bool} (h : x.fails d p = true) :
  ∃ e d', x d = .error e d' ∧ p d' = true
  := by
  rw [Action.fails] at h
  cases hx : x d with
  | ok a d' =>
    rw [hx] at h
    cases h
  | error e d' => exact ⟨e, d', rfl, by rwa [hx] at h⟩

end Cosim.Action

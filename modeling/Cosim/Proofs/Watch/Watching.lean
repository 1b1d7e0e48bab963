import Cosim.Proofs.Entries
import Cosim.Proofs.Files
import Cosim.Watch.Watcher

/-!
# Watching results

A watch that ends before its time is up ends with three looks that have found the same newest files
and have shown as many rows.  The joined tables were then equally long, unless the window hid what
was added to them.
-/

namespace Cosim.Watch

open Cosim.Action (bind_eq_ok get_eq_ok pure_eq_ok throw_ne_ok)

/-! ## Windows -/

namespace Table.Window

variable {w : Window} {m n : ℕ}

/-- The number of rows that a window shows of a table. -/
def shown (w : Window) (total : ℕ) : ℕ := total - w.start total

/-- Lengths of tables that a window does not tell apart: nothing is shown of either table, or the
latest rows of both. -/
inductive Alike (w : Window) : ℕ → ℕ → Prop where
  | equal (n : ℕ) : Alike w n n
  | skipped {m n : ℕ} : m ≤ w.skip.getD 0 → n ≤ w.skip.getD 0 → Alike w m n
  | cut {m n latest : ℕ} : w.latest = some latest → 0 < latest → w.skip.getD 0 + latest ≤ m →
    w.skip.getD 0 + latest ≤ n → Alike w m n

/-- A window that takes all rows shows those that it does not skip. -/
theorem shown_of_all (h : ∀ latest, w.latest = some latest → latest = 0) (n : ℕ) :
  w.shown n = n - w.skip.getD 0
  := by
  rw [shown, start]
  cases hlatest : w.latest with
  | none =>
    simp only
    omega
  | some latest =>
    simp only [if_pos (h latest hlatest)]
    omega

/-- A window on the latest rows shows so many of those that it does not skip, if there are. -/
theorem shown_of_latest {latest : ℕ} (h : w.latest = some latest) (hpos : 0 < latest) (n : ℕ) :
  w.shown n = min (n - w.skip.getD 0) latest
  := by
  rw [shown, start]
  simp only [h, if_neg (Nat.ne_of_gt hpos)]
  omega

/-- A window shows equally many rows of tables exactly if it does not tell their lengths apart. -/
theorem shown_eq_iff :
  w.shown m = w.shown n ↔ w.Alike m n
  := by
  constructor
  · intro h
    by_cases hskip : m ≤ w.skip.getD 0 ∧ n ≤ w.skip.getD 0
    · apply Alike.skipped hskip.1 hskip.2
    · by_cases hcut : ∃ latest, w.latest = some latest ∧ 0 < latest ∧
          w.skip.getD 0 + latest ≤ m ∧ w.skip.getD 0 + latest ≤ n
      · obtain ⟨latest, hlatest, hpos, hm, hn⟩ := hcut
        apply Alike.cut hlatest hpos hm hn
      · obtain rfl : m = n := by
          by_cases hall : ∀ latest, w.latest = some latest → latest = 0
          · rw [shown_of_all hall, shown_of_all hall] at h
            omega
          · push Not at hall
            obtain ⟨latest, hlatest, hne⟩ := hall
            have hpos := Nat.pos_of_ne_zero hne
            rw [shown_of_latest hlatest hpos, shown_of_latest hlatest hpos] at h
            have hshort : ¬ (w.skip.getD 0 + latest ≤ m ∧ w.skip.getD 0 + latest ≤ n) :=
              fun hlong => hcut ⟨latest, hlatest, hpos, hlong⟩
            omega
        apply Alike.equal
  · intro h
    cases h with
    | equal => rfl
    | skipped hm hn =>
      rw [shown, shown, start, start]
      omega
    | cut hlatest hpos hm hn =>
      rw [shown_of_latest hlatest hpos, shown_of_latest hlatest hpos]
      omega

end Table.Window

/-- The window of a table has as many rows as it shows. -/
theorem Table.length_window (t : Table) (w : Table.Window) :
  (t.window w).rows.length = w.shown t.rows.length
  := List.length_drop

/-! ## Newest files -/

namespace ResultFile

/-- Result files under their sources, as their paths tell. -/
def Named (files : Entries ResultFile) : Prop := ∀ e ∈ files, ofPath? e.2.path = some e.2 ∧
  e.1 = e.2.source

/-- A result file that is made from a path has that path. -/
theorem ofPath?_path {path : String} {file : ResultFile} (h : ofPath? path = some file) :
  file.path = path
  := by
  simp only [ofPath?, Option.bind_eq_bind, Option.bind_eq_some_iff, Option.pure_def,
    Option.some.injEq] at h
  obtain ⟨name, -, ⟨source, stamp⟩, -, rfl⟩ := h
  rfl

/-- Files stay named as their paths tell when the newer of two is kept. -/
theorem Named.keepNewer {files : Entries ResultFile} {file : ResultFile} (h : Named files)
    (hfile : ofPath? file.path = some file) :
  Named (keepNewer files file)
  := by
  have hput : Named (files.put file.source file) := by
    intro e he
    obtain rfl | hold := Entries.mem_put he
    · exact ⟨hfile, rfl⟩
    · exact h e hold
  rw [ResultFile.keepNewer]
  split
  · split
    · exact hput
    · exact h
  · exact hput

/-- The newest files are named as their paths tell. -/
theorem named_newest {files : List ResultFile}
    (h : ∀ file ∈ files, ofPath? file.path = some file) :
  Named (newest files)
  := by
  have hfold (found : Entries ResultFile) (hfound : Named found) :
      Named (files.foldl ResultFile.keepNewer found) := by
    induction files generalizing found with
    | nil => exact hfound
    | cons file files ih =>
      rw [List.forall_mem_cons] at h
      exact ih h.2 _ (hfound.keepNewer h.1)
  intro e he
  rw [newest, List.mem_mergeSort] at he
  exact hfold [] (List.forall_mem_nil _) e he

/-- Looking for result files changes nothing and finds files named as their paths tell. -/
theorem discover_eq_ok {folder : String} {files : Entries ResultFile} {d d' : Disk}
    (h : discover folder d = .ok files d') :
  d = d' ∧ Named files
  := by
  simp only [discover, bind_eq_ok, pure_eq_ok] at h
  obtain ⟨items, _, hlist, rfl, rfl⟩ := h
  refine ⟨Action.list_eq_ok hlist, named_newest ?_⟩
  intro file hfile
  obtain ⟨⟨name, item⟩, -, hpath⟩ := List.mem_filterMap.mp hfile
  rw [ofPath?_path hpath, hpath]

/-- Named files are known by their paths. -/
theorem Named.eq_of_paths {files others : Entries ResultFile} (h : Named files)
    (hothers : Named others)
    (hpaths : files.values.map (·.path) = others.values.map (·.path)) :
  files = others
  := by
  induction files generalizing others with
  | nil =>
    cases others with
    | nil => rfl
    | cons other others => cases hpaths
  | cons e files ih =>
    cases others with
    | nil => cases hpaths
    | cons other others =>
      rw [Named, List.forall_mem_cons] at h hothers
      obtain ⟨⟨hpath, hname⟩, hfiles⟩ := h
      obtain ⟨⟨hpath', hname'⟩, hothers⟩ := hothers
      simp only [Entries.values, List.map_cons, List.cons.injEq] at hpaths
      obtain ⟨hfirst, hrest⟩ := hpaths
      rw [hfirst, hpath'] at hpath
      have hfile := Option.some.inj hpath
      rw [ih hfiles hothers hrest]
      congr 1
      apply Prod.ext
      · rw [hname, hname', hfile]
      · exact hfile.symm

end ResultFile

/-! ## Glances -/

/-- What one look finds: the newest files and what is read from them. -/
structure Glance where
  files : Entries ResultFile
  sources : List (Source × List Row)
deriving DecidableEq

namespace Glance

def joined (g : Glance) : Table := Table.join g.sources

/-- The number of rows of the joined table, before a window cuts it. -/
def rows (g : Glance) : ℕ := g.joined.rows.length

/-- The joined rows in the order in which they are added. -/
def unsorted (g : Glance) : List Row :=
  Table.addSources (g.sources.foldl (fun n (s, _) => n + s.data.length) 0) 0 [] g.sources

/-- The joined table has the rows that have been collected. -/
theorem rows_eq (g : Glance) :
  g.rows = g.unsorted.length
  := List.length_mergeSort _

/-- What a look is compared by. -/
def sight (g : Glance) (w : Table.Window) : Sight :=
  ⟨g.files.values.map (·.path), w.shown g.rows⟩

/-- Nothing that a window shows has changed from one glance to another. -/
structure Unchanged (w : Table.Window) (g g' : Glance) : Prop where
  files : g.files = g'.files
  rows : w.Alike g.rows g'.rows

/-- Between two glances with the same sight nothing has changed that the window shows. -/
theorem unchanged_of_sight {w : Table.Window} {g g' : Glance} (h : g.sight w = g'.sight w)
    (hnamed : ResultFile.Named g.files) (hnamed' : ResultFile.Named g'.files) :
  Unchanged w g g'
  := by
  obtain ⟨hpaths, hrows⟩ := Sight.mk.inj h
  exact ⟨hnamed.eq_of_paths hnamed' hpaths, Table.Window.shown_eq_iff.mp hrows⟩

end Glance

/-- Reading a result file changes nothing. -/
theorem Source.load?_eq_ok {file : ResultFile} {how : Reading} {found : Option (Source × List Row)}
    {d d' : Disk} (h : load? file how d = .ok found d') :
  d = d'
  := by
  simp only [load?, bind_eq_ok, get_eq_ok] at h
  obtain ⟨_, _, ⟨rfl, rfl⟩, h⟩ := h
  cases htext : (d.content? file.path).bind Content.text? with
  | none => simp [htext, throw_ne_ok] at h
  | some text =>
    simp only [htext, pure_eq_ok] at h
    exact h.2

namespace Watcher

variable {w : Watcher} {d d' : Disk} {p p' : Progress} {m : Moment} {t : Table}

/-- A glance at the folder. -/
def glance (w : Watcher) : Action Glance := do
  let files ← ResultFile.discover w.folder
  pure ⟨files, ← readSources w.plan files⟩

/-- Reading result files changes nothing. -/
theorem readSources_eq_ok {plan : Plan} {files : Entries ResultFile}
    {sources : List (Source × List Row)} (h : readSources plan files d = .ok sources d') :
  d = d'
  := by
  induction files generalizing d sources with
  | nil => exact (pure_eq_ok.mp h).2
  | cons e files ih =>
    simp only [readSources, bind_eq_ok, pure_eq_ok] at h
    obtain ⟨found, _, hload, more, _, hmore, -, rfl⟩ := h
    rw [Source.load?_eq_ok hload, ih hmore]

/-- A glance changes nothing and finds files named as their paths tell. -/
theorem glance_eq_ok {g : Glance} (h : w.glance d = .ok g d') :
  d = d' ∧ ResultFile.Named g.files
  := by
  simp only [glance, bind_eq_ok, pure_eq_ok] at h
  obtain ⟨files, _, hdiscover, sources, _, hread, rfl, rfl⟩ := h
  obtain ⟨rfl, hnamed⟩ := ResultFile.discover_eq_ok hdiscover
  exact ⟨readSources_eq_ok hread, hnamed⟩

/-- A look is a glance whose statistics are written. -/
theorem look_eq_ok {s : Sight} :
  w.look d = .ok (s, t) d' ↔ ∃ g, w.glance d = .ok g d ∧ s = g.sight w.window ∧
    t = g.joined.window w.window ∧ w.writeResults t d = .ok () d'
  := by
  simp only [look, readFiles, bind_eq_ok, pure_eq_ok]
  constructor
  · rintro ⟨files, d₁, hdiscover, _, d₂, ⟨sources, _, hread, rfl, rfl⟩, _, _, hwrite, h, rfl⟩
    obtain ⟨rfl, -⟩ := ResultFile.discover_eq_ok hdiscover
    obtain rfl := readSources_eq_ok hread
    obtain ⟨rfl, rfl⟩ := Prod.mk.inj h
    refine ⟨⟨files, sources⟩, ?_, ?_, rfl, hwrite⟩
    · simp only [glance, bind_eq_ok, pure_eq_ok]
      exact ⟨files, d, hdiscover, sources, d, hread, rfl, rfl⟩
    · rw [Glance.sight, Glance.rows, ← Table.length_window]
      rfl
  · rintro ⟨g, hglance, rfl, rfl, hwrite⟩
    simp only [glance, bind_eq_ok, pure_eq_ok] at hglance
    obtain ⟨files, d₁, hdiscover, sources, d₂, hread, rfl, rfl⟩ := hglance
    refine ⟨files, d₁, hdiscover, _, d₂, ⟨sources, d₂, hread, rfl, rfl⟩, (), d', hwrite, ?_, rfl⟩
    rw [Glance.sight, Glance.rows, ← Table.length_window]
    rfl

/-- One step of watching looks at the changed folder, and ends the watch when nothing has changed
for two looks or the time is up. -/
theorem watchStep_eq_ok {ended : Bool} :
  w.watchStep p m d = .ok (p', t, ended) d' ↔ ∃ g, w.glance (m.change d) = .ok g (m.change d) ∧
    t = g.joined.window w.window ∧ w.writeResults t (m.change d) = .ok () d' ∧
    p' = p.see (g.sight w.window) ∧ ended = (p'.isSettled || m.timeUp)
  := by
  have hmodify : (modify m.change : Action PUnit) d = .ok () (m.change d) := rfl
  simp only [watchStep, bind_eq_ok, pure_eq_ok]
  constructor
  · rintro ⟨_, _, hchange, ⟨sight, shown⟩, _, hlook, h, rfl⟩
    obtain ⟨-, rfl⟩ := EStateM.Result.ok.inj (hmodify.symm.trans hchange)
    obtain ⟨g, hglance, rfl, rfl, hwrite⟩ := look_eq_ok.mp hlook
    obtain ⟨rfl, rfl, rfl⟩ := h
    exact ⟨g, hglance, rfl, hwrite, rfl, rfl⟩
  · rintro ⟨g, hglance, rfl, hwrite, rfl, rfl⟩
    exact ⟨(), _, hmodify, _, d', look_eq_ok.mpr ⟨g, hglance, rfl, rfl, hwrite⟩, rfl, rfl⟩

/-- The glances of a watch that goes on through moments. -/
def glances (w : Watcher) : List Moment → Action (List Glance)
  | [] => pure []
  | m :: moments => do
    modify m.change
    let g ← w.glance
    w.writeResults (g.joined.window w.window)
    pure (g :: (← w.glances moments))

/-- Glances through moments are one at the first moment, whose results are written, and the others.
-/
theorem glances_cons_eq_ok {moments : List Moment} {looks : List Glance} :
  w.glances (m :: moments) d = .ok looks d' ↔ ∃ g d₁ more,
    w.glance (m.change d) = .ok g (m.change d) ∧
    w.writeResults (g.joined.window w.window) (m.change d) = .ok () d₁ ∧
    w.glances moments d₁ = .ok more d' ∧ looks = g :: more
  := by
  have hmodify : (modify m.change : Action PUnit) d = .ok () (m.change d) := rfl
  simp only [glances, bind_eq_ok, pure_eq_ok]
  constructor
  · rintro ⟨_, _, hchange, g, _, hglance, _, d₁, hwrite, more, _, hmore, rfl, rfl⟩
    obtain ⟨-, rfl⟩ := EStateM.Result.ok.inj (hmodify.symm.trans hchange)
    obtain ⟨rfl, -⟩ := glance_eq_ok hglance
    exact ⟨g, d₁, more, hglance, hwrite, hmore, rfl⟩
  · rintro ⟨g, d₁, more, hglance, hwrite, hmore, rfl⟩
    exact ⟨(), _, hmodify, g, _, hglance, (), d₁, hwrite, more, d', hmore, rfl, rfl⟩

/-- All glances find files named as their paths tell. -/
theorem named_of_glances {moments : List Moment} {looks : List Glance}
    (h : w.glances moments d = .ok looks d') :
  ∀ g ∈ looks, ResultFile.Named g.files
  := by
  induction moments generalizing d looks with
  | nil =>
    obtain ⟨rfl, -⟩ := pure_eq_ok.mp h
    apply List.forall_mem_nil
  | cons m moments ih =>
    obtain ⟨g, d₁, more, hglance, -, hmore, rfl⟩ := glances_cons_eq_ok.mp h
    rw [List.forall_mem_cons]
    exact ⟨(glance_eq_ok hglance).2, ih hmore⟩

end Watcher

/-! ## Progress -/

namespace Progress

variable {p : Progress} {sights : List Sight}

/-- The progress after looks: how often the last of them was there in a row, not counting the first
time. -/
def After (p : Progress) (sights : List Sight) : Prop :=
  match p.last with
  | none => p.unchanged = 0 ∧ sights = []
  | some s => ∃ front, sights = front ++ List.replicate (p.unchanged + 1) s

theorem after_initial :
  initial.After []
  := ⟨rfl, rfl⟩

/-- Progress after some looks that sees one more is progress after all of them. -/
theorem After.see (h : p.After sights) (s : Sight) :
  (p.see s).After (sights ++ [s])
  := by
  by_cases hlast : p.last = some s
  · rw [After, hlast] at h
    obtain ⟨front, rfl⟩ := h
    refine ⟨front, ?_⟩
    rw [List.append_assoc, ← List.replicate_succ', Progress.see, if_pos hlast]
  · refine ⟨sights, ?_⟩
    rw [Progress.see, if_neg hlast]
    rfl

/-- Looks are settled when the last three of them were the same. -/
theorem After.exists_of_isSettled (h : p.After sights) (hsettled : p.isSettled = true) :
  ∃ front s, sights = front ++ [s, s, s]
  := by
  rw [isSettled, decide_eq_true_eq] at hsettled
  cases hlast : p.last with
  | none =>
    rw [After, hlast] at h
    obtain ⟨hzero, -⟩ := h
    omega
  | some s =>
    rw [After, hlast] at h
    obtain ⟨front, rfl⟩ := h
    obtain ⟨more, hmore⟩ := Nat.exists_eq_add_of_le hsettled
    refine ⟨front ++ List.replicate more s, s, ?_⟩
    have hcount : p.unchanged + 1 = more + 3 := by omega
    rw [hcount, List.replicate_add, List.append_assoc]
    rfl

end Progress

/-! ## Runs -/

namespace Watcher

variable {w : Watcher} {d d' : Disk} {p : Progress} {moments : List Moment} {t : Table}

/-- What other programs do to the disk while moments pass. -/
def elapse (moments : List Moment) (d : Disk) : Disk := moments.foldl (fun d m => m.change d) d

/-- Waiting takes the first moments, in which the disk changes only by others. -/
theorem await?_eq_ok {folder : String} {limit : Span} {rest : List Moment}
    {files : Entries ResultFile} (h : await? folder limit moments d = .ok (some (files, rest)) d') :
  ∃ waited, moments = waited ++ rest ∧ d' = elapse waited d
  := by
  induction moments generalizing d with
  | nil =>
    obtain ⟨⟨⟩, -⟩ := pure_eq_ok.mp h
  | cons m moments ih =>
    have hmodify : (modify m.change : Action PUnit) d = .ok () (m.change d) := rfl
    simp only [await?, waitStep, bind_eq_ok] at h
    obtain ⟨found, d₁, ⟨_, _, hchange, files₁, _, hdiscover, hstep⟩, h⟩ := h
    obtain ⟨-, rfl⟩ := EStateM.Result.ok.inj (hmodify.symm.trans hchange)
    obtain ⟨rfl, -⟩ := ResultFile.discover_eq_ok hdiscover
    cases hempty : files₁.isEmpty with
    | false =>
      simp only [hempty, Bool.not_false, if_true, pure_eq_ok] at hstep
      obtain ⟨rfl, rfl⟩ := hstep
      obtain ⟨⟨⟩, rfl⟩ := pure_eq_ok.mp h
      exact ⟨[m], rfl, rfl⟩
    | true =>
      cases htime : m.timeUp with
      | true => simp [hempty, htime, throw_ne_ok] at hstep
      | false =>
        simp only [hempty, htime, Bool.not_true, Bool.false_eq_true, if_false, pure_eq_ok] at hstep
        obtain ⟨rfl, rfl⟩ := hstep
        obtain ⟨waited, rfl, rfl⟩ := ih h
        exact ⟨m :: waited, rfl, rfl⟩

/-- A watch ends with the first look that is settled or at which the time is up. -/
theorem follow?_eq_ok {before : List Sight} (hp : p.After before)
    (h : w.follow? p moments d = .ok (some t) d') :
  ∃ watched m rest looks g, moments = watched ++ m :: rest ∧
    w.glances (watched ++ [m]) d = .ok (looks ++ [g]) d' ∧ t = g.joined.window w.window ∧
    (m.timeUp = false → ∃ p' : Progress, p'.isSettled = true ∧
      p'.After (before ++ (looks ++ [g]).map (·.sight w.window)))
  := by
  induction moments generalizing p d before with
  | nil =>
    obtain ⟨⟨⟩, -⟩ := pure_eq_ok.mp h
  | cons m moments ih =>
    simp only [follow?, bind_eq_ok] at h
    obtain ⟨⟨p₁, t₁, ended⟩, d₁, hstep, h⟩ := h
    obtain ⟨g, hglance, rfl, hwrite, rfl, rfl⟩ := watchStep_eq_ok.mp hstep
    have hp₁ := hp.see (g.sight w.window)
    cases hended : (p.see (g.sight w.window)).isSettled || m.timeUp with
    | true =>
      simp only [hended, if_true, pure_eq_ok, Option.some.injEq] at h
      obtain ⟨rfl, rfl⟩ := h
      refine ⟨[], m, moments, [], g, rfl, ?_, rfl, fun htime => ⟨_, ?_, hp₁⟩⟩
      · exact glances_cons_eq_ok.mpr ⟨g, d₁, [], hglance, hwrite, rfl, rfl⟩
      · rwa [htime, Bool.or_false] at hended
    | false =>
      simp only [hended, Bool.false_eq_true, if_false] at h
      obtain ⟨watched, m', rest, looks, g', rfl, hglances, rfl, hsettled⟩ := ih hp₁ h
      refine ⟨m :: watched, m', rest, g :: looks, g', rfl, ?_, rfl, fun htime => ?_⟩
      · exact glances_cons_eq_ok.mpr ⟨g, d₁, looks ++ [g'], hglance, hwrite, hglances, rfl⟩
      · obtain ⟨p', hp', hafter⟩ := hsettled htime
        rw [List.append_assoc] at hafter
        exact ⟨p', hp', hafter⟩

/-- The last three of several glances found the same newest files, and joined tables that the window
does not tell apart. -/
def EndsUnchanged (window : Table.Window) (looks : List Glance) : Prop :=
  ∃ front x y z, looks = front ++ [x, y, z] ∧ x.Unchanged window z ∧ y.Unchanged window z

/-- Progress that is settled comes from three last glances that found the same. -/
theorem endsUnchanged_of_after {moments : List Moment} {looks : List Glance}
    (hglances : w.glances moments d = .ok looks d') (hsettled : p.isSettled = true)
    (hafter : p.After (looks.map (·.sight w.window))) :
  EndsUnchanged w.window looks
  := by
  obtain ⟨sights, s, hsights⟩ := hafter.exists_of_isSettled hsettled
  obtain ⟨front, last, rfl, -, hlast⟩ := List.map_eq_append_iff.mp hsights
  have hlength : last.length = 3 := by
    rw [← List.length_map, hlast]
    rfl
  obtain ⟨x, y, z, rfl⟩ := List.length_eq_three.mp hlength
  simp only [List.map_cons, List.map_nil, List.cons.injEq] at hlast
  obtain ⟨hx, hy, hz, -⟩ := hlast
  have hnamed := named_of_glances hglances
  rw [List.forall_mem_append] at hnamed
  obtain ⟨-, hnamed⟩ := hnamed
  refine ⟨front, x, y, z, rfl, ?_, ?_⟩
  · exact Glance.unchanged_of_sight (hx.trans hz.symm) (hnamed x (by simp)) (hnamed z (by simp))
  · exact Glance.unchanged_of_sight (hy.trans hz.symm) (hnamed y (by simp)) (hnamed z (by simp))

/-- A dump does not change what a watch gives. -/
theorem run?_of_finish {dumping : Bool} {found : Option Table}
    (h : w.finish dumping moments d = .ok found d') :
  ∃ d₁, w.run? moments d = .ok found d₁
  := by
  simp only [finish, bind_eq_ok] at h
  obtain ⟨seen, d₁, hrun, h⟩ := h
  have hsame : seen = found := by
    cases seen with
    | none => exact (pure_eq_ok.mp h).1
    | some t =>
      cases dumping with
      | false => exact (pure_eq_ok.mp h).1
      | true =>
        simp only [if_true, bind_eq_ok, pure_eq_ok] at h
        obtain ⟨-, -, -, hsame, -⟩ := h
        exact hsame
  rw [hsame] at hrun
  exact ⟨d₁, hrun⟩

/-- A watch that ends before its time is up ends with three looks between which nothing changed that
its window shows. -/
theorem unchanged_of_finish {dumping : Bool} (h : w.finish dumping moments d = .ok (some t) d') :
  ∃ waited watched m rest looks g d₁, moments = waited ++ watched ++ m :: rest ∧
    w.glances (watched ++ [m]) (elapse waited d) = .ok (looks ++ [g]) d₁ ∧
    t = g.joined.window w.window ∧
    (m.timeUp = false → EndsUnchanged w.window (looks ++ [g]))
  := by
  obtain ⟨d₁, hrun⟩ := run?_of_finish h
  simp only [run?, bind_eq_ok] at hrun
  obtain ⟨awaited, d₂, hawait, hfollow⟩ := hrun
  cases awaited with
  | none => obtain ⟨⟨⟩, -⟩ := pure_eq_ok.mp hfollow
  | some awaited =>
    obtain ⟨files, others⟩ := awaited
    obtain ⟨waited, rfl, rfl⟩ := await?_eq_ok hawait
    obtain ⟨watched, m, rest, looks, g, rfl, hglances, rfl, hsettled⟩ :=
      follow?_eq_ok Progress.after_initial hfollow
    refine ⟨waited, watched, m, rest, looks, g, d₁, by rw [List.append_assoc], hglances, rfl,
      fun htime => ?_⟩
    obtain ⟨p, hp, hafter⟩ := hsettled htime
    exact endsUnchanged_of_after hglances hp hafter

/-! ## Results that grow -/

/-- A folder with one result file. -/
def resultsDisk (text : String) : Disk where
  items := [(["case"], .folder), (["case", "A_20240101_120000_1.csv"], .file (.ofText text) false)]
  current := []

/-- A moment in which the result file is written anew, before the time is up. -/
def growth (text : String) : Moment where
  change d := d.put ["case", "A_20240101_120000_1.csv"] (.file (.ofText text) false)
  timeUp := false

/-- Watches the latest row of results over the time. -/
def tail : Watcher where
  plan := ⟨[], ',', "case", none, "t"⟩
  folder := "/case"
  window := ⟨none, some 1⟩
  limit := .ofMilliseconds 5000

set_option maxRecDepth 100000 in
/-- Results that do not change are looked at three times. -/
theorem unchanged_of_finish_undisturbed :
  ∃ t d', tail.finish false (Moment.undisturbed tail.limit) (resultsDisk "t\n1\n") =
      .ok (some t) d' ∧
    ∃ waited watched m rest looks g d₁,
      Moment.undisturbed tail.limit = waited ++ watched ++ m :: rest ∧
      tail.glances (watched ++ [m]) (elapse waited (resultsDisk "t\n1\n")) =
        .ok (looks ++ [g]) d₁ ∧
      t = g.joined.window tail.window ∧
      (m.timeUp = false → EndsUnchanged tail.window (looks ++ [g]))
  := by
  have hrun : (tail.finish false (Moment.undisturbed tail.limit)).gives (resultsDisk "t\n1\n")
      (fun found _ => found.isSome) = true := by
    decide +kernel
  obtain ⟨found, d', hfinish, hsome⟩ := Action.exists_of_gives hrun
  obtain ⟨t, rfl⟩ := Option.isSome_iff_exists.mp hsome
  exact ⟨t, d', hfinish, unchanged_of_finish hfinish⟩

/-- Watching ends at a moment that settles the progress or runs out of time, and goes on otherwise.
-/
theorem follow?_cons {m : Moment} {g : Glance} {d₁ : Disk}
    (hglance : w.glance (m.change d) = .ok g (m.change d))
    (hwrite : w.writeResults (g.joined.window w.window) (m.change d) = .ok () d₁) :
  w.follow? p (m :: moments) d =
    if (p.see (g.sight w.window)).isSettled || m.timeUp then .ok (some (g.joined.window w.window)) d₁
    else w.follow? (p.see (g.sight w.window)) moments d₁
  := by
  have hstep : w.watchStep p m d = .ok (p.see (g.sight w.window), g.joined.window w.window,
      (p.see (g.sight w.window)).isSettled || m.timeUp) d₁ :=
    watchStep_eq_ok.mpr ⟨g, hglance, rfl, hwrite, rfl, rfl⟩
  simp only [follow?, bind, EStateM.bind, hstep]
  split <;> rfl

/-- Three looks in a row at which the same is shown end a watch. -/
theorem follow?_of_same_sights {l m n : Moment} {x y z : Glance} {s : Sight}
    (h : w.glances [l, m, n] d = .ok [x, y, z] d') (hx : x.sight w.window = s)
    (hy : y.sight w.window = s) (hz : z.sight w.window = s) (hl : l.timeUp = false)
    (hm : m.timeUp = false) :
  w.follow? .initial (l :: m :: n :: moments) d = .ok (some (z.joined.window w.window)) d'
  := by
  obtain ⟨_, d₁, _, hglance₁, hwrite₁, h, ⟨⟩⟩ := glances_cons_eq_ok.mp h
  obtain ⟨_, d₂, _, hglance₂, hwrite₂, h, ⟨⟩⟩ := glances_cons_eq_ok.mp h
  obtain ⟨_, d₃, _, hglance₃, hwrite₃, h, ⟨⟩⟩ := glances_cons_eq_ok.mp h
  obtain ⟨-, rfl⟩ := pure_eq_ok.mp h
  have hfirst : Progress.initial.see s = ⟨some s, 0⟩ := by simp [Progress.see, Progress.initial]
  have hsecond : Progress.see ⟨some s, 0⟩ s = ⟨some s, 1⟩ := by simp [Progress.see]
  have hthird : Progress.see ⟨some s, 1⟩ s = ⟨some s, 2⟩ := by simp [Progress.see]
  rw [follow?_cons hglance₁ hwrite₁, hx, hfirst, hl, if_neg (by simp [Progress.isSettled]),
    follow?_cons hglance₂ hwrite₂, hy, hsecond, hm, if_neg (by simp [Progress.isSettled]),
    follow?_cons hglance₃ hwrite₃, hz, hthird, if_pos (by simp [Progress.isSettled])]

/-- Waiting ends with the first files. -/
theorem await?_cons {folder : String} {limit : Span} {m : Moment} {files : Entries ResultFile}
    (h : ResultFile.discover folder (m.change d) = .ok files (m.change d))
    (hne : files.isEmpty = false) :
  await? folder limit (m :: moments) d = .ok (some (files, moments)) (m.change d)
  := by
  have hstep : waitStep folder limit m d = .ok (some files) (m.change d) := by
    simp only [waitStep, bind_eq_ok]
    refine ⟨(), m.change d, rfl, files, m.change d, h, ?_⟩
    simp only [hne, Bool.not_false, if_true, pure_eq_ok, and_self]
  simp only [await?, bind_eq_ok]
  exact ⟨some files, m.change d, hstep, rfl⟩

/-- Moments at which a row is added to results. -/
def growing : List Moment := [growth "t\n1\n", growth "t\n1\n0\n", growth "t\n1\n0\n-1\n"]

set_option maxRecDepth 100000 in
/-- The watch sees a row more each time. -/
theorem glances_growing :
  ∃ x y z d, tail.glances growing (resultsDisk "t\n1\n") = .ok [x, y, z] d ∧
    x.rows = 1 ∧ y.rows = 2 ∧ z.rows = 3 ∧
    ∀ g ∈ [x, y, z], g.files.values.map (·.path) = ["/case/A_20240101_120000_1.csv"]
  := by
  have hrun : (tail.glances growing).gives (resultsDisk "t\n1\n") (fun looks _ =>
      looks.map (·.unsorted.length) == [1, 2, 3] &&
      looks.all fun g => g.files.values.map (·.path) == ["/case/A_20240101_120000_1.csv"]) =
        true := by
    decide +kernel
  obtain ⟨looks, d, hglances, hlooks⟩ := Action.exists_of_gives hrun
  simp only [Bool.and_eq_true, beq_iff_eq, ← Glance.rows_eq, List.all_eq_true] at hlooks
  obtain ⟨hrows, hpaths⟩ := hlooks
  have hlength : looks.length = 3 := by
    rw [← List.length_map, hrows]
    rfl
  obtain ⟨x, y, z, rfl⟩ := List.length_eq_three.mp hlength
  simp only [List.map_cons, List.map_nil, List.cons.injEq, and_true] at hrows
  obtain ⟨hx, hy, hz⟩ := hrows
  exact ⟨x, y, z, d, hglances, hx, hy, hz, hpaths⟩

set_option maxRecDepth 100000 in
/-- There are result files from the first moment on. -/
theorem discover_results :
  ∃ files, ResultFile.discover "/case" (resultsDisk "t\n1\n") = .ok files (resultsDisk "t\n1\n") ∧
    files.isEmpty = false
  := by
  have hrun : (ResultFile.discover "/case").gives (resultsDisk "t\n1\n")
      (fun files _ => !files.isEmpty) = true := by
    decide +kernel
  obtain ⟨files, _, hdiscover, hfiles⟩ := Action.exists_of_gives hrun
  obtain ⟨rfl, -⟩ := ResultFile.discover_eq_ok hdiscover
  rw [Bool.not_eq_true'] at hfiles
  exact ⟨files, hdiscover, hfiles⟩

/-- A watch of the latest row ends although a row was added before each of its last two looks. -/
theorem finish_growing :
  ∃ t d looks, tail.finish false (⟨id, false⟩ :: growing) (resultsDisk "t\n1\n") =
      .ok (some t) d ∧
    tail.glances growing (resultsDisk "t\n1\n") = .ok looks d ∧ looks.map (·.rows) = [1, 2, 3]
  := by
  obtain ⟨x, y, z, d, hglances, hx, hy, hz, hpaths⟩ := glances_growing
  obtain ⟨files, hdiscover, hfiles⟩ := discover_results
  simp only [List.forall_mem_cons] at hpaths
  obtain ⟨hxpaths, hypaths, hzpaths, -⟩ := hpaths
  have hsight {g : Glance} (hg : g.files.values.map (·.path) = ["/case/A_20240101_120000_1.csv"])
      (hshown : tail.window.shown g.rows = 1) :
      g.sight tail.window = ⟨["/case/A_20240101_120000_1.csv"], 1⟩ := by
    rw [Glance.sight, hg, hshown]
  have hfollow : tail.follow? .initial growing (resultsDisk "t\n1\n") =
      .ok (some (z.joined.window tail.window)) d :=
    follow?_of_same_sights hglances (hsight hxpaths (by rw [hx]; rfl))
      (hsight hypaths (by rw [hy]; rfl)) (hsight hzpaths (by rw [hz]; rfl)) rfl rfl
  have hrun : tail.run? (⟨id, false⟩ :: growing) (resultsDisk "t\n1\n") =
      .ok (some (z.joined.window tail.window)) d := by
    simp only [run?, bind_eq_ok]
    exact ⟨some (files, growing), _, await?_cons hdiscover hfiles, hfollow⟩
  have hfinish : tail.finish false (⟨id, false⟩ :: growing) (resultsDisk "t\n1\n") =
      .ok (some (z.joined.window tail.window)) d := by
    simp only [finish, bind_eq_ok]
    exact ⟨_, d, hrun, rfl⟩
  exact ⟨_, d, [x, y, z], hfinish, hglances, by rw [List.map_cons, List.map_cons, hx, hy,
    List.map_singleton, hz]⟩

end Watcher

end Cosim.Watch

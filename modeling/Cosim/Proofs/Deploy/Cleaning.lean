import Cosim.Proofs.Disk.Alike

/-!
# Removed results

On a proper disk, a removal of results takes the files away that are results by their names, from
one folder only, and changes nothing else.  It succeeds if the paths of these files lead to them.
-/

namespace Cosim

open Disk (AlikeBut)

variable {d d' : Disk} {k : Location} {folder name : String}

/-! ## Removed files -/

/-- Removing a file changes that file alone. -/
theorem Disk.alikeBut_removeTree (hd : d.Proper) (hfile : d.isFileAt (k ++ [name]) = true) :
  AlikeBut k (· = name) (· = name) d (d.removeTree (k ++ [name]))
  where
  current := rfl
  folders l := by
    rw [isFolderAt, isFolderAt, hd.item?_removeTree hfile]
    split
    · rename_i heq
      rw [heq]
      apply Eq.symm
      apply isFolderAt_of_isFileAt hfile
    · rfl
  items l hl := by
    rw [hd.item?_removeTree hfile, if_neg (hl name rfl)]
  executable other hother := by
    rw [executableAt, hd.item?_removeTree hfile, if_neg]
    · rfl
    · intro heq
      exact hother (List.append_singleton_inj.mp heq).2

namespace Action

/-- Files are removed, and nothing else is changed. -/
theorem removeAll_eq_ok {names : List String} {u : PUnit} (hd : d.Proper)
    (hfolder : d.locate? folder = some k) (hstep : ∀ name ∈ names, (Path.Part.name name).IsStep)
    (h : removeAll folder names d = .ok u d') :
  d'.Proper ∧ AlikeBut k (· ∈ names) (· ∈ names) d d' ∧
  ∀ name ∈ names, d'.isFileAt (k ++ [name]) = false
  := by
  induction names generalizing d with
  | nil =>
    obtain ⟨-, rfl⟩ := pure_eq_ok.mp h
    exact ⟨hd, .refl k _ _ d, List.forall_mem_nil _⟩
  | cons name names ih =>
    rw [List.forall_mem_cons] at hstep
    obtain ⟨l, hl, hfile, h⟩ := removeAll_cons_eq_ok.mp h
    obtain rfl := Disk.eq_of_locate?_join hstep.1 hfolder hl
    have hfirst := Disk.alikeBut_removeTree hd hfile
    obtain ⟨hd', hrest, hgone⟩ :=
      ih (hd.removeTree hfile) ((hfirst.keeps.locate?_eq folder).trans hfolder) hstep.2 h
    refine ⟨hd', ?_, ?_⟩
    · apply (hfirst.mono _ _).trans (hrest.mono _ _)
      · rintro _ rfl
        apply List.mem_cons_self
      · rintro _ rfl
        apply List.mem_cons_self
      · intro _ hmem
        apply List.mem_cons_of_mem _ hmem
      · intro _ hmem
        apply List.mem_cons_of_mem _ hmem
    · rw [List.forall_mem_cons]
      refine ⟨?_, hgone⟩
      by_cases hmem : name ∈ names
      · apply hgone name hmem
      · rw [Disk.isFileAt, hrest.item?_eq hmem, hd.item?_removeTree hfile, if_pos rfl]

/-- Different files are all removed if their paths lead to them. -/
theorem exists_removeAll {names : List String} (hd : d.Proper) (hnodup : names.Nodup)
    (hfile : ∀ name ∈ names, d.isFileAt (k ++ [name]) = true)
    (hlocated : ∀ name ∈ names, d.locate? (Path.join folder name) = some (k ++ [name])) :
  ∃ u d', removeAll folder names d = .ok u d'
  := by
  induction names generalizing d with
  | nil => exact ⟨_, _, rfl⟩
  | cons name names ih =>
    rw [List.forall_mem_cons] at hfile hlocated
    rw [List.nodup_cons] at hnodup
    have hfirst := Disk.alikeBut_removeTree hd hfile.1
    obtain ⟨u, d', h⟩ := ih (hd.removeTree hfile.1) hnodup.2
      (fun other hmem => by
        have hne : other ≠ name := by
          rintro rfl
          exact hnodup.1 hmem
        rw [Disk.isFileAt, hfirst.item?_eq hne]
        exact hfile.2 other hmem)
      (fun other hmem => (hfirst.keeps.locate?_eq _).trans (hlocated.2 other hmem))
    exact ⟨u, d', removeAll_cons_eq_ok.mpr ⟨_, hlocated.1, hfile.1, h⟩⟩

end Action

/-! ## Removed results -/

namespace Results

variable {keepFmus : Bool} {items : List (String × Item)} {removed : List String}

theorem mem_among :
  name ∈ among items keepFmus ↔
    isResult name keepFmus = true ∧ ∃ content executable, (name, .file content executable) ∈ items
  := by
  rw [among, List.mem_mergeSort, List.mem_filterMap]
  constructor
  · rintro ⟨⟨found, item⟩, hmem, h⟩
    cases item with
    | folder => cases h
    | file content executable =>
      simp only [Option.ite_none_right_eq_some] at h
      obtain ⟨hresult, ⟨⟩⟩ := h
      exact ⟨hresult, content, executable, hmem⟩
  · rintro ⟨hresult, content, executable, hmem⟩
    exact ⟨_, hmem, if_pos hresult⟩

theorem nodup_among (h : (items.map Prod.fst).Nodup) :
  (among items keepFmus).Nodup
  := by
  rw [among]
  apply (List.mergeSort_perm _ _).nodup_iff.mpr
  rw [List.nodup_iff_pairwise_ne, List.pairwise_map] at h
  rw [List.nodup_iff_pairwise_ne, List.pairwise_filterMap]
  apply h.imp
  rintro ⟨name, item⟩ ⟨name', item'⟩ hne found hfound found' hfound' rfl
  apply hne
  cases item with
  | folder => cases hfound
  | file content executable =>
    cases item' with
    | folder => cases hfound'
    | file content' executable' =>
      simp only [Option.ite_none_right_eq_some, Option.some.injEq] at hfound hfound'
      rw [hfound.2, hfound'.2]

/-- What a removal of results leaves in a folder. -/
structure Cleaned (k : Location) (keepFmus : Bool) (d d' : Disk) : Prop where
  folder : d.isFolderAt k = true
  proper : d'.Proper
  alike : AlikeBut k (isResult · keepFmus = true) (isResult · keepFmus = true) d d'
  removed : ∀ name, isResult name keepFmus = true → d'.isFileAt (k ++ [name]) = false

theorem cleaned_of_remove (hd : d.Proper) (h : remove folder keepFmus d = .ok removed d') :
  ∃ k, d.locate? folder = some k ∧ Cleaned k keepFmus d d'
  := by
  simp only [remove_eq, Action.bind_eq_ok, Action.pure_eq_ok] at h
  obtain ⟨items, _, hlist, _, _, hloop, -, rfl⟩ := h
  obtain ⟨k, hk, hfolder, rfl, hsame⟩ := Action.list_eq_ok_iff.mp hlist
  rw [hsame] at hloop
  have hchild {name : String} (hmem : name ∈ among (d.children k) keepFmus) :
      isResult name keepFmus = true ∧ (Path.Part.name name).IsStep := by
    obtain ⟨hresult, content, executable, hchild⟩ := mem_among.mp hmem
    exact ⟨hresult, (hd.placed_of_item? (hd.mem_children.mp hchild)).1⟩
  obtain ⟨hd', halike, hgone⟩ :=
    Action.removeAll_eq_ok hd hk (fun name hmem => (hchild hmem).2) hloop
  refine ⟨k, hk, hfolder, hd', ?_, ?_⟩
  · apply halike.mono
    · intro name hmem
      exact (hchild hmem).1
    · intro name hmem
      exact (hchild hmem).1
  · intro name hresult
    by_cases hmem : name ∈ among (d.children k) keepFmus
    · apply hgone name hmem
    · rw [Disk.isFileAt, halike.item?_eq hmem]
      apply Bool.eq_false_iff.mpr
      intro hfile
      obtain ⟨content, executable, hitem⟩ := Disk.isFileAt_iff.mp hfile
      exact hmem (mem_among.mpr ⟨hresult, content, executable, hd.mem_children.mpr hitem⟩)

/-- Results are removed if their paths lead to them. -/
theorem exists_remove (hd : d.Proper) (hfolder : d.locate? folder = some k)
    (hk : d.isFolderAt k = true)
    (hlocated : ∀ name, isResult name keepFmus = true → d.isFileAt (k ++ [name]) = true →
      d.locate? (Path.join folder name) = some (k ++ [name])) :
  ∃ removed d', remove folder keepFmus d = .ok removed d'
  := by
  have hfile : ∀ name ∈ among (d.children k) keepFmus,
      isResult name keepFmus = true ∧ d.isFileAt (k ++ [name]) = true := by
    intro name hmem
    obtain ⟨hresult, content, executable, hchild⟩ := mem_among.mp hmem
    exact ⟨hresult, Disk.isFileAt_iff.mpr ⟨_, _, hd.mem_children.mp hchild⟩⟩
  obtain ⟨u, d', hloop⟩ := Action.exists_removeAll hd (nodup_among (hd.nodup_children k))
    (fun name hmem => (hfile name hmem).2)
    fun name hmem => hlocated name (hfile name hmem).1 (hfile name hmem).2
  refine ⟨(among (d.children k) keepFmus).map (Path.join folder), d', ?_⟩
  rw [remove_eq]
  simp only [Action.bind_eq_ok, Action.pure_eq_ok]
  exact ⟨_, _, Action.list_eq_ok_iff.mpr ⟨k, hfolder, hk, rfl, rfl⟩, _, _, hloop, rfl, rfl⟩

end Results

end Cosim

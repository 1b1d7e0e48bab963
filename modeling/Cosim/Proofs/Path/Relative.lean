import Cosim.Proofs.Path

/-!
# Ways between paths

The way from a folder to a path leads back to that path.  A way takes back the names of the folder
as far as the path does not share them, and so it needs the parts that are taken back to be names.
The common root of files is the deepest folder that holds them all.
-/

namespace Cosim.Path

/-! ## Settled parts -/

/-- The parts of a normalized absolute path in reverse: steps up stand only where no name is left to
take back. -/
inductive Settled : List Part → Prop where
  | root : Settled [.root]
  | name {s : String} {ps : List Part} : (Part.name s).IsStep → Settled ps → Settled (.name s :: ps)
  | parent {ps : List Part} : (∀ s, ps.head? ≠ some (.name s)) → Settled ps →
    Settled (.parent :: ps)

theorem isStep_parent :
  Part.parent.IsStep
  := ⟨by decide, by decide⟩

namespace Settled

variable {ps qs : List Part}

/-- Settled parts have nothing left to resolve. -/
theorem resolved (h : Settled ps) :
  Resolved ps
  := by
  induction h with
  | root => apply Resolved.root
  | name hs _ ih => apply Resolved.cons hs ih
  | parent _ _ ih => apply Resolved.cons isStep_parent ih

/-- Settled parts without the last step are settled, unless none are left. -/
theorem tail {p : Part} (h : Settled (p :: ps)) (hne : ps ≠ []) :
  Settled ps
  := by
  cases h with
  | root => exact absurd rfl hne
  | name _ hps => exact hps
  | parent _ hps => exact hps

/-- Settled parts without the last steps are settled, unless none are left. -/
theorem suffix (h : Settled (qs ++ ps)) (hne : ps ≠ []) :
  Settled ps
  := by
  induction qs with
  | nil => exact h
  | cons q qs ih => exact ih (h.tail (List.append_ne_nil_of_right_ne_nil qs hne))

/-- Settled parts lead from the root by steps. -/
theorem exists_steps (h : Settled ps) :
  ∃ steps : List Part, ps.reverse = .root :: steps ∧ ∀ p ∈ steps, p.IsStep
  := by
  have hcons {p : Part} {ps : List Part} (hp : p.IsStep)
      (h : ∃ steps : List Part, ps.reverse = .root :: steps ∧ ∀ p ∈ steps, p.IsStep) :
      ∃ steps : List Part, (p :: ps).reverse = .root :: steps ∧ ∀ p ∈ steps, p.IsStep := by
    obtain ⟨steps, hsteps, hall⟩ := h
    refine ⟨steps ++ [p], by rw [List.reverse_cons, hsteps, List.cons_append], ?_⟩
    rw [List.forall_mem_append, List.forall_mem_singleton]
    exact ⟨hall, hp⟩
  induction h with
  | root => exact ⟨[], rfl, by simp⟩
  | name hs _ ih => exact hcons hs ih
  | parent _ _ ih => exact hcons isStep_parent ih

/-- A settled part stays where it is put. -/
theorem resolveStep_eq {p : Part} (h : Settled (p :: ps)) :
  resolveStep ps p = p :: ps
  := by
  cases h with
  | root => rfl
  | name _ _ => rfl
  | parent hhead _ =>
    rw [resolveStep]
    rintro s before rfl
    exact hhead s rfl

/-- Settled parts resolve to themselves, by induction on those that are still to be put. -/
theorem foldl_resolveStep (h : Settled (qs.reverse ++ ps)) :
  qs.foldl resolveStep ps = qs.reverse ++ ps
  := by
  induction qs generalizing ps with
  | nil => rfl
  | cons q qs ih =>
    rw [List.reverse_cons, List.append_assoc, List.singleton_append] at h ⊢
    rw [List.foldl_cons, (h.suffix (List.cons_ne_nil q ps)).resolveStep_eq, ih h]

/-- A step that is resolved against settled parts leaves settled ones. -/
theorem step {p : Part} (h : Settled ps) (hp : p.IsStep) :
  Settled (resolveStep ps p)
  := by
  cases p with
  | root => exact absurd (hp.stands true) (by decide)
  | current => exact h
  | name s => exact Settled.name hp h
  | parent =>
    cases h with
    | root => exact Settled.parent (by simp) Settled.root
    | name _ hps => exact hps
    | parent hhead hps => exact Settled.parent (by simp) (Settled.parent hhead hps)

end Settled

/-- Steps up take back names. -/
theorem foldl_resolveStep_replicate {names ps : List Part} (h : ∀ p ∈ names, ∃ s, p = .name s) :
  (List.replicate names.length Part.parent).foldl resolveStep (names ++ ps) = ps
  := by
  induction names with
  | nil => rfl
  | cons p names ih =>
    rw [List.forall_mem_cons] at h
    obtain ⟨⟨s, rfl⟩, hnames⟩ := h
    rw [List.length_cons, List.replicate_succ, List.foldl_cons, List.cons_append, resolveStep]
    exact ih hnames

/-! ## Normal paths -/

/-- A normalized absolute path. -/
structure IsNormal (path : String) : Prop where
  settled : Settled (parts path).reverse
  eq_ofParts : path = ofParts (parts path)

namespace IsNormal

/-- A path that is put together from settled parts is normal. -/
theorem of_settled {ps : List Part} (h : Settled ps) :
  IsNormal (home ps)
  := by
  have hparts := parts_home h.resolved
  refine ⟨?_, ?_⟩
  · rwa [hparts, List.reverse_reverse]
  · rw [hparts, home]

/-- Every absolute path becomes a normal one. -/
theorem normalize {path : String} (h : isAbsolute path = true) :
  IsNormal (normalize path)
  := by
  obtain ⟨front, steps, hparts, hfront, hsteps⟩ := parts_eq_append path
  obtain ⟨more, hroot⟩ : ∃ more, parts path = .root :: more := by
    obtain ⟨first, more, hsegments⟩ := List.exists_cons_of_ne_nil (segments_ne_nil path)
    rw [parts_eq, h, hsegments]
    exact ⟨_, rfl⟩
  have hfront : front = [.root] := by
    obtain rfl | rfl | rfl := hfront
    · rw [hparts, List.nil_append] at hroot
      have hstep := hsteps .root (by simp [hroot])
      exact absurd (hstep.stands true) (by decide)
    · rfl
    · rw [hparts, List.singleton_append] at hroot
      cases hroot
  have hsettled (ps : List Part) (hps : Settled ps) : Settled (steps.foldl resolveStep ps) := by
    clear hparts
    induction steps generalizing ps with
    | nil => exact hps
    | cons p steps ih =>
      rw [List.forall_mem_cons] at hsteps
      exact ih hsteps.2 _ (hps.step hsteps.1)
  rw [normalize_eq_home, hparts, hfront, resolve, List.reverse_reverse, List.foldl_append]
  exact of_settled (hsettled _ Settled.root)

end IsNormal

/-! ## Ways -/

/-- The steps from a folder to a path: up to the deepest folder that they share, and down again. -/
def way (target base : List Part) : List Part :=
  List.replicate (base.length - (commonFront target base).length) .parent ++
    target.drop (commonFront target base).length

/-- The text of a way. -/
def wayText (steps : List Part) : String :=
  if steps.isEmpty then "." else "/".intercalate (steps.map Part.text)

/-- What two lists both begin with is what their common front begins with. -/
theorem prefix_commonFront_iff {α : Type} [DecidableEq α] {as bs cs : List α} :
  cs <+: commonFront as bs ↔ cs <+: as ∧ cs <+: bs
  := by
  induction cs generalizing as bs with
  | nil => simp
  | cons c cs ih =>
    match as, bs with
    | [], _ => simp [commonFront]
    | _ :: _, [] => simp [commonFront]
    | a :: as, b :: bs =>
      rw [commonFront, List.cons_prefix_cons, List.cons_prefix_cons]
      by_cases hab : a = b
      · rw [if_pos hab, List.cons_prefix_cons, ih, hab]
        tauto
      · rw [if_neg hab, List.prefix_nil]
        constructor
        · intro h
          cases h
        · rintro ⟨⟨rfl, -⟩, rfl, -⟩
          exact absurd rfl hab

/-- Two settled paths share their root. -/
theorem exists_commonFront {target base : List Part} (htarget : Settled target.reverse)
    (hbase : Settled base.reverse) :
  ∃ common, commonFront target base = .root :: common
  := by
  obtain ⟨_, htarget, -⟩ := htarget.exists_steps
  obtain ⟨_, hbase, -⟩ := hbase.exists_steps
  rw [List.reverse_reverse] at htarget hbase
  rw [htarget, hbase, commonFront, if_pos rfl]
  exact ⟨_, rfl⟩

/-- A way between settled parts is made of steps. -/
theorem isStep_of_mem_way {target base : List Part} (htarget : Settled target.reverse)
    (hbase : Settled base.reverse) :
  ∀ p ∈ way target base, p.IsStep
  := by
  obtain ⟨common, hcommon⟩ := exists_commonFront htarget hbase
  obtain ⟨steps, htarget, hsteps⟩ := htarget.exists_steps
  rw [List.reverse_reverse] at htarget
  rw [way, List.forall_mem_append]
  constructor
  · intro p hp
    rw [List.eq_of_mem_replicate hp]
    exact isStep_parent
  · intro p hp
    rw [hcommon, htarget, List.length_cons, List.drop_succ_cons] at hp
    exact hsteps p (List.mem_of_mem_drop hp)

/-- The way from a folder to a path leads there if what it takes back are names. -/
theorem foldl_way {target base : List Part} (htarget : Settled target.reverse)
    (hbase : Settled base.reverse)
    (hnames : ∀ p ∈ base.drop (commonFront target base).length, ∃ s, p = .name s) :
  (way target base).foldl resolveStep base.reverse = target.reverse
  := by
  obtain ⟨common, hcommon⟩ := exists_commonFront htarget hbase
  obtain ⟨⟨more, hmore⟩, ⟨back, hback⟩⟩ := prefix_commonFront_iff.mp
    (List.prefix_refl (commonFront target base))
  rw [way]
  generalize commonFront target base = front at hcommon hmore hback hnames ⊢
  have hne : front.reverse ≠ [] := by simp [hcommon]
  rw [← hback, List.drop_left] at hnames
  rw [← hmore, List.reverse_append] at htarget ⊢
  rw [← hback, List.length_append, Nat.add_sub_cancel_left, List.drop_left, List.foldl_append,
    List.reverse_append, ← List.length_reverse, foldl_resolveStep_replicate,
    htarget.foldl_resolveStep]
  intro p hp
  exact hnames p (List.mem_reverse.mp hp)

/-- A normal path relative to a normal folder is the text of the way to it. -/
theorem relativeTo_eq {path folder : String} (hpath : IsNormal path) (hfolder : IsNormal folder) :
  relativeTo path folder = wayText (way (parts path) (parts folder))
  := by
  obtain ⟨common, hcommon⟩ := exists_commonFront hpath.settled hfolder.settled
  rw [relativeTo, wayText, way]
  simp only [hcommon, List.length_cons, List.map_append, List.map_replicate]
  rw [if_neg (by simp)]
  simp [Part.text]

/-! ## Ways behind folders -/

/-- An absolute folder has a text. -/
theorem isAbsolute_of_ne_nil {folder : String} (h : isAbsolute folder = true) :
  folder ≠ ""
  := by
  rintro rfl
  cases h

/-- A text that goes on from an absolute folder is absolute. -/
theorem isAbsolute_append {folder : String} (h : isAbsolute folder = true) (s : String) :
  isAbsolute (folder ++ s) = true
  := by
  rw [isAbsolute, beq_iff_eq] at h ⊢
  obtain ⟨cs, hcs⟩ := List.head?_eq_some_iff.mp h
  rw [String.toList_append, hcs]
  rfl

/-- A path in an absolute folder is absolute. -/
theorem isAbsolute_join_of_isAbsolute {folder : String} (h : isAbsolute folder = true)
    (path : String) :
  isAbsolute (join folder path) = true
  := by
  rw [join]
  split
  · rename_i hpath
    rw [Bool.or_eq_true] at hpath
    apply hpath.resolve_right
    simpa using isAbsolute_of_ne_nil h
  · split
    · apply isAbsolute_append h
    · rw [String.append_assoc]
      apply isAbsolute_append h

/-- A path behind a slash adds its segments to those of the folder. -/
theorem segments_append_slash (folder path : String) :
  segments (folder ++ "/" ++ path) = segments folder ++ segments path
  := by
  have heq : folder ++ "/" ++ path = String.ofList (folder.toList ++ '/' :: path.toList) := by
    apply String.toList_injective
    simp
  rw [heq, segments_slash, String.ofList_toList, String.ofList_toList]

/-- Segments behind the first ones add their own parts. -/
theorem partsOf_append_all (absolute : Bool) {ss : List String} (more : List String) (h : ss ≠ []) :
  partsOf absolute (ss ++ more) = partsOf absolute ss ++ more.filterMap (segmentPart? false)
  := by
  obtain ⟨first, rest, rfl⟩ := List.exists_cons_of_ne_nil h
  cases absolute <;> simp [partsOf]

/-- The parts of a path behind a folder. -/
theorem parts_join_of_relative {folder path : String} (hfolder : isAbsolute folder = true)
    (hpath : isAbsolute path = false) :
  parts (join folder path) = parts folder ++ (segments path).filterMap (segmentPart? false)
  := by
  have hne := isAbsolute_of_ne_nil hfolder
  rw [parts_eq, isAbsolute_join_of_isAbsolute hfolder, parts_eq folder, hfolder, join, hpath,
    if_neg (by simpa using hne)]
  split
  · rename_i hslash
    rw [beq_iff_eq] at hslash
    obtain ⟨cs, hcs⟩ := List.getLast?_eq_some_iff.mp hslash
    have heq : folder = String.ofList cs ++ "/" ++ "" := by
      apply String.toList_injective
      simp [hcs]
    have heq' : folder ++ path = String.ofList cs ++ "/" ++ path := by
      rw [heq]
      simp
    rw [heq', heq, segments_append_slash, segments_append_slash,
      partsOf_append_all _ _ (segments_ne_nil _), partsOf_append_all _ _ (segments_ne_nil _)]
    have hnil : (segments "").filterMap (segmentPart? false) = [] := rfl
    rw [hnil, List.append_nil]
  · rw [segments_append_slash, partsOf_append_all _ _ (segments_ne_nil _)]

/-- The segments of steps with slashes between them are their texts. -/
theorem segments_intercalate {steps : List Part} (hne : steps ≠ []) (h : ∀ p ∈ steps, p.IsStep) :
  segments ("/".intercalate (steps.map Part.text)) = steps.map Part.text
  := by
  have hslash : ∀ cs ∈ (steps.map Part.text).map String.toList, '/' ∉ cs := by
    rw [List.map_map, List.forall_mem_map]
    intro p hp
    exact (h p hp).no_slash
  rw [segments, String.toList_intercalate, show "/".toList = ['/'] from rfl,
    List.splitOn_intercalate '/' hslash (by simpa using hne), List.map_map]
  have hmap : String.ofList ∘ String.toList = id := by
    funext s
    exact String.ofList_toList
  rw [hmap, List.map_id]

/-- The text of a way does not begin at the root. -/
theorem isAbsolute_wayText {steps : List Part} (h : ∀ p ∈ steps, p.IsStep) :
  isAbsolute (wayText steps) = false
  := by
  cases steps with
  | nil => rfl
  | cons p steps =>
    have hp := h p List.mem_cons_self
    have hhead : ("/".intercalate ((p :: steps).map Part.text)).toList.head? =
        p.text.toList.head? := by
      cases steps with
      | nil => simp
      | cons q steps =>
        rw [List.map_cons, List.map_cons, String.intercalate_cons_cons, String.toList_append,
          String.toList_append, List.append_assoc, List.head?_append_of_ne_nil _ hp.ne_nil]
    rw [wayText, List.isEmpty_cons, if_neg Bool.false_ne_true, isAbsolute, hhead, ← isAbsolute]
    exact hp.isAbsolute_eq

/-- A way behind a folder. -/
theorem parts_join_wayText {folder : String} {steps : List Part}
    (hfolder : isAbsolute folder = true) (h : ∀ p ∈ steps, p.IsStep) :
  parts (join folder (wayText steps)) = parts folder ++ steps
  := by
  rw [parts_join_of_relative hfolder (isAbsolute_wayText h), wayText]
  by_cases hne : steps = []
  · rw [hne]
    rfl
  · rw [if_neg (by simpa using hne), segments_intercalate hne h]
    congr 1
    rw [List.filterMap_map]
    have hstands : ∀ p ∈ steps, (segmentPart? false ∘ Part.text) p = some p :=
      fun p hp => (h p hp).stands false
    rw [List.filterMap_congr hstands, List.filterMap_some]

/-- A path becomes the normal one that its parts are resolved to. -/
theorem IsNormal.normalize_eq {path target : String} (h : IsNormal target)
    (hresolve : resolve (parts path) = parts target) :
  Path.normalize path = target
  := by
  rw [Path.normalize, hresolve, ← h.eq_ofParts]

/-- The way from a normal folder to a normal path leads from wherever that folder is reached. -/
theorem resolve_join_relativeTo {start target base : String} (hstart : isAbsolute start = true)
    (hreach : resolve (parts start) = parts base) (htarget : IsNormal target)
    (hbase : IsNormal base)
    (hnames : ∀ p ∈ (parts base).drop (commonFront (parts target) (parts base)).length,
      ∃ s, p = .name s) :
  resolve (parts (join start (relativeTo target base))) = parts target
  := by
  rw [relativeTo_eq htarget hbase,
    parts_join_wayText hstart (isStep_of_mem_way htarget.settled hbase.settled), resolve,
    List.foldl_append]
  rw [resolve, List.reverse_eq_iff] at hreach
  rw [hreach, foldl_way htarget.settled hbase.settled hnames, List.reverse_reverse]

/-! ## Common roots -/

/-- A folder holds the paths that lie in it or in the folders below it. -/
def Holds (folder path : String) : Prop := ∃ rest, rest ≠ [] ∧ parts path = parts folder ++ rest

/-- A folder is the deepest one that holds given paths: it holds them, and every other folder that
does so is one of the folders above it. -/
structure IsDeepest (folder : String) (paths : List String) : Prop where
  holds : ∀ path ∈ paths, Holds folder path
  deepest : ∀ other, (∀ path ∈ paths, Holds other path) → parts other <+: parts folder

/-- A folder holds a path exactly if the parts of the path before the last one begin with its own.
-/
theorem holds_iff {folder path : String} {p : Part} {front : List Part}
    (h : parts path = front ++ [p]) :
  Holds folder path ↔ parts folder <+: front
  := by
  rw [Holds, h]
  constructor
  · rintro ⟨rest, hne, heq⟩
    obtain ⟨between, q, rfl⟩ := (List.eq_nil_or_concat' rest).resolve_left hne
    rw [← List.append_assoc] at heq
    exact ⟨between, (List.append_inj_left' heq rfl).symm⟩
  · rintro ⟨between, rfl⟩
    exact ⟨between ++ [p], by simp, by rw [List.append_assoc]⟩

/-- A way takes back names alone if the folder holds the path, or if no step of the folder leads
up. -/
theorem exists_name_of_mem_drop {target base : String} (htarget : IsNormal target)
    (hbase : IsNormal base) (h : Holds base target ∨ Part.parent ∉ parts base) :
  ∀ p ∈ (parts base).drop (commonFront (parts target) (parts base)).length, ∃ s, p = .name s
  := by
  obtain ⟨rest, -, hrest⟩ | hup := h
  · have hfront : parts base <+: commonFront (parts target) (parts base) :=
      prefix_commonFront_iff.mpr ⟨⟨rest, hrest.symm⟩, List.prefix_refl _⟩
    rw [List.drop_eq_nil_of_le hfront.length_le]
    simp
  · obtain ⟨common, hcommon⟩ := exists_commonFront htarget.settled hbase.settled
    obtain ⟨steps, hsteps, hall⟩ := hbase.settled.exists_steps
    rw [List.reverse_reverse] at hsteps
    rw [hcommon, hsteps, List.length_cons, List.drop_succ_cons]
    intro p hp
    have hmem := List.mem_of_mem_drop hp
    cases p with
    | root => exact absurd ((hall .root hmem).stands true) (by decide)
    | current => exact absurd ((hall .current hmem).stands false) (by decide)
    | parent =>
      rw [hsteps] at hup
      exact absurd (List.mem_cons_of_mem _ hmem) hup
    | name s => exact ⟨s, rfl⟩

/-- A normal path other than the root lies in its parent. -/
theorem IsNormal.exists_parent {path : String} (h : IsNormal path) (hroot : path ≠ "/") :
  ∃ parent, parent? path = some parent ∧ IsNormal parent ∧
    ∀ folder, Holds folder path ↔ parts folder <+: parts parent
  := by
  have hstep {p : Part} {ps : List Part} (hparts : (parts path).reverse = p :: ps) (hp : p.IsStep)
      (hps : Settled ps) : ∃ parent, parent? path = some parent ∧ IsNormal parent ∧
        ∀ folder, Holds folder path ↔ parts folder <+: parts parent := by
    have hpath : path = join (home ps) p.text := by
      rw [← home_cons, home, ← hparts, List.reverse_reverse]
      exact h.eq_ofParts
    refine ⟨home ps, ?_, of_settled hps, ?_⟩
    · rw [hpath]
      exact parent?_join hp hps.resolved
    · intro folder
      rw [parts_home hps.resolved]
      apply holds_iff
      rw [← List.reverse_cons, ← hparts, List.reverse_reverse]
  generalize hparts : (parts path).reverse = ps at hstep
  have hsettled := h.settled
  rw [hparts] at hsettled
  cases hsettled with
  | root =>
    rw [List.reverse_eq_iff] at hparts
    have heq := h.eq_ofParts
    rw [hparts] at heq
    exact absurd heq hroot
  | name hs hps => exact hstep rfl hs hps
  | parent _ hps => exact hstep rfl isStep_parent hps

theorem parent?_root :
  parent? "/" = none
  := by decide

/-- The first parts of a normal path make a normal path. -/
theorem IsNormal.ofParts_prefix {path : String} {front : List Part} (h : IsNormal path)
    (hne : front ≠ []) (hfront : front <+: parts path) :
  IsNormal (ofParts front) ∧ parts (ofParts front) = front
  := by
  obtain ⟨rest, hrest⟩ := hfront
  have hsettled : Settled front.reverse := by
    have hsuffix : Settled (rest.reverse ++ front.reverse) := by
      rw [← List.reverse_append, hrest]
      exact h.settled
    exact hsuffix.suffix (by simpa using hne)
  have hhome : home front.reverse = ofParts front := by rw [home, List.reverse_reverse]
  rw [← hhome, parts_home hsettled.resolved, List.reverse_reverse]
  exact ⟨of_settled hsettled, rfl⟩

/-- Folders are cut down to what they share, by induction on those that are left. -/
theorem foldl_commonFront {first : String} {more : List String} (hfirst : IsNormal first)
    (hmore : ∀ folder ∈ more, IsNormal folder) :
  ∃ root, more.foldl (fun root folder => ofParts (commonFront (parts root) (parts folder))) first =
      root ∧ IsNormal root ∧
    ∀ ps, ps <+: parts root ↔ ∀ folder ∈ first :: more, ps <+: parts folder
  := by
  induction more generalizing first with
  | nil => exact ⟨first, rfl, hfirst, by simp⟩
  | cons next more ih =>
    rw [List.forall_mem_cons] at hmore
    obtain ⟨common, hcommon⟩ := exists_commonFront hfirst.settled hmore.1.settled
    obtain ⟨hnormal, hparts⟩ := hfirst.ofParts_prefix (by simp [hcommon])
      (prefix_commonFront_iff.mp (List.prefix_refl (commonFront (parts first) (parts next)))).1
    obtain ⟨root, hfold, hroot, hshared⟩ := ih hnormal hmore.2
    refine ⟨root, hfold, hroot, ?_⟩
    intro ps
    rw [hshared, List.forall_mem_cons, hparts, prefix_commonFront_iff, List.forall_mem_cons,
      List.forall_mem_cons, and_assoc]

/-- The parents of normal paths other than the root. -/
theorem mem_parents {paths : List String} (h : ∀ path ∈ paths, IsNormal path) {parent : String} :
  parent ∈ paths.filterMap parent? ↔
    ∃ path ∈ paths, path ≠ "/" ∧ IsNormal parent ∧ parent? path = some parent ∧
      ∀ folder, Holds folder path ↔ parts folder <+: parts parent
  := by
  rw [List.mem_filterMap]
  constructor
  · rintro ⟨path, hpath, hparent⟩
    have hne : path ≠ "/" := by
      rintro rfl
      rw [parent?_root] at hparent
      cases hparent
    obtain ⟨found, hfound, hnormal, hholds⟩ := (h path hpath).exists_parent hne
    rw [hparent, Option.some.injEq] at hfound
    subst hfound
    exact ⟨path, hpath, hne, hnormal, hparent, hholds⟩
  · rintro ⟨path, hpath, -, -, hparent, -⟩
    exact ⟨path, hpath, hparent⟩

/-- A folder holds all of some normal paths but the root exactly if the parts of all their parents
begin with its own. -/
theorem holds_all_iff {paths : List String} (h : ∀ path ∈ paths, IsNormal path) (folder : String) :
  (∀ path ∈ paths.filter (· ≠ "/"), Holds folder path) ↔
    ∀ parent ∈ paths.filterMap parent?, parts folder <+: parts parent
  := by
  constructor
  · intro hall parent hparent
    obtain ⟨path, hpath, hne, -, -, hholds⟩ := (mem_parents h).mp hparent
    exact (hholds folder).mp (hall path (by simpa using ⟨hpath, hne⟩))
  · intro hall path hpath
    rw [List.mem_filter, decide_eq_true_eq] at hpath
    obtain ⟨parent, hparent, hnormal, hholds⟩ := (h path hpath.1).exists_parent hpath.2
    exact (hholds folder).mpr
      (hall parent ((mem_parents h).mpr ⟨path, hpath.1, hpath.2, hnormal, hparent, hholds⟩))

/-- The common root of normal paths is the deepest folder that holds those that are not the root
itself. -/
theorem commonRoot?_isDeepest {paths : List String} (h : ∀ path ∈ paths, IsNormal path) :
  match commonRoot? paths with
  | none => ∀ path ∈ paths, path = "/"
  | some root => IsNormal root ∧ (∃ path ∈ paths, path ≠ "/") ∧
    IsDeepest root (paths.filter (· ≠ "/"))
  := by
  have hnormal : ∀ parent ∈ paths.filterMap parent?, IsNormal parent := by
    intro parent hparent
    obtain ⟨_, _, _, hnormal, _⟩ := (mem_parents h).mp hparent
    exact hnormal
  have hholds := holds_all_iff h
  have hmem {parent : String} := @mem_parents paths h parent
  rw [commonRoot?]
  generalize paths.filterMap parent? = parents at hnormal hholds hmem ⊢
  cases parents with
  | nil =>
    intro path hpath
    by_contra hne
    obtain ⟨parent, hparent, hnormal, hiff⟩ := (h path hpath).exists_parent hne
    exact absurd (hmem.mpr ⟨path, hpath, hne, hnormal, hparent, hiff⟩) List.not_mem_nil
  | cons first more =>
    obtain ⟨path, hpath, hne, -, -, -⟩ := hmem.mp (List.mem_cons_self (a := first) (l := more))
    rw [List.forall_mem_cons] at hnormal
    obtain ⟨root, hfold, hroot, hshared⟩ := foldl_commonFront hnormal.1 hnormal.2
    simp only [hfold]
    refine ⟨hroot, ⟨path, hpath, hne⟩, ?_, ?_⟩
    · exact (hholds root).mpr ((hshared _).mp (List.prefix_refl _))
    · intro other hother
      exact (hshared _).mpr ((hholds other).mp hother)

end Cosim.Path

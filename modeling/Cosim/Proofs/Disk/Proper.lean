import Cosim.Proofs.Files

/-!
# Proper disks

On a proper disk every item stands once, under a name and in a folder.  So what is at a place is
what its folder lists there, nothing lies below a file, and the path of a file ends with its name.
Putting files into folders and removing files leaves a disk proper.
-/

namespace Cosim.Disk

variable {d : Disk} {l k : Location} {path folder name : String} {item : Item}

/-! ## Places of paths -/

/-- Where a part of a path leads to. -/
def go (l : Location) : Path.Part → Location
  | .root => []
  | .current => l
  | .parent => l.dropLast
  | .name s => l ++ [s]

/-- Segments lead to where their parts lead one after the other. -/
theorem eq_of_follow {segments : List String} (h : d.follow l segments = some k) :
  k = (segments.filterMap (Path.segmentPart? false)).foldl go l
  := by
  induction segments generalizing l with
  | nil => exact (Option.some.inj h).symm
  | cons s segments ih =>
    rw [follow] at h
    split at h
    · cases h
    · split at h
      · rename_i hdot
        have hpart : Path.segmentPart? false s = none := by
          apply Path.segmentPart?_of_isDot
          rw [Bool.or_eq_true, String.isEmpty_iff, beq_iff_eq] at hdot
          exact hdot
        rw [List.filterMap_cons_none hpart]
        apply ih h
      · rename_i hdot
        rw [Bool.or_eq_true, not_or] at hdot
        split at h
        · rename_i hparent
          have hpart : Path.segmentPart? false s = some .parent := by
            rw [Path.segmentPart?, if_neg hdot.1, if_neg hdot.2, if_pos hparent]
          rw [List.filterMap_cons_some hpart]
          apply ih h
        · rename_i hparent
          have hpart : Path.segmentPart? false s = some (.name s) := by
            rw [Path.segmentPart?, if_neg hdot.1, if_neg hdot.2, if_neg hparent]
          rw [List.filterMap_cons_some hpart]
          apply ih h

/-- A dot in front of a path leads nowhere else. -/
theorem foldl_go_partsOf {absolute : Bool} {segments : List String}
    (habsolute : absolute = true → segments.head? = some "") (l : Location) :
  (Path.partsOf absolute segments).foldl go l =
    (segments.filterMap (Path.segmentPart? false)).foldl go (if absolute then [] else l)
  := by
  cases segments with
  | nil =>
    cases absolute with
    | true => cases habsolute rfl
    | false => rfl
  | cons first more =>
    cases absolute with
    | true =>
      obtain rfl := Option.some.inj (habsolute rfl)
      rfl
    | false =>
      rw [Path.partsOf, if_neg Bool.false_ne_true, if_neg Bool.false_ne_true, List.foldl_append,
        List.filterMap_cons]
      by_cases hdot : first = "."
      · rw [hdot]
        rfl
      · have hfirst : Path.segmentPart? true first = Path.segmentPart? false first := by
          rw [Path.segmentPart?, Path.segmentPart?, beq_false_of_ne hdot]
          rfl
        rw [hfirst]
        cases Path.segmentPart? false first <;> rfl

/-- The parts of a path alone tell where it leads, if it leads anywhere. -/
theorem eq_of_locate? (h : d.locate? path = some l) :
  l = (Path.parts path).foldl go d.current
  := by
  rw [locate?] at h
  split at h
  · rw [Path.parts_eq, foldl_go_partsOf Path.head?_segments_of_isAbsolute]
    apply eq_of_follow h
  · cases h

/-- A name in a folder leads to the item of that name in it. -/
theorem eq_of_locate?_join (hname : (Path.Part.name name).IsStep)
    (hfolder : d.locate? folder = some k) (h : d.locate? (Path.join folder name) = some l) :
  l = k ++ [name]
  := by
  have hparts : Path.parts (Path.join folder name) = Path.parts folder ++ [.name name] :=
    Path.parts_join hname folder
  rw [eq_of_locate? h, hparts, List.foldl_append, ← eq_of_locate? hfolder]
  rfl

/-! ## Files -/

/-- There is a file at a location exactly if its item is one. -/
theorem isFileAt_iff :
  d.isFileAt l = true ↔ ∃ content executable, d.item? l = some (.file content executable)
  := by
  rw [isFileAt]
  split <;> simp_all

/-- There is a folder at a location exactly if its item is one. -/
theorem isFolderAt_iff :
  d.isFolderAt l = true ↔ d.item? l = some .folder
  := by
  rw [isFolderAt, beq_iff_eq]

/-- No location has both a file and a folder. -/
theorem isFolderAt_of_isFileAt (h : d.isFileAt l = true) :
  d.isFolderAt l = false
  := by
  obtain ⟨content, executable, hitem⟩ := isFileAt_iff.mp h
  rw [isFolderAt, hitem]
  rfl

/-- Where there is no file, folders tell what there is. -/
theorem item?_of_isFileAt (h : d.isFileAt l = false) :
  d.item? l = if d.isFolderAt l then some .folder else none
  := by
  rw [isFolderAt]
  rw [isFileAt] at h
  cases hitem : d.item? l with
  | none => rfl
  | some item =>
    cases item with
    | folder => rfl
    | file content executable =>
      rw [hitem] at h
      cases h

/-- Nothing but a file is executable. -/
theorem executableAt_of_isFileAt (h : d.isFileAt l = false) :
  d.executableAt l = false
  := by
  rw [executableAt, item?_of_isFileAt h]
  cases d.isFolderAt l <;> rfl

/-- An item but the root is listed with its location. -/
theorem mem_of_item? (hne : l ≠ []) (h : d.item? l = some item) :
  (l, item) ∈ d.items
  := by
  rw [item?, if_neg (by simpa using hne)] at h
  obtain ⟨front, more, hitems, -⟩ := List.lookup_eq_some_iff.mp h
  rw [hitems]
  apply List.mem_append_right _ List.mem_cons_self

/-! ## Proper disks -/

/-- A disk as it can be: every item has a place of its own, which is a name in a folder. -/
structure Proper (d : Disk) : Prop where
  nodup : (d.items.map Prod.fst).Nodup
  placed : ∀ e ∈ d.items, ∃ k name, e.1 = k ++ [name] ∧ (Path.Part.name name).IsStep ∧
    d.isFolderAt k = true

/-- Whether a place is a name in a folder. -/
def isPlaced (d : Disk) (l : Location) : Bool :=
  match l.getLast? with
  | some name => Path.fileName? name == some name && d.isFolderAt l.dropLast
  | none => false

/-- A place is found to be a name in a folder exactly if it is one. -/
theorem isPlaced_iff :
  d.isPlaced l = true ↔
    ∃ k name, l = k ++ [name] ∧ (Path.Part.name name).IsStep ∧ d.isFolderAt k = true
  := by
  constructor
  · intro h
    obtain rfl | ⟨k, name, rfl⟩ := List.eq_nil_or_concat' l
    · cases h
    · simp only [isPlaced, List.getLast?_concat, List.dropLast_concat, Bool.and_eq_true,
        beq_iff_eq] at h
      exact ⟨k, name, rfl, Path.isStep_of_fileName? h.1, h.2⟩
  · rintro ⟨k, name, rfl, hstep, hfolder⟩
    have hname := Path.fileName?_join hstep ""
    rw [Path.join_empty] at hname
    simp only [isPlaced, List.getLast?_concat, List.dropLast_concat, hname, hfolder,
      beq_self_eq_true, Bool.and_true]

instance (d : Disk) : Decidable d.Proper :=
  decidable_of_iff ((d.items.map Prod.fst).Nodup ∧ ∀ e ∈ d.items, d.isPlaced e.1 = true)
    ⟨fun h => ⟨h.1, fun e he => isPlaced_iff.mp (h.2 e he)⟩,
      fun h => ⟨h.nodup, fun e he => isPlaced_iff.mpr (h.placed e he)⟩⟩

namespace Proper

/-- In a list of different locations each one is looked up as it is listed. -/
theorem lookup_eq {e : Location × Item} {items : List (Location × Item)}
    (hnodup : (items.map Prod.fst).Nodup) (hmem : e ∈ items) :
  items.lookup e.1 = some e.2
  := by
  obtain ⟨front, more, rfl⟩ := List.append_of_mem hmem
  rw [List.map_append, List.map_cons, List.nodup_append] at hnodup
  obtain ⟨-, -, hdisjoint⟩ := hnodup
  apply List.lookup_eq_some_iff.mpr
  refine ⟨front, more, rfl, ?_⟩
  intro other hother
  rw [bne_iff_ne]
  exact (hdisjoint _ (List.mem_map_of_mem hother) _ List.mem_cons_self).symm

/-- Each listed item of a proper disk is the one at its location. -/
theorem item?_of_mem (hd : d.Proper) (hmem : (l, item) ∈ d.items) :
  d.item? l = some item
  := by
  obtain ⟨k, name, rfl, -, -⟩ := hd.placed _ hmem
  rw [item?, if_neg (by simp)]
  apply lookup_eq hd.nodup hmem

/-- What is found in a proper disk has a name, in a folder. -/
theorem placed_of_item? (hd : d.Proper) (h : d.item? (k ++ [name]) = some item) :
  (Path.Part.name name).IsStep ∧ d.isFolderAt k = true
  := by
  obtain ⟨outer, own, hplace, hstep, hfolder⟩ := hd.placed _ (mem_of_item? (by simp) h)
  obtain ⟨rfl, rfl⟩ := List.append_singleton_inj.mp hplace
  exact ⟨hstep, hfolder⟩

/-- What lies deeper lies in a folder. -/
theorem isFolderAt_of_append (hd : d.Proper) {more : Location} (hne : more ≠ [])
    (h : d.item? (l ++ more) = some item) :
  d.isFolderAt l = true
  := by
  induction more using List.reverseRecOn generalizing item with
  | nil => exact absurd rfl hne
  | append_singleton more name ih =>
    rw [← List.append_assoc] at h
    have hfolder := (hd.placed_of_item? h).2
    by_cases hnil : more = []
    · rwa [hnil, List.append_nil] at hfolder
    · apply ih hnil (isFolderAt_iff.mp hfolder)

/-- A folder of a proper disk is in a folder. -/
theorem isFolderAt_dropLast (hd : d.Proper) (h : d.isFolderAt l = true) :
  d.isFolderAt l.dropLast = true
  := by
  obtain rfl | ⟨k, name, rfl⟩ := List.eq_nil_or_concat' l
  · exact h
  · rw [List.dropLast_concat]
    exact (hd.placed_of_item? (isFolderAt_iff.mp h)).2

/-- A folder lists the items of its places. -/
theorem mem_children (hd : d.Proper) :
  (name, item) ∈ d.children k ↔ d.item? (k ++ [name]) = some item
  := by
  rw [children, List.mem_filterMap]
  constructor
  · rintro ⟨⟨l, found⟩, hmem, h⟩
    obtain ⟨outer, own, hplace, -, -⟩ := hd.placed _ hmem
    obtain rfl : l = outer ++ [own] := hplace
    simp only [List.getLast?_concat, List.dropLast_concat] at h
    split at h
    · rename_i houter
      cases h
      rw [← beq_iff_eq.mp houter]
      apply hd.item?_of_mem hmem
    · cases h
  · intro h
    refine ⟨(k ++ [name], item), mem_of_item? (by simp) h, ?_⟩
    simp

/-- The names in a folder of a proper disk are distinct. -/
theorem nodup_children (hd : d.Proper) (k : Location) :
  ((d.children k).map Prod.fst).Nodup
  := by
  rw [children, List.map_filterMap, List.nodup_iff_pairwise_ne, List.pairwise_filterMap]
  have hkeys := hd.nodup
  rw [List.nodup_iff_pairwise_ne, List.pairwise_map] at hkeys
  apply hkeys.imp_of_mem
  rintro ⟨l, item⟩ ⟨l', item'⟩ hmem hmem' hne name hname name' hname' rfl
  obtain ⟨outer, own, hplace, -, -⟩ := hd.placed _ hmem
  obtain ⟨outer', own', hplace', -, -⟩ := hd.placed _ hmem'
  obtain rfl : l = outer ++ [own] := hplace
  obtain rfl : l' = outer' ++ [own'] := hplace'
  simp only [List.getLast?_concat, List.dropLast_concat, Option.map_eq_some_iff] at hname hname'
  obtain ⟨e, he, rfl⟩ := hname
  obtain ⟨e', he', heq⟩ := hname'
  split at he
  · rename_i houter
    split at he'
    · rename_i houter'
      cases he
      cases he'
      apply hne
      obtain rfl : own' = own := heq
      rw [beq_iff_eq.mp houter, beq_iff_eq.mp houter']
    · cases he'
  · cases he

/-- The path of a file ends with a name. -/
theorem exists_fileName? (hd : d.Proper) (h : d.isFile path = true) :
  ∃ name, Path.fileName? path = some name
  := by
  obtain ⟨content, hcontent⟩ := isFile_iff.mp h
  obtain ⟨l, executable, hl, hitem⟩ := content?_eq_some_iff.mp hcontent
  have hnot : d.isFolderAt l = false := isFolderAt_of_isFileAt (isFileAt_iff.mpr ⟨_, _, hitem⟩)
  obtain ⟨front, s, hsegments⟩ := List.eq_nil_or_concat' (Path.segments path) |>.resolve_left
    (Path.segments_ne_nil path)
  obtain ⟨start, hfollow⟩ := follow_of_locate? hl
  rw [hsegments, follow_append] at hfollow
  obtain ⟨outer, -, hlast⟩ := Option.bind_eq_some_iff.mp hfollow
  have hslash : '/' ∉ s.toList := by
    have hmem : s ∈ Path.segments path := by
      rw [hsegments]
      apply List.mem_append_right _ (List.mem_singleton_self _)
    apply Path.not_mem_of_mem_segments hmem
  have houter : d.isFolderAt outer = true := by
    rw [follow] at hlast
    split at hlast
    · cases hlast
    · rename_i hgo
      rw [Bool.not_eq_true, Bool.or_eq_false_iff, Bool.not_eq_false'] at hgo
      exact hgo.1
  cases hpart : Path.segmentPart? false s with
  | none =>
    obtain ⟨rfl, -⟩ := eq_of_follow_dots
      (List.forall_mem_singleton.mpr (Path.isDot_of_segmentPart? hpart)) hlast
    rw [houter] at hnot
    cases hnot
  | some p =>
    have hstep : p.IsStep := by
      apply (Path.isStep_of_segmentPart? hslash hpart).resolve_left
      rintro rfl
      apply Path.segmentPart?_false_ne_current s hpart
    cases p with
    | name own =>
      obtain rfl := Path.eq_of_segmentPart?_eq_name hpart
      exact ⟨s, Path.fileName?_eq_some_iff.mpr
        ⟨front, [], hsegments, hstep, List.forall_mem_nil _⟩⟩
    | parent =>
      have hup : l = outer.dropLast := by
        rw [eq_of_follow hlast, List.filterMap_cons_some hpart]
        rfl
      rw [hup, hd.isFolderAt_dropLast houter] at hnot
      cases hnot
    | root => cases hstep.no_slash (by decide)
    | current => exact absurd hpart (Path.segmentPart?_false_ne_current s)

/-! ## Changed disks -/

/-- A disk stays proper when a file is put into a folder. -/
theorem put (hd : d.Proper) (hname : (Path.Part.name name).IsStep)
    (hfolder : d.isFolderAt k = true) (hnot : d.isFolderAt (k ++ [name]) = false)
    (content : Content) (executable : Bool) :
  (d.put (k ++ [name]) (.file content executable)).Proper
  := by
  have hkeeps : Keeps (fun _ => True) d (d.put (k ++ [name]) (.file content executable)) :=
    .put (by simp) hnot content executable fun _ _ => trivial
  have hkeys : (d.put (k ++ [name]) (.file content executable)).items.map Prod.fst =
      if (d.items.lookup (k ++ [name])).isSome then d.items.map Prod.fst
      else d.items.map Prod.fst ++ [k ++ [name]] := by
    rw [Disk.put]
    split
    · rw [List.map_map]
      apply List.map_congr_left
      intro e he
      simp only [Function.comp_apply]
      split <;> rfl
    · rw [List.map_append, List.map_singleton]
  have hplaced : ∀ l ∈ (d.put (k ++ [name]) (.file content executable)).items.map Prod.fst,
      l ∈ d.items.map Prod.fst ∨ l = k ++ [name] := by
    intro l hl
    rw [hkeys] at hl
    split at hl
    · exact .inl hl
    · exact (List.mem_append.mp hl).imp_right List.mem_singleton.mp
  constructor
  · rw [hkeys]
    split
    · apply hd.nodup
    · rename_i hnone
      rw [Option.isSome_iff_exists, not_exists] at hnone
      rw [List.nodup_append]
      refine ⟨hd.nodup, List.nodup_singleton _, ?_⟩
      rintro l hl _ hlast rfl
      obtain ⟨e, he, rfl⟩ := List.mem_map.mp hl
      apply hnone e.2
      rw [← List.mem_singleton.mp hlast]
      apply lookup_eq hd.nodup he
  · intro e he
    obtain hold | hnew := hplaced e.1 (List.mem_map_of_mem he)
    · obtain ⟨old, hmem, hkey⟩ := List.mem_map.mp hold
      obtain ⟨outer, own, hplace, hstep, houter⟩ := hd.placed old hmem
      exact ⟨outer, own, hkey ▸ hplace, hstep, (hkeeps.folders outer).trans houter⟩
    · exact ⟨k, name, hnew, hname, (hkeeps.folders k).trans hfolder⟩

/-- Without a file everything else is still there. -/
theorem item?_removeTree (hd : d.Proper) (hfile : d.isFileAt l = true) (k : Location) :
  (d.removeTree l).item? k = if k = l then none else d.item? k
  := by
  have hroot : l ≠ [] := by
    rintro rfl
    cases hfile
  by_cases hk : k = []
  · subst hk
    rw [if_neg (Ne.symm hroot)]
    rfl
  · have hempty : ¬ k.isEmpty = true := by simpa using hk
    rw [item?, if_neg hempty, removeTree, lookup_filter_keys d.items fun key => !l.isPrefixOf key]
    by_cases hsame : k = l
    · subst hsame
      simp
    · rw [if_neg hsame, item?, if_neg hempty]
      cases hbelow : l.isPrefixOf k with
      | false => rfl
      | true =>
        -- nothing lies below a file
        obtain ⟨more, rfl⟩ := List.isPrefixOf_iff_prefix.mp hbelow
        have hmore : more ≠ [] := by
          rintro rfl
          exact hsame (List.append_nil l)
        cases hfound : d.items.lookup (l ++ more) with
        | none => rfl
        | some found =>
          have hitem : d.item? (l ++ more) = some found := by
            rw [item?, if_neg hempty, hfound]
          have hfolder := hd.isFolderAt_of_append hmore hitem
          rw [isFolderAt_of_isFileAt hfile] at hfolder
          cases hfolder

/-- A proper disk is proper without one of its files. -/
theorem removeTree (hd : d.Proper) (hfile : d.isFileAt l = true) :
  (d.removeTree l).Proper
  := by
  constructor
  · exact hd.nodup.sublist (List.Sublist.map Prod.fst List.filter_sublist)
  · intro e he
    obtain ⟨k, name, hplace, hstep, hfolder⟩ := hd.placed e (List.mem_of_mem_filter he)
    refine ⟨k, name, hplace, hstep, ?_⟩
    rw [isFolderAt, hd.item?_removeTree hfile, if_neg]
    · exact hfolder
    · rintro rfl
      rw [isFolderAt_of_isFileAt hfile] at hfolder
      cases hfolder

end Proper

end Cosim.Disk

import Cosim.Proofs.Path

/-!
# File names

The file name of a path is its last segment, up to segments that are no parts.  It stays the same
when the path is put behind a folder.
-/

namespace Cosim.Path

/-! ## Last segments -/

/-- A segment that is no part of a path, unless it stands in front. -/
def IsDot (s : String) : Prop := s = "" ∨ s = "."

theorem segmentPart?_of_isDot {s : String} (h : IsDot s) :
  segmentPart? false s = none
  := by
  obtain rfl | rfl := h <;> decide

theorem isDot_of_segmentPart? {s : String} (h : segmentPart? false s = none) :
  IsDot s
  := by
  unfold segmentPart? at h
  split at h
  · rename_i hempty
    exact .inl (String.isEmpty_iff.mp hempty)
  · split at h
    · rename_i hdot
      exact .inr (beq_iff_eq.mp hdot)
    · split at h <;> cases h

theorem eq_of_segmentPart?_eq_name {s name : String} {isFirst : Bool}
    (h : segmentPart? isFirst s = some (.name name)) :
  s = name
  := by
  unfold segmentPart? at h
  split at h
  · cases h
  · split at h
    · split at h <;> cases h
    · split at h
      · cases h
      · exact Part.name.inj (Option.some.inj h)

theorem Part.IsStep.not_isDot {p : Part} (h : p.IsStep) :
  ¬ IsDot p.text
  := by
  intro hdot
  have hstands := h.stands false
  rw [segmentPart?_of_isDot hdot] at hstands
  cases hstands

theorem Part.IsStep.ne_parent {name : String} (h : (Part.name name).IsStep) :
  name ≠ ".."
  := by
  rintro rfl
  cases h.stands false

/-- Segments that are no parts change nothing behind others. -/
theorem partsOf_append_dots (absolute : Bool) {ss dots : List String} (hne : ss ≠ [])
    (h : ∀ s ∈ dots, IsDot s) :
  partsOf absolute (ss ++ dots) = partsOf absolute ss
  := by
  induction dots using List.reverseRecOn with
  | nil => rw [List.append_nil]
  | append_singleton dots s ih =>
    rw [List.forall_mem_append, List.forall_mem_singleton] at h
    obtain ⟨hdots, hs⟩ := h
    have hfront : ss ++ dots ≠ [] := List.append_ne_nil_of_left_ne_nil hne dots
    rw [← List.append_assoc, partsOf_append absolute s hfront, segmentPart?_of_isDot hs,
      Option.toList_none, List.append_nil, ih hdots]

theorem exists_of_getLast?_partsOf {absolute : Bool} {ss : List String} {name : String}
    (h : (partsOf absolute ss).getLast? = some (.name name)) :
  ∃ front dots, ss = front ++ name :: dots ∧ ∀ s ∈ dots, IsDot s
  := by
  induction ss using List.reverseRecOn with
  | nil => cases h
  | append_singleton ss s ih =>
    by_cases hnil : ss = []
    · subst hnil
      rw [List.nil_append, partsOf, List.filterMap_nil, List.append_nil] at h
      split at h
      · cases h
      · cases hpart : segmentPart? true s with
        | none =>
          rw [hpart] at h
          cases h
        | some p =>
          rw [hpart, Option.toList_some, List.getLast?_singleton] at h
          rw [Option.some.inj h] at hpart
          exact ⟨[], [], by rw [eq_of_segmentPart?_eq_name hpart], List.forall_mem_nil _⟩
    · rw [partsOf_append absolute s hnil] at h
      cases hpart : segmentPart? false s with
      | none =>
        rw [hpart, Option.toList_none, List.append_nil] at h
        obtain ⟨front, dots, rfl, hdots⟩ := ih h
        refine ⟨front, dots ++ [s], by rw [List.append_assoc, List.cons_append], ?_⟩
        rw [List.forall_mem_append, List.forall_mem_singleton]
        exact ⟨hdots, isDot_of_segmentPart? hpart⟩
      | some p =>
        rw [hpart, Option.toList_some, List.getLast?_concat] at h
        rw [Option.some.inj h] at hpart
        exact ⟨ss, [], by rw [eq_of_segmentPart?_eq_name hpart], List.forall_mem_nil _⟩

/-- The first segment of an absolute path is empty. -/
theorem head?_segments_of_isAbsolute {path : String} (h : isAbsolute path = true) :
  (segments path).head? = some ""
  := by
  rw [isAbsolute, beq_iff_eq] at h
  obtain ⟨cs, hcs⟩ := List.head?_eq_some_iff.mp h
  rw [segments, hcs, List.splitOn_cons_eq_if_modifyHead, if_pos (by decide)]
  rfl

/-- The file name of a path is the last segment that is a part, if that is a name. -/
theorem fileName?_eq_some_iff {path name : String} :
  fileName? path = some name ↔
    ∃ front dots, segments path = front ++ name :: dots ∧ (Part.name name).IsStep ∧
      ∀ s ∈ dots, IsDot s
  := by
  constructor
  · intro h
    have hlast : (parts path).getLast? = some (.name name) := by
      rw [fileName?] at h
      split at h
      · rename_i s hs
        rw [hs, Option.some.inj h]
      · cases h
    rw [parts_eq] at hlast
    obtain ⟨front, dots, hsegments, hdots⟩ := exists_of_getLast?_partsOf hlast
    exact ⟨front, dots, hsegments, isStep_of_fileName? h, hdots⟩
  · rintro ⟨front, dots, hsegments, hstep, hdots⟩
    have hpart (isFirst : Bool) : segmentPart? isFirst name = some (.name name) :=
      hstep.stands isFirst
    have hlast : (partsOf (isAbsolute path) (front ++ [name])).getLast? = some (.name name) := by
      by_cases hnil : front = []
      · subst hnil
        cases habsolute : isAbsolute path with
        | true =>
          have hhead := head?_segments_of_isAbsolute habsolute
          rw [hsegments] at hhead
          exact absurd (.inl (Option.some.inj hhead)) hstep.not_isDot
        | false => simp [partsOf, hpart]
      · rw [partsOf_append _ name hnil, hpart, Option.toList_some, List.getLast?_concat]
    rw [fileName?, parts_eq, hsegments, List.append_cons,
      partsOf_append_dots _ (List.append_ne_nil_of_right_ne_nil front (List.cons_ne_nil _ _)) hdots,
      hlast]

/-! ## Behind a folder -/

/-- The segments of a joined path end with those of the path that was put behind the folder. -/
theorem exists_segments_join (folder path : String) :
  ∃ front, segments (join folder path) = front ++ segments path
  := by
  rw [join]
  split
  · exact ⟨[], rfl⟩
  · split
    · rename_i hslash
      obtain ⟨cs, hcs⟩ := List.getLast?_eq_some_iff.mp (beq_iff_eq.mp hslash)
      refine ⟨segments (String.ofList cs), ?_⟩
      have htext : folder ++ path = String.ofList (cs ++ '/' :: path.toList) := by
        apply String.toList_injective
        simp [hcs]
      rw [htext, segments_slash, String.ofList_toList]
    · refine ⟨segments folder, ?_⟩
      have htext : folder ++ "/" ++ path = String.ofList (folder.toList ++ '/' :: path.toList) := by
        apply String.toList_injective
        simp
      rw [htext, segments_slash, String.ofList_toList, String.ofList_toList]

theorem fileName?_join_of_fileName? {path name : String} (h : fileName? path = some name)
    (folder : String) :
  fileName? (join folder path) = some name
  := by
  obtain ⟨front, dots, hsegments, hstep, hdots⟩ := fileName?_eq_some_iff.mp h
  obtain ⟨outer, hjoin⟩ := exists_segments_join folder path
  rw [hsegments, ← List.append_assoc] at hjoin
  exact fileName?_eq_some_iff.mpr ⟨outer ++ front, dots, hjoin, hstep, hdots⟩

/-- A file name is its own file name. -/
theorem fileName?_of_fileName? {path name : String} (h : fileName? path = some name) :
  fileName? name = some name
  := by
  have hstep := isStep_of_fileName? h
  have hsegments : segments name = [] ++ [name] := segments_of_not_mem hstep.no_slash
  exact fileName?_eq_some_iff.mpr ⟨[], [], hsegments, hstep, List.forall_mem_nil _⟩

/-! ## Endings -/

/-- A text without slashes goes to the last segment. -/
theorem exists_segments_append (s ending : String) (h : '/' ∉ ending.toList) :
  ∃ front last, segments (s ++ ending) = front ++ [last ++ ending]
  := by
  have hsplit (cs : List Char) : ∃ front last,
      (cs ++ ending.toList).splitOn '/' = front ++ [last ++ ending.toList] := by
    induction cs with
    | nil => exact ⟨[], [], List.splitOn_eq_singleton h⟩
    | cons c cs ih =>
      obtain ⟨front, last, hfront⟩ := ih
      rw [List.cons_append, List.splitOn_cons_eq_if_modifyHead, hfront]
      split
      · exact ⟨[] :: front, last, rfl⟩
      · cases front with
        | nil => exact ⟨[], c :: last, rfl⟩
        | cons first front => exact ⟨(c :: first) :: front, last, rfl⟩
  obtain ⟨front, last, hfront⟩ := hsplit s.toList
  refine ⟨front.map String.ofList, String.ofList last, ?_⟩
  rw [segments, String.toList_append, hfront, List.map_append, List.map_singleton]
  congr 2
  apply String.toList_injective
  rw [String.toList_ofList, String.toList_append, String.toList_ofList]

/-- A long text without slashes is a name. -/
theorem isStep_of_length {s : String} (h : '/' ∉ s.toList) (hlong : 2 < s.toList.length) :
  (Part.name s).IsStep
  := by
  have hne (short : String) (hshort : short.toList.length ≤ 2) : s ≠ short := by
    rintro rfl
    omega
  refine ⟨h, fun isFirst => ?_⟩
  rw [Part.text, segmentPart?, if_neg (by simpa using hne "" (by decide)),
    if_neg (by simpa using hne "." (by decide)), if_neg (by simpa using hne ".." (by decide))]

/-- A long ending without slashes is the end of the file name. -/
theorem exists_fileName?_append (s ending : String) (h : '/' ∉ ending.toList)
    (hlong : 2 < ending.toList.length) :
  ∃ name, fileName? (s ++ ending) = some (name ++ ending)
  := by
  obtain ⟨front, last, hsegments⟩ := exists_segments_append s ending h
  have hmem : last ++ ending ∈ segments (s ++ ending) := by
    rw [hsegments]
    apply List.mem_append_right _ (List.mem_singleton_self _)
  have hstep : (Part.name (last ++ ending)).IsStep := by
    apply isStep_of_length (not_mem_of_mem_segments hmem)
    rw [String.toList_append, List.length_append]
    omega
  exact ⟨last, fileName?_eq_some_iff.mpr ⟨front, [], hsegments, hstep, List.forall_mem_nil _⟩⟩

/-! ## Stems -/

theorem intercalate_concat {c : Char} {ss : List (List Char)} (h : ss ≠ []) (cs : List Char) :
  [c].intercalate (ss ++ [cs]) = [c].intercalate ss ++ c :: cs
  := by
  induction ss with
  | nil => exact absurd rfl h
  | cons s ss ih =>
    cases ss with
    | nil => simp
    | cons t ss =>
      simp only [List.cons_append, List.intercalate_cons_cons, List.append_assoc] at ih ⊢
      rw [ih (List.cons_ne_nil t ss)]

/-- A name is its stem, or its stem with a dot and more behind it. -/
theorem eq_stem_or (name : String) :
  name = (splitExtension name).1 ∨
    ∃ cs, name.toList = (splitExtension name).1.toList ++ '.' :: cs
  := by
  rw [splitExtension]
  split
  · rename_i last before more hparts
    dsimp only
    split
    · exact .inl rfl
    · right
      have hsplit : name.toList.splitOn '.' = (before :: more).reverse ++ [last] := by
        rw [← List.reverse_reverse (name.toList.splitOn '.'), hparts, List.reverse_cons]
      refine ⟨last, ?_⟩
      rw [String.toList_ofList, ← intercalate_concat (by simp), ← hsplit]
      exact (List.intercalate_splitOn '.').symm
  · exact .inl rfl

theorem not_mem_stem {path name : String} (h : fileName? path = some name) :
  '/' ∉ (splitExtension name).1.toList
  := by
  have hname : '/' ∉ name.toList := (isStep_of_fileName? h).no_slash
  obtain heq | ⟨cs, heq⟩ := eq_stem_or name
  · rwa [← heq]
  · rw [heq, List.mem_append, not_or] at hname
    exact hname.1

/-- A stem with an ending that does not begin with a dot is another name. -/
theorem stem_append_ne {name ending : String} (hne : ending ≠ "")
    (hdot : ending.toList.head? ≠ some '.') :
  (splitExtension name).1 ++ ending ≠ name
  := by
  intro hsame
  have hlist := congrArg String.toList hsame
  rw [String.toList_append] at hlist
  obtain heq | ⟨cs, heq⟩ := eq_stem_or name
  · rw [← heq, List.append_right_eq_self, String.toList_eq_nil_iff] at hlist
    exact hne hlist
  · rw [heq, List.append_cancel_left_eq] at hlist
    rw [hlist] at hdot
    exact hdot rfl

/-- The path with another file name has that name. -/
theorem fileName?_withFileName {name : String} (h : (Part.name name).IsStep) (path : String) :
  fileName? (withFileName path name) = some name
  := by
  rw [withFileName]
  split <;> exact fileName?_join h _

end Cosim.Path

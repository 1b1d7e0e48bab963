import Mathlib
import Cosim.Path

/-!
# Normalized paths

A normalized path is written from its parts: a root may stand in front, and all others are names and
steps up.  Its parts are read from it again, and so a file that is joined to it has it as its parent
and is only its name away.
-/

namespace Cosim.Path

/-! ## Segments -/

theorem segments_ne_nil (path : String) :
  segments path ≠ []
  := by
  rw [segments, Ne, List.map_eq_nil_iff]
  apply List.splitOn_ne_nil

/-- A text without slashes is a single segment. -/
theorem segments_of_not_mem {s : String} (h : '/' ∉ s.toList) :
  segments s = [s]
  := by
  rw [segments, List.splitOn_eq_singleton h, List.map_singleton, String.ofList_toList]

/-- Slashes divide the segments. -/
theorem segments_slash (cs ds : List Char) :
  segments (String.ofList (cs ++ '/' :: ds)) =
    segments (String.ofList cs) ++ segments (String.ofList ds)
  := by
  simp only [segments, String.toList_ofList, List.splitOn_append_cons_self, List.map_append]

/-- What a list is cut into does not have the character that it is cut at. -/
theorem not_mem_of_mem_splitOn {c : Char} {cs ds : List Char} (h : ds ∈ cs.splitOn c) :
  c ∉ ds
  := by
  induction cs generalizing ds with
  | nil =>
    rw [List.splitOn_nil, List.mem_singleton] at h
    rw [h]
    apply List.not_mem_nil
  | cons d cs ih =>
    rw [List.splitOn_cons_eq_if_modifyHead] at h
    split at h
    · obtain rfl | h := List.mem_cons.mp h
      · apply List.not_mem_nil
      · apply ih h
    · rename_i hd
      obtain ⟨first, more, hsplit⟩ := List.exists_cons_of_ne_nil (List.splitOn_ne_nil c cs)
      rw [hsplit, List.modifyHead_cons] at h
      obtain rfl | h := List.mem_cons.mp h
      · rw [List.mem_cons, not_or]
        refine ⟨?_, ih (by rw [hsplit]; apply List.mem_cons_self)⟩
        rintro rfl
        apply hd (beq_self_eq_true c)
      · apply ih
        rw [hsplit]
        apply List.mem_cons_of_mem _ h

/-- No segment has a slash. -/
theorem not_mem_of_mem_segments {s path : String} (h : s ∈ segments path) :
  '/' ∉ s.toList
  := by
  rw [segments, List.mem_map] at h
  obtain ⟨cs, hcs, rfl⟩ := h
  rw [String.toList_ofList]
  apply not_mem_of_mem_splitOn hcs

/-- The segments with slashes between them are the path. -/
theorem intercalate_segments (path : String) :
  "/".intercalate (segments path) = path
  := by
  apply String.toList_injective
  rw [String.toList_intercalate, segments, List.map_map]
  have hmap : String.toList ∘ String.ofList = id := by
    funext cs
    apply String.toList_ofList
  rw [hmap, List.map_id]
  apply List.intercalate_splitOn

/-! ## Steps -/

/-- A part that its text stands for wherever it is a segment: a name or a step up. -/
structure Part.IsStep (p : Part) : Prop where
  no_slash : '/' ∉ p.text.toList
  stands : ∀ isFirst, segmentPart? isFirst p.text = some p

/-- The part of a segment is a step, unless it is that of the current folder. -/
theorem isStep_of_segmentPart? {s : String} {p : Part} {isFirst : Bool} (hslash : '/' ∉ s.toList)
    (h : segmentPart? isFirst s = some p) :
  p = .current ∨ p.IsStep
  := by
  unfold segmentPart? at h
  split at h
  · cases h
  · rename_i hempty
    split at h
    · split at h
      · left
        cases h
        rfl
      · cases h
    · rename_i hdot
      right
      split at h
      · cases h
        exact ⟨by decide, by decide⟩
      · rename_i hparent
        cases h
        refine ⟨hslash, ?_⟩
        intro isFirst
        rw [Part.text, segmentPart?, if_neg hempty, if_neg hdot, if_neg hparent]

/-- Only the first segment can stand for the current folder. -/
theorem segmentPart?_false_ne_current (s : String) :
  segmentPart? false s ≠ some .current
  := by
  unfold segmentPart?
  split
  · simp
  · split
    · simp
    · split <;> simp

namespace Part.IsStep

variable {p : Part}

/-- A step has a text. -/
theorem ne_nil (h : p.IsStep) :
  p.text.toList ≠ []
  := by
  intro hnil
  have hempty : p.text = "" := String.toList_eq_nil_iff.mp hnil
  have hstands := h.stands true
  rw [hempty] at hstands
  cases hstands

/-- The text of a step does not begin at the root. -/
theorem isAbsolute_eq (h : p.IsStep) :
  isAbsolute p.text = false
  := by
  rw [isAbsolute, beq_eq_false_iff_ne]
  intro hhead
  apply h.no_slash (List.mem_of_head? hhead)

/-- The text of a step is a single segment. -/
theorem segments_eq (h : p.IsStep) :
  segments p.text = [p.text]
  := segments_of_not_mem h.no_slash

end Part.IsStep

/-! ## Parts -/

/-- The parts that segments stand for. -/
def partsOf (absolute : Bool) : List String → List Part
  | [] => []
  | first :: more =>
    if absolute then .root :: more.filterMap (segmentPart? false)
    else (segmentPart? true first).toList ++ more.filterMap (segmentPart? false)

/-- The parts of a path are those of its segments. -/
theorem parts_eq (path : String) :
  parts path = partsOf (isAbsolute path) (segments path)
  := by
  rw [parts]
  cases segments path <;> rfl

/-- A last segment adds its own part. -/
theorem partsOf_append (absolute : Bool) {ss : List String} (s : String) (h : ss ≠ []) :
  partsOf absolute (ss ++ [s]) = partsOf absolute ss ++ (segmentPart? false s).toList
  := by
  obtain ⟨first, more, rfl⟩ := List.exists_cons_of_ne_nil h
  cases hpart : segmentPart? false s with
  | none => cases absolute <;> simp [partsOf, hpart]
  | some p => cases absolute <;> simp [partsOf, hpart]

/-- The text of a step has that step for its part. -/
theorem parts_of_isStep {p : Part} (h : p.IsStep) :
  parts p.text = [p]
  := by
  rw [parts_eq, h.isAbsolute_eq, h.segments_eq]
  simp [partsOf, h.stands true]

/-- The parts of a path are one root or dot at most and steps behind it. -/
theorem parts_eq_append (path : String) :
  ∃ front steps, parts path = front ++ steps ∧
    (front = [] ∨ front = [.root] ∨ front = [.current]) ∧ ∀ p ∈ steps, p.IsStep
  := by
  obtain ⟨first, more, hsegments⟩ := List.exists_cons_of_ne_nil (segments_ne_nil path)
  have hslash : ∀ s ∈ first :: more, '/' ∉ s.toList := by
    intro s hs
    rw [← hsegments] at hs
    apply not_mem_of_mem_segments hs
  rw [List.forall_mem_cons] at hslash
  have hmore : ∀ p ∈ more.filterMap (segmentPart? false), p.IsStep := by
    intro p hp
    obtain ⟨s, hs, hpart⟩ := List.mem_filterMap.mp hp
    apply (isStep_of_segmentPart? (hslash.2 s hs) hpart).resolve_left
    rintro rfl
    apply segmentPart?_false_ne_current s hpart
  rw [parts_eq, hsegments, partsOf]
  split
  · exact ⟨[.root], _, rfl, .inr (.inl rfl), hmore⟩
  · cases hfirst : segmentPart? true first with
    | none => exact ⟨[], _, rfl, .inl rfl, hmore⟩
    | some p =>
      obtain rfl | hp := isStep_of_segmentPart? hslash.1 hfirst
      · exact ⟨[.current], _, rfl, .inr (.inr rfl), hmore⟩
      · refine ⟨[], p :: more.filterMap (segmentPart? false), rfl, .inl rfl, ?_⟩
        rw [List.forall_mem_cons]
        exact ⟨hp, hmore⟩

/-! ## Joined paths -/

section Join

variable {p : Part} {folder : String}

/-- A path in the empty folder is the path itself. -/
theorem join_empty (path : String) :
  join "" path = path
  := by
  rw [join, if_pos (by simp)]

/-- A step behind a folder that ends with a slash. -/
theorem join_of_slash {cs : List Char} (h : p.IsStep) (hfolder : folder.toList = cs ++ ['/']) :
  join folder p.text = String.ofList (cs ++ '/' :: p.text.toList)
  := by
  have hne : ¬ folder = "" := by
    rintro rfl
    simp at hfolder
  rw [join, h.isAbsolute_eq, if_neg (by simpa using hne), if_pos (by simp [hfolder])]
  apply String.toList_injective
  simp [hfolder]

/-- A step behind a folder that does not end with a slash. -/
theorem join_of_getLast? (h : p.IsStep) (hne : folder ≠ "")
    (hlast : folder.toList.getLast? ≠ some '/') :
  join folder p.text = String.ofList (folder.toList ++ '/' :: p.text.toList)
  := by
  rw [join, h.isAbsolute_eq, if_neg (by simpa using hne), if_neg (by simpa using hlast)]
  apply String.toList_injective
  simp

/-- The segments of a folder with a step behind it, but for the case that the folder ends with a
slash. -/
theorem segments_join (h : p.IsStep) (hne : folder ≠ "")
    (hlast : folder.toList.getLast? ≠ some '/') :
  segments (join folder p.text) = segments folder ++ [p.text]
  := by
  rw [join_of_getLast? h hne hlast, segments_slash, String.ofList_toList, String.ofList_toList,
    h.segments_eq]

/-- A path in a folder begins where the folder does. -/
theorem isAbsolute_join (h : p.IsStep) (hne : folder ≠ "") :
  isAbsolute (join folder p.text) = isAbsolute folder
  := by
  have hnil : folder.toList ≠ [] := by
    rw [Ne, String.toList_eq_nil_iff]
    apply hne
  rw [isAbsolute, isAbsolute]
  by_cases hlast : folder.toList.getLast? = some '/'
  · obtain ⟨cs, hcs⟩ := List.getLast?_eq_some_iff.mp hlast
    rw [join_of_slash h hcs, String.toList_ofList, hcs, List.append_cons,
      List.head?_append_of_ne_nil _ (by simp)]
  · rw [join_of_getLast? h hne hlast, String.toList_ofList, List.head?_append_of_ne_nil _ hnil]

/-- A step that is joined to a folder is the last part. -/
theorem parts_join (h : p.IsStep) (folder : String) :
  parts (join folder p.text) = parts folder ++ [p]
  := by
  have hstep : (segmentPart? false p.text).toList = [p] := by rw [h.stands false, Option.toList_some]
  by_cases hne : folder = ""
  · rw [hne, join_empty, parts_of_isStep h]
    rfl
  · rw [parts_eq, isAbsolute_join h hne, parts_eq folder]
    by_cases hlast : folder.toList.getLast? = some '/'
    · obtain ⟨cs, hcs⟩ := List.getLast?_eq_some_iff.mp hlast
      have hfolder : segments folder = segments (String.ofList cs) ++ [""] := by
        rw [← String.ofList_toList (s := folder), hcs, segments_slash]
        rfl
      rw [join_of_slash h hcs, segments_slash, String.ofList_toList, h.segments_eq, hfolder,
        partsOf_append _ _ (segments_ne_nil _), partsOf_append _ _ (segments_ne_nil _), hstep]
      simp [segmentPart?]
    · rw [segments_join h hne hlast, partsOf_append _ _ (segments_ne_nil _), hstep]

/-- A joined step is the last segment, and no slash stands behind it. -/
theorem segments_join_eq (h : p.IsStep) (folder : String) :
  ∃ ss, segments (join folder p.text) = ss ++ [p.text] ∧
    (join folder p.text).toList.getLast? = p.text.toList.getLast?
  := by
  have hslash (cs : List Char) : ∃ ss,
      segments (String.ofList (cs ++ '/' :: p.text.toList)) = ss ++ [p.text] ∧
      (String.ofList (cs ++ '/' :: p.text.toList)).toList.getLast? = p.text.toList.getLast? := by
    refine ⟨segments (String.ofList cs), ?_, ?_⟩
    · rw [segments_slash, String.ofList_toList, h.segments_eq]
    · rw [String.toList_ofList, List.append_cons, List.getLast?_append_of_ne_nil _ h.ne_nil]
  by_cases hne : folder = ""
  · rw [hne, join_empty]
    exact ⟨[], h.segments_eq, rfl⟩
  · by_cases hlast : folder.toList.getLast? = some '/'
    · obtain ⟨cs, hcs⟩ := List.getLast?_eq_some_iff.mp hlast
      rw [join_of_slash h hcs]
      apply hslash
    · rw [join_of_getLast? h hne hlast]
      apply hslash

end Join

/-! ## Resolved parts -/

/-- Parts without dots in reverse: names and steps up behind one root at most. -/
inductive Resolved : List Part → Prop where
  | nil : Resolved []
  | root : Resolved [.root]
  | cons {p : Part} {ps : List Part} : p.IsStep → Resolved ps → Resolved (p :: ps)

/-- A step is resolved against steps that are resolved already. -/
theorem resolved_resolveStep {p : Part} {reversed : List Part} (hp : p.IsStep)
    (h : Resolved reversed) :
  Resolved (resolveStep reversed p)
  := by
  unfold resolveStep
  split
  · apply h
  · split
    · cases h with
      | cons _ hbefore => apply hbefore
    · apply Resolved.cons hp h
  · apply Resolved.cons hp h

/-- Steps are resolved one after the other. -/
theorem resolved_foldl {steps reversed : List Part} (hsteps : ∀ p ∈ steps, p.IsStep)
    (h : Resolved reversed) :
  Resolved (steps.foldl resolveStep reversed)
  := by
  induction steps generalizing reversed with
  | nil => apply h
  | cons p steps ih =>
    rw [List.forall_mem_cons] at hsteps
    apply ih hsteps.2 (resolved_resolveStep hsteps.1 h)

/-- Every path resolves. -/
theorem resolved_parts (path : String) :
  Resolved (resolve (parts path)).reverse
  := by
  obtain ⟨front, steps, hparts, hfront, hsteps⟩ := parts_eq_append path
  rw [resolve, List.reverse_reverse, hparts, List.foldl_append]
  apply resolved_foldl hsteps
  obtain rfl | rfl | rfl := hfront
  · apply Resolved.nil
  · apply Resolved.root
  · apply Resolved.nil

/-- The path that is written from resolved parts. -/
def home (reversed : List Part) : String := ofParts reversed.reverse

/-- A normal path is put together from the resolved parts. -/
theorem normalize_eq_home (path : String) :
  normalize path = home (resolve (parts path)).reverse
  := by
  rw [home, List.reverse_reverse, normalize]

/-- The path to some steps is joined from the path to those before the last one. -/
theorem home_cons (p : Part) (reversed : List Part) :
  home (p :: reversed) = join (home reversed) p.text
  := by
  rw [home, home, List.reverse_cons, ofParts, ofParts, List.foldl_append, List.foldl_cons,
    List.foldl_nil]

/-- The parts of a path that is put together from resolved steps are these steps. -/
theorem parts_home {reversed : List Part} (h : Resolved reversed) :
  parts (home reversed) = reversed.reverse
  := by
  induction h with
  | nil => rfl
  | root => rfl
  | cons hp h ih => rw [home_cons, parts_join hp, ih, List.reverse_cons]

/-- A step that is joined to a written path stands in it. -/
theorem parent?_join {p : Part} {reversed : List Part} (hp : p.IsStep) (h : Resolved reversed) :
  parent? (join (home reversed) p.text) = some (home reversed)
  := by
  have hstep {q : Part} (hq : q.IsStep) (isFirst : Bool) :
      (segmentPart? isFirst q.text).isSome = true := by
    rw [hq.stands isFirst, Option.isSome_some]
  cases h with
  | nil =>
    have hhome : home [] = "" := rfl
    rw [hhome, join_empty, parent?, hp.isAbsolute_eq, hp.segments_eq]
    simp [dropLastPart, hstep hp, dropEmptyEnd]
  | root =>
    have hhome : home [.root] = "/" := rfl
    have hsegments : segments (join "/" p.text) = ["", p.text] := by
      have hslash : "/".toList = [] ++ ['/'] := rfl
      rw [join_of_slash hp hslash, segments_slash, String.ofList_toList, hp.segments_eq]
      rfl
    have habsolute : isAbsolute "/" = true := rfl
    have hempty (isFirst : Bool) : (segmentPart? isFirst "").isSome = false := rfl
    rw [hhome, parent?, isAbsolute_join hp (by decide), hsegments]
    simp [dropLastPart, hstep hp, dropEmptyEnd, habsolute, hempty]
  | @cons q qs hq h =>
    obtain ⟨ss, hsegments, hlast⟩ := segments_join_eq hq (home qs)
    rw [← home_cons] at hsegments hlast
    generalize home (q :: qs) = folder at hsegments hlast ⊢
    have hne : folder ≠ "" := by
      rintro rfl
      apply hq.ne_nil
      rw [← List.getLast?_eq_none_iff, ← hlast]
      rfl
    have hslash : folder.toList.getLast? ≠ some '/' := by
      intro hslash
      rw [hlast] at hslash
      apply hq.no_slash (List.mem_of_getLast? hslash)
    have hreverse : (segments folder).reverse = q.text :: ss.reverse := by
      rw [hsegments, List.reverse_append, List.reverse_singleton, List.singleton_append]
    have hdrop (isRelative : Bool) :
        dropLastPart isRelative (segments (join folder p.text)).reverse =
          some (segments folder).reverse := by
      rw [segments_join hp hne hslash, List.reverse_append, List.reverse_singleton,
        List.singleton_append, dropLastPart, if_pos (hstep hp _)]
    have hfront (isRelative : Bool) :
        (dropEmptyEnd isRelative (segments folder).reverse).reverse = segments folder := by
      rw [hreverse, dropEmptyEnd, if_pos (hstep hq _), ← hreverse, List.reverse_reverse]
    rw [parent?, hdrop, Option.map_some, hfront, Option.some.injEq]
    split
    · rename_i hnil
      apply absurd hnil (segments_ne_nil folder)
    · apply intercalate_segments

/-! ## Files of one folder -/

/-- The name of a file is a step. -/
theorem isStep_of_fileName? {path name : String} (h : fileName? path = some name) :
  (Part.name name).IsStep
  := by
  have hlast : (parts path).getLast? = some (.name name) := by
    rw [fileName?] at h
    split at h
    · rename_i s hs
      rw [hs, Option.some.inj h]
    · cases h
  obtain ⟨front, steps, hparts, hfront, hsteps⟩ := parts_eq_append path
  rw [hparts] at hlast
  obtain hmem | hmem := List.mem_append.mp (List.mem_of_getLast? hlast)
  · obtain rfl | rfl | rfl := hfront
    · cases hmem
    · simp at hmem
    · simp at hmem
  · apply hsteps _ hmem

/-- A file in a folder has its own name. -/
theorem fileName?_join {name : String} (h : (Part.name name).IsStep) (folder : String) :
  fileName? (join folder name) = some name
  := by
  have hparts : parts (join folder name) = parts folder ++ [.name name] := parts_join h folder
  rw [fileName?, hparts, List.getLast?_append_of_ne_nil _ (by simp), List.getLast?_singleton]

/-- A file in a folder is normal in the normal folder. -/
theorem normalize_join {name : String} (h : (Part.name name).IsStep) (folder : String) :
  normalize (join folder name) = join (normalize folder) name
  := by
  have hparts : parts (join folder name) = parts folder ++ [.name name] := parts_join h folder
  have hresolve : resolve (parts folder ++ [.name name]) =
      resolve (parts folder) ++ [.name name] := by
    rw [resolve, resolve, List.foldl_append, List.foldl_cons, List.foldl_nil, resolveStep,
      List.reverse_cons]
    · simp
    · simp
  rw [normalize, hparts, hresolve, normalize, ofParts, List.foldl_append, List.foldl_cons,
    List.foldl_nil, ofParts]
  rfl

/-- What a list begins with is the common front of the two. -/
theorem commonFront_append {α : Type} [DecidableEq α] (as bs : List α) :
  commonFront (as ++ bs) as = as
  := by
  induction as with
  | nil => rw [List.nil_append, commonFront]; simp
  | cons a as ih => rw [List.cons_append, commonFront, if_pos rfl, ih]

/-- A list is its own common front. -/
theorem commonFront_self {α : Type} [DecidableEq α] (as : List α) :
  commonFront as as = as
  := by
  have happend := commonFront_append as []
  rwa [List.append_nil] at happend

/-- The parts of a normal path are the resolved ones. -/
theorem parts_normalize (path : String) :
  parts (normalize path) = resolve (parts path)
  := by
  rw [normalize_eq_home, parts_home (resolved_parts path), List.reverse_reverse]

/-- The parent of a file in a normal folder is that folder. -/
theorem parent?_normalize {name : String} (h : (Part.name name).IsStep) (folder : String) :
  parent? (join (normalize folder) name) = some (normalize folder)
  := by
  rw [normalize_eq_home]
  apply parent?_join h (resolved_parts folder)

/-- Files of one normalized folder have it as their common root. -/
theorem commonRoot?_join (folder : String) {names : List String} (hne : names ≠ [])
    (h : ∀ name ∈ names, (Part.name name).IsStep) :
  commonRoot? (names.map (join (normalize folder))) = some (normalize folder)
  := by
  have hparents : (names.map (join (normalize folder))).filterMap parent? =
      List.replicate names.length (normalize folder) := by
    rw [← List.map_const', List.filterMap_map, ← List.filterMap_eq_map]
    apply List.filterMap_congr
    intro name hname
    apply parent?_normalize (h name hname)
  have hfront : ofParts (commonFront (parts (normalize folder)) (parts (normalize folder))) =
      normalize folder := by
    rw [commonFront_self, parts_normalize, normalize]
  have hfold (n : Nat) : (List.replicate n (normalize folder)).foldl
      (fun root folder => ofParts (commonFront (parts root) (parts folder))) (normalize folder) =
        normalize folder := by
    induction n with
    | zero => rfl
    | succ n ih => rw [List.replicate_succ, List.foldl_cons, hfront, ih]
  obtain ⟨first, more, rfl⟩ := List.exists_cons_of_ne_nil hne
  rw [commonRoot?, hparents, List.length_cons, List.replicate_succ]
  simp only [hfold]

/-- A file of a normalized folder is its name away. -/
theorem relativeTo_join {name : String} (h : (Part.name name).IsStep) (folder : String) :
  relativeTo (join (normalize folder) name) (normalize folder) = name
  := by
  have hparts : parts (join (normalize folder) name) = resolve (parts folder) ++ [.name name] := by
    rw [← parts_normalize]
    apply parts_join h
  rw [relativeTo, hparts, parts_normalize]
  simp only [commonFront_append]
  split
  · rename_i hnil
    rw [beq_iff_eq, List.length_eq_zero_iff] at hnil
    rw [hnil]
    apply join_empty
  · simp [Part.text]

end Cosim.Path

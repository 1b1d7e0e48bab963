import Cosim.Proofs.Model.ReadingBack

/-!
# Changes of overrides

An override tells of each attribute that it writes, and of nothing else.  With this, what overrides
mean for a description as a whole.
-/

namespace Cosim.Description

open Xml (Element)

variable {d : Description} {declared e : Element} {name : String} {update : Variable}
  {overrides reordered : Entries Variable}

/-! ## Written attributes -/

/-- Changes carried out on a tree one after another, each at the end of a path: it sets an
attribute, of which it tells the old and the new value. -/
inductive Carried : List (List ℕ × Change) → Element → Element → Prop where
  | nil (e : Element) : Carried [] e e
  | cons {path : List ℕ} {change : Change} {more : List (List ℕ × Change)} {e e' e'' : Element}
    (h : Xml.SetAt change.key change.old change.new path e e') (hmore : Carried more e' e'') :
    Carried ((path, change) :: more) e e''

variable {writes more : List (List ℕ × Change)} {changes others : List Change} {e' e'' : Element}

/-- Changes are carried out one after the other. -/
theorem Carried.append (h : Carried writes e e') (hmore : Carried more e' e'') :
  Carried (writes ++ more) e e''
  := by
  induction h with
  | nil e => exact hmore
  | cons h _ ih => exact .cons h (ih hmore)

/-- Changes of a child are changes of the tree, at the place of the child. -/
theorem Carried.child {front back : List Xml.Node} (h : Carried writes e e') (name : String)
    (attributes : Entries String) :
  Carried (writes.map (Prod.map (front.length :: ·) id))
    ⟨name, attributes, front ++ .ofElement e :: back⟩
    ⟨name, attributes, front ++ .ofElement e' :: back⟩
  := by
  induction h with
  | nil e => exact .nil _
  | cons h _ ih => exact .cons (.child h) ih

/-- The attribute that a change is about, by the way to its element and its name. -/
def target (write : List ℕ × Change) : List ℕ × String := (write.1, write.2.key)

/-- The changes of a tree are told one by one, and each of them writes another attribute. -/
structure Told (changes : List Change) (e e' : Element) (writes : List (List ℕ × Change)) :
    Prop where
  changes : writes.map Prod.snd = changes
  carried : Carried writes e e'
  distinct : (writes.map target).Nodup

namespace Told

theorem none (e : Element) :
  Told [] e e []
  := ⟨rfl, .nil e, List.nodup_nil⟩

/-- Changes of different attributes are told one after the other. -/
theorem append (h : Told changes e e' writes) (hmore : Told others e' e'' more)
    (hdisjoint : ∀ write ∈ writes, ∀ write' ∈ more, target write ≠ target write') :
  Told (changes ++ others) e e'' (writes ++ more)
  where
  changes := by rw [List.map_append, h.changes, hmore.changes]
  carried := h.carried.append hmore.carried
  distinct := by
    rw [List.map_append, List.nodup_append]
    refine ⟨h.distinct, hmore.distinct, ?_⟩
    intro a ha b hb
    obtain ⟨write, hwrite, rfl⟩ := List.mem_map.mp ha
    obtain ⟨write', hwrite', rfl⟩ := List.mem_map.mp hb
    exact hdisjoint write hwrite write' hwrite'

/-- Changes of a child are told as changes of the tree, at the place of the child. -/
theorem child {front back : List Xml.Node} (h : Told changes e e' writes) (name : String)
    (attributes : Entries String) :
  Told changes ⟨name, attributes, front ++ .ofElement e :: back⟩
    ⟨name, attributes, front ++ .ofElement e' :: back⟩
    (writes.map (Prod.map (front.length :: ·) id))
  where
  changes := by
    rw [List.map_map]
    exact h.changes
  carried := h.carried.child name attributes
  distinct := by
    have hinjective : Function.Injective (Prod.map (front.length :: ·) id :
        List ℕ × String → List ℕ × String) :=
      (List.cons_injective).prodMap Function.injective_id
    have hmap : target ∘ Prod.map (front.length :: ·) id =
        Prod.map (front.length :: ·) id ∘ target := rfl
    rw [List.map_map, hmap, ← List.map_map]
    exact h.distinct.map hinjective

end Told

/-- Overriding an attribute carries out the changes that it tells. -/
theorem carried_overrideAttr (name key : String) (value : Option String) (e : Element) :
  Carried ((overrideAttr name key value e).2.map ([], ·)) e (overrideAttr name key value e).1
  := by
  cases value with
  | none => exact .nil e
  | some value => exact .cons (.here rfl) (.nil _)

/-- Overriding an attribute changes that attribute at most. -/
theorem target_overrideAttr (name key : String) (value : Option String) (e : Element) :
  (((overrideAttr name key value e).2.map ([], ·)).map target).Sublist [([], key)]
  := by
  cases value with
  | none => exact List.nil_sublist _
  | some value => exact List.Sublist.refl _

/-- Overriding a start value carries out the changes that it tells, in one of the children. -/
theorem carried_overrideStart (name : String) (update : Variable) (e : Element) :
  ∃ k, Carried ((overrideStart name update e).2.map ([k], ·)) e (overrideStart name update e).1 ∧
    (((overrideStart name update e).2.map ([k], ·)).map target).Sublist [([k], "start")]
  := by
  obtain ⟨tag, attributes, children⟩ := e
  rw [overrideStart, Element.elements]
  dsimp only
  cases update.start with
  | none => exact ⟨0, .nil _, List.nil_sublist _⟩
  | some start =>
    obtain hlacks | ⟨front, child, back, rfl, hfront, hchild⟩ :=
      Element.lacks_or_first (isTypedAs update.dataType) children
    · rw [Element.find?_of_lacks hlacks]
      exact ⟨0, .nil _, List.nil_sublist _⟩
    · rw [Element.find?_of_first hfront hchild]
      dsimp only
      rw [Element.changeFirst_of_first hfront hchild]
      exact ⟨front.length, .cons (.child (.here rfl)) (.nil _), List.Sublist.refl _⟩

/-- Overriding a variable tells each of its changes. -/
theorem told_overrideElement (name : String) (update : Variable) (e : Element) :
  ∃ writes, Told (overrideElement name update e).2 e (overridden name update e) writes
  := by
  rw [overridden, overrideElement]
  dsimp only
  obtain ⟨k, hstart, hstartAt⟩ := carried_overrideStart name update e
  generalize overrideStart name update e = started at *
  have hcausality := carried_overrideAttr name "causality" (update.causality.map Causality.text)
    started.1
  have hcausalityAt := target_overrideAttr name "causality" (update.causality.map Causality.text)
    started.1
  generalize overrideAttr name "causality" _ started.1 = directed at *
  have hvariability := carried_overrideAttr name "variability"
    (update.variability.map Variability.text) directed.1
  have hvariabilityAt := target_overrideAttr name "variability"
    (update.variability.map Variability.text) directed.1
  refine ⟨_, ?_, (hstart.append hcausality).append hvariability, ?_⟩
  · simp [Function.comp_def]
  · have htargets := (hstartAt.append hcausalityAt).append hvariabilityAt
    rw [← List.map_append, ← List.map_append] at htargets
    apply htargets.nodup
    simp

/-- The path leads into the first element of one of some variables. -/
def Concerns (declared : Element) (names : List String) (path : List ℕ) : Prop :=
  ∃ i rest, path = i :: rest ∧
    ∃ name ∈ names, ∃ e, Xml.Node.FirstAt (describes name) declared.children i e

/-- Overriding one variable among others tells each change, all in the first variable of its name.
-/
theorem told_overrideIn (declared : Element) (name : String) (update : Variable) :
  ∃ writes, Told (overrideIn declared name update).2 declared (overrideIn declared name update).1
      writes ∧
    ∀ write ∈ writes, Concerns declared [name] write.1
  := by
  obtain ⟨tag, attributes, children⟩ := declared
  rw [overrideIn, Element.elements]
  dsimp only
  obtain hlacks | ⟨front, e, back, rfl, hfront, he⟩ :=
    Element.lacks_or_first (describes name) children
  · rw [Element.find?_of_lacks hlacks]
    exact ⟨[], .none _, List.forall_mem_nil _⟩
  · obtain ⟨writes, htold⟩ := told_overrideElement name update e
    rw [Element.find?_of_first hfront he]
    dsimp only
    rw [Element.changeFirst_of_first hfront he]
    refine ⟨_, htold.child tag attributes, ?_⟩
    rw [List.forall_mem_map]
    intro write _
    exact ⟨front.length, write.1, rfl, name, List.mem_singleton_self name, e,
      hfront.firstAt he back⟩

/-- Overrides leave the first elements of variables where they are. -/
theorem Concerns.of_overrideIn {names : List String} {path : List ℕ}
    (h : Concerns (overrideIn declared name update).1 names path) :
  Concerns declared names path
  := by
  obtain ⟨i, rest, rfl, other, hother, e', he'⟩ := h
  have hedited : Xml.Node.Edited (fun _ key => key ≠ "name") (.ofElement declared)
      (.ofElement (overrideIn declared name update).1) := by
    apply edited_overrideIn update
    · intro _ _ _
      decide
    · intro _ _ _ _ _ _
      decide
  obtain ⟨e, he, -⟩ := he'.of_edited hedited.children fun _ c c' hc =>
    describes_eq hc fun h => h rfl
  exact ⟨i, rest, rfl, other, hother, e, he⟩

/-- Overrides of different variables write different attributes. -/
theorem Concerns.ne {names : List String} {write write' : List ℕ × Change}
    (h : Concerns declared [name] write.1) (h' : Concerns declared names write'.1)
    (hname : name ∉ names) :
  target write ≠ target write'
  := by
  obtain ⟨i, rest, hpath, first, hfirst, e, he⟩ := h
  obtain ⟨i', rest', hpath', other, hother, e', he'⟩ := h'
  rw [List.mem_singleton.mp hfirst] at he
  intro htarget
  have hpaths : i :: rest = i' :: rest' := by
    rw [← hpath, ← hpath']
    exact (Prod.mk.inj htarget).1
  obtain ⟨rfl, -⟩ := List.cons.inj hpaths
  obtain rfl : e = e' := by
    have hplace := he.place.symm.trans he'.place
    exact Option.some.inj (congrArg Xml.Node.element? (Option.some.inj hplace))
  have hne : name ≠ other := by
    rintro rfl
    exact hname hother
  have hnot := not_describes hne he.holds
  rw [he'.holds] at hnot
  cases hnot

/-- Overriding different variables tells each change, all in variables of their names. -/
theorem told_overrideAll (hkeys : overrides.keys.Nodup) (declared : Element) :
  ∃ writes, Told (overrideAll declared overrides).2 declared (overrideAll declared overrides).1
      writes ∧
    ∀ write ∈ writes, Concerns declared overrides.keys write.1
  := by
  induction overrides generalizing declared with
  | nil => exact ⟨[], .none declared, List.forall_mem_nil _⟩
  | cons o more ih =>
    obtain ⟨name, update⟩ := o
    rw [Entries.keys_cons, List.nodup_cons] at hkeys
    obtain ⟨writes, htold, hwrites⟩ := told_overrideIn declared name update
    obtain ⟨others, hmore, hothers⟩ := ih hkeys.2 (overrideIn declared name update).1
    refine ⟨writes ++ others, htold.append hmore ?_, ?_⟩
    · intro write hwrite other hother
      exact (hwrites write hwrite).ne (hothers other hother).of_overrideIn hkeys.1
    · intro write hwrite
      rw [Entries.keys_cons]
      obtain hwrite | hwrite := List.mem_append.mp hwrite
      · obtain ⟨i, rest, hpath, first, hfirst, hplace⟩ := hwrites write hwrite
        obtain rfl := List.mem_singleton.mp hfirst
        exact ⟨i, rest, hpath, first, List.mem_cons_self, hplace⟩
      · obtain ⟨i, rest, hpath, other, hother, hplace⟩ := (hothers write hwrite).of_overrideIn
        exact ⟨i, rest, hpath, other, List.mem_cons_of_mem name hother, hplace⟩

/-- Overriding variables of a description tells each change. -/
theorem told_override (hkeys : overrides.keys.Nodup) (d : Description) :
  ∃ writes, Told (d.override overrides).2 d.root (d.override overrides).1.root writes
  := by
  rw [override_snd, override_fst, Element.changeChild, Element.child?, Element.elements]
  obtain ⟨⟨tag, attributes, children⟩⟩ := d
  dsimp only
  obtain hlacks | ⟨front, declared, back, rfl, hfront, hdeclared⟩ :=
    Element.lacks_or_first (·.name == "ModelVariables") children
  · rw [Element.find?_of_lacks hlacks, Element.changeFirst_of_lacks hlacks]
    exact ⟨[], .none _⟩
  · obtain ⟨writes, htold, -⟩ := told_overrideAll hkeys declared
    rw [Element.find?_of_first hfront hdeclared, Element.changeFirst_of_first hfront hdeclared]
    exact ⟨_, htold.child tag attributes⟩

/-! ## Overrides as a whole -/

/-- Of all elements, one alone describes a variable. -/
def DescribedBy (d : Description) (name : String) (e : Element) : Prop :=
  ∃ declared, d.root.child? "ModelVariables" = some declared ∧
    declared.elements.filter (describes name) = [e]

/-- The order of overrides matters neither for the description nor for the changes that are told. -/
theorem override_of_perm (hkeys : overrides.keys.Nodup) (h : reordered.Perm overrides)
    (d : Description) :
  (d.override reordered).1 = (d.override overrides).1 ∧
  (d.override reordered).2.Perm (d.override overrides).2
  := by
  have hkeys' : reordered.keys.Nodup := (h.map Prod.fst).nodup_iff.mpr hkeys
  constructor
  · apply congrArg Description.mk
    rw [override_fst, override_fst]
    simp only [overrideAll_fst_of_perm hkeys h]
  · rw [override_snd, override_snd]
    cases d.root.child? "ModelVariables" with
    | none => exact List.Perm.refl _
    | some declared =>
      rw [Option.map_some, Option.getD_some, Option.map_some, Option.getD_some,
        overrideAll_snd hkeys', overrideAll_snd hkeys]
      exact h.flatMap_right _

/-- The elements of a variable that has no override are read as before. -/
theorem get?_override_of_notMem (hkeys : overrides.keys.Nodup) (hname : name ∉ overrides.keys)
    (d : Description) :
  (d.override overrides).1.scalarVariables.get? name = d.scalarVariables.get? name
  := by
  rw [get?_scalarVariables, get?_scalarVariables, child?_override]
  cases d.root.child? "ModelVariables" with
  | none => rfl
  | some declared =>
    rw [Option.map_some, Option.bind_some, Option.bind_some, filter_overrideAll hkeys,
      Entries.get?_eq_none_iff.mpr hname]

/-- A variable that is overridden is read back as the override makes it. -/
theorem get?_override (hkeys : overrides.keys.Nodup) (hupdate : overrides.get? name = some update)
    (hvisible : isReserved name = false) (he : d.DescribedBy name e) (hsuits : Suits update e) :
  ∃ v, d.scalarVariables.get? name = some v ∧
    (d.override overrides).1.scalarVariables.get? name = some (readBack v update)
  := by
  obtain ⟨declared, hdeclared, hone⟩ := he
  have hholds : describes name e = true := by
    have hmem : e ∈ declared.elements.filter (describes name) := by
      rw [hone]
      exact List.mem_singleton_self e
    exact List.of_mem_filter hmem
  obtain ⟨v, hv, -⟩ := exists_variableOf? hholds hvisible
  refine ⟨v, ?_, ?_⟩
  · rw [get?_scalarVariables, hdeclared, Option.bind_some, hone, List.getLast?_singleton,
      Option.bind_some, hv]
  · rw [get?_scalarVariables, child?_override, hdeclared, Option.map_some, Option.bind_some,
      filter_overrideAll hkeys, hupdate, hone]
    dsimp only
    rw [List.modifyHead_cons, List.getLast?_singleton, Option.bind_some,
      variableOf?_overridden hsuits, hv, Option.map_some]

/-- Overrides can be given in any order.  A visible variable that one element alone describes is
read back with the values of its override, if that demands no other data type; the variables that
have no override, the units and the default experiment are read as before.  There is exactly one
change for each attribute that is written. -/
theorem override_read_back (hkeys : overrides.keys.Nodup) (d : Description) :
  (∀ reordered : Entries Variable, reordered.Perm overrides →
    (d.override reordered).1 = (d.override overrides).1 ∧
    (d.override reordered).2.Perm (d.override overrides).2) ∧
  (∀ name update e, overrides.get? name = some update → isReserved name = false →
    d.DescribedBy name e → Suits update e →
    ∃ v, d.scalarVariables.get? name = some v ∧
      (d.override overrides).1.scalarVariables.get? name = some (readBack v update)) ∧
  (∀ name ∉ overrides.keys,
    (d.override overrides).1.scalarVariables.get? name = d.scalarVariables.get? name) ∧
  (d.override overrides).1.units = d.units ∧
  (d.override overrides).1.experiment? = d.experiment? ∧
  ∃ writes, Told (d.override overrides).2 d.root (d.override overrides).1.root writes
  := by
  refine ⟨?_, ?_, ?_, units_override d overrides, experiment?_override d overrides,
    told_override hkeys d⟩
  · exact fun _ hperm => override_of_perm hkeys hperm d
  · exact fun _ _ _ hupdate hvisible he hsuits => get?_override hkeys hupdate hvisible he hsuits
  · exact fun _ hname => get?_override_of_notMem hkeys hname d

/-- A tank with a level, a valve and a pump. -/
def levels : Description where
  root := ⟨"fmiModelDescription", [("modelName", "tank")], [.element "ModelVariables" [] [
    .element "ScalarVariable" [("name", "level"), ("causality", "local")] [
      .comment "metres", .element "Integer" [("start", "1"), ("unit", "m")] []],
    .element "ScalarVariable" [("name", "valve")] [],
    .element "ScalarVariable" [("name", "pump")] [.element "Boolean" [("start", "true")] []]]]⟩

/-- The level gets a start value and the causality of an output, the valve a variability. -/
def levelOverrides : Entries Variable :=
  [("level", { Variable.named "level" with
      dataType := some .integer, causality := some .output, start := some (.int 3) }),
    ("valve", { Variable.named "valve" with variability := some .discrete })]

/-- The overrides of the tank are read back, in either order, and their three changes are told. -/
theorem override_levels_read_back :
  levelOverrides.keys.Nodup ∧
  (levels.override levelOverrides.reverse).1 = (levels.override levelOverrides).1 ∧
  (levels.override levelOverrides).1.scalarVariables.get? "level" = some {
    Variable.named "level" with
      dataType := some .integer, causality := some .output, start := some (.int 3),
      unit := some "m" } ∧
  (levels.override levelOverrides).1.scalarVariables.get? "pump" =
    levels.scalarVariables.get? "pump" ∧
  ∃ writes, Told (levels.override levelOverrides).2 levels.root
    (levels.override levelOverrides).1.root writes ∧ writes.length = 3
  := by
  have hkeys : levelOverrides.keys.Nodup := by decide
  obtain ⟨hperm, hread, hkept, -, -, writes, htold⟩ := override_read_back hkeys levels
  refine ⟨hkeys, (hperm _ (List.reverse_perm _)).1, ?_, hkept "pump" (by decide), writes, htold, ?_⟩
  · have hbefore : levels.scalarVariables.get? "level" = some { Variable.named "level" with
        dataType := some .integer, causality := some .inner, start := some (.int 1),
        unit := some "m" } := by
      decide +kernel
    obtain ⟨v, hv, hafter⟩ := hread "level" _ _ rfl (by cbv) ⟨_, rfl, rfl⟩ fun _ htype => htype
    obtain rfl := Option.some.inj (hbefore.symm.trans hv)
    rw [hafter]
    decide +kernel
  · have hlength := congrArg List.length htold.changes
    rw [List.length_map] at hlength
    rw [hlength]
    rfl

end Cosim.Description

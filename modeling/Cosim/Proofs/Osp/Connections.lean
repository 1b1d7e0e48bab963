import Cosim.Osp.Import
import Cosim.Proofs.Disk
import Cosim.Proofs.Osp.Wiring

/-!
# Connections of imported structures

An import takes over every connection with two ends, in order, or is refused because of the first
connection with signals.  Every connection gets the first name of its ends that no earlier one has:
`A_to_B`, `A_to_B_02`, `A_to_B_03` and so on.  Every end finds a connector of its component, which
is the one that the first connection with this end has asked for.
-/

namespace Cosim.Osp

/-! ## Names in turn -/

/-- The decimal digits of a number, at least two of them. -/
def twoDigits (n : Nat) : String :=
  String.ofList (if n < 10 then '0' :: Nat.toDigits 10 n else Nat.toDigits 10 n)

/-- The name that is due for a base when some names are taken: the base itself or else the base with
the least number from two on that makes it a new name. -/
inductive IsDue (taken : List String) (base : String) : String → Prop where
  | plain (hbase : base ∉ taken) : IsDue taken base base
  | numbered {n : Nat} (hbase : base ∈ taken) (hn : 2 ≤ n)
    (hnew : base ++ "_" ++ twoDigits n ∉ taken)
    (hleast : ∀ m, 2 ≤ m → m < n → base ++ "_" ++ twoDigits m ∈ taken) :
    IsDue taken base (base ++ "_" ++ twoDigits n)

variable {taken : List String} {base name : String}

/-- A name that is due is not taken. -/
theorem IsDue.not_mem (h : IsDue taken base name) :
  name ∉ taken
  := by
  cases h with
  | plain hbase => exact hbase
  | numbered _ _ hnew _ => exact hnew

/-- There is only one name due. -/
theorem IsDue.unique {other : String} (h : IsDue taken base name) (h' : IsDue taken base other) :
  name = other
  := by
  cases h with
  | plain hbase =>
    cases h' with
    | plain _ => rfl
    | numbered hbase' _ _ _ => exact absurd hbase' hbase
  | @numbered n hbase hn hnew hleast =>
    cases h' with
    | plain hbase' => exact absurd hbase hbase'
    | @numbered m _ hm hnew' hleast' =>
      obtain hlt | rfl | hlt := Nat.lt_trichotomy n m
      · exact absurd (hleast' n hn hlt) hnew
      · rfl
      · exact absurd (hleast m hm hlt) hnew'

/-- A numbered name has its number behind the base, with at least two digits. -/
theorem Wiring.numbered_eq (base : String) (n : Nat) :
  Wiring.numbered base n = base ++ "_" ++ twoDigits n
  := by
  rw [numbered, Timestamp.padded, twoDigits]
  congr 2
  split
  · rename_i hn
    rw [Nat.toDigits_of_lt_base hn]
    rfl
  · rename_i hn
    have hlength : 2 ≤ (Nat.toDigits 10 n).length := by
      by_contra hshort
      rw [Nat.not_le, Nat.lt_succ_iff, Nat.length_toDigits_le_iff] at hshort
      · omega
      · omega
      · omega
    rw [Nat.sub_eq_zero_of_le hlength]
    rfl

/-- There is always a candidate left, and the first one is taken. -/
theorem Wiring.isDue_freshName (taken : List String) (base : String) :
  IsDue taken base (Wiring.freshName taken base)
  := by
  have hnew := freshName_not_mem taken base
  rw [freshName] at hnew ⊢
  split at hnew
  · rename_i hbase
    rw [if_pos hbase]
    exact .plain hnew
  · rename_i hbase
    rw [if_neg hbase]
    have hmem : base ∈ taken := by simpa using hbase
    simp only [List.find?_map] at hnew ⊢
    cases hfind : (List.range (taken.length + 1)).find?
        ((fun name => !taken.contains name) ∘ fun n => numbered base (n + 2)) with
    | none =>
      rw [hfind] at hnew
      exact absurd hmem hnew
    | some n =>
      obtain ⟨hfresh, -, hleast⟩ := List.find?_range_eq_some.mp hfind
      rw [Option.map_some, Option.getD_some, numbered_eq]
      apply IsDue.numbered hmem (Nat.le_add_left 2 n)
      · simpa [numbered_eq] using hfresh
      · intro m hm hlt
        have htaken := hleast (m - 2) (by omega)
        rw [Function.comp_apply, Nat.sub_add_cancel hm] at htaken
        simpa [numbered_eq] using htaken

/-- Every entry has the name that is due for its joint after the entries in front of it. -/
def NamedInTurn (named : Entries Joint) : Prop :=
  ∀ before e after, named = before ++ e :: after →
    IsDue (before.map Prod.fst) s!"{e.2.source.owner}_to_{e.2.target.owner}" e.1

/-- A joint that gets the name due for it is named in turn. -/
theorem NamedInTurn.append {named : Entries Joint} {j : Joint} (h : NamedInTurn named)
    (hdue : IsDue (named.map Prod.fst) s!"{j.source.owner}_to_{j.target.owner}" name) :
  NamedInTurn (named ++ [(name, j)])
  := by
  intro before e after heq
  obtain rfl | ⟨front, last, rfl⟩ := after.eq_nil_or_concat'
  · obtain ⟨rfl, he⟩ := List.append_inj' heq rfl
    rw [List.singleton_inj] at he
    rw [← he]
    exact hdue
  · rw [← List.cons_append, ← List.append_assoc] at heq
    exact h before e front (List.append_inj_left' heq rfl)

/-- Joints that are named in turn have different names. -/
theorem NamedInTurn.nodup_keys {named : Entries Joint} (h : NamedInTurn named) :
  named.keys.Nodup
  := by
  induction named using List.reverseRecOn with
  | nil => exact List.nodup_nil
  | append_singleton named e ih =>
    have hfront : NamedInTurn named := by
      rintro before f after rfl
      exact h before f (after ++ [e]) (by rw [List.append_assoc, List.cons_append])
    have hnew := (h named e [] rfl).not_mem
    rw [Entries.keys, List.map_append, List.nodup_append]
    refine ⟨ih hfront, List.nodup_singleton _, ?_⟩
    rintro key hkey _ hlast rfl
    rw [List.map_singleton, List.mem_singleton] at hlast
    rw [hlast] at hkey
    exact hnew hkey

/-! ## Links -/

/-- A link with signals. -/
def Link.HasSignals : Link → Prop
  | .ofSignals _ _ => True
  | .ofSignalGroups _ _ => True
  | _ => False

instance (l : Link) : Decidable l.HasSignals := by
  cases l <;> unfold Link.HasSignals <;> infer_instance

/-- The joint that a link with two ends stands for. -/
def Link.joint? : Link → Option Joint
  | .ofVariables [source, target] => some ⟨.variable, source, target⟩
  | .ofGroups [source, target] => some ⟨.group, source, target⟩
  | _ => none

/-- The first connection with signals in a structure. -/
def Structure.firstSignals? (s : Structure) : Option Link :=
  (s.connections.getD []).find? fun l => decide l.HasSignals

/-- The connections with two ends in a structure. -/
def Structure.joints (s : Structure) : List Joint := (s.connections.getD []).filterMap Link.joint?

namespace Wiring

/-- A link with signals is refused by its tag. -/
theorem addLink_of_hasSignals {l : Link} (h : l.HasSignals) (w : Wiring) :
  w.addLink l = .error (.unsupportedConnection l.tag)
  := by
  cases l with
  | ofVariables _ => cases h
  | ofGroups _ => cases h
  | ofSignals _ _ => rfl
  | ofSignalGroups _ _ => rfl

/-- A link without signals is added as its joint, if it has two ends. -/
theorem addLink_eq {l : Link} (h : ¬ l.HasSignals) (w : Wiring) :
  w.addLink l = .ok (l.joint?.toList.foldl addJoint w)
  := by
  cases l with
  | ofVariables terminals => obtain _ | ⟨_, _ | ⟨_, _ | _⟩⟩ := terminals <;> rfl
  | ofGroups terminals => obtain _ | ⟨_, _ | ⟨_, _ | _⟩⟩ := terminals <;> rfl
  | ofSignals _ _ => exact absurd trivial h
  | ofSignalGroups _ _ => exact absurd trivial h

/-- Links are added up to the first one with signals. -/
theorem foldlM_addLink (links : List Link) (w : Wiring) :
  links.foldlM addLink w =
    match links.find? fun l => decide l.HasSignals with
    | some l => .error (.unsupportedConnection l.tag)
    | none => .ok ((links.filterMap Link.joint?).foldl addJoint w)
  := by
  induction links generalizing w with
  | nil => rfl
  | cons l links ih =>
    rw [List.foldlM_cons, List.find?_cons]
    by_cases hl : l.HasSignals
    · rw [addLink_of_hasSignals hl, decide_eq_true hl]
      rfl
    · rw [addLink_eq hl, decide_eq_false hl]
      have hjoints : (l :: links).filterMap Link.joint? =
          l.joint?.toList ++ links.filterMap Link.joint? := by
        cases hj : l.joint? <;> simp [hj]
      simp only [hjoints, List.foldl_append]
      exact ih _

/-- Joints that are wired one after another are named in turn. -/
theorem connections_foldl (joints : List Joint) :
  ∃ named : Entries Joint, NamedInTurn named ∧ named.values = joints ∧
    (joints.foldl addJoint blank).connections =
      named.map fun e => (e.1, e.2.source, e.2.target)
  := by
  induction joints using List.reverseRecOn with
  | nil => exact ⟨[], by rintro (_ | _) _ _ ⟨⟩, rfl, rfl⟩
  | append_singleton joints j ih =>
    obtain ⟨named, hturn, hvalues, hconnections⟩ := ih
    have hkeys : (joints.foldl addJoint blank).connections.keys = named.map Prod.fst := by
      rw [hconnections, Entries.keys, List.map_map]
      rfl
    rw [List.foldl_append, List.foldl_cons, List.foldl_nil, connections_addJoint, hkeys,
      hconnections]
    refine ⟨_, hturn.append (isDue_freshName _ _), ?_, by rw [List.map_append]; rfl⟩
    rw [Entries.values, List.map_append, ← hvalues]
    rfl

end Wiring

/-! ## First uses -/

/-- The ends at which a joint uses a terminal, with the direction that it needs there. -/
inductive Joint.Uses (j : Joint) : Terminal → Direction → Prop where
  | source : j.Uses j.source .output
  | target : j.Uses j.target .input

/-- The joint that asks first for a connector of a terminal, and the direction it asks for.  A joint
asks for the connector of its source before that of its target. -/
structure FirstUse (joints : List Joint) (p : Terminal) (i : Joint) (direction : Direction) :
    Prop where
  first : ∃ before after, joints = before ++ i :: after ∧ ∀ j ∈ before, p ∉ j.terminals
  uses : i.Uses p direction
  source_first : direction = .input → p ≠ i.source

/-- A joint uses its own terminals only. -/
theorem Joint.Uses.mem_terminals {j : Joint} {p : Terminal} {direction : Direction}
    (h : j.Uses p direction) :
  p ∈ j.terminals
  := by
  cases h with
  | source => exact j.source_mem_terminals
  | target => exact j.target_mem_terminals

/-- A joint has no end at a terminal that is not its own. -/
theorem Joint.lookup_ends_eq_none {j : Joint} {p : Terminal} (h : p ∉ j.terminals) :
  j.ends.lookup p = none
  := by
  rw [List.lookup_eq_none_iff]
  intro e he
  have hmem : e.1 ∈ j.terminals := Joint.mem_terminals_iff.mpr ⟨e.2, he⟩
  rw [bne_iff_ne]
  rintro rfl
  exact h hmem

/-- At its own terminals a joint has the connector that it needs there, the source coming first. -/
theorem Joint.lookup_ends {j : Joint} {p : Terminal} (h : p ∈ j.terminals) :
  ∃ direction, j.Uses p direction ∧ (direction = .input → p ≠ j.source) ∧
    j.ends.lookup p = some (j.connector p direction)
  := by
  rw [Joint.ends, List.lookup_cons]
  by_cases hsource : p = j.source
  · subst hsource
    rw [beq_self_eq_true]
    refine ⟨.output, .source, ?_, rfl⟩
    intro hinput
    cases hinput
  · obtain rfl : p = j.target := by simpa [Joint.terminals, hsource] using h
    rw [beq_eq_false_iff_ne.mpr hsource, List.lookup_cons, beq_self_eq_true]
    exact ⟨.input, .target, fun _ => hsource, rfl⟩

/-- The connector that is found for a terminal is the one of its first use. -/
theorem exists_firstUse {joints : List Joint} {j : Joint} {p : Terminal} (hj : j ∈ joints)
    (hp : p ∈ j.terminals) :
  ∃ i direction, FirstUse joints p i direction ∧
    (joints.flatMap Joint.ends).lookup p = some (i.connector p direction)
  := by
  induction joints with
  | nil => cases hj
  | cons i joints ih =>
    rw [List.flatMap_cons, List.lookup_append]
    by_cases hi : p ∈ i.terminals
    · obtain ⟨direction, huses, hsource, hlookup⟩ := Joint.lookup_ends hi
      rw [hlookup, Option.some_or]
      exact ⟨i, direction, ⟨⟨[], joints, rfl, List.forall_mem_nil _⟩, huses, hsource⟩, rfl⟩
    · have hrest : j ∈ joints := by
        obtain rfl | hrest := List.mem_cons.mp hj
        · exact absurd hp hi
        · exact hrest
      obtain ⟨k, direction, huse, hlookup⟩ := ih hrest
      obtain ⟨before, after, rfl, hbefore⟩ := huse.first
      rw [Joint.lookup_ends_eq_none hi, Option.none_or]
      refine ⟨k, direction, ⟨⟨i :: before, after, rfl, ?_⟩, huse.uses, huse.source_first⟩, hlookup⟩
      rw [List.forall_mem_cons]
      exact ⟨hi, hbefore⟩

/-! ## Imported cases -/

/-- The record of a connector that exposes what a joint connects at a terminal. -/
def Joint.record (j : Joint) (p : Terminal) (direction : Direction) : Value :=
  let key :=
    match j.kind with
    | .variable => "variable"
    | .group => "variableGroup"
  .object [(key, .text p.name), ("type", .text direction.text)]

/-- The connector of a joint is recorded as what the joint connects. -/
theorem connectorValue_connector (j : Joint) (p : Terminal) (direction : Direction) :
  connectorValue (j.connector p direction) = j.record p direction
  := by
  obtain ⟨kind, source, target⟩ := j
  cases kind <;> rfl

/-- Records tell kinds and directions apart. -/
theorem Joint.record_eq_iff {i j : Joint} {p : Terminal} {direction direction' : Direction} :
  i.record p direction = j.record p direction' ↔ i.kind = j.kind ∧ direction = direction'
  := by
  obtain ⟨kind, _, _⟩ := i
  obtain ⟨kind', _, _⟩ := j
  cases kind <;> cases kind' <;> cases direction <;> cases direction' <;>
    simp [Joint.record, Direction.text]

/-- The connections of a case dictionary. -/
def connectionsIn (case : Dictionary) : Option Value :=
  Dictionary.follow (.object case) ["systemStructure", "connections"]

/-- The connector of a case dictionary for a terminal. -/
def connectorIn (case : Dictionary) (p : Terminal) : Option Value :=
  Dictionary.follow (.object case)
    ["systemStructure", "components", p.owner, "connectors", p.name]

/-- The connector of a terminal stands in the record of its owner. -/
theorem connectorIn_eq (environment run connections : Value) (components : Dictionary)
    (p : Terminal) :
  connectorIn [
      ("_environment", environment),
      ("systemStructure",
        .object [("connections", connections), ("components", .object components)]),
      ("run", run)] p =
    ((Entries.get? components p.owner).bind (·.get? "connectors")).bind (·.get? p.name)
  := rfl

namespace Structure

variable {s : Structure}

/-- The names of the simulators. -/
def simulatorNames (s : Structure) : List String := s.simulators.map (·.name)

/-- A structure with signals is refused by the tag of the first connection with signals. -/
theorem toCase_of_signals {l : Link} (h : s.firstSignals? = some l) (folder name : String) :
  s.toCase folder name = .error (.unsupportedConnection l.tag)
  := by
  rw [firstSignals?] at h
  rw [toCase, Wiring.ofLinks, Wiring.foldlM_addLink, h]
  rfl

/-- Every simulator is imported under its name, with the connectors of that name. -/
theorem get?_components {simulators : List Simulator} {owner : String}
    (h : owner ∈ simulators.map (·.name)) (w : Wiring) (path : Simulator → String)
    (fmu : String → String) :
  ∃ simulator source, Entries.get? (Entries.ofPairs ((simulators.zip (simulators.map path)).map
    fun e => (e.1.name, componentValue e.1 (fmu e.2) (w.connectors.get? e.1.name)))) owner =
      some (componentValue simulator source (w.connectors.get? owner))
  := by
  obtain ⟨first, hfirst, hname⟩ := List.mem_map.mp h
  obtain ⟨simulator, hfound⟩ : ∃ simulator, simulators.reverse.find? (·.name == owner) =
      some simulator := by
    rw [← Option.isSome_iff_exists, List.find?_isSome]
    exact ⟨first, List.mem_reverse.mpr hfirst, beq_iff_eq.mpr hname⟩
  have hsame : simulator.name = owner := by simpa using List.find?_some hfound
  have hget := Entries.get?_ofPairs_named Simulator.name (fun simulator =>
    componentValue simulator (fmu (path simulator)) (w.connectors.get? simulator.name))
    simulators owner
  rw [hfound, Option.map_some, hsame] at hget
  rw [← List.map_prod_left_eq_zip, List.map_map]
  exact ⟨simulator, _, hget⟩

/-- What an import makes of connections without signals. -/
theorem toCase_of_no_signals (h : s.firstSignals? = none) (folder name : String) :
  ∃ case, s.toCase folder name = .ok case ∧
    connectionsIn case = some (.object ((s.joints.foldl Wiring.addJoint .blank).connections.map
      fun e => (e.1, connectionValue e.2.1 e.2.2))) ∧
    ∀ p c, p.owner ∈ s.simulatorNames →
      (s.joints.foldl Wiring.addJoint .blank).connector? p = some c →
      connectorIn case p = some (connectorValue c)
  := by
  rw [firstSignals?] at h
  rw [toCase, Wiring.ofLinks, Wiring.foldlM_addLink, h]
  refine ⟨_, rfl, rfl, ?_⟩
  intro p c howner hc
  rw [← joints]
  generalize s.joints.foldl Wiring.addJoint .blank = w at hc ⊢
  rw [Wiring.connector?, Wiring.own] at hc
  obtain ⟨simulator, source, hcomponent⟩ := get?_components howner w
    (fun simulator => Path.normalize (Path.join folder simulator.source))
    (Path.relativeTo · ((Path.commonRoot? (s.simulators.map fun simulator =>
      Path.normalize (Path.join folder simulator.source))).getD (Path.normalize folder)))
  cases hown : w.connectors.get? p.owner with
  | none =>
    rw [hown] at hc
    cases hc
  | some own =>
    rw [hown, Option.getD_some] at hc
    rw [hown] at hcomponent
    have hconnector : Entries.get? (own.map fun e => (e.1, connectorValue e.2)) p.name =
        some (connectorValue c) := by
      rw [Entries.get?_map, hc, Option.map_some]
    rw [connectorIn_eq, hcomponent]
    exact hconnector

/-! ## Connections that are kept -/

/-- An import is refused because of the first connection with signals, and then changes no file.
Otherwise it keeps every connection with two ends, in order, and names them in turn. -/
theorem connections_toCase (s : Structure) (folder name : String) :
  match s.firstSignals? with
  | some l => s.toCase folder name = .error (.unsupportedConnection l.tag) ∧
    ∀ path d, d.isFile path = true → load (d.absolute path) d = .ok s d →
      importFile path d = .error (.unsupportedConnection l.tag) d
  | none => ∃ case named, s.toCase folder name = .ok case ∧
    connectionsIn case = some (.object (named.map
      fun e => (e.1, connectionValue e.2.source e.2.target))) ∧
    Entries.values named = s.joints ∧ (Entries.keys named).Nodup ∧ NamedInTurn named
  := by
  cases hsignals : s.firstSignals? with
  | some l =>
    refine ⟨toCase_of_signals hsignals folder name, ?_⟩
    intro path d hfile hload
    have hrefused : Action.ofExcept (s.toCase (Path.folder (d.absolute path))
        ((Path.stem? (d.absolute path)).getD "")) d = .error (.unsupportedConnection l.tag) d := by
      rw [toCase_of_signals hsignals]
      rfl
    rw [importFile, Action.get_bind, hfile]
    exact (Action.bind_of_ok hload).trans (Action.bind_of_error hrefused)
  | none =>
    obtain ⟨case, hcase, hconnections, -⟩ := toCase_of_no_signals hsignals folder name
    obtain ⟨named, hturn, hvalues, hnamed⟩ := Wiring.connections_foldl s.joints
    rw [hnamed, List.map_map] at hconnections
    exact ⟨case, named, hcase, hconnections, hvalues, hturn.nodup_keys, hturn⟩

/-! ## Connectors that are asked for -/

/-- What a case keeps of the connections of a structure: an entry for each one with two ends and,
for each end at one of the simulators, the connector that the first use of the end asks for. -/
structure Connects (s : Structure) (case : Dictionary) (named : Entries Joint) : Prop where
  connections_eq : connectionsIn case = some (.object (named.map
    fun e => (e.1, connectionValue e.2.source e.2.target)))
  values_eq : named.values = s.joints
  /-- it is the one that the connection needs exactly if kind and direction are the same there -/
  connector : ∀ e ∈ named, ∀ p direction, e.2.Uses p direction → p.owner ∈ s.simulatorNames →
    ∃ i first, FirstUse s.joints p i first ∧ connectorIn case p = some (i.record p first) ∧
      (connectorIn case p = some (e.2.record p direction) ↔ i.kind = e.2.kind ∧ first = direction)

/-- In an imported case, every end of a connection finds the connector of its first use. -/
theorem connects_toCase (h : s.firstSignals? = none) (folder name : String) :
  ∃ case named, s.toCase folder name = .ok case ∧ s.Connects case named
  := by
  obtain ⟨case, hcase, hconnections, hconnectors⟩ := toCase_of_no_signals h folder name
  obtain ⟨named, -, hvalues, hnamed⟩ := Wiring.connections_foldl s.joints
  rw [hnamed, List.map_map] at hconnections
  refine ⟨case, named, hcase, hconnections, hvalues, ?_⟩
  intro e he p direction huses howner
  have hj : e.2 ∈ s.joints := by
    rw [← hvalues]
    apply List.mem_map_of_mem he
  obtain ⟨i, first, hfirst, hlookup⟩ := exists_firstUse hj huses.mem_terminals
  rw [← (Wiring.made_foldl s.joints).connector?_eq] at hlookup
  have hconnector := hconnectors p _ howner hlookup
  rw [connectorValue_connector] at hconnector
  refine ⟨i, first, hfirst, hconnector, ?_⟩
  rw [hconnector, Option.some.injEq, Joint.record_eq_iff]

/-- A structure in which `x` of `A` is the name of a variable and of a variable group. -/
def sharing : Structure :=
  { blank with
    simulators := [⟨"A", "a.fmu", none, none⟩, ⟨"B", "b.fmu", none, none⟩,
      ⟨"C", "c.fmu", none, none⟩]
    connections := some [.ofVariables [⟨"A", "x"⟩, ⟨"B", "y"⟩],
      .ofGroups [⟨"A", "x"⟩, ⟨"C", "z"⟩]] }

/-- The structure that shares a name is imported, and the first use decides about the connector. -/
theorem connects_sharing :
  sharing.firstSignals? = none ∧
  ∃ case named, sharing.toCase "/case" "sharing" = .ok case ∧ sharing.Connects case named
  := ⟨by decide, connects_toCase (by decide) "/case" "sharing"⟩

/-- The connector of `x` exposes the variable, and no group for the connection of groups. -/
theorem connectorIn_sharing :
  sharing.firstSignals? = none ∧ "A" ∈ sharing.simulatorNames ∧
  ⟨.group, ⟨"A", "x"⟩, ⟨"C", "z"⟩⟩ ∈ sharing.joints ∧
  ∃ case connector, sharing.toCase "/case" "sharing" = .ok case ∧
    connectorIn case ⟨"A", "x"⟩ = some connector ∧ connector.get? "variableGroup" = none
  := by
  refine ⟨by decide, by decide, List.mem_cons_of_mem _ List.mem_cons_self, _,
    Joint.record ⟨.variable, ⟨"A", "x"⟩, ⟨"B", "y"⟩⟩ ⟨"A", "x"⟩ .output, rfl, ?_, rfl⟩
  rw [connectorIn_eq]
  rfl

end Structure

end Cosim.Osp

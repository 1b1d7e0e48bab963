import Cosim.Osp.Import
import Cosim.Proofs.Entries
import Cosim.Proofs.Number.Notation

/-!
# The wiring of imported structures

Every end of a connection finds the connector that the first connection with this end has made, and
every connection gets a name of its own.  In a consistent wiring that connector exposes what the
connection is about, in the direction of the end.
-/

namespace Cosim.Osp

/-! ## New names -/

/-- Different numbers make different names. -/
theorem Wiring.numbered_injective (base : String) :
  Function.Injective (Wiring.numbered base)
  := by
  intro m n h
  rw [numbered, numbered, String.append_right_inj, Timestamp.padded, Timestamp.padded] at h
  have hvalue (n : Nat) : Literal.digitsValue 0
      (List.replicate (2 - (Nat.toDigits 10 n).length) '0' ++ Nat.toDigits 10 n) = n := by
    rw [Literal.digitsValue_append, Literal.digitsValue_zeros, Nat.zero_mul,
      Literal.digitsValue_toDigits]
  rw [← hvalue m, ← hvalue n, String.ofList_injective h]

/-- There is always a candidate that is not taken. -/
theorem Wiring.freshName_not_mem (taken : List String) (base : String) :
  Wiring.freshName taken base ∉ taken
  := by
  rw [freshName]
  split
  · rename_i hbase
    simpa using hbase
  · generalize hcandidates : (List.range (taken.length + 1)).map (fun n => numbered base (n + 2)) =
      candidates
    have hnodup : candidates.Nodup := by
      rw [← hcandidates]
      apply List.nodup_range.map
      intro m n h
      apply Nat.add_right_cancel (numbered_injective base h)
    cases hfind : candidates.find? fun name => !taken.contains name with
    | some name =>
      simp only [hfind, Option.getD_some]
      simpa using List.find?_some hfind
    | none =>
      have hsubset : candidates ⊆ taken := by
        intro name hname
        simpa using List.find?_eq_none.mp hfind name hname
      have hlength := hnodup.length_le_of_subset hsubset
      rw [← hcandidates, List.length_map, List.length_range] at hlength
      omega

/-! ## Joints -/

/-- A link between two terminals: variables or variable groups. -/
structure Joint where
  kind : ConnectionKind
  source : Terminal
  target : Terminal

namespace Joint

def link (j : Joint) : Link :=
  match j.kind with
  | .variable => .ofVariables [j.source, j.target]
  | .group => .ofGroups [j.source, j.target]

/-- What a connector exposes that is made for an end of a joint. -/
def bind (j : Joint) (name : String) : Binding :=
  match j.kind with
  | .variable => .variable name
  | .group => .group name

/-- The connector that is made for an end of a joint. -/
def connector (j : Joint) (p : Terminal) (direction : Direction) : Connector :=
  ⟨p.name, some (j.bind p.name), some direction⟩

/-- The terminals of a joint with the connectors that are made for them. -/
def ends (j : Joint) : List (Terminal × Connector) :=
  [(j.source, j.connector j.source .output), (j.target, j.connector j.target .input)]

def terminals (j : Joint) : List Terminal := [j.source, j.target]

/-- No terminal is a source and a target, and none stands both for a variable and for a group. -/
structure Consistent (joints : List Joint) : Prop where
  directed : ∀ i ∈ joints, ∀ j ∈ joints, i.source ≠ j.target
  uniform : ∀ i ∈ joints, ∀ j ∈ joints, ∀ p ∈ i.terminals, p ∈ j.terminals → i.kind = j.kind

/-- Joints of one kind make the same connector at a terminal. -/
theorem connector_congr {i j : Joint} (h : i.kind = j.kind) (p : Terminal)
    (direction : Direction) :
  i.connector p direction = j.connector p direction
  := by
  rw [connector, connector, bind, bind, h]

variable {joints : List Joint} {j : Joint}

/-- What is looked up for a terminal is listed with it. -/
theorem mem_of_lookup {uses : List (Terminal × Connector)} {p : Terminal} {c : Connector}
    (h : uses.lookup p = some c) :
  (p, c) ∈ uses
  := by
  obtain ⟨before, after, rfl, -⟩ := List.lookup_eq_some_iff.mp h
  simp

/-- The terminals of a joint are those at which it has an end. -/
theorem mem_terminals_iff {p : Terminal} :
  p ∈ j.terminals ↔ ∃ c, (p, c) ∈ j.ends
  := by
  have hfst : j.ends.map Prod.fst = j.terminals := rfl
  rw [← hfst, List.mem_map]
  constructor
  · rintro ⟨e, he, rfl⟩
    exact ⟨e.2, he⟩
  · rintro ⟨c, hc⟩
    exact ⟨(p, c), hc, rfl⟩

/-- A terminal of some joint has a connector. -/
theorem exists_lookup (hj : j ∈ joints) {p : Terminal} (hp : p ∈ j.terminals) :
  ∃ c, (joints.flatMap ends).lookup p = some c
  := by
  rw [← Option.isSome_iff_exists, List.lookup_isSome_iff]
  obtain ⟨c, hc⟩ := mem_terminals_iff.mp hp
  exact ⟨(p, c), List.mem_flatMap.mpr ⟨j, hj, hc⟩, beq_self_eq_true p⟩

theorem source_mem_terminals (j : Joint) :
  j.source ∈ j.terminals
  := List.mem_cons_self

theorem target_mem_terminals (j : Joint) :
  j.target ∈ j.terminals
  := List.mem_cons_of_mem _ List.mem_cons_self

/-- The connector at a terminal has the name of the terminal. -/
theorem name_of_mem_ends {p : Terminal} {c : Connector} (h : (p, c) ∈ j.ends) :
  c.name = p.name
  := by
  simp only [ends, List.mem_cons, Prod.mk.injEq, List.not_mem_nil, or_false] at h
  obtain ⟨rfl, rfl⟩ | ⟨rfl, rfl⟩ := h <;> rfl

/-- A connector that exposes a variable is made for an end of a joint of variables. -/
theorem kind_of_mem_ends {p : Terminal} {c : Connector} {name : String} (h : (p, c) ∈ j.ends)
    (hbound : c.boundVariable? = some name) :
  j.kind = .variable ∧ p.name = name
  := by
  obtain ⟨kind, source, target⟩ := j
  cases kind with
  | «variable» =>
    simp only [ends, List.mem_cons, Prod.mk.injEq, List.not_mem_nil, or_false] at h
    obtain ⟨rfl, rfl⟩ | ⟨rfl, rfl⟩ := h <;> exact ⟨rfl, Option.some.inj hbound⟩
  | group =>
    simp only [ends, List.mem_cons, Prod.mk.injEq, List.not_mem_nil, or_false] at h
    obtain ⟨rfl, rfl⟩ | ⟨rfl, rfl⟩ := h <;> cases hbound

/-- In a consistent wiring all connectors that are made for one terminal are the same. -/
theorem Consistent.lookup_source (h : Consistent joints) (hj : j ∈ joints) :
  (joints.flatMap ends).lookup j.source = some (j.connector j.source .output)
  := by
  obtain ⟨c, hc⟩ := exists_lookup hj j.source_mem_terminals
  obtain ⟨i, hi, hmem⟩ := List.mem_flatMap.mp (mem_of_lookup hc)
  have hkind := h.uniform i hi j hj j.source (mem_terminals_iff.mpr ⟨c, hmem⟩)
    j.source_mem_terminals
  simp only [ends, List.mem_cons, Prod.mk.injEq, List.not_mem_nil, or_false] at hmem
  obtain ⟨heq, rfl⟩ | ⟨heq, -⟩ := hmem
  · rw [hc, heq, connector_congr hkind]
  · apply absurd heq (h.directed j hj i hi)

/-- The target of a joint has the input connector that this joint makes. -/
theorem Consistent.lookup_target (h : Consistent joints) (hj : j ∈ joints) :
  (joints.flatMap ends).lookup j.target = some (j.connector j.target .input)
  := by
  obtain ⟨c, hc⟩ := exists_lookup hj j.target_mem_terminals
  obtain ⟨i, hi, hmem⟩ := List.mem_flatMap.mp (mem_of_lookup hc)
  have hkind := h.uniform i hi j hj j.target (mem_terminals_iff.mpr ⟨c, hmem⟩)
    j.target_mem_terminals
  simp only [ends, List.mem_cons, Prod.mk.injEq, List.not_mem_nil, or_false] at hmem
  obtain ⟨heq, -⟩ | ⟨heq, rfl⟩ := hmem
  · apply absurd heq.symm (h.directed i hi j hj)
  · rw [hc, heq, connector_congr hkind]

end Joint

/-! ## Wirings -/

namespace Wiring

/-- The connectors of a component. -/
def own (w : Wiring) (owner : String) : Entries Connector := (w.connectors.get? owner).getD []

/-- The connector of a terminal. -/
def connector? (w : Wiring) (p : Terminal) : Option Connector := (w.own p.owner).get? p.name

/-- A connector is added to its owner alone, if the owner has none of that name. -/
theorem own_addConnector (w : Wiring) (owner : String) (c : Connector) (k : String) :
  (w.addConnector owner c).own k = if k = owner then (w.own owner).putNew c.name c else w.own k
  := by
  rw [own, addConnector, Entries.get?_put]
  split
  · rfl
  · rfl

/-- A terminal keeps its connector when one is added, and may get the new one. -/
theorem connector?_addConnector (w : Wiring) {p q : Terminal} {c : Connector}
    (hname : c.name = q.name) :
  (w.addConnector q.owner c).connector? p =
    (w.connector? p).or (if p == q then some c else none)
  := by
  obtain ⟨owner, name⟩ := p
  obtain ⟨owner', name'⟩ := q
  have hbeq : ((⟨owner, name⟩ : Terminal) == ⟨owner', name'⟩) =
      decide (owner = owner' ∧ name = name') := by
    rw [Bool.eq_iff_iff, beq_iff_eq, decide_eq_true_eq, Terminal.mk.injEq]
  rw [connector?, own_addConnector, connector?, hbeq]
  by_cases howner : owner = owner'
  · rw [if_pos howner, Entries.get?_putNew, hname, howner]
    simp
  · simp [howner]

/-- No component gets two connectors of one name. -/
theorem nodup_own_addConnector {w : Wiring} (h : ∀ owner, (w.own owner).keys.Nodup)
    (owner : String) (c : Connector) (k : String) :
  ((w.addConnector owner c).own k).keys.Nodup
  := by
  rw [own_addConnector]
  split
  · apply Entries.nodup_keys_putNew (h owner)
  · apply h

/-- Adds a joint as a connection. -/
def addJoint (w : Wiring) (j : Joint) : Wiring := w.addConnection j.bind j.source j.target

/-- The link of a joint is added as that joint. -/
theorem addLink_link (w : Wiring) (j : Joint) :
  w.addLink j.link = .ok (w.addJoint j)
  := by
  obtain ⟨kind, source, target⟩ := j
  cases kind <;> rfl

/-- The links of joints are added one after the other as these joints. -/
theorem ofLinks_map_link (joints : List Joint) :
  ofLinks (joints.map Joint.link) = .ok (joints.foldl addJoint blank)
  := by
  rw [ofLinks]
  generalize blank = w
  induction joints generalizing w with
  | nil => rfl
  | cons j joints ih =>
    rw [List.map_cons, List.foldlM_cons, addLink_link, List.foldl_cons, ← ih]
    rfl

/-- The connectors that a joint adds. -/
theorem own_addJoint (w : Wiring) (j : Joint) :
  (w.addJoint j).own =
    ((w.addConnector j.source.owner (j.connector j.source .output)).addConnector j.target.owner
      (j.connector j.target .input)).own
  := rfl

/-- A joint adds one connection, under a name that is free. -/
theorem connections_addJoint (w : Wiring) (j : Joint) :
  (w.addJoint j).connections = w.connections ++
    [(freshName w.connections.keys s!"{j.source.owner}_to_{j.target.owner}", j.source, j.target)]
  := rfl

/-- A terminal keeps its connector when a joint is added, and may get one of its ends. -/
theorem connector?_addJoint (w : Wiring) (j : Joint) (p : Terminal) :
  (w.addJoint j).connector? p = (w.connector? p).or (j.ends.lookup p)
  := by
  rw [connector?, own_addJoint, ← connector?, connector?_addConnector _ rfl,
    connector?_addConnector _ rfl, Option.or_assoc, Joint.ends, List.lookup_cons, List.lookup_cons,
    List.lookup_nil]
  cases p == j.source <;> cases p == j.target <;> rfl

/-- What holds of a wiring that was made from joints. -/
structure Made (joints : List Joint) (w : Wiring) : Prop where
  /-- every terminal has the connector that was made for it first -/
  connector?_eq : ∀ p, w.connector? p = (joints.flatMap Joint.ends).lookup p
  nodup_own : ∀ owner, (w.own owner).keys.Nodup
  /-- there is one connection for each joint, in order and under a name of its own -/
  connections_eq : ∃ named : Entries Joint, named.keys.Nodup ∧ named.values = joints ∧
    w.connections = named.map fun e => (e.1, e.2.source, e.2.target)

theorem made_blank :
  Made [] blank
  := ⟨fun _ => rfl, fun _ => List.nodup_nil, [], List.nodup_nil, rfl, rfl⟩

/-- What is made of joints is made of one more when that is added. -/
theorem Made.addJoint {joints : List Joint} {w : Wiring} (h : w.Made joints) (j : Joint) :
  (w.addJoint j).Made (joints ++ [j])
  := by
  constructor
  · intro p
    rw [connector?_addJoint, h.connector?_eq, List.flatMap_append, List.lookup_append,
      List.flatMap_singleton]
  · intro owner
    rw [own_addJoint]
    apply nodup_own_addConnector
    apply nodup_own_addConnector h.nodup_own
  · obtain ⟨named, hkeys, hvalues, hconnections⟩ := h.connections_eq
    have hfresh := freshName_not_mem w.connections.keys
      s!"{j.source.owner}_to_{j.target.owner}"
    rw [connections_addJoint]
    generalize freshName _ _ = name at hfresh ⊢
    rw [hconnections, Entries.keys, List.map_map] at hfresh
    refine ⟨named ++ [(name, j)], ?_, ?_, ?_⟩
    · rw [Entries.keys, List.map_append, List.nodup_append]
      refine ⟨hkeys, List.nodup_singleton _, ?_⟩
      rintro key hkey _ hname rfl
      rw [List.map_singleton, List.mem_singleton] at hname
      rw [hname] at hkey
      apply hfresh hkey
    · rw [Entries.values, List.map_append, ← hvalues, Entries.values]
      rfl
    · rw [hconnections, List.map_append]
      rfl

/-- Joints are wired one after another. -/
theorem made_foldl (joints : List Joint) :
  (joints.foldl Wiring.addJoint blank).Made joints
  := by
  induction joints using List.reverseRecOn with
  | nil => apply made_blank
  | append_singleton joints j ih =>
    rw [List.foldl_append]
    apply ih.addJoint j

/-- The connectors of a component are the ones that were made for its terminals. -/
theorem Made.mem_own {joints : List Joint} {w : Wiring} {owner : String} {e : String × Connector}
    (h : w.Made joints) (he : e ∈ w.own owner) :
  ∃ j ∈ joints, (⟨owner, e.1⟩, e.2) ∈ j.ends
  := by
  have hget : w.connector? ⟨owner, e.1⟩ = some e.2 := Entries.get?_of_mem (h.nodup_own owner) he
  rw [h.connector?_eq] at hget
  apply List.mem_flatMap.mp (Joint.mem_of_lookup hget)

end Wiring

end Cosim.Osp

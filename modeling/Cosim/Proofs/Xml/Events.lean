import Cosim.Proofs.Xml.Scan
import Cosim.Proofs.Xml.Tidy
import Cosim.Xml.Build

/-!
# Trees and events

What pieces of markup say, one after another, as events: an element starts, an element ends, or
there is a text or a comment.  The events of a tree are those of its elements, texts and comments in
document order.  A tree is built from pieces exactly if their events close every element they start
and have a single element that is outside all others, and then the events of the tree are the events
of the pieces from the start of this element to its end.
-/

namespace Cosim.Xml

inductive Event where
  | start (name : String) (attributes : List (String × String))
  | finish (name : String)
  | text (s : String)
  | comment (s : String)
deriving DecidableEq

/-! ## Events of trees -/

mutual

/-- The events of a child in document order. -/
def Node.events : Node → List Event
  | .element name attributes children =>
    .start name attributes :: Node.allEvents children ++ [.finish name]
  | .text s => [.text s]
  | .comment s => [.comment s]

def Node.allEvents : List Node → List Event
  | [] => []
  | node :: nodes => node.events ++ Node.allEvents nodes

end

def Element.events (e : Element) : List Event := (Node.ofElement e).events

/-- The events of nodes follow those of the nodes before them. -/
theorem Node.allEvents_append (nodes more : List Node) :
  allEvents (nodes ++ more) = allEvents nodes ++ allEvents more
  := by
  induction nodes with
  | nil => rfl
  | cons node nodes ih => rw [List.cons_append, allEvents, allEvents, ih, List.append_assoc]

/-- A node by itself has its own events. -/
theorem Node.allEvents_singleton (node : Node) :
  allEvents [node] = node.events
  := by
  rw [allEvents, allEvents, List.append_nil]

/-- An element starts, has the events of its children, and ends. -/
theorem Element.events_eq (e : Element) :
  e.events = .start e.name e.attributes :: Node.allEvents e.children ++ [.finish e.name]
  := by
  rw [events, Node.ofElement, Node.events]

/-- A tag that is read has the name that scanning finds in it. -/
theorem Tag.toList_name_of_ofContent? {content : List Char} {tag : Tag}
    (h : ofContent? content = some tag) :
  tag.name.toList = tagName content
  := by
  obtain ⟨attributes, -, htag⟩ := Option.bind_eq_some_iff.mp h
  obtain ⟨-, htag⟩ := Option.ite_none_right_eq_some.mp htag
  cases htag
  apply String.toList_ofList

/-! ## Events of markup -/

namespace Markup

/-- What a piece says, if its attributes and its references can be read.  A tag without content
starts an element and ends it; declarations and other instructions say nothing. -/
def events? : Markup → Option (List Event)
  | .start content => (Tag.ofContent? content).map fun tag => [.start tag.name tag.attributes]
  | .empty content =>
    (Tag.ofContent? content).map fun tag =>
      [.start tag.name tag.attributes, .finish tag.name]
  | .close name => some [.finish (String.ofList name)]
  | .text content => (decodeList? content).map fun s => [.text (String.ofList s)]
  | .verbatim content => some [.text (String.ofList content)]
  | .comment content => some [.comment (String.ofList content)]
  | .instruction _ => some []
  | .doctype _ => some []

def allEvents? : List Markup → Option (List Event)
  | [] => some []
  | piece :: pieces => do
    let events ← piece.events?
    let more ← allEvents? pieces
    pure (events ++ more)

/-- The tags that pieces leave open, if every end tag among them matches the tag last opened. -/
def openAfterAll? (pieces : List Markup) : Option (List (List Char)) := pieces.foldlM openAfter? []

end Markup

/-! ## Nesting -/

/-- How many elements are open, and how many have been started outside all others. -/
structure Nesting where
  depth : ℕ
  outermost : ℕ
deriving DecidableEq

namespace Nesting

def after (n : Nesting) : Event → Nesting
  | .start _ _ => ⟨n.depth + 1, if n.depth = 0 then n.outermost + 1 else n.outermost⟩
  | .finish _ => ⟨n.depth - 1, n.outermost⟩
  | .text _ => n
  | .comment _ => n

/-- The nesting behind events. -/
def afterAll (n : Nesting) (events : List Event) : Nesting := events.foldl after n

def ofEvents (events : List Event) : Nesting := afterAll ⟨0, 0⟩ events

variable {n : Nesting}

/-- The nesting behind events is that behind the last ones, which go on from the first ones. -/
theorem afterAll_append (n : Nesting) (events more : List Event) :
  n.afterAll (events ++ more) = (n.afterAll events).afterAll more
  := List.foldl_append

/-- The nesting that events leave goes on with further events. -/
theorem ofEvents_append (events more : List Event) :
  ofEvents (events ++ more) = (ofEvents events).afterAll more
  := afterAll_append _ events more

/-- What has been started stays started. -/
theorem outermost_le_afterAll (n : Nesting) (events : List Event) :
  n.outermost ≤ (n.afterAll events).outermost
  := by
  induction events generalizing n with
  | nil => apply Nat.le_refl
  | cons event events ih =>
    apply Nat.le_trans _ (ih (n.after event))
    cases event with
    | start name attributes =>
      simp only [after]
      split <;> omega
    | finish name => apply Nat.le_refl
    | text s => apply Nat.le_refl
    | comment s => apply Nat.le_refl

/-- Inside an element, whole trees change nothing. -/
theorem afterAll_allEvents (h : 0 < n.depth) (nodes : List Node) :
  n.afterAll (Node.allEvents nodes) = n
  := by
  induction nodes using Node.forestInduction generalizing n with
  | nil => rfl
  | element name attributes children nodes ihchildren ih =>
    have hinner : n.after (.start name attributes) = ⟨n.depth + 1, n.outermost⟩ := by
      rw [after, if_neg (Nat.ne_of_gt h)]
    rw [Node.allEvents, Node.events, List.cons_append, List.cons_append, afterAll, List.foldl_cons,
      hinner, ← afterAll, List.append_assoc, afterAll_append, ihchildren (Nat.succ_pos _)]
    apply ih h
  | text s nodes ih => apply ih h
  | comment s nodes ih => apply ih h

/-- An element leaves the depth as it was, and counts as outermost where nothing is open. -/
theorem afterAll_element (n : Nesting) (e : Element) :
  n.afterAll e.events = ⟨n.depth, if n.depth = 0 then n.outermost + 1 else n.outermost⟩
  := by
  rw [e.events_eq, List.cons_append, afterAll, List.foldl_cons, ← afterAll, afterAll_append,
    afterAll_allEvents (Nat.succ_pos _)]
  rfl

end Nesting

/-- Events outside all elements. -/
def Outside (events : List Event) : Prop :=
  ∀ event ∈ events, (∃ s, event = .text s) ∨ ∃ s, event = .comment s

theorem Outside.nil :
  Outside []
  := List.forall_mem_nil _

theorem Outside.text (s : String) :
  Outside [.text s]
  := List.forall_mem_singleton.mpr (.inl ⟨s, rfl⟩)

theorem Outside.comment (s : String) :
  Outside [.comment s]
  := List.forall_mem_singleton.mpr (.inr ⟨s, rfl⟩)

/-- Events outside all elements may follow each other. -/
theorem Outside.append {events more : List Event} (h : Outside events) (hmore : Outside more) :
  Outside (events ++ more)
  := List.forall_mem_append.mpr ⟨h, hmore⟩

/-- Events outside all elements leave the nesting as it is. -/
theorem Outside.afterAll_eq {events : List Event} (h : Outside events) (n : Nesting) :
  n.afterAll events = n
  := by
  induction events with
  | nil => rfl
  | cons event events ih =>
    obtain ⟨hevent, hevents⟩ := List.forall_mem_cons.mp h
    rcases hevent with ⟨s, rfl⟩ | ⟨s, rfl⟩
    · apply ih hevents
    · apply ih hevents

/-! ## Unfinished trees -/

namespace Building

/-- The events that have opened elements and filled them, those of the innermost one last. -/
def openEvents : List Element → List Event
  | [] => []
  | e :: outer =>
    openEvents outer ++ .start e.name e.attributes :: Node.allEvents e.children.reverse

/-- The names of the open elements. -/
def names (b : Building) : List (List Char) := b.opened.map (·.name.toList)

/-- An unfinished tree holds what events say: those of the outermost element that is closed, if
there is one, and behind them those of the open elements.  Only what is outside is left out. -/
def Holds (b : Building) (events : List Event) : Prop :=
  ∃ front middle, Outside front ∧ Outside middle ∧
    events = front ++ b.root.toList.flatMap Element.events ++ middle ++ openEvents b.opened

variable {b : Building} {events : List Event} {opened outer : List Element}
  {root : Option Element} {e : Element}

/-- Before anything is read, the tree holds no events. -/
theorem holds_initial :
  initial.Holds []
  := ⟨[], [], Outside.nil, Outside.nil, rfl⟩

/-- A node that is added to the innermost element adds its events behind the others. -/
theorem openEvents_add (node : Node) :
  openEvents ({ e with children := node :: e.children } :: outer) =
    openEvents (e :: outer) ++ node.events
  := by
  rw [openEvents, openEvents, List.reverse_cons, Node.allEvents_append, Node.allEvents_singleton,
    List.append_assoc, List.cons_append]

/-- Open elements count for the depth, and the first of them for the outermost ones. -/
theorem afterAll_openEvents (k : ℕ) (opened : List Element) :
  Nesting.afterAll ⟨0, k⟩ (openEvents opened) =
    ⟨opened.length, if opened = [] then k else k + 1⟩
  := by
  induction opened with
  | nil => rfl
  | cons e outer ih =>
    have hstart : (Nesting.mk outer.length (if outer = [] then k else k + 1)).after
        (.start e.name e.attributes) = ⟨outer.length + 1, k + 1⟩ := by
      cases outer with
      | nil => rfl
      | cons => rfl
    rw [openEvents, Nesting.afterAll_append, ih, Nesting.afterAll, List.foldl_cons, hstart,
      ← Nesting.afterAll, Nesting.afterAll_allEvents (Nat.succ_pos _), List.length_cons,
      if_neg (List.cons_ne_nil e outer)]

/-- The elements outside all others are the one that is closed and the one that is open. -/
theorem Holds.nesting (h : b.Holds events) :
  Nesting.ofEvents events =
    ⟨b.opened.length, b.root.toList.length + if b.opened = [] then 0 else 1⟩
  := by
  obtain ⟨front, middle, hfront, hmiddle, rfl⟩ := h
  have hroot : (Nesting.mk 0 0).afterAll (b.root.toList.flatMap Element.events) =
      ⟨0, b.root.toList.length⟩ := by
    cases b.root with
    | none => rfl
    | some root =>
      rw [Option.toList_some, List.flatMap_singleton, Nesting.afterAll_element]
      rfl
  rw [Nesting.ofEvents_append, Nesting.ofEvents_append, Nesting.ofEvents_append, Nesting.ofEvents,
    hfront.afterAll_eq, hroot, hmiddle.afterAll_eq, afterAll_openEvents]
  split <;> rfl

/-- What comes of taking in markup that says something: either the tree holds it and has the
elements open that the markup leaves open, or there is a second element outside all others. -/
def Proceeds (events : List Event) (names : List (List Char)) : Except TreeError Building → Prop
  | .ok b => b.Holds events ∧ b.names = names
  | .error _ => 2 ≤ (Nesting.ofEvents events).outermost

/-- Texts and comments are added to the innermost open element, or left out. -/
theorem Holds.add (h : b.Holds events) (node : Node) (hnode : Outside node.events) :
  Proceeds (events ++ node.events) b.names (.ok (b.add node))
  := by
  obtain ⟨front, middle, hfront, hmiddle, rfl⟩ := h
  obtain ⟨opened, root⟩ := b
  cases opened with
  | nil =>
    refine ⟨⟨front, middle ++ node.events, hfront, hmiddle.append hnode, ?_⟩, rfl⟩
    simp only [openEvents, Building.add, List.append_nil, List.append_assoc]
  | cons e outer =>
    refine ⟨⟨front, middle, hfront, hmiddle, ?_⟩, rfl⟩
    simp only [Building.add, openEvents_add, List.append_assoc]

/-- A finished element is added to the innermost open element, or becomes the root. -/
theorem Holds.attach (h : b.Holds events) (e : Element) :
  Proceeds (events ++ e.events) b.names (b.attach e)
  := by
  obtain ⟨opened, root⟩ := b
  have hnesting := h.nesting
  obtain ⟨front, middle, hfront, hmiddle, rfl⟩ := h
  cases opened with
  | cons parent outer =>
    refine ⟨⟨front, middle, hfront, hmiddle, ?_⟩, rfl⟩
    simp only [Building.add, openEvents_add, List.append_assoc]
    rfl
  | nil =>
    cases root with
    | none =>
      refine ⟨⟨front ++ middle, [], hfront.append hmiddle, Outside.nil, ?_⟩, rfl⟩
      simp [openEvents]
    | some root =>
      rw [Building.attach, Proceeds, Nesting.ofEvents_append, hnesting, Nesting.afterAll_element]
      rfl

/-- What an open element holds is what its outer ones hold, and then its own start and content. -/
theorem Holds.exists_outer (h : (Building.mk (e :: outer) root).Holds events) :
  ∃ before, (Building.mk outer root).Holds before ∧
    events = before ++ .start e.name e.attributes :: Node.allEvents e.children.reverse
  := by
  obtain ⟨front, middle, hfront, hmiddle, rfl⟩ := h
  refine ⟨_, ⟨front, middle, hfront, hmiddle, rfl⟩, ?_⟩
  simp only [openEvents, List.append_assoc]

/-- A start tag opens an element that the tree holds. -/
theorem Holds.start (h : b.Holds events) (name : String) (attributes : List (String × String)) :
  (Building.mk (⟨name, attributes, []⟩ :: b.opened) b.root).Holds
    (events ++ [.start name attributes])
  := by
  obtain ⟨front, middle, hfront, hmiddle, rfl⟩ := h
  refine ⟨front, middle, hfront, hmiddle, ?_⟩
  simp only [openEvents, List.reverse_nil, Node.allEvents, List.append_assoc]

/-! ## Steps and runs -/

/-- An end tag closes the innermost element, which then belongs to the next one or to the root. -/
theorem Holds.close {name : List Char} (h : (Building.mk (e :: outer) root).Holds events)
    (hname : name = e.name.toList) :
  Proceeds (events ++ [.finish (String.ofList name)]) (outer.map (·.name.toList))
    ((Building.mk outer root).attach { e with children := e.children.reverse })
  := by
  obtain ⟨before, hbefore, rfl⟩ := h.exists_outer
  have hwhole : before ++ .start e.name e.attributes :: Node.allEvents e.children.reverse ++
      [.finish (String.ofList name)] =
        before ++ Element.events { e with children := e.children.reverse } := by
    rw [Element.events_eq, hname, String.ofList_toList, List.append_assoc]
  rw [hwhole]
  apply hbefore.attach

/-- A text whose references can be read is added. -/
theorem step_text {content s : List Char} (h : decodeList? content = some s) :
  b.step (.text content) = .ok (b.add (.text (String.ofList s)))
  := by
  obtain ⟨opened, root⟩ := b
  cases opened with
  | nil => rfl
  | cons e outer =>
    rw [Building.step, h]
    rfl

/-- One piece keeps what is built in step with what is said. -/
theorem Holds.step {piece : Markup} {names : List (List Char)} {more : List Event}
    (h : b.Holds events) (hopen : Markup.openAfter? b.names piece = some names)
    (hmore : piece.events? = some more) :
  Proceeds (events ++ more) names (b.step piece)
  := by
  cases piece with
  | start content =>
    obtain ⟨tag, htag, rfl⟩ := Option.map_eq_some_iff.mp hmore
    cases hopen
    rw [Building.step, htag]
    refine ⟨h.start tag.name tag.attributes, ?_⟩
    rw [Building.names, List.map_cons, Tag.toList_name_of_ofContent? htag]
    rfl
  | empty content =>
    obtain ⟨tag, htag, rfl⟩ := Option.map_eq_some_iff.mp hmore
    cases hopen
    rw [Building.step, htag]
    apply h.attach ⟨tag.name, tag.attributes, []⟩
  | close name =>
    cases hmore
    obtain ⟨opened, root⟩ := b
    cases opened with
    | nil => cases hopen
    | cons e outer =>
      obtain ⟨hname, houter⟩ := Option.ite_none_right_eq_some.mp hopen
      cases houter
      apply h.close (beq_iff_eq.mp hname)
  | text content =>
    obtain ⟨s, hs, rfl⟩ := Option.map_eq_some_iff.mp hmore
    cases hopen
    rw [step_text hs]
    apply h.add (.text _) (Outside.text _)
  | verbatim content =>
    cases hmore
    cases hopen
    apply h.add (.text _) (Outside.text _)
  | comment content =>
    cases hmore
    cases hopen
    apply h.add (.comment _) (Outside.comment _)
  | instruction content =>
    cases hmore
    cases hopen
    rw [List.append_nil]
    exact ⟨h, rfl⟩
  | doctype content =>
    cases hmore
    cases hopen
    rw [List.append_nil]
    exact ⟨h, rfl⟩

/-- After a second outermost element there is one whatever follows. -/
theorem Proceeds.append_of_error {names after : List (List Char)} {u u' : TreeError}
    (h : Proceeds events names (.error u)) (more : List Event) :
  Proceeds (events ++ more) after (.error u')
  := by
  rw [Proceeds, Nesting.ofEvents_append]
  apply Nat.le_trans h
  apply Nesting.outermost_le_afterAll

/-- So do all pieces; the induction is on the pieces that are left. -/
theorem Holds.foldlM {pieces : List Markup} {names : List (List Char)} {more : List Event}
    (h : b.Holds events) (hopen : pieces.foldlM Markup.openAfter? b.names = some names)
    (hmore : Markup.allEvents? pieces = some more) :
  Proceeds (events ++ more) names (pieces.foldlM Building.step b)
  := by
  induction pieces generalizing b events more with
  | nil =>
    cases hopen
    cases hmore
    rw [List.append_nil]
    exact ⟨h, rfl⟩
  | cons piece pieces ih =>
    obtain ⟨after, hafter, hopen⟩ := Option.bind_eq_some_iff.mp hopen
    obtain ⟨said, hsaid, hmore⟩ := Option.bind_eq_some_iff.mp hmore
    obtain ⟨rest, hrest, hmore⟩ := Option.bind_eq_some_iff.mp hmore
    cases hmore
    have hstep := h.step hafter hsaid
    rw [List.foldlM_cons, ← List.append_assoc]
    cases hresult : b.step piece with
    | error u =>
      rw [hresult] at hstep
      apply hstep.append_of_error
    | ok b' =>
      rw [hresult] at hstep
      obtain ⟨hholds, rfl⟩ := hstep
      apply ih hholds hopen hrest

/-- The tree is finished exactly if nothing is open and there is a root. -/
theorem Holds.exists_finish_iff (h : b.Holds events) :
  (∃ e, b.finish = .ok e) ↔ Nesting.ofEvents events = ⟨0, 1⟩
  := by
  obtain ⟨opened, root⟩ := b
  rw [h.nesting]
  cases opened with
  | cons e outer => simp [Building.finish]
  | nil =>
    cases root with
    | none => simp [Building.finish]
    | some root => simp [Building.finish]

/-- A finished tree holds its root element, and there is nothing but texts and comments around it.
-/
theorem Holds.split_of_finish (h : b.Holds events) (hfinish : b.finish = .ok e) :
  ∃ front back, Outside front ∧ Outside back ∧ events = front ++ e.events ++ back
  := by
  obtain ⟨opened, root⟩ := b
  obtain ⟨front, back, hfront, hback, rfl⟩ := h
  cases opened with
  | cons e outer => cases hfinish
  | nil =>
    cases root with
    | none => cases hfinish
    | some root =>
      cases hfinish
      refine ⟨front, back, hfront, hback, ?_⟩
      simp [openEvents]

end Building

/-! ## Scanned texts -/

/-- In the pieces of a text, every end tag matches the tag last opened. -/
theorem Markup.isSome_foldlM_scanFrom (opened : List (List Char)) (cs : List Char) :
  ((scanFrom opened cs).pieces.foldlM openAfter? opened).isSome
  := by
  fun_induction scanFrom opened cs with
  | case1 opened cs hnext => rfl
  | case2 opened cs hnext => rfl
  | case3 opened cs piece rest hnext hafter => rfl
  | case4 opened cs piece rest hnext after hafter scan ih =>
    rw [List.foldlM_cons, hafter]
    exact ih

/-- In every text that is scanned, each end tag matches the tag last opened. -/
theorem Markup.isSome_openAfterAll?_scan (text : String) :
  (openAfterAll? (scan text).pieces).isSome
  := isSome_foldlM_scanFrom [] _

/-! ## Whole trees -/

namespace Element

open Building

variable {scan : Markup.Scan} {events : List Event}

/-- A tree is built exactly if all elements are closed and a single one is outside all others, and
its events are those of the pieces from the start of this element to its end. -/
theorem ofScan_faithful (hwhole : scan.malformed = false)
    (hmatch : (Markup.openAfterAll? scan.pieces).isSome)
    (hevents : Markup.allEvents? scan.pieces = some events) :
  ((∃ root, ofScan scan = .ok root) ↔ Nesting.ofEvents events = ⟨0, 1⟩) ∧
  ∀ root, ofScan scan = .ok root →
    ∃ front back, Outside front ∧ Outside back ∧ events = front ++ root.events ++ back
  := by
  obtain ⟨names, hnames⟩ := Option.isSome_iff_exists.mp hmatch
  have hbuilt := holds_initial.foldlM hnames hevents
  rw [List.nil_append] at hbuilt
  rw [ofScan, hwhole]
  cases hresult : scan.pieces.foldlM Building.step Building.initial with
  | error u =>
    rw [hresult, Proceeds] at hbuilt
    constructor
    · constructor
      · rintro ⟨root, hroot⟩
        cases hroot
      · intro hnesting
        rw [hnesting] at hbuilt
        exact absurd hbuilt (Nat.not_succ_le_self 1)
    · intro root hroot
      cases hroot
  | ok b =>
    rw [hresult] at hbuilt
    constructor
    · apply hbuilt.1.exists_finish_iff
    · intro root hroot
      apply hbuilt.1.split_of_finish hroot

/-- A text with markup of all kinds, inside its outermost element and outside. -/
def sampleText : String :=
  "<?xml version=\"1.0\"?><!--a--><m k=\"1\" j=\"&lt;\"><p/>x &amp; y<![CDATA[<z>]]>" ++
  "<q><!--b--></q></m><!--c-->"

def sampleEvents : List Event :=
  [.comment "a", .start "m" [("k", "1"), ("j", "<")], .start "p" [], .finish "p", .text "x & y",
    .text "<z>", .start "q" [], .comment "b", .finish "q", .finish "m", .comment "c"]

/-- The sample can be read, and it has one outermost element. -/
theorem ofScan_faithful_sampleText :
  (Markup.scan sampleText).malformed = false ∧
  (Markup.openAfterAll? (Markup.scan sampleText).pieces).isSome ∧
  Markup.allEvents? (Markup.scan sampleText).pieces = some sampleEvents ∧
  ((∃ root, parse sampleText = .ok root) ↔ Nesting.ofEvents sampleEvents = ⟨0, 1⟩) ∧
  ∀ root, parse sampleText = .ok root →
    ∃ front back, Outside front ∧ Outside back ∧ sampleEvents = front ++ root.events ++ back
  := by
  have hwhole : (Markup.scan sampleText).malformed = false := by
    decide +kernel
  have hmatch := Markup.isSome_openAfterAll?_scan sampleText
  have hevents : Markup.allEvents? (Markup.scan sampleText).pieces = some sampleEvents := by
    decide +kernel
  exact ⟨hwhole, hmatch, hevents, ofScan_faithful hwhole hmatch hevents⟩

/-- The text has a tree. -/
example : Nesting.ofEvents sampleEvents = ⟨0, 1⟩ := by
  decide

end Element

end Cosim.Xml

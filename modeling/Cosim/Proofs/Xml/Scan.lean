import Cosim.Proofs.Xml.Tag
import Cosim.Xml.Layout

/-!
# Scanning written markup

Pieces of markup that are written one after another are scanned again, but for the texts: what
stands between two marks is a single text without the white space at its ends, the lines and
indents of the layout among it, and there is none where only white space stands.
-/

namespace Cosim

/-- A character at which the mark does not begin belongs to what is before the mark. -/
theorem Text.beforeMark?_cons {mark cs : List Char} {c : Char} (h : ¬ mark <+: c :: cs) :
  beforeMark? mark (c :: cs) =
    (beforeMark? mark cs).map fun (front, left) => (c :: front, left.under c)
  := by
  rw [← List.isPrefixOf_iff_prefix] at h
  rw [beforeMark?, if_neg h]

/-- A mark is found where it stands first. -/
theorem Text.beforeMark?_append {mark front rest : List Char} (hmark : mark ≠ [])
    (hfront : ∀ k < front.length, ¬ mark <+: (front ++ (mark ++ rest)).drop k) :
  ∃ left : Left (front ++ (mark ++ rest)),
    beforeMark? mark (front ++ (mark ++ rest)) = some (front, left) ∧ left.val = rest
  := by
  induction front with
  | nil =>
    obtain ⟨c, mark, rfl⟩ := List.exists_cons_of_ne_nil hmark
    rw [List.nil_append, List.cons_append, beforeMark?, if_pos (by simp)]
    refine ⟨_, rfl, ?_⟩
    simp
  | cons c front ih =>
    obtain ⟨left, hfound, hleft⟩ := ih fun k hk => by
      simpa using hfront (k + 1) (Nat.succ_lt_succ hk)
    have hhere := hfront 0 (Nat.succ_pos _)
    exact ⟨left.under c, (beforeMark?_cons hhere).trans (congrArg _ hfound), hleft⟩

namespace Xml.Markup

open Document (isNameChar)
open Text (Rest Left)

/-! ## Texts between marks -/

/-- The piece that is read where a text stands between two marks. -/
def textPieces (t : List Char) : List Markup :=
  if trimSpace t = [] then [] else [.text (trimSpace t)]

/-- The pieces that are read where a text and then some pieces stand. -/
def readBehind (t : List Char) : List Markup → List Markup
  | [] => textPieces t
  | .text s :: pieces => readBehind (t ++ s) pieces
  | piece :: pieces => textPieces t ++ piece :: readBehind [] pieces

/-- Any piece but a text ends the text in front of it. -/
theorem readBehind_cons {piece : Markup} (htext : ∀ s, piece ≠ .text s) (t : List Char)
    (pieces : List Markup) :
  readBehind t (piece :: pieces) = textPieces t ++ piece :: readBehind [] pieces
  := by
  rw [readBehind]
  rintro s rfl
  apply htext s rfl

/-- A text that begins with a mark is scanned from there, with nothing opened. -/
theorem scan_of_toList {text : String} {cs : List Char} (h : text.toList = '<' :: cs) :
  scan text = scanFrom [] ('<' :: cs)
  := by
  rw [scan, h]
  rfl

/-- A scan with some pieces in front. -/
def Scan.behind (front : List Markup) (scan : Scan) : Scan := ⟨front ++ scan.pieces, scan.malformed⟩

/-- The scan of a text that is known to begin with something. -/
def Scan.ofNext (opened : List (List Char)) {cs : List Char} : Next cs → Scan
  | .done => ⟨[], false⟩
  | .malformed => ⟨[], true⟩
  | .found piece rest =>
    match openAfter? opened piece with
    | none => ⟨[], true⟩
    | some after => (scanFrom after rest.val).behind [piece]

/-- Scanning leaves out white space, takes the next piece and goes on behind it. -/
theorem scanFrom_eq (opened : List (List Char)) (cs : List Char) :
  scanFrom opened cs = Scan.ofNext opened (next (cs.dropWhile isSpace))
  := by
  rw [scanFrom]
  cases next (cs.dropWhile isSpace) with
  | done => rfl
  | malformed => rfl
  | found piece rest =>
    cases hafter : openAfter? opened piece with
    | none => simp [Scan.ofNext, hafter]
    | some after => simp [Scan.ofNext, Scan.behind, hafter]

/-- White space before the next piece makes no difference to scanning. -/
theorem scanFrom_congr {opened : List (List Char)} {cs ds : List Char}
    (h : cs.dropWhile isSpace = ds.dropWhile isSpace) :
  scanFrom opened cs = scanFrom opened ds
  := by
  rw [scanFrom_eq, scanFrom_eq, h]

/-- A text begins with a piece, behind which there is a rest. -/
def Begins (cs : List Char) (piece : Markup) (rest : List Char) : Prop :=
  ∃ left : Rest cs, next cs = .found piece left ∧ left.val = rest

/-- A text that begins with a piece is scanned as that piece and what the rest is scanned as. -/
theorem scanFrom_of_begins {opened after : List (List Char)} {cs front rest : List Char}
    {piece : Markup} (hfront : cs.dropWhile isSpace = front) (h : Begins front piece rest)
    (hafter : openAfter? opened piece = some after) :
  scanFrom opened cs = (scanFrom after rest).behind [piece]
  := by
  obtain ⟨left, hnext, rfl⟩ := h
  rw [scanFrom_eq, hfront, hnext, Scan.ofNext, hafter]

/-- A mark that begins a piece is scanned as that piece and what the rest is scanned as. -/
theorem scanFrom_mark {opened after : List (List Char)} {cs rest : List Char} {piece : Markup}
    (h : Begins ('<' :: cs) piece rest) (hafter : openAfter? opened piece = some after) :
  scanFrom opened ('<' :: cs) = (scanFrom after rest).behind [piece]
  := scanFrom_of_begins (List.dropWhile_cons_of_neg (by decide)) h hafter

/-- A text up to the next mark is one piece, if it is not blank. -/
theorem scanFrom_text {opened : List (List Char)} {t rest : List Char} (ht : '<' ∉ t)
    (hrest : ∀ c ∈ rest.head?, c = '<') :
  scanFrom opened (t ++ rest) = (scanFrom opened rest).behind (textPieces t)
  := by
  cases hblank : t.dropWhile isSpace with
  | nil =>
    have hnone : textPieces t = [] := by
      rw [textPieces, trimSpace, hblank]
      apply if_pos rfl
    have hboth : (t ++ rest).dropWhile isSpace = rest.dropWhile isSpace := by
      rw [List.dropWhile_append, hblank, List.isEmpty_nil, if_pos rfl]
    rw [scanFrom_congr hboth, hnone]
    rfl
  | cons c more =>
    have hmem : ∀ d ∈ c :: more, d ≠ '<' := by
      rintro d hd rfl
      apply ht
      apply List.dropWhile_subset isSpace
      rw [hblank]
      apply hd
    rw [List.forall_mem_cons] at hmem
    have htext : (t ++ rest).dropWhile isSpace = c :: (more ++ rest) := by
      rw [List.dropWhile_append, hblank, List.isEmpty_cons, if_neg (by decide), List.cons_append]
    have hpass : ∀ d ∈ more, (d != '<') = true := by simpa using hmem.2
    have hstop : rest.takeWhile (· != '<') = [] ∧ rest.dropWhile (· != '<') = rest := by
      cases rest with
      | nil => exact ⟨rfl, rfl⟩
      | cons d rest =>
        obtain rfl := hrest d rfl
        exact ⟨rfl, rfl⟩
    have hspace : isSpace c = false := by
      have hhead := List.head_dropWhile_not isSpace (l := t) (by simp [hblank])
      simpa [hblank] using hhead
    have hone : textPieces t = [.text (trimEnd (c :: more))] := by
      rw [textPieces, trimSpace, hblank]
      apply if_neg
      rw [trimEnd_eq, List.rdropWhile_eq_nil_iff]
      intro hall
      rw [hall c List.mem_cons_self] at hspace
      cases hspace
    have hbegins : Begins (c :: (more ++ rest)) (.text (trimEnd (c :: more))) rest := by
      unfold Begins
      rw [next]
      · refine ⟨_, by rw [List.takeWhile_append_of_pos hpass, hstop.1, List.append_nil], ?_⟩
        change (more ++ rest).dropWhile (· != '<') = rest
        rw [List.dropWhile_append_of_pos hpass, hstop.2]
      · apply hmem.1
    rw [hone]
    apply scanFrom_of_begins htext hbegins rfl

/-! ## Written pieces -/

/-- What is found as a tag begins the text. -/
theorem begins_of_tag {body rest : List Char} {piece : Markup}
    (h : ∃ left : Rest body, tag body = .found piece left ∧ left.val = rest) :
  Begins ('<' :: body) piece rest
  := by
  obtain ⟨left, htag, rfl⟩ := h
  refine ⟨left.cons '<', ?_, rfl⟩
  rw [next, htag]

/-- A start tag and a tag without content begin with a name, and differ in how they end. -/
theorem begins_of_ends {cs content rest : List Char} (hends : Ends none cs content rest)
    (hfirst : ∀ c ∈ cs.head?, c ≠ '!' ∧ c ≠ '/' ∧ c ≠ '?') (hrest : rest.length < cs.length) :
  Begins ('<' :: cs)
    (if content.getLast? == some '/' then .empty content.dropLast else .start content) rest
  := by
  apply begins_of_tag
  obtain ⟨left, hcontent, rfl⟩ := hends
  cases cs with
  | nil => cases hrest
  | cons c body =>
    obtain ⟨hbang, hslash, hquestion⟩ := hfirst c rfl
    rw [tag, hcontent]
    · simp only [dif_pos hrest]
      exact ⟨_, rfl, rfl⟩
    · apply hbang
    · apply hslash
    · apply hquestion

/-- The content of a tag does not begin like a declaration, an end or an instruction. -/
theorem head?_content_append {t : Tag} (ht : t.Named) (rest : List Char) :
  ∀ c ∈ (t.content ++ rest).head?, c ≠ '!' ∧ c ≠ '/' ∧ c ≠ '?'
  := by
  obtain ⟨c, more, hcontent, hfirst⟩ := ht.exists_content_eq
  have hchar : isNameChar c = true := by rw [isNameChar, hfirst, Bool.true_or]
  rw [hcontent]
  rintro d hd
  obtain rfl := Option.some.inj hd
  exact ⟨ne_of_isNameChar hchar (by decide), ne_of_isNameChar hchar (by decide),
    ne_of_isNameChar hchar (by decide)⟩

/-- A written start tag begins with that tag. -/
theorem begins_start {t : Tag} (ht : t.Named) (rest : List Char) :
  Begins ('<' :: (t.content ++ '>' :: rest)) (.start t.content) rest
  := by
  have hends := ends_content ht (ends_close rest)
  have hbegins := begins_of_ends hends (head?_content_append ht _) (by simp; omega)
  rw [List.append_nil, if_neg (by simpa using ht.getLast?_content)] at hbegins
  apply hbegins

/-- A start tag opens an element of its name. -/
theorem openAfter?_start {t : Tag} (ht : t.Named) (opened : List (List Char)) :
  openAfter? opened (.start t.content) = some (t.name.toList :: opened)
  := by
  rw [openAfter?, Tag.tagName_content ht]

/-- An end tag closes the innermost element if it has its name. -/
theorem openAfter?_close (name : List Char) (opened : List (List Char)) :
  openAfter? (name :: opened) (.close name) = some opened
  := by
  rw [openAfter?, if_pos (beq_self_eq_true _)]

/-- A written empty tag begins with that tag. -/
theorem begins_empty {t : Tag} (ht : t.Named) (rest : List Char) :
  Begins ('<' :: (t.content ++ '/' :: '>' :: rest)) (.empty t.content) rest
  := by
  have hends := ends_content ht (ends_cons (c := '/') (by decide) (ends_close rest))
  have hbegins := begins_of_ends hends (head?_content_append ht _) (by simp; omega)
  rw [if_pos (by simp), List.dropLast_concat] at hbegins
  apply hbegins

/-- Nothing is cut off a text without white space. -/
theorem trimEnd_of_not_isSpace {cs : List Char} (h : ∀ c ∈ cs, isSpace c = false) :
  trimEnd cs = cs
  := by
  rw [trimEnd_eq, List.rdropWhile_eq_self_iff]
  intro hne
  simp [h _ (List.getLast_mem hne)]

/-- A written end tag begins with that tag. -/
theorem begins_close {name : List Char} (hname : IsName name) (rest : List Char) :
  Begins ('<' :: '/' :: (name ++ '>' :: rest)) (.close name) rest
  := by
  have hstop : ∀ c ∈ name, (c == '>') = false := fun c hc => by
    simpa using ne_of_isNameChar (hname.isNameChar hc) (d := '>') (by decide)
  obtain ⟨behind, hbefore, hbehind⟩ := Text.before?_append (c := '>') rest hstop rfl
  apply begins_of_tag
  rw [tag]
  simp only [upToClose, hbefore]
  rw [trimEnd_of_not_isSpace fun c hc => isSpace_of_isNameChar (hname.isNameChar hc), ite_self]
  exact ⟨_, rfl, hbehind⟩

/-- No end of a comment overlaps the first one in front of it. -/
theorem not_prefix_drop {s : List Char} (hs : ¬ "-->".toList <:+: s) (rest : List Char) {k : ℕ}
    (hk : k < s.length) :
  ¬ "-->".toList <+: (s ++ ("-->".toList ++ rest)).drop k
  := by
  intro hmark
  rw [List.drop_append_of_le_length hk.le] at hmark
  by_cases hinside : k + 3 ≤ s.length
  · apply hs
    have hdrop : "-->".toList <+: s.drop k := by
      apply List.prefix_of_prefix_length_le hmark (List.prefix_append _ _)
      rw [List.length_drop]
      change 3 ≤ _
      omega
    exact hdrop.isInfix.trans (List.drop_suffix k s).isInfix
  · -- the last character of the mark would stand where the second end has a dash
    obtain ⟨more, hmore⟩ := hmark
    have hlast := congrArg (·[2]?) hmore
    have hshort : (s.drop k).length ≤ 2 := by
      rw [List.length_drop]
      omega
    obtain hone | htwo : (s.drop k).length = 1 ∨ (s.drop k).length = 2 := by
      rw [List.length_drop] at hshort ⊢
      omega
    · rw [List.getElem?_append_right hshort, hone] at hlast
      cases hlast
    · rw [List.getElem?_append_right hshort, htwo] at hlast
      cases hlast

/-- A comment ends where the first end of a comment stands. -/
theorem begins_comment {s : List Char} (hs : ¬ "-->".toList <:+: s) (rest : List Char) :
  Begins ('<' :: '!' :: '-' :: '-' :: (s ++ ("-->".toList ++ rest))) (.comment s) rest
  := by
  obtain ⟨left, hfound, hleft⟩ := Text.beforeMark?_append (by decide)
    (fun k hk => not_prefix_drop hs rest hk)
  apply begins_of_tag
  rw [tag, declaration]
  simp only [hfound]
  exact ⟨_, rfl, hleft⟩

/-- A written instruction begins with that instruction. -/
theorem begins_instruction {s : List Char} (hne : s ≠ []) (hs : '>' ∉ s) (rest : List Char) :
  Begins ('<' :: '?' :: ((s ++ ['?']) ++ '>' :: rest)) (.instruction s) rest
  := by
  have hstop : ∀ c ∈ s ++ ['?'], (c == '>') = false := by
    rw [List.forall_mem_append]
    exact ⟨fun c hc => by simpa using ne_of_mem_of_not_mem hc hs, by simp⟩
  have hlength : ¬ (s ++ ['?']).length < 2 := by
    have := List.length_pos_iff.mpr hne
    rw [List.length_append, List.length_singleton]
    omega
  obtain ⟨behind, hbefore, hbehind⟩ := Text.before?_append (c := '>') rest hstop rfl
  apply begins_of_tag
  rw [tag]
  simp only [upToClose, hbefore]
  rw [if_neg (by simpa [List.getLast?_concat] using hlength), List.dropLast_concat]
  exact ⟨_, rfl, hbehind⟩

/-! ## Layouts -/

/-- What a layout puts before a piece is white space. -/
theorem isSpace_of_mem_lead {l : Layout} {c : Char} (h : c ∈ l.lead) :
  isSpace c = true
  := by
  unfold Layout.lead at h
  split at h
  · obtain rfl | h := List.mem_cons.mp h
    · decide
    · rw [List.eq_of_mem_replicate h]
      decide
  · cases h

/-- White space behind a text is none of the text. -/
theorem textPieces_append {t blank : List Char} (hblank : ∀ c ∈ blank, isSpace c = true) :
  textPieces (t ++ blank) = textPieces t
  := by
  have htrim : trimSpace (t ++ blank) = trimSpace t := by
    rw [trimSpace, trimSpace, List.dropWhile_append]
    split
    · rename_i hnil
      rw [List.isEmpty_iff] at hnil
      rw [hnil, List.dropWhile_eq_nil_iff.mpr hblank]
    · have hpass : ∀ c ∈ blank.reverse, isSpace c = true := by simpa using hblank
      rw [trimEnd, trimEnd, List.reverse_append, List.dropWhile_append_of_pos hpass]
  rw [textPieces, textPieces, htrim]

/-- Written pieces in which the given tags are open are scanned with their texts trimmed, whatever
text stands in front and however they are laid out. -/
def Scans (opened : List (List Char)) (pieces : List Markup) : Prop :=
  ∀ (l : Layout) (t : List Char), '<' ∉ t →
    scanFrom opened (t ++ l.writeAll pieces) = ⟨readBehind t pieces, false⟩

theorem write_start (l : Layout) (content : List Char) :
  l.write (.start content) = (l.lead ++ '<' :: content ++ ['>'], ⟨l.depth + 1, true⟩)
  := rfl

theorem write_empty (l : Layout) (content : List Char) :
  l.write (.empty content) = (l.lead ++ '<' :: content ++ ['/', '>'], ⟨l.depth, true⟩)
  := rfl

theorem write_close (l : Layout) (name : List Char) :
  l.write (.close name) =
    (Layout.lead ⟨l.depth - 1, l.breaks⟩ ++ '<' :: '/' :: name ++ ['>'], ⟨l.depth - 1, true⟩)
  := rfl

theorem write_text (l : Layout) (content : List Char) :
  l.write (.text content) = (content, ⟨l.depth, false⟩)
  := rfl

/-- Pieces are written one after the other, each in the layout that the one before leaves. -/
theorem writeAll_cons (l : Layout) (piece : Markup) (pieces : List Markup) :
  l.writeAll (piece :: pieces) = (l.write piece).1 ++ (l.write piece).2.writeAll pieces
  := rfl

theorem scans_nil (opened : List (List Char)) :
  Scans opened []
  := by
  intro l t ht
  rw [Layout.writeAll, scanFrom_text ht (by simp), scanFrom_eq, List.dropWhile_nil, next]
  simp [Scan.ofNext, Scan.behind, readBehind]

/-- A text without marks in front is scanned back with the pieces behind it. -/
theorem scans_text {opened : List (List Char)} {s : List Char} {pieces : List Markup}
    (hs : '<' ∉ s) (h : Scans opened pieces) :
  Scans opened (.text s :: pieces)
  := by
  intro l t ht
  have hboth := h ⟨l.depth, false⟩ (t ++ s) (by simp [ht, hs])
  rw [List.append_assoc] at hboth
  rw [readBehind, ← hboth]
  rfl

/-- A piece that is written as what it begins with is scanned back with the pieces behind it. -/
theorem scans_cons {opened after : List (List Char)} {piece : Markup} {pieces : List Markup}
    (hafter : openAfter? opened piece = some after) (h : Scans after pieces)
    (hwrite : ∀ l : Layout, ∃ outer : Layout, ∃ body, (l.write piece).1 = outer.lead ++ '<' :: body ∧
      ∀ rest, Begins ('<' :: (body ++ rest)) piece rest)
    (htext : ∀ s, piece ≠ .text s) :
  Scans opened (piece :: pieces)
  := by
  intro l t ht
  obtain ⟨outer, body, hbody, hbegins⟩ := hwrite l
  have hlead : '<' ∉ t ++ outer.lead := by
    rw [List.mem_append, not_or]
    refine ⟨ht, fun hmem => ?_⟩
    cases isSpace_of_mem_lead hmem
  have hnext := h (l.write piece).2 [] List.not_mem_nil
  rw [writeAll_cons, hbody, List.append_assoc, ← List.append_assoc t,
    scanFrom_text hlead (by simp), textPieces_append fun c => isSpace_of_mem_lead, List.cons_append,
    scanFrom_mark (hbegins _) hafter]
  rw [List.nil_append] at hnext
  rw [hnext, readBehind_cons htext, Scan.behind, Scan.behind, List.singleton_append]

/-- A start tag in front is scanned back with the pieces of the element behind it. -/
theorem scans_start {opened : List (List Char)} {t : Tag} {pieces : List Markup}
    (ht : t.Named) (h : Scans (t.name.toList :: opened) pieces) :
  Scans opened (.start t.content :: pieces)
  := by
  apply scans_cons _ h
  · intro l
    exact ⟨l, t.content ++ ['>'], List.append_assoc .., fun rest => by
      simpa using begins_start ht rest⟩
  · rintro s ⟨⟩
  · apply openAfter?_start ht

/-- An empty tag in front is scanned back with the pieces behind it. -/
theorem scans_empty {opened : List (List Char)} {t : Tag} {pieces : List Markup}
    (ht : t.Named) (h : Scans opened pieces) :
  Scans opened (.empty t.content :: pieces)
  := by
  apply scans_cons rfl h
  · intro l
    exact ⟨l, t.content ++ ['/', '>'], List.append_assoc .., fun rest => by
      simpa using begins_empty ht rest⟩
  · rintro s ⟨⟩

/-- An end tag in front is scanned back with the pieces behind the element. -/
theorem scans_close {opened : List (List Char)} {name : List Char} {pieces : List Markup}
    (hname : IsName name) (h : Scans opened pieces) :
  Scans (name :: opened) (.close name :: pieces)
  := by
  apply scans_cons _ h
  · intro l
    exact ⟨⟨l.depth - 1, l.breaks⟩, '/' :: name ++ ['>'], List.append_assoc .., fun rest => by
      simpa using begins_close hname rest⟩
  · rintro s ⟨⟩
  · apply openAfter?_close

/-- A comment in front is scanned back with the pieces behind it. -/
theorem scans_comment {opened : List (List Char)} {s : List Char} {pieces : List Markup}
    (hs : ¬ "-->".toList <:+: s) (h : Scans opened pieces) :
  Scans opened (.comment s :: pieces)
  := by
  apply scans_cons rfl h
  · intro l
    have hbody : (l.write (.comment s)).1 = l.lead ++ ("<!--".toList ++ s ++ "-->".toList) := by
      rw [← List.append_assoc, ← List.append_assoc]
      rfl
    exact ⟨l, '!' :: '-' :: '-' :: (s ++ "-->".toList), hbody, fun rest => by
      have := begins_comment hs rest
      rw [← List.append_assoc] at this
      apply this⟩
  · rintro s ⟨⟩

/-- An instruction in front is scanned back with the pieces behind it. -/
theorem scans_instruction {opened : List (List Char)} {s : List Char} {pieces : List Markup}
    (hne : s ≠ []) (hs : '>' ∉ s) (h : Scans opened pieces) :
  Scans opened (.instruction s :: pieces)
  := by
  apply scans_cons rfl h
  · intro l
    exact ⟨l, '?' :: s ++ ['?', '>'], List.append_assoc .., fun rest => by
      simpa using begins_instruction hne hs rest⟩
  · rintro s ⟨⟩

end Xml.Markup

end Cosim

import Cosim.Proofs.Dictionary.Readable

/-!
# Dictionaries read back

The text of a regular dictionary is read as the same dictionary, with the keys in the same order on
every level, if and only if it is quotable.  By induction on the values, each is read from its text
in front of anything that does not continue a bare word.
-/

namespace Cosim.Dictionary

/-! ## The texts of values -/

/-- Whether a value takes lines of its own behind a key. -/
def isSpread : Value → Bool
  | .object _ => true
  | .list vs => isTall vs
  | _ => false

/-- The lines of a value without the last line break. -/
def spread (depth : Nat) : Value → String
  | .object es =>
    line depth "\x7b" ++ writeEntries (keyColumn es) (depth + 1) es ++ pad depth ++ "\x7d"
  | .list vs =>
    if isTall vs then line depth "(" ++ writeItems (depth + 1) vs ++ pad depth ++ ")"
    else pad depth ++ inlineForm (.list vs)
  | v => pad depth ++ inlineForm v

/-- An item is written on lines of its own. -/
theorem writeItem_eq (depth : Nat) (v : Value) :
  writeItem depth v = spread depth v ++ "\n"
  := by
  cases v with
  | list vs =>
    rw [writeItem, spread]
    split <;> simp [line, String.append_assoc]
  | _ => simp [writeItem, spread, line, String.append_assoc]

/-- A value that is not spread over lines is written behind its indentation. -/
theorem spread_of_not_isSpread {v : Value} (depth : Nat) (h : isSpread v = false) :
  spread depth v = pad depth ++ inlineForm v
  := by
  cases v with
  | object es => cases h
  | list vs => rw [spread, if_neg (by simpa [isSpread] using h)]
  | _ => rfl

/-- An entry whose value is spread has its key on a line of its own. -/
theorem writeEntry_of_isSpread {v : Value} (column depth : Nat) (key : String)
    (h : isSpread v = true) :
  writeEntry column depth key v =
    line depth (textForm key) ++ spread depth v ++ (if v.isObject then "\n" else ";\n")
  := by
  cases v with
  | object es => simp [writeEntry, spread, line, String.append_assoc, Value.isObject]
  | list vs =>
    rw [isSpread] at h
    simp [writeEntry, spread, line, String.append_assoc, Value.isObject, h]
  | _ => cases h

/-- An entry whose value is not spread has it behind its key on one line. -/
theorem writeEntry_of_not_isSpread {v : Value} (column depth : Nat) (key : String)
    (h : isSpread v = false) :
  writeEntry column depth key v =
    line depth (alignedKey column key ++ " " ++ inlineForm v ++ ";")
  := by
  cases v with
  | object es => cases h
  | list vs => rw [writeEntry, if_neg (by simpa [isSpread] using h)]
  | _ => rfl

/-! ## Reading one value -/

/-- The value is read from its text in front of anything that does not continue a word. -/
def ReadsBack (v : Value) : Prop :=
  ∀ depth rest, Ends rest → valueAt (skip ((spread depth v).toList ++ rest)) = some (v, rest)

/-- A value other than an object or a list is one word. -/
theorem inlineForm_reads {v : Value} {rest : List Char} (hreadable : v.Readable)
    (hobject : v.isObject = false) (hlist : v.isList = false) (hrest : Ends rest) :
  ∃ w, WordReads ((inlineForm v).toList ++ rest) w rest ∧ w.value = v
  := by
  obtain ⟨hregular, hquotable⟩ := hreadable
  cases hregular with
  | null =>
    apply bareWord_reads _ rfl hrest
    exact ⟨by decide, List.all_eq_true.mp rfl, rfl, rfl, by decide⟩
  | bool b =>
    apply bareWord_reads _ _ hrest
    · cases b <;> exact ⟨by decide, List.all_eq_true.mp rfl, rfl, rfl, by decide⟩
    · cases b <;> rfl
  | @int i hlow hhigh =>
    have hnumeral := Literal.isNumeral_intText i
    apply bareWord_reads (isBareWord_of_isNumeral _ hnumeral) (scalar_intText hlow hhigh) hrest
    rw [Literal.toList_intText]
    split
    · apply List.cons_ne_nil
    · apply Nat.toDigits_ne_nil
  | @real x hfinite =>
    have hnumeral := Literal.isNumeral_pointed x
    apply bareWord_reads (isBareWord_of_isNumeral _ hnumeral) (scalar_pointed hfinite) hrest
    intro hnil
    have hread := Literal.real?_pointed hfinite
    rw [hnil] at hread
    cases hread
  | text s =>
    cases hquotable with
    | text hs =>
      obtain ⟨w, hreads, -, hvalue⟩ := textForm_reads hs hrest
      exact ⟨w, hreads, hvalue⟩
  | list _ => cases hlist
  | object _ _ => cases hobject

/-- A value that is neither a block nor a list is read back as the word that it is written as. -/
theorem readsBack_of_word {v : Value} (hreadable : v.Readable) (hobject : v.isObject = false)
    (hlist : v.isList = false) :
  ReadsBack v
  := by
  have hspread : isSpread v = false := by
    cases v with
    | object _ => cases hobject
    | list _ => cases hlist
    | _ => rfl
  intro depth rest hrest
  obtain ⟨w, hword, hvalue⟩ := inlineForm_reads hreadable hobject hlist hrest
  rw [spread_of_not_isSpread depth hspread, String.toList_append, List.append_assoc, skip_pad,
    hword.skipped, valueAt_of_wordAt hword.read, hvalue]

/-! ## Reading items -/

/-- An item without a comma behind it is read before the others. -/
theorem itemsAt_cons {cs next : List Char} {v : Value} (hvalue : valueAt (skip cs) = some (v, next))
    (hnext : ∀ c ∈ (skip next).head?, c ≠ ',') :
  itemsAt cs = (v :: (itemsAt next).1, (itemsAt next).2)
  := by
  rw [itemsAt_eq, hvalue]
  simp only [behind_of_head hnext]

/-- Items are read from a text and leave what starts with the closing mark. -/
def ItemsRead (cs : List Char) (vs : List Value) (rest : List Char) : Prop :=
  (itemsAt cs).1 = vs ∧ skip (itemsAt cs).2 = ')' :: rest

/-- No items are read before a closing parenthesis. -/
theorem itemsRead_nil {cs rest : List Char} (h : skip cs = ')' :: rest) :
  ItemsRead cs [] rest
  := by
  have hitems : itemsAt cs = ([], cs) := by
    rw [itemsAt_eq, h, valueAt_eq_none (by simp)]
  rw [ItemsRead, hitems]
  exact ⟨rfl, h⟩

/-- An item is read before the others that are read behind it. -/
theorem itemsRead_cons {cs next rest : List Char} {v : Value} {vs : List Value}
    (hvalue : valueAt (skip cs) = some (v, next)) (h : ItemsRead next vs rest) :
  ItemsRead cs (v :: vs) rest
  := by
  obtain ⟨hitems, hrest⟩ := h
  have hnext : ∀ c ∈ (skip next).head?, c ≠ ',' := by
    rw [itemsAt_eq] at hrest
    split at hrest
    · rw [hrest]
      simp
    · rename_i hnext
      intro c hc
      have hhead := head_of_valueAt hnext c hc
      rintro rfl
      simp at hhead
  rw [ItemsRead, itemsAt_cons hvalue hnext, hitems]
  exact ⟨rfl, hrest⟩

/-- The items of a tall list, a line for each. -/
theorem itemsRead_writeItems {vs : List Value} (h : ∀ v ∈ vs, ReadsBack v) (depth : Nat)
    {cs tail rest : List Char} (hskip : skip cs = skip ((writeItems depth vs).toList ++ tail))
    (htail : skip tail = ')' :: rest) :
  ItemsRead cs vs rest
  := by
  induction vs generalizing cs with
  | nil =>
    apply itemsRead_nil
    rw [hskip, ← htail]
    rfl
  | cons v vs ih =>
    rw [List.forall_mem_cons] at h
    have htext : (writeItems depth (v :: vs)).toList ++ tail =
        (spread depth v).toList ++ '\n' :: ((writeItems depth vs).toList ++ tail) := by
      simp [writeItems, writeItem_eq]
    apply itemsRead_cons
    · rw [hskip, htext]
      apply h.1 depth _ (ends_cons _ (by decide))
    · apply ih h.2 (skip_newline _)

/-- The items of a list in one line. -/
theorem itemsRead_inlineItems {vs : List Value} (h : ∀ v ∈ vs, v.Readable)
    (htall : isTall vs = false) {cs rest : List Char}
    (hskip : skip cs = skip ((" ".intercalate (inlineItems vs)).toList ++ ')' :: rest)) :
  ItemsRead cs vs rest
  := by
  have hparen : skip (')' :: rest) = ')' :: rest := skip_of_none rfl
  induction vs generalizing cs with
  | nil =>
    apply itemsRead_nil
    rw [hskip, inlineItems, String.intercalate_nil]
    apply hparen
  | cons v vs ih =>
    rw [List.forall_mem_cons] at h
    simp only [isTall, List.any_cons, Bool.or_eq_false_iff] at htall
    obtain ⟨⟨hobject, hlist⟩, htall⟩ := htall
    have hread (next : List Char) (hnext : Ends next)
        (hcs : skip cs = skip ((inlineForm v).toList ++ next)) :
        valueAt (skip cs) = some (v, next) := by
      obtain ⟨w, hword, hvalue⟩ := inlineForm_reads h.1 hobject hlist hnext
      rw [hcs, hword.skipped, valueAt_of_wordAt hword.read, hvalue]
    cases vs with
    | nil =>
      rw [inlineItems, inlineItems, String.intercalate_singleton] at hskip
      apply itemsRead_cons (hread _ (ends_cons _ (by decide)) hskip)
      apply itemsRead_nil hparen
    | cons w vs =>
      have htext : (" ".intercalate (inlineItems (v :: w :: vs))).toList ++ ')' :: rest =
          (inlineForm v).toList ++
            ' ' :: ((" ".intercalate (inlineItems (w :: vs))).toList ++ ')' :: rest) := by
        simp [inlineItems, String.intercalate_cons_cons]
      rw [htext] at hskip
      apply itemsRead_cons (hread _ (ends_cons _ (by decide)) hskip)
      apply ih h.2 htall (skip_space _)

/-- Items are read as a list behind the opening parenthesis. -/
theorem valueAt_of_itemsRead {body rest : List Char} {vs : List Value}
    (h : ItemsRead body vs rest) :
  valueAt ('(' :: body) = some (.list vs, rest)
  := by
  rw [valueAt_list, markAt_of_skip h.2, Option.map_some, h.1]

/-- A list is read back if its items are. -/
theorem readsBack_list {vs : List Value} (hreadable : ∀ v ∈ vs, v.Readable)
    (h : ∀ v ∈ vs, ReadsBack v) :
  ReadsBack (.list vs)
  := by
  intro depth rest _
  have hparen (cs : List Char) : skip ('(' :: cs) = '(' :: cs := skip_of_none rfl
  cases htall : isTall vs with
  | true =>
    have htext : (spread depth (.list vs)).toList ++ rest = (pad depth).toList ++ '(' ::
        ('\n' :: ((writeItems (depth + 1) vs).toList ++ ((pad depth).toList ++ ')' :: rest))) := by
      simp [spread, htall, line]
    rw [htext, skip_pad, hparen]
    apply valueAt_of_itemsRead
    apply itemsRead_writeItems h (depth + 1) (skip_newline _)
    rw [skip_pad]
    apply skip_of_none rfl
  | false =>
    have htext : (spread depth (.list vs)).toList ++ rest = (pad depth).toList ++
        '(' :: ((" ".intercalate (inlineItems vs)).toList ++ ')' :: rest) := by
      simp [spread, htall, inlineForm]
    rw [htext, skip_pad, hparen]
    apply valueAt_of_itemsRead
    apply itemsRead_inlineItems hreadable htall rfl

/-! ## Reading entries -/

/-- An entry is read from its lines in front of anything that starts with no semicolon. -/
theorem entryAt_writeEntry {key : String} {v : Value} (hkey : IsQuotable key) (h : ReadsBack v)
    (column depth : Nat) {next : List Char} (hnext : ∀ c ∈ (skip next).head?, c ≠ ';') :
  entryAt (skip ((writeEntry column depth key v).toList ++ next)) = some ((key, v), '\n' :: next)
  := by
  have hbreak : Ends ('\n' :: next) := ends_cons _ (by decide)
  have hsemicolon : Ends (';' :: '\n' :: next) := ends_cons _ (by decide)
  have hmark : markAt ';' (';' :: '\n' :: next) = some ('\n' :: next) :=
    markAt_of_skip (skip_of_none rfl)
  cases hspread : isSpread v with
  | true =>
    cases hobject : v.isObject with
    | true =>
      have htext : (writeEntry column depth key v).toList ++ next = (pad depth).toList ++
          ((textForm key).toList ++ '\n' :: ((spread depth v).toList ++ '\n' :: next)) := by
        simp [writeEntry_of_isSpread column depth key hspread, hobject, line]
      obtain ⟨w, hword, rfl, -⟩ := textForm_reads hkey (ends_cons
        ((spread depth v).toList ++ '\n' :: next) (show isBare '\n' = false by decide))
      have hvalue := h depth _ hbreak
      rw [← skip_newline] at hvalue
      rw [htext, skip_pad, hword.skipped, entryAt_of_valueAt hword.read hvalue, if_pos hobject,
        behind_of_head]
      rw [skip_newline]
      apply hnext
    | false =>
      have htext : (writeEntry column depth key v).toList ++ next = (pad depth).toList ++
          ((textForm key).toList ++ '\n' :: ((spread depth v).toList ++ ';' :: '\n' :: next)) := by
        simp [writeEntry_of_isSpread column depth key hspread, hobject, line]
      obtain ⟨w, hword, rfl, -⟩ := textForm_reads hkey (ends_cons
        ((spread depth v).toList ++ ';' :: '\n' :: next) (show isBare '\n' = false by decide))
      have hvalue := h depth _ hsemicolon
      rw [← skip_newline] at hvalue
      rw [htext, skip_pad, hword.skipped, entryAt_of_valueAt hword.read hvalue,
        if_neg (by simp [hobject]), hmark, Option.map_some]
  | false =>
    have hobject : v.isObject = false := by
      cases v with
      | object _ => cases hspread
      | _ => rfl
    obtain ⟨n, hn⟩ : ∃ n, (alignedKey column key ++ " ").toList =
        (textForm key).toList ++ ' ' :: List.replicate n ' ' := by
      refine ⟨column - (textForm key).length, ?_⟩
      rw [← List.replicate_succ, List.replicate_succ']
      simp [alignedKey]
    have htext : (writeEntry column depth key v).toList ++ next = (pad depth).toList ++
        ((textForm key).toList ++ ' ' ::
          (List.replicate n ' ' ++ ((inlineForm v).toList ++ ';' :: '\n' :: next))) := by
      rw [writeEntry_of_not_isSpread column depth key hspread, line, String.toList_append,
        String.toList_append, String.toList_append, String.toList_append, hn]
      simp
    obtain ⟨w, hword, rfl, -⟩ := textForm_reads hkey (ends_cons
      (List.replicate n ' ' ++ ((inlineForm v).toList ++ ';' :: '\n' :: next))
      (show isBare ' ' = false by decide))
    have hvalue := h depth _ hsemicolon
    rw [spread_of_not_isSpread depth hspread, String.toList_append, List.append_assoc, skip_pad,
      ← skip_spaces n, ← skip_space] at hvalue
    rw [htext, skip_pad, hword.skipped, entryAt_of_valueAt hword.read hvalue,
      if_neg (by simp [hobject]), hmark, Option.map_some]

/-- Entries are read from a text and leave what starts a given way. -/
def EntriesRead (cs : List Char) (es : List (String × Value)) (left : List Char) : Prop :=
  (entriesAt cs).1 = es ∧ skip (entriesAt cs).2 = left

/-- No entries are read where there is no entry. -/
theorem entriesRead_nil {cs left : List Char} (h : skip cs = left) (hleft : entryAt left = none) :
  EntriesRead cs [] left
  := by
  have hentries : entriesAt cs = ([], cs) := by
    rw [entriesAt_eq, h, hleft]
  rw [EntriesRead, hentries]
  exact ⟨rfl, h⟩

/-- An entry is read before the others that are read behind it. -/
theorem entriesRead_cons {cs next left : List Char} {e : String × Value}
    {es : List (String × Value)} (hentry : entryAt (skip cs) = some (e, next))
    (h : EntriesRead next es left) :
  EntriesRead cs (e :: es) left
  := by
  obtain ⟨hentries, hleft⟩ := h
  have hcons : entriesAt cs = (e :: (entriesAt next).1, (entriesAt next).2) := by
    rw [entriesAt_eq, hentry]
  rw [EntriesRead, hcons, hentries]
  exact ⟨rfl, hleft⟩

/-- What entries are read from starts with no mark that ends one. -/
theorem head_of_entriesRead {cs left : List Char} {es : List (String × Value)}
    (h : EntriesRead cs es left) (hleft : ∀ c ∈ left.head?, c ≠ ';') :
  ∀ c ∈ (skip cs).head?, c ≠ ';'
  := by
  obtain ⟨-, h⟩ := h
  rw [entriesAt_eq] at h
  split at h
  · rw [h]
    apply hleft
  · rename_i hentry
    rintro c hc rfl
    cases hskip : skip cs with
    | nil =>
      rw [hskip] at hc
      cases hc
    | cons d cs' =>
      rw [hskip, List.head?_cons, Option.mem_some_iff] at hc
      rw [hskip, hc, entryAt_eq_none (by simp)] at hentry
      cases hentry

/-- Entries are read from their lines in front of what is no entry. -/
theorem entriesRead_writeEntries {es : List (String × Value)} (hkeys : ∀ e ∈ es, IsQuotable e.1)
    (h : ∀ e ∈ es, ReadsBack e.2) (column depth : Nat) {cs tail : List Char}
    (hskip : skip cs = skip ((writeEntries column depth es).toList ++ tail))
    (htail : entryAt (skip tail) = none) (hhead : ∀ c ∈ (skip tail).head?, c ≠ ';') :
  EntriesRead cs es (skip tail)
  := by
  induction es generalizing cs with
  | nil => apply entriesRead_nil hskip htail
  | cons e es ih =>
    obtain ⟨key, v⟩ := e
    rw [List.forall_mem_cons] at hkeys h
    have htext : (writeEntries column depth ((key, v) :: es)).toList ++ tail =
        (writeEntry column depth key v).toList ++
          ((writeEntries column depth es).toList ++ tail) := by
      simp [writeEntries]
    have hrest := ih hkeys.2 h.2 (skip_newline ((writeEntries column depth es).toList ++ tail))
    have hnext := head_of_entriesRead hrest hhead
    rw [skip_newline] at hnext
    apply entriesRead_cons _ hrest
    rw [hskip, htext]
    apply entryAt_writeEntry hkeys.1 h.1 column depth hnext

/-- A block is read back if its values are, and its keys are distinct and can be quoted. -/
theorem readsBack_object {es : Dictionary} (hnodup : es.keys.Nodup)
    (hkeys : ∀ e ∈ es, IsQuotable e.1) (h : ∀ e ∈ es, ReadsBack e.2) :
  ReadsBack (.object es)
  := by
  intro depth rest _
  have hbrace (cs : List Char) : skip ('{' :: cs) = '{' :: cs := skip_of_none rfl
  have hclose : skip ((pad depth).toList ++ '}' :: rest) = '}' :: rest := by
    rw [skip_pad]
    apply skip_of_none rfl
  have htext : (spread depth (.object es)).toList ++ rest = (pad depth).toList ++
      '{' :: ('\n' :: ((writeEntries (keyColumn es) (depth + 1) es).toList ++
        ((pad depth).toList ++ '}' :: rest))) := by
    simp [spread, line]
  obtain ⟨hentries, hleft⟩ := entriesRead_writeEntries hkeys h (keyColumn es) (depth + 1)
    (skip_newline ((writeEntries (keyColumn es) (depth + 1) es).toList ++
      ((pad depth).toList ++ '}' :: rest)))
    (by rw [hclose, entryAt_eq_none (by simp)]) (by rw [hclose]; simp)
  rw [hclose] at hleft
  rw [htext, skip_pad, hbrace, valueAt_block, markAt_of_skip hleft, hentries,
    Entries.ofPairs_eq_self hnodup, Option.map_some]

/-! ## Dictionaries -/

/-- Every readable value is read from its own text, by induction on the value. -/
theorem readsBack {v : Value} (hregular : v.Regular) (hquotable : v.Quotable) :
  ReadsBack v
  := by
  induction hregular with
  | null => apply readsBack_of_word ⟨.null, hquotable⟩ rfl rfl
  | bool b => apply readsBack_of_word ⟨.bool b, hquotable⟩ rfl rfl
  | int hlow hhigh => apply readsBack_of_word ⟨.int hlow hhigh, hquotable⟩ rfl rfl
  | real hfinite => apply readsBack_of_word ⟨.real hfinite, hquotable⟩ rfl rfl
  | text s => apply readsBack_of_word ⟨.text s, hquotable⟩ rfl rfl
  | list hitems ih =>
    cases hquotable with
    | list hitems' =>
      apply readsBack_list (fun v hv => ⟨hitems v hv, hitems' v hv⟩)
      intro v hv
      apply ih v hv (hitems' v hv)
  | object hnodup _ ih =>
    cases hquotable with
    | object hkeys hentries =>
      apply readsBack_object hnodup hkeys
      intro e he
      apply ih e he (hentries e he)

/-- A readable dictionary is read back from what is written for it. -/
theorem document_write {d : Dictionary} (h : (Value.object d).Readable) :
  document (write d) = .ok d
  := by
  obtain ⟨hregular, hquotable⟩ := h
  cases hregular with
  | object hnodup hregular =>
    cases hquotable with
    | object hkeys hquotable =>
      have hreads : ∀ e ∈ d, ReadsBack e.2 := fun e he => readsBack (hregular e he) (hquotable e he)
      have hskip : skip (write d).toList = skip ((writeEntries (keyColumn d) 0 d).toList ++ []) := by
        rw [write, String.toList_append, skip_banner, List.append_nil]
      have hnil : skip [] = [] := skip_of_none rfl
      obtain ⟨hentries, hleft⟩ := entriesRead_writeEntries hkeys hreads (keyColumn d) 0 hskip
        (by rw [hnil, entryAt_nil]) (by rw [hnil]; simp)
      rw [hnil] at hleft
      apply document_eq_ok.mpr
      rw [hentries, Entries.ofPairs_eq_self hnodup]
      exact ⟨hleft, rfl⟩

/-- A regular dictionary is read from its own text exactly if it is quotable.  Every dictionary that
is read from some text is both, and so is read again from the text that it is written as. -/
theorem document_write_iff :
  (∀ d : Dictionary, (Value.object d).Regular →
    (document (write d) = .ok d ↔ (Value.object d).Quotable)) ∧
  (∀ (text : String) (d : Dictionary), document text = .ok d →
    (Value.object d).Regular ∧ (Value.object d).Quotable ∧ document (write d) = .ok d)
  := by
  constructor
  · intro d hregular
    constructor
    · intro h
      apply (readable_document h).quotable
    · intro hquotable
      apply document_write ⟨hregular, hquotable⟩
  · intro text d h
    have hreadable := readable_document h
    exact ⟨hreadable.regular, hreadable.quotable, document_write hreadable⟩

/-- A dictionary with a text that needs quotes, and with a list that takes lines of its own. -/
def sample : Dictionary := [
  ("run", .object [("name", .text "it's"), ("count", .number (.int (-3)))]),
  ("ports", .list [.list [.bool true, .null], .object []])]

theorem document_write_sample :
  (Value.object sample).Regular ∧ (Value.object sample).Quotable ∧
    document (write sample) = .ok sample
  := by
  have hregular : (Value.object sample).Regular := by
    apply Value.Regular.object (by decide)
    simp only [sample, List.forall_mem_cons, List.not_mem_nil, false_imp_iff, implies_true, and_true]
    constructor
    · apply Value.Regular.object (by decide)
      simp only [List.forall_mem_cons, List.not_mem_nil, false_imp_iff, implies_true, and_true]
      exact ⟨.text _, .int (by decide) (by decide)⟩
    · apply Value.Regular.list
      simp only [List.forall_mem_cons, List.not_mem_nil, false_imp_iff, implies_true, and_true]
      refine ⟨.list ?_, .object (by decide) (by simp)⟩
      simp only [List.forall_mem_cons, List.not_mem_nil, false_imp_iff, implies_true, and_true]
      exact ⟨.bool true, .null⟩
  have hquotable : (Value.object sample).Quotable := by
    apply Value.Quotable.object (by decide)
    simp only [sample, List.forall_mem_cons, List.not_mem_nil, false_imp_iff, implies_true, and_true]
    constructor
    · apply Value.Quotable.object (by decide)
      simp only [List.forall_mem_cons, List.not_mem_nil, false_imp_iff, implies_true, and_true]
      exact ⟨.text (by decide), .number _⟩
    · apply Value.Quotable.list
      simp only [List.forall_mem_cons, List.not_mem_nil, false_imp_iff, implies_true, and_true]
      refine ⟨.list ?_, .object (by simp) (by simp)⟩
      simp only [List.forall_mem_cons, List.not_mem_nil, false_imp_iff, implies_true, and_true]
      exact ⟨.bool true, .null⟩
  exact ⟨hregular, hquotable, (document_write_iff.1 sample hregular).mpr hquotable⟩

end Cosim.Dictionary

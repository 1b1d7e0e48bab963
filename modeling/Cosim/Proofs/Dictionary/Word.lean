import Cosim.Dictionary.Reader
import Cosim.Dictionary.Writer
import Cosim.Proofs.Number.Notation
import Mathlib.Tactic.IntervalCases

/-!
# Words of dictionaries

Blanks and comments are passed over, and a word that stands before a character which is not bare is
read as what was written: a text in quotes or bare, a number, a boolean or null.
-/

namespace Cosim.Dictionary

/-! ## Blanks and comments -/

/-- A separator is skipped, and then what follows it. -/
theorem skip_of_some {cs rest : List Char} (h : afterSeparator? cs = some rest) :
  skip cs = skip rest
  := by
  rw [skip]
  split
  · rename_i found hfound
    rw [h, Option.some.injEq] at hfound
    rw [hfound]
  · rename_i hnone
    rw [h] at hnone
    cases hnone

/-- Where no separator stands, nothing is skipped. -/
theorem skip_of_none {cs : List Char} (h : afterSeparator? cs = none) :
  skip cs = cs
  := by
  rw [skip]
  split
  · rename_i found hfound
    rw [h] at hfound
    cases hfound
  · rfl

theorem skip_space (cs : List Char) :
  skip (' ' :: cs) = skip cs
  := skip_of_some rfl

theorem skip_newline (cs : List Char) :
  skip ('\n' :: cs) = skip cs
  := skip_of_some rfl

/-- Spaces are skipped. -/
theorem skip_spaces (n : Nat) (cs : List Char) :
  skip (List.replicate n ' ' ++ cs) = skip cs
  := by
  induction n with
  | zero => rfl
  | succ n ih => rw [List.replicate_succ, List.cons_append, skip_space, ih]

/-- An indentation is skipped. -/
theorem skip_pad (depth : Nat) (cs : List Char) :
  skip ((pad depth).toList ++ cs) = skip cs
  := by
  rw [pad, String.toList_ofList, skip_spaces]

/-- A comment up to the end of its line. -/
inductive LineComment : List Char → Prop where
  | slashes {body : List Char} : '\n' ∉ body → '\r' ∉ body → LineComment ('/' :: '/' :: body)
  | hash {body : List Char} : '\n' ∉ body → '\r' ∉ body → LineComment ('#' :: body)

/-- A text that starts with the end of a line. -/
def StartsLine (cs : List Char) : Prop := ['\n'] <+: cs ∨ ['\r', '\n'] <+: cs

/-- A text is one blank or comment in front of another. -/
inductive Separates : List Char → List Char → Prop where
  | blank {c : Char} {rest : List Char} : isSpace c = true → Separates (c :: rest) rest
  | line {comment rest : List Char} : LineComment comment → rest = [] ∨ StartsLine rest →
    Separates (comment ++ rest) rest
  | block {body rest : List Char} : ¬ ['*', '/'] <:+: body →
    Separates ('/' :: '*' :: (body ++ '*' :: '/' :: rest)) rest

/-- A text that starts with the end of a line does so with more behind it. -/
theorem StartsLine.append {cs : List Char} (h : StartsLine cs) (more : List Char) :
  StartsLine (cs ++ more)
  := h.imp (·.trans (List.prefix_append cs more)) (·.trans (List.prefix_append cs more))

/-- A comment in a line runs as far as there is no end of a line, and holds no other carriage
return. -/
theorem afterLine?_eq_some_iff {cs rest : List Char} :
  afterLine? cs = some rest ↔
    ∃ body, '\n' ∉ body ∧ '\r' ∉ body ∧ (rest = [] ∨ StartsLine rest) ∧ cs = body ++ rest
  := by
  constructor
  · intro h
    fun_induction afterLine? cs with
    | case1 =>
      cases h
      exact ⟨[], by simp, by simp, .inl rfl, rfl⟩
    | case2 cs =>
      cases h
      exact ⟨[], by simp, by simp, .inr (.inl ⟨cs, rfl⟩), rfl⟩
    | case3 cs =>
      cases h
      exact ⟨[], by simp, by simp, .inr (.inr ⟨cs, rfl⟩), rfl⟩
    | case4 => cases h
    | case5 c cs hnewline _ hreturn ih =>
      obtain ⟨body, hnewlines, hreturns, hrest, rfl⟩ := ih h
      refine ⟨c :: body, ?_, ?_, hrest, rfl⟩
      · rw [List.mem_cons, not_or]
        exact ⟨fun heq => hnewline heq.symm, hnewlines⟩
      · rw [List.mem_cons, not_or]
        exact ⟨fun heq => hreturn (beq_iff_eq.mpr heq.symm), hreturns⟩
  · rintro ⟨body, hnewlines, hreturns, hrest, rfl⟩
    induction body with
    | nil => obtain rfl | ⟨cs, rfl⟩ | ⟨cs, rfl⟩ := hrest <;> rfl
    | cons c body ih =>
      rw [List.mem_cons, not_or] at hnewlines hreturns
      rw [List.cons_append, afterLine?, if_neg (by simpa using Ne.symm hreturns.1),
        ih hnewlines.2 hreturns.2]
      · exact fun heq => hnewlines.1 heq.symm
      · exact fun _ heq => absurd heq.symm hreturns.1

/-- A comment between marks runs as far as its closing mark does not occur. -/
theorem afterComment?_eq_some_iff {cs rest : List Char} :
  afterComment? cs = some rest ↔
    ∃ body, ¬ ['*', '/'] <:+: body ∧ cs = body ++ '*' :: '/' :: rest
  := by
  constructor
  · intro h
    fun_induction afterComment? cs with
    | case1 => cases h
    | case2 cs =>
      cases h
      exact ⟨[], by simp, rfl⟩
    | case3 c cs hend ih =>
      obtain ⟨body, hbody, rfl⟩ := ih h
      refine ⟨c :: body, ?_, rfl⟩
      rw [List.infix_cons_iff, not_or]
      refine ⟨?_, hbody⟩
      rintro ⟨more, hmore⟩
      rw [List.cons_append, List.cons.injEq, List.singleton_append] at hmore
      obtain ⟨hc, rfl⟩ := hmore
      exact hend _ hc.symm rfl
  · rintro ⟨body, hbody, rfl⟩
    induction body with
    | nil => rfl
    | cons c body ih =>
      rw [List.infix_cons_iff, not_or] at hbody
      rw [List.cons_append, afterComment?, ih hbody.2]
      rintro more rfl heq
      cases body with
      | nil => cases heq
      | cons d body =>
        rw [List.cons_append, List.cons.injEq] at heq
        exact hbody.1 ⟨body, by rw [heq.1]; rfl⟩

/-- What is left behind a separator is a text that the separator stands in front of. -/
theorem afterSeparator?_eq_some_iff {cs rest : List Char} :
  afterSeparator? cs = some rest ↔ Separates cs rest
  := by
  constructor
  · intro h
    unfold afterSeparator? at h
    split at h
    · obtain ⟨body, hnewline, hreturn, hrest, rfl⟩ := afterLine?_eq_some_iff.mp h
      exact .line (.slashes hnewline hreturn) hrest
    · obtain ⟨body, hbody, rfl⟩ := afterComment?_eq_some_iff.mp h
      exact .block hbody
    · obtain ⟨body, hnewline, hreturn, hrest, rfl⟩ := afterLine?_eq_some_iff.mp h
      exact .line (.hash hnewline hreturn) hrest
    · split at h
      · rename_i hspace
        cases h
        exact .blank hspace
      · cases h
    · cases h
  · intro h
    cases h with
    | @blank c rest hspace =>
      simp only [isSpace, Bool.or_eq_true, beq_iff_eq] at hspace
      obtain ((rfl | rfl) | rfl) | rfl := hspace <;> rfl
    | line hcomment hrest =>
      cases hcomment with
      | slashes hnewline hreturn =>
        exact afterLine?_eq_some_iff.mpr ⟨_, hnewline, hreturn, hrest, rfl⟩
      | hash hnewline hreturn =>
        exact afterLine?_eq_some_iff.mpr ⟨_, hnewline, hreturn, hrest, rfl⟩
    | block hbody => exact afterComment?_eq_some_iff.mpr ⟨_, hbody, rfl⟩

/-- What follows a blank or a comment, unless this is a comment to the end of the text. -/
theorem afterSeparator?_append {cs rest : List Char} (more : List Char)
    (h : afterSeparator? cs = some rest) (hcomment : rest ≠ [] ∨ ¬ LineComment cs) :
  afterSeparator? (cs ++ more) = some (rest ++ more)
  := by
  rw [afterSeparator?_eq_some_iff] at h ⊢
  cases h with
  | blank hspace => exact .blank hspace
  | @line comment rest hline hrest =>
    have hstarts : StartsLine rest := by
      apply hrest.resolve_left
      rintro rfl
      rw [List.append_nil] at hcomment
      exact hcomment.elim (absurd rfl) (absurd hline)
    rw [List.append_assoc]
    exact .line hline (.inr (hstarts.append more))
  | @block body rest hbody =>
    rw [List.cons_append, List.cons_append, List.append_assoc, List.cons_append, List.cons_append]
    exact .block hbody

/-- The banner is one comment. -/
theorem skip_banner (cs : List Char) :
  skip (banner.toList ++ cs) = skip cs
  := by
  have hbanner : afterSeparator? banner.toList = some ['\n'] := by decide +kernel
  rw [skip_of_some (afterSeparator?_append cs hbanner (.inl (by simp))), List.singleton_append,
    skip_newline]

/-! ## Words -/

/-- A text that does not continue a bare word. -/
def Ends (rest : List Char) : Prop := ∀ c ∈ rest.head?, isBare c = false

/-- A character that is not bare ends a bare word. -/
theorem ends_cons {c : Char} (rest : List Char) (h : isBare c = false) :
  Ends (c :: rest)
  := by
  intro d hd
  rw [List.head?_cons, Option.mem_some_iff] at hd
  rw [← hd, h]

/-- A run of bare characters that starts no comment. -/
structure IsToken (cs : List Char) : Prop where
  ne_nil : cs ≠ []
  bare : ∀ c ∈ cs, isBare c = true
  no_line : ¬ ['/', '/'] <+: cs
  no_block : ¬ ['/', '*'] <+: cs
  no_hash : cs.head? ≠ some '#'

/-- A run of bare characters that holds no mark of a comment. -/
structure IsBareWord (cs : List Char) : Prop where
  ne_nil : cs ≠ []
  bare : ∀ c ∈ cs, isBare c = true
  no_line : Text.hasPart ['/', '/'] cs = false
  no_block : Text.hasPart ['/', '*'] cs = false
  no_hash : cs.head? ≠ some '#'

/-- A bare word is a token. -/
theorem IsBareWord.isToken {cs : List Char} (h : IsBareWord cs) :
  IsToken cs
  := by
  have hstart {part : List Char} (hne : part ≠ []) (hpart : Text.hasPart part cs = false) :
      ¬ part <+: cs := by
    intro hprefix
    cases cs with
    | nil => exact hne (List.prefix_nil.mp hprefix)
    | cons c cs =>
      rw [Text.hasPart, Bool.or_eq_false_iff, ← Bool.not_eq_true] at hpart
      exact hpart.1 (List.isPrefixOf_iff_prefix.mpr hprefix)
  exact ⟨h.ne_nil, h.bare, hstart (by simp) h.no_line, hstart (by simp) h.no_block, h.no_hash⟩

/-- What is left behind a word. -/
def wordAt (cs : List Char) : Option (Word × List Char) :=
  (word? cs).map fun (w, rest) => (w, rest.val)

/-- A text before a closing quote, or a run of bare characters. -/
theorem wordAt_cons (c : Char) (cs : List Char) :
  wordAt (c :: cs) =
    if c == '\'' || c == '"' then
      match cs.dropWhile (fun d => !(d == c)) with
      | [] => none
      | _ :: rest => some (.quoted (String.ofList (cs.takeWhile fun d => !(d == c))), rest)
    else if isBare c then
      some (.bare (String.ofList (c :: cs.takeWhile isBare)), cs.dropWhile isBare)
    else none
  := by
  rw [wordAt, word?]
  split
  · unfold Text.before?
    split
    · rename_i hdrop
      simp only [hdrop, Option.map_none]
    · rename_i hdrop
      simp only [hdrop, Option.map_some, Text.Rest.cons]
  · split <;> rfl

/-- Bare characters are no quotes. -/
theorem not_quote_of_isBare {c : Char} (h : isBare c = true) :
  c ≠ '\'' ∧ c ≠ '"'
  := by
  constructor
  · rintro rfl
    revert h
    decide
  · rintro rfl
    revert h
    decide

/-- Bare characters are no blanks. -/
theorem not_space_of_isBare {c : Char} (h : isBare c = true) :
  isSpace c = false
  := by
  rw [Bool.eq_false_iff]
  intro hspace
  simp only [isSpace, Bool.or_eq_true, beq_iff_eq] at hspace
  obtain ((rfl | rfl) | rfl) | rfl := hspace <;> revert h <;> decide

/-- A token starts no blank or comment. -/
theorem afterSeparator?_of_isToken {cs rest : List Char} (h : IsToken cs) (hrest : Ends rest) :
  afterSeparator? (cs ++ rest) = none
  := by
  obtain ⟨c, cs, rfl⟩ := List.exists_cons_of_ne_nil h.ne_nil
  have hbare := h.bare c List.mem_cons_self
  have hmark (d : Char) (hd : isBare d = true) (hpart : ¬ ['/', d] <+: c :: cs)
      (more : List Char) : c :: (cs ++ rest) ≠ '/' :: d :: more := by
    intro heq
    rw [List.cons.injEq] at heq
    obtain ⟨rfl, heq⟩ := heq
    cases cs with
    | nil =>
      rw [List.nil_append] at heq
      rw [hrest d (by rw [heq]; rfl)] at hd
      cases hd
    | cons e cs =>
      rw [List.cons_append, List.cons.injEq] at heq
      obtain ⟨rfl, -⟩ := heq
      exact hpart ⟨cs, rfl⟩
  rw [List.cons_append]
  unfold afterSeparator?
  split
  · rename_i more heq
    apply absurd heq (hmark '/' (by decide) h.no_line more)
  · rename_i more heq
    apply absurd heq (hmark '*' (by decide) h.no_block more)
  · rename_i more heq
    rw [List.cons.injEq] at heq
    apply absurd _ h.no_hash
    rw [heq.1]
    rfl
  · rename_i d more _ _ _ heq
    rw [List.cons.injEq] at heq
    rw [← heq.1, not_space_of_isBare hbare, if_neg (by decide)]
  · rfl

/-- A token is not skipped. -/
theorem skip_of_isToken {cs rest : List Char} (h : IsToken cs) (hrest : Ends rest) :
  skip (cs ++ rest) = cs ++ rest
  := skip_of_none (afterSeparator?_of_isToken h hrest)

/-- Bare characters are read as a word up to where bare words end. -/
theorem wordAt_of_bare {cs rest : List Char} (hne : cs ≠ []) (h : ∀ c ∈ cs, isBare c = true)
    (hrest : Ends rest) :
  wordAt (cs ++ rest) = some (.bare (String.ofList cs), rest)
  := by
  obtain ⟨c, cs, rfl⟩ := List.exists_cons_of_ne_nil hne
  have hbare := h c List.mem_cons_self
  obtain ⟨hsingle, hdouble⟩ := not_quote_of_isBare hbare
  obtain ⟨htake, hdrop⟩ := Literal.takeWhile_append_of_head cs rest
    (fun d hd => h d (List.mem_cons_of_mem c hd)) hrest
  rw [List.cons_append, wordAt_cons, if_neg (by simp [hsingle, hdouble]), if_pos hbare, htake,
    hdrop]

/-- A text between quotes that it does not contain. -/
theorem wordAt_quoted {quote : Char} {cs : List Char} (rest : List Char)
    (hquote : quote = '\'' ∨ quote = '"') (h : quote ∉ cs) :
  wordAt (quote :: (cs ++ quote :: rest)) = some (.quoted (String.ofList cs), rest)
  := by
  have hcs : ∀ c ∈ cs, (!(c == quote)) = true := by
    intro c hc
    rw [Bool.not_eq_true', beq_eq_false_iff_ne]
    rintro rfl
    apply h hc
  obtain ⟨htake, hdrop⟩ := Literal.takeWhile_append_of_head cs (quote :: rest) hcs (by simp)
  rw [wordAt_cons, if_pos (by simpa using hquote), htake, hdrop]

/-- A word stands in a text in front of another: between quotes of a kind that it does not hold, or
as all the bare characters that come next. -/
inductive Word.Stands : Word → List Char → List Char → Prop where
  | quoted {quote : Char} {s rest : List Char} : quote = '\'' ∨ quote = '"' → quote ∉ s →
    Stands (.quoted (String.ofList s)) (quote :: (s ++ quote :: rest)) rest
  | bare {s rest : List Char} : s ≠ [] → (∀ c ∈ s, isBare c = true) → Ends rest →
    Stands (.bare (String.ofList s)) (s ++ rest) rest

/-- A word is read exactly where it stands. -/
theorem wordAt_eq_some_iff {cs rest : List Char} {w : Word} :
  wordAt cs = some (w, rest) ↔ w.Stands cs rest
  := by
  constructor
  · intro h
    cases cs with
    | nil => cases h
    | cons c cs =>
      rw [wordAt_cons] at h
      split at h
      · rename_i hquote
        have htext := List.takeWhile_append_dropWhile (p := fun d => !(d == c)) (l := cs)
        have hmem : c ∉ cs.takeWhile fun d => !(d == c) := by
          intro hc
          simpa using List.mem_takeWhile_imp hc
        generalize cs.takeWhile (fun d => !(d == c)) = s at h htext hmem
        split at h
        · cases h
        · rename_i d rest hdrop
          have hd := List.head?_dropWhile_not (fun d => !(d == c)) cs
          rw [hdrop] at hd htext
          obtain rfl : d = c := by simpa using hd
          cases h
          rw [← htext]
          exact .quoted (by simpa using hquote) hmem
      · split at h
        · rename_i hbare
          have htext := List.takeWhile_append_dropWhile (p := isBare) (l := cs)
          have hs : ∀ d ∈ cs.takeWhile isBare, isBare d = true := fun d => List.mem_takeWhile_imp
          have hrest := List.head?_dropWhile_not isBare cs
          generalize cs.takeWhile isBare = s at h htext hs
          cases h
          have hstands : (Word.bare (String.ofList (c :: s))).Stands
              (c :: s ++ cs.dropWhile isBare) (cs.dropWhile isBare) := by
            apply Word.Stands.bare (List.cons_ne_nil c s)
            · rw [List.forall_mem_cons]
              exact ⟨hbare, hs⟩
            · intro d hd
              rw [Option.mem_def.mp hd] at hrest
              simpa using hrest
          rwa [List.cons_append, htext] at hstands
        · cases h
  · intro h
    cases h with
    | quoted hquote hs => exact wordAt_quoted _ hquote hs
    | bare hne hs hrest => exact wordAt_of_bare hne hs hrest

/-- A quote is not skipped. -/
theorem skip_quoted {quote : Char} (cs : List Char) (hquote : quote = '\'' ∨ quote = '"') :
  skip (quote :: cs) = quote :: cs
  := by
  obtain rfl | rfl := hquote
  · apply skip_of_none rfl
  · apply skip_of_none rfl

/-! ## Texts -/

/-- A text that can be written between quotes of one kind. -/
def IsQuotable (s : String) : Prop := ¬ ('\'' ∈ s.toList ∧ '"' ∈ s.toList)

instance (s : String) : Decidable (IsQuotable s) :=
  inferInstanceAs (Decidable (¬ ('\'' ∈ s.toList ∧ '"' ∈ s.toList)))

/-- A text that needs no quotes is a bare word and is read as a text. -/
theorem isBareWord_of_needsQuotes {s : String} (h : needsQuotes s = false) :
  IsBareWord s.toList ∧ scalar s = .text s
  := by
  simp only [needsQuotes, Bool.or_eq_false_iff, Bool.not_eq_false'] at h
  obtain ⟨⟨⟨⟨⟨hempty, hbare⟩, hline⟩, hblock⟩, hhash⟩, htext⟩ := h
  refine ⟨⟨by simpa using hempty, by simpa using hbare, hline, hblock, by simpa using hhash⟩, ?_⟩
  unfold scalar at htext ⊢
  split
  · rename_i hword
    simp [hword, Value.isText] at htext
  · split
    · rename_i hword hword'
      simp [hword, hword', Value.isText] at htext
    · split
      · rename_i hword hword' hword''
        simp [hword, hword', hword'', Value.isText] at htext
      · rename_i hword hword' hword''
        rw [if_neg hword, if_neg hword', if_neg hword''] at htext
        split
        · rename_i i hi
          rw [hi] at htext
          cases htext
        · rename_i hi
          rw [hi] at htext
          split
          · rename_i x hx
            simp only [hx] at htext
            cases htext
          · rfl

/-- What the reader finds at the start of a text. -/
structure WordReads (cs : List Char) (w : Word) (rest : List Char) : Prop where
  skipped : skip cs = cs
  read : wordAt cs = some (w, rest)

/-- A bare token is read as it stands. -/
theorem token_reads {s : String} {rest : List Char} (h : IsToken s.toList) (hrest : Ends rest) :
  WordReads (s.toList ++ rest) (.bare s) rest
  := by
  refine ⟨skip_of_isToken h hrest, ?_⟩
  rw [wordAt_of_bare h.ne_nil h.bare hrest, String.ofList_toList]

/-- A text is read from between quotes of a kind that it does not hold. -/
theorem quoted_reads {quote : Char} {s : String} (rest : List Char)
    (hquote : quote = '\'' ∨ quote = '"') (h : quote ∉ s.toList) :
  WordReads (quote :: (s.toList ++ quote :: rest)) (.quoted s) rest
  := by
  refine ⟨skip_quoted _ hquote, ?_⟩
  rw [wordAt_quoted rest hquote h, String.ofList_toList]

/-- A quotable text reads back, as a key and as a value. -/
theorem textForm_reads {s : String} {rest : List Char} (h : IsQuotable s) (hrest : Ends rest) :
  ∃ w, WordReads ((textForm s).toList ++ rest) w rest ∧ w.text = s ∧ w.value = .text s
  := by
  rw [textForm]
  cases hquotes : needsQuotes s with
  | false =>
    obtain ⟨hbare, hscalar⟩ := isBareWord_of_needsQuotes hquotes
    rw [Bool.not_false, if_pos rfl]
    exact ⟨.bare s, token_reads hbare.isToken hrest, rfl, hscalar⟩
  | true =>
    rw [Bool.not_true, if_neg (by decide)]
    refine ⟨.quoted s, ?_, rfl, rfl⟩
    split
    · rename_i hsingle
      rw [List.contains_iff_mem] at hsingle
      have hdouble : '"' ∉ s.toList := fun hmem => h ⟨hsingle, hmem⟩
      have heq : ("\"" ++ s ++ "\"").toList ++ rest = '"' :: (s.toList ++ '"' :: rest) := by
        simp
      rw [heq]
      apply quoted_reads rest (.inr rfl) hdouble
    · rename_i hsingle
      rw [List.contains_iff_mem] at hsingle
      have heq : ("'" ++ s ++ "'").toList ++ rest = '\'' :: (s.toList ++ '\'' :: rest) := by
        simp
      rw [heq]
      apply quoted_reads rest (.inl rfl) hsingle

/-! ## Scalars -/

/-- Numerals have bare characters only, and none that can start a comment. -/
theorem not_slash_of_isNumeral {c : Char} (h : Literal.isNumeral c = true) :
  isBare c = true ∧ c ≠ '/' ∧ c ≠ '#'
  := by
  rw [Literal.isNumeral, Bool.or_eq_true] at h
  obtain h | h := h
  · obtain ⟨hlow, hhigh⟩ := Literal.le_of_isDigit h
    have hlow' : 48 ≤ c.toNat := hlow
    have hhigh' : c.toNat ≤ 57 := hhigh
    obtain ⟨n, hn⟩ : ∃ n, c.toNat = n := ⟨_, rfl⟩
    rw [← Char.ofNat_toNat c, hn]
    rw [hn] at hlow' hhigh'
    clear hn h hlow hhigh
    interval_cases n <;> decide
  · rw [List.contains_iff_mem] at h
    have hall : "+-.e".toList.all (fun d => isBare d && d != '/' && d != '#') = true := by decide
    have hc := List.all_eq_true.mp hall c h
    simpa [and_assoc] using hc

/-- Two characters do not follow each other in a text that lacks the first one. -/
theorem hasPart_eq_false {c d : Char} {cs : List Char} (h : c ∉ cs) :
  Text.hasPart [c, d] cs = false
  := by
  induction cs with
  | nil => rfl
  | cons e cs ih =>
    rw [List.mem_cons, not_or] at h
    rw [Text.hasPart, ih h.2, Bool.or_false, List.isPrefixOf_cons_cons]
    simp [h.1]

/-- Numerals are bare words. -/
theorem isBareWord_of_isNumeral {cs : List Char} (hne : cs ≠ [])
    (h : ∀ c ∈ cs, Literal.isNumeral c = true) :
  IsBareWord cs
  := by
  have hslash : '/' ∉ cs := fun hmem => (not_slash_of_isNumeral (h _ hmem)).2.1 rfl
  refine ⟨hne, fun c hc => (not_slash_of_isNumeral (h c hc)).1, hasPart_eq_false hslash,
    hasPart_eq_false hslash, ?_⟩
  intro hhash
  apply (not_slash_of_isNumeral (h '#' (List.mem_of_head? hhash))).2.2 rfl

/-- A word of the characters of numbers is no boolean and not null. -/
theorem not_beq_of_isNumeral {s : String} (h : ∀ c ∈ s.toList, Literal.isNumeral c = true)
    {word word' : String} (hword : word.toList.all Literal.isNumeral = false)
    (hword' : word'.toList.all Literal.isNumeral = false) :
  ¬ (s == word || s == word') = true
  := by
  have hne (other : String) (hother : other.toList.all Literal.isNumeral = false) :
      ¬ s = other := by
    rintro rfl
    rw [List.all_eq_false] at hother
    obtain ⟨c, hc, hnot⟩ := hother
    apply hnot (h c hc)
  rw [Bool.or_eq_true, beq_iff_eq, beq_iff_eq, not_or]
  refine ⟨hne word hword, hne word' hword'⟩

/-- A word of the characters of numbers is read as a number or as text. -/
theorem scalar_of_isNumeral {s : String} (h : ∀ c ∈ s.toList, Literal.isNumeral c = true) :
  scalar s =
    match Literal.int64? s.toList with
    | some i => .number (.int i)
    | none => match (Literal.real? s.toList).filter Double.isFinite with
      | some x => .number (.real x)
      | none => .text s
  := by
  rw [scalar, if_neg (not_beq_of_isNumeral h (by decide) (by decide)),
    if_neg (not_beq_of_isNumeral h (by decide) (by decide))]
  apply if_neg (not_beq_of_isNumeral h (by decide) (by decide))

/-- An integer of 64 bits is written as a word that stands for it. -/
theorem scalar_intText {i : Int} (hlow : -2 ^ 63 ≤ i) (hhigh : i < 2 ^ 63) :
  scalar (intText i) = .number (.int i)
  := by
  rw [scalar_of_isNumeral (Literal.isNumeral_intText i), Literal.int64?_intText hlow hhigh]

/-- A finite double is written as a word that stands for it. -/
theorem scalar_pointed {x : Double} (hfinite : x.isFinite) :
  scalar x.pointed = .number (.real x)
  := by
  rw [scalar_of_isNumeral (Literal.isNumeral_pointed x), Literal.int64?_pointed,
    Literal.real?_pointed hfinite]
  simp only [Option.filter_some, hfinite, if_true]

/-- Numerals have no blanks at their ends. -/
theorem trim_of_isNumeral {s : String} (h : ∀ c ∈ s.toList, Literal.isNumeral c = true) :
  Text.trim s = s
  := by
  have hblank : ∀ c ∈ s.toList, Text.isBlank c = false := by
    intro c hc
    have hbare := (not_slash_of_isNumeral (h c hc)).1
    rw [isBare, Bool.and_eq_true, Bool.not_eq_true'] at hbare
    apply hbare.1
  have hdrop (cs : List Char) (hcs : ∀ c ∈ cs, Text.isBlank c = false) :
      cs.dropWhile Text.isBlank = cs := by
    rw [List.dropWhile_eq_self_iff]
    intro hlength
    rw [Bool.not_eq_true]
    apply hcs _ (List.getElem_mem hlength)
  rw [Text.trim, Text.trimList, Text.strip, hdrop _ hblank, hdrop, List.reverse_reverse,
    String.ofList_toList]
  intro c hc
  apply hblank c (List.mem_reverse.mp hc)

/-- A finite double that is no negative zero is written as a word with its value. -/
theorem scalar_plain {x : Double} (hfinite : x.isFinite) (hzero : x ≠ Double.zero.neg) :
  ∃ n, scalar (Text.trim x.plain) = .number n ∧ n.toDouble = x
  := by
  have hnumeral := Literal.isNumeral_plain hfinite
  have hreal := Literal.real?_plain hfinite
  rw [trim_of_isNumeral hnumeral, scalar_of_isNumeral hnumeral]
  cases hint : Literal.int64? x.plain.toList with
  | some i => exact ⟨.int i, rfl, Literal.ofInt_eq_of_real? hint hreal hzero⟩
  | none =>
    refine ⟨.real x, ?_, rfl⟩
    simp only [hreal, Option.filter_some, hfinite, if_true]

/-- A bare word is read as the value that its text stands for. -/
theorem bareWord_reads {s : String} {v : Value} {rest : List Char} (h : IsBareWord s.toList)
    (hscalar : scalar s = v) (hrest : Ends rest) :
  ∃ w, WordReads (s.toList ++ rest) w rest ∧ w.value = v
  := ⟨.bare s, token_reads h.isToken hrest, hscalar⟩

end Cosim.Dictionary

import Cosim.Proofs.Dictionary.Derivation
import Cosim.Proofs.Entries
import Mathlib.Data.List.TakeWhile

/-!
# What readers return

Every value that is read is regular: its integers have 64 bits, its reals are finite and its keys
are distinct on every level.  It is quotable too: no key and no text in it holds quotes of both
kinds.
-/

namespace Cosim

/-- The integers of a value have 64 bits, its reals are finite, and no object has a key twice. -/
inductive Value.Regular : Value → Prop where
  | null : Regular .null
  | bool (b : Bool) : Regular (.bool b)
  | int {i : Int} : -2 ^ 63 ≤ i → i < 2 ^ 63 → Regular (.number (.int i))
  | real {x : Double} : x.isFinite → Regular (.number (.real x))
  | text (s : String) : Regular (.text s)
  | list {vs : List Value} : (∀ v ∈ vs, Regular v) → Regular (.list vs)
  | object {es : Dictionary} : es.keys.Nodup → (∀ e ∈ es, Regular e.2) → Regular (.object es)

/-- Every key and every text in a value can be written between quotes of one kind. -/
inductive Value.Quotable : Value → Prop where
  | null : Quotable .null
  | bool (b : Bool) : Quotable (.bool b)
  | number (n : Number) : Quotable (.number n)
  | text {s : String} : Dictionary.IsQuotable s → Quotable (.text s)
  | list {vs : List Value} : (∀ v ∈ vs, Quotable v) → Quotable (.list vs)
  | object {es : Dictionary} : (∀ e ∈ es, Dictionary.IsQuotable e.1) → (∀ e ∈ es, Quotable e.2) →
    Quotable (.object es)

/-- What holds of every value that is read. -/
structure Value.Readable (v : Value) : Prop where
  regular : v.Regular
  quotable : v.Quotable

namespace Dictionary

/-! ## Words -/

theorem isQuotable_of_not_mem {cs : List Char} {quote : Char}
    (hquote : quote = '\'' ∨ quote = '"') (h : quote ∉ cs) :
  IsQuotable (String.ofList cs)
  := by
  rw [IsQuotable, String.toList_ofList]
  rintro ⟨hsingle, hdouble⟩
  obtain rfl | rfl := hquote
  · apply h hsingle
  · apply h hdouble

theorem readable_scalar {s : String} (h : IsQuotable s) :
  (scalar s).Readable
  := by
  rw [scalar]
  split
  · exact ⟨.bool true, .bool true⟩
  · split
    · exact ⟨.bool false, .bool false⟩
    · split
      · exact ⟨.null, .null⟩
      · split
        · rename_i i hi
          obtain ⟨hlow, hhigh⟩ := Literal.int64?_range hi
          exact ⟨.int hlow hhigh, .number _⟩
        · split
          · rename_i x hx
            exact ⟨.real (Option.filter_eq_some_iff.mp hx).2, .number _⟩
          · exact ⟨.text s, .text h⟩

theorem readable_wordAt {cs rest : List Char} {w : Word} (h : wordAt cs = some (w, rest)) :
  IsQuotable w.text ∧ w.value.Readable
  := by
  cases wordAt_eq_some_iff.mp h with
  | quoted hquote hs =>
    have hquotable := isQuotable_of_not_mem hquote hs
    exact ⟨hquotable, .text _, .text hquotable⟩
  | bare _ hs _ =>
    have hquotable := isQuotable_of_not_mem (.inl rfl)
      fun hmem => (not_quote_of_isBare (hs _ hmem)).1 rfl
    exact ⟨hquotable, readable_scalar hquotable⟩

/-! ## Values -/

theorem readable_object {es : List (String × Value)}
    (h : ∀ e ∈ es, IsQuotable e.1 ∧ e.2.Readable) :
  (Value.object (Entries.ofPairs es)).Readable
  := by
  have hmem : ∀ e ∈ Entries.ofPairs es, IsQuotable e.1 ∧ e.2.Readable :=
    fun e he => h e (Entries.mem_of_mem_ofPairs he)
  exact ⟨.object (Entries.nodup_keys_ofPairs es) fun e he => (hmem e he).2.regular,
    .object (fun e he => (hmem e he).1) fun e he => (hmem e he).2.quotable⟩

theorem readable_list {vs : List Value} (h : ∀ v ∈ vs, v.Readable) :
  (Value.list vs).Readable
  := ⟨.list fun v hv => (h v hv).regular, .list fun v hv => (h v hv).quotable⟩

/-- What holds of whatever is read. -/
def Form.Readable : Form → Prop
  | .value v => v.Readable
  | .items vs => ∀ v ∈ vs, v.Readable
  | .entry e => IsQuotable e.1 ∧ e.2.Readable
  | .entries es => ∀ e ∈ es, IsQuotable e.1 ∧ e.2.Readable

theorem Reading.readable {form : Form} {cs rest : List Char} (h : Reading form cs rest) :
  form.Readable
  := by
  induction h with
  | word h => exact (readable_wordAt h).2
  | list _ _ ih => exact readable_list ih
  | block _ _ _ ih => exact readable_object ih
  | closing _ => exact fun _ hv => absurd hv List.not_mem_nil
  | item _ _ ih ihs => exact List.forall_mem_cons.mpr ⟨ih, ihs⟩
  | missing hkey _ => exact ⟨(readable_wordAt hkey).1, .null, .null⟩
  | ended hkey _ _ _ ih => exact ⟨(readable_wordAt hkey).1, ih⟩
  | braced hkey _ _ ih => exact ⟨(readable_wordAt hkey).1, ih⟩
  | last => exact fun _ he => absurd he List.not_mem_nil
  | next _ _ ih ihs => exact List.forall_mem_cons.mpr ⟨ih, ihs⟩

/-- Every dictionary that is read from a text is regular and quotable. -/
theorem readable_document {text : String} {d : Dictionary} (h : document text = .ok d) :
  (Value.object d).Readable
  := by
  obtain ⟨-, rfl⟩ := document_eq_ok.mp h
  exact readable_object (reading_entriesAt text.toList).readable

end Dictionary

end Cosim

import Cosim.Entries
import Mathlib.Data.List.Dedup
import Mathlib.Data.List.Nodup
import Mathlib.Data.List.Basic
import Mathlib.Data.List.Induction

/-!
# Lemmas about ordered entries

How the operations on `Entries` change what is found under a key, which keys there are and in which
order they stand.
-/

namespace Cosim

/-- Where each item gives something, all of them do. -/
theorem mapM_eq_some {α β : Type} {f : α → Option β} {g : α → β} {items : List α}
    (h : ∀ a ∈ items, f a = some (g a)) :
  items.mapM f = some (items.map g)
  := by
  induction items with
  | nil => rfl
  | cons a items ih =>
    rw [List.forall_mem_cons] at h
    rw [List.mapM_cons, h.1, ih h.2]
    rfl

end Cosim

namespace Cosim.Entries

variable {α β : Type} {es : Entries α} {key k : String} {value v : α}

/-! ## Looking up -/

theorem get?_nil :
  get? ([] : Entries α) key = none
  := rfl

/-- A key is looked up in the first entry, and else in the others. -/
theorem get?_cons (e : String × α) (es : Entries α) :
  get? (e :: es) key = if key = e.1 then some e.2 else get? es key
  := by
  rw [get?, List.lookup_cons]
  by_cases h : key = e.1
  · simp [h]
  · rw [if_neg h, beq_eq_false_iff_ne.mpr h, get?]

theorem keys_cons (e : String × α) (es : Entries α) :
  keys (e :: es) = e.1 :: keys es
  := rfl

/-- What is found under a key stands there. -/
theorem mem_of_get? (h : es.get? key = some v) :
  (key, v) ∈ es
  := by
  induction es with
  | nil => cases h
  | cons e es ih =>
    rw [get?_cons] at h
    split at h
    · rename_i hkey
      subst hkey
      rw [← Option.some.inj h]
      apply List.mem_cons_self
    · apply List.mem_cons_of_mem _ (ih h)

/-- Nothing is found exactly under what is no key. -/
theorem get?_eq_none_iff :
  es.get? key = none ↔ key ∉ es.keys
  := by
  induction es with
  | nil => simp [get?_nil, keys]
  | cons e es ih =>
    rw [get?_cons, keys_cons, List.mem_cons, not_or, ← ih]
    by_cases h : key = e.1 <;> simp [h]

/-- Entries have what is among their keys. -/
theorem has_iff :
  es.has key = true ↔ key ∈ es.keys
  := by
  rw [has, Option.isSome_iff_ne_none, Ne, get?_eq_none_iff, not_not]

/-- Where keys are distinct, every entry is found under its key. -/
theorem get?_of_mem (hkeys : es.keys.Nodup) (h : (key, v) ∈ es) :
  es.get? key = some v
  := by
  induction es with
  | nil => cases h
  | cons e es ih =>
    rw [keys_cons, List.nodup_cons] at hkeys
    rw [get?_cons]
    obtain rfl | h := List.mem_cons.mp h
    · rw [if_pos rfl]
    · rw [if_neg, ih hkeys.2 h]
      rintro rfl
      apply hkeys.1
      apply List.mem_map_of_mem h

theorem mem_keys_of_mem (h : (key, v) ∈ es) :
  key ∈ es.keys
  := List.mem_map_of_mem h

/-- A value is one that stands under some key. -/
theorem mem_values_iff :
  v ∈ es.values ↔ ∃ key, (key, v) ∈ es
  := by
  simp [values]

/-- Changed values are found under the same keys. -/
theorem get?_map (f : α → β) (es : Entries α) (key : String) :
  get? (es.map fun e => (e.1, f e.2)) key = (es.get? key).map f
  := by
  induction es with
  | nil => rfl
  | cons e es ih =>
    rw [List.map_cons, get?_cons, get?_cons, ih]
    split <;> rfl

/-- What entries with distinct keys are mapped to has distinct names if it keeps the keys as
names. -/
theorem nodup_map_filterMap {f : String × α → Option β} {name : β → String}
    (hkeys : es.keys.Nodup) (hname : ∀ e ∈ es, ∀ b, f e = some b → name b = e.1) :
  ((es.filterMap f).map name).Nodup
  := by
  induction es with
  | nil => apply List.nodup_nil
  | cons e es ih =>
    rw [keys_cons, List.nodup_cons] at hkeys
    rw [List.forall_mem_cons] at hname
    have hrest := ih hkeys.2 hname.2
    cases he : f e with
    | none => rwa [List.filterMap_cons_none he]
    | some b =>
      rw [List.filterMap_cons_some he, List.map_cons, List.nodup_cons]
      refine ⟨?_, hrest⟩
      rw [hname.1 b he, List.mem_map]
      rintro ⟨c, hc, hce⟩
      obtain ⟨e', he', hfe'⟩ := List.mem_filterMap.mp hc
      apply hkeys.1
      rw [← hce, hname.2 e' he' c hfe']
      apply List.mem_map_of_mem he'

/-! ## Putting -/

/-- After a value has been put under a key it is found there, and all else is as before. -/
theorem get?_put :
  (es.put key value).get? k = if k = key then some value else es.get? k
  := by
  induction es with
  | nil => rw [put, get?_cons]
  | cons e es ih =>
    obtain ⟨j, w⟩ := e
    rw [put]
    split
    · rename_i hj
      rw [beq_iff_eq] at hj
      subst hj
      rw [get?_cons, get?_cons]
      by_cases hk : k = j <;> simp [hk]
    · rename_i hj
      rw [beq_iff_eq] at hj
      rw [get?_cons, get?_cons, ih]
      by_cases hk : k = j
      · subst hk
        simp [hj]
      · simp [hk]

/-- Putting a value under a key adds that key. -/
theorem mem_keys_put :
  k ∈ (es.put key value).keys ↔ k = key ∨ k ∈ es.keys
  := by
  rw [← has_iff, ← has_iff, has, has, get?_put]
  by_cases hk : k = key <;> simp [hk]

/-- Where keys are distinct, a value that is put under a key that is there replaces the old one. -/
theorem put_of_mem (hkeys : es.keys.Nodup) (h : key ∈ es.keys) :
  es.put key value = es.map fun e => (e.1, if e.1 = key then value else e.2)
  := by
  induction es with
  | nil => cases h
  | cons e es ih =>
    rw [keys_cons, List.nodup_cons] at hkeys
    rw [put, List.map_cons]
    by_cases hkey : e.1 = key
    · have hrest : es.map (fun e => (e.1, if e.1 = key then value else e.2)) = es := by
        conv_rhs => rw [← List.map_id es]
        apply List.map_congr_left
        intro f hf
        rw [if_neg, id]
        rintro rfl
        exact hkeys.1 (hkey ▸ List.mem_map_of_mem hf)
      rw [if_pos (beq_iff_eq.mpr hkey), if_pos hkey, hrest, hkey]
    · have hmem : key ∈ keys es := (List.mem_cons.mp h).resolve_left (Ne.symm hkey)
      rw [if_neg (mt beq_iff_eq.mp hkey), if_neg hkey, ih hkeys.2 hmem]

/-- A value under a new key is put behind the others. -/
theorem put_of_not_mem (h : key ∉ es.keys) :
  es.put key value = es ++ [(key, value)]
  := by
  induction es with
  | nil => rfl
  | cons e es ih =>
    rw [keys_cons, List.mem_cons, not_or] at h
    rw [put, if_neg, ih h.2, List.cons_append]
    rw [beq_iff_eq]
    apply Ne.symm h.1

/-- What stands there after putting is the new entry or stood there before. -/
theorem mem_put {e : String × α} (h : e ∈ es.put key value) :
  e = (key, value) ∨ e ∈ es
  := by
  induction es with
  | nil =>
    left
    simpa [put] using h
  | cons f es ih =>
    rw [put] at h
    split at h
    · rename_i hf
      rw [beq_iff_eq] at hf
      obtain rfl | h := List.mem_cons.mp h
      · left
        rw [hf]
      · right
        apply List.mem_cons_of_mem _ h
    · obtain rfl | h := List.mem_cons.mp h
      · right
        apply List.mem_cons_self
      · apply (ih h).imp_right (List.mem_cons_of_mem _)

/-- A key is looked up in the first entries, and else in the ones behind. -/
theorem get?_append (es fs : Entries α) (key : String) :
  get? (es ++ fs) key = (es.get? key).or (fs.get? key)
  := List.lookup_append

/-- A new value is found where there was none. -/
theorem get?_putNew :
  (es.putNew key value).get? k = (es.get? k).or (if k = key then some value else none)
  := by
  rw [putNew]
  split
  · rename_i hhas
    rw [has, Option.isSome_iff_exists] at hhas
    obtain ⟨v, hv⟩ := hhas
    by_cases hk : k = key
    · rw [hk, hv, Option.some_or]
    · rw [if_neg hk, Option.or_none]
  · rw [get?_append, get?_cons, get?_nil]

/-- Keys stay distinct when an entry is put only where there is none. -/
theorem nodup_keys_putNew (h : es.keys.Nodup) :
  (es.putNew key value).keys.Nodup
  := by
  rw [putNew]
  split
  · apply h
  · rename_i hhas
    rw [has_iff] at hhas
    rw [← put_of_not_mem hhas]
    apply nodup_keys_put h

/-! ## Pairs put one after another -/

/-- Entries whose keys are new and distinct are put behind the others as they are. -/
theorem foldl_put_eq_append (pairs : List (String × α)) (h : (keys (es ++ pairs)).Nodup) :
  pairs.foldl (fun es (key, value) => es.put key value) es = es ++ pairs
  := by
  induction pairs generalizing es with
  | nil => simp
  | cons e pairs ih =>
    obtain ⟨key, value⟩ := e
    have hkey : key ∉ es.keys := by
      intro hmem
      rw [keys, List.map_append, List.nodup_append] at h
      apply h.2.2 key hmem key (by simp) rfl
    rw [List.foldl_cons]
    simp only
    rw [put_of_not_mem hkey, ih, List.append_assoc, List.singleton_append]
    rwa [List.append_assoc, List.singleton_append]

/-- Pairs with distinct keys are left as they are. -/
theorem ofPairs_eq_self {pairs : List (String × α)} (h : (keys pairs).Nodup) :
  ofPairs pairs = pairs
  := by
  rw [ofPairs, foldl_put_eq_append pairs (by simpa using h), List.nil_append]

/-- Keys stay distinct however many entries are put. -/
theorem nodup_keys_foldl_put (pairs : List (String × α)) (h : es.keys.Nodup) :
  (keys (pairs.foldl (fun es (key, value) => es.put key value) es)).Nodup
  := by
  induction pairs generalizing es with
  | nil => apply h
  | cons e pairs ih => apply ih (nodup_keys_put h)

/-- The keys of pairs put one after another are distinct. -/
theorem nodup_keys_ofPairs (pairs : List (String × α)) :
  (keys (ofPairs pairs)).Nodup
  := nodup_keys_foldl_put pairs List.nodup_nil

/-- What stands there after putting several entries is one of them or stood there before. -/
theorem mem_foldl_put {pairs : List (String × α)} {e : String × α}
    (h : e ∈ pairs.foldl (fun es (key, value) => Entries.put key value es) es) :
  e ∈ es ∨ e ∈ pairs
  := by
  induction pairs generalizing es with
  | nil =>
    left
    apply h
  | cons f pairs ih =>
    obtain h | h := ih h
    · obtain rfl | h := mem_put h
      · right
        apply List.mem_cons_self
      · left
        apply h
    · right
      apply List.mem_cons_of_mem _ h

/-- Every entry made from pairs is one of the pairs. -/
theorem mem_of_mem_ofPairs {pairs : List (String × α)} {e : String × α} (h : e ∈ ofPairs pairs) :
  e ∈ pairs
  := (mem_foldl_put h).resolve_left (by simp)

/-- A last pair is put into the entries that are made from the others. -/
theorem ofPairs_concat (pairs : List (String × α)) (e : String × α) :
  ofPairs (pairs ++ [e]) = (ofPairs pairs).put e.1 e.2
  := by
  rw [ofPairs, List.foldl_append]
  rfl

/-- The last one of several values under a key counts. -/
theorem get?_ofPairs (pairs : List (String × α)) (key : String) :
  (ofPairs pairs).get? key = get? pairs.reverse key
  := by
  induction pairs using List.reverseRecOn with
  | nil => rfl
  | append_singleton pairs e ih =>
    rw [ofPairs_concat, get?_put, List.reverse_concat, get?_cons, ih]

/-- Under a name is found what belongs to the last item of the name. -/
theorem get?_ofPairs_named {ι : Type} (name : ι → String) (f : ι → α) (items : List ι)
    (key : String) :
  (ofPairs (items.map fun i => (name i, f i))).get? key =
    (items.reverse.find? (name · == key)).map f
  := by
  rw [get?_ofPairs, ← List.map_reverse]
  induction items.reverse with
  | nil => rfl
  | cons i items ih =>
    rw [List.map_cons, get?_cons, List.find?_cons, ih]
    by_cases hname : name i = key
    · rw [if_pos hname.symm, beq_iff_eq.mpr hname]
      rfl
    · rw [if_neg (Ne.symm hname), beq_eq_false_iff_ne.mpr hname]

/-- Under every key that pairs have there is one of their values. -/
theorem exists_get?_ofPairs {pairs : List (String × α)} (h : key ∈ keys pairs) :
  ∃ v, (key, v) ∈ pairs ∧ (ofPairs pairs).get? key = some v
  := by
  rw [get?_ofPairs]
  cases hget : get? pairs.reverse key with
  | none =>
    rw [get?_eq_none_iff, keys, List.map_reverse, List.mem_reverse] at hget
    exact absurd h hget
  | some v => exact ⟨v, List.mem_reverse.mp (mem_of_get? hget), rfl⟩

/-- Values may be changed before or after one of them is put. -/
theorem put_map (f : α → β) (es : Entries α) (key : String) (v : α) :
  put key (f v) (es.map fun e => (e.1, f e.2)) = (es.put key v).map fun e => (e.1, f e.2)
  := by
  induction es with
  | nil => rfl
  | cons e es ih =>
    rw [List.map_cons, put, put]
    split
    · rfl
    · rw [ih, List.map_cons]

/-- Values may be changed before or after entries are made from pairs. -/
theorem ofPairs_map (f : α → β) (pairs : List (String × α)) :
  ofPairs (pairs.map fun e => (e.1, f e.2)) = (ofPairs pairs).map fun e => (e.1, f e.2)
  := by
  induction pairs using List.reverseRecOn with
  | nil => rfl
  | append_singleton pairs e ih =>
    rw [List.map_append, List.map_singleton, ofPairs_concat, ofPairs_concat, ih]
    exact put_map f _ e.1 e.2

/-- The keys of entries made from pairs are those of the pairs. -/
theorem mem_keys_ofPairs {pairs : List (String × α)} :
  key ∈ keys (ofPairs pairs) ↔ key ∈ keys pairs
  := by
  constructor
  · intro h
    obtain ⟨e, he, rfl⟩ := List.mem_map.mp h
    exact List.mem_map_of_mem (mem_of_mem_ofPairs he)
  · intro h
    obtain ⟨v, -, hget⟩ := exists_get?_ofPairs h
    exact mem_keys_of_mem (mem_of_get? hget)

/-- No pair takes the place of another one exactly if the keys are distinct. -/
theorem values_ofPairs_eq_iff {pairs : List (String × α)} :
  values (ofPairs pairs) = pairs.map Prod.snd ↔ (keys pairs).Nodup
  := by
  constructor
  · intro h
    have hperm : (keys (ofPairs pairs)).Perm (keys pairs).dedup := by
      rw [List.perm_ext_iff_of_nodup (nodup_keys_ofPairs pairs) (List.nodup_dedup _)]
      intro key
      rw [mem_keys_ofPairs, List.mem_dedup]
    have hlength : (keys pairs).dedup.length = (keys pairs).length := by
      have hvalues := congrArg List.length h
      rw [values, List.length_map, List.length_map] at hvalues
      rw [← hperm.length_eq, keys, keys, List.length_map, List.length_map, hvalues]
    exact List.dedup_eq_self.mp ((List.dedup_sublist _).eq_of_length hlength)
  · intro h
    rw [ofPairs_eq_self h]
    rfl

end Cosim.Entries

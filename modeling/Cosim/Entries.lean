/-!
# Ordered entries

A list of pairs of a key and a value, in the order in which the keys were first put.  Putting a
key again replaces its value in place, so keys put with `Entries.put` stay distinct.
-/

namespace Cosim

/-- Values under keys, in order. -/
abbrev Entries (α : Type) := List (String × α)

namespace Entries

variable {α β : Type}

/-- The value under a key. -/
def get? (es : Entries α) (key : String) : Option α := List.lookup key es

def has (es : Entries α) (key : String) : Bool := (es.get? key).isSome

def keys (es : Entries α) : List String := es.map Prod.fst

def values (es : Entries α) : List α := es.map Prod.snd

/-- Puts a value under a key: in the place of an old value, or at the end. -/
def put (key : String) (value : α) : Entries α → Entries α
  | [] => [(key, value)]
  | (k, v) :: es => if k == key then (k, value) :: es else (k, v) :: put key value es

/-- Puts a value under a key unless there is one already. -/
def putNew (key : String) (value : α) (es : Entries α) : Entries α :=
  if es.has key then es else es ++ [(key, value)]

/-- The entries that pairs leave when they are put one after another. -/
def ofPairs (pairs : List (String × α)) : Entries α :=
  pairs.foldl (fun es (key, value) => es.put key value) []

/-- The entries that pairs leave when of several with one key the first is kept. -/
def ofFirst (pairs : List (String × α)) : Entries α :=
  pairs.foldl (fun es (key, value) => es.putNew key value) []

theorem keys_put_of_mem {key : String} {value : α} {es : Entries α} (h : key ∈ es.keys) :
  (es.put key value).keys = es.keys
  := by
  induction es with
  | nil => simp [keys] at h
  | cons e es ih =>
    obtain ⟨k, v⟩ := e
    by_cases hk : k = key
    · simp [put, keys, hk]
    · have hmem : key ∈ keys es := by
        simp only [keys, List.map_cons, List.mem_cons] at h
        exact h.resolve_left (fun he => hk he.symm)
      simpa [put, keys, hk] using ih hmem

theorem keys_put_of_not_mem {key : String} {value : α} {es : Entries α} (h : key ∉ es.keys) :
  (es.put key value).keys = es.keys ++ [key]
  := by
  induction es with
  | nil => rfl
  | cons e es ih =>
    obtain ⟨k, v⟩ := e
    simp only [keys, List.map_cons, List.mem_cons, not_or] at h
    have hk : ¬ k = key := fun he => h.1 he.symm
    simpa [put, keys, hk] using ih h.2

/-- Putting keeps the keys distinct. -/
theorem nodup_keys_put {key : String} {value : α} {es : Entries α} (h : es.keys.Nodup) :
  (es.put key value).keys.Nodup
  := by
  by_cases hm : key ∈ es.keys
  · rwa [keys_put_of_mem hm]
  · rw [keys_put_of_not_mem hm, List.nodup_append]
    exact ⟨h, by simp, by
      intro a ha b hb
      simp only [List.mem_singleton] at hb
      rintro rfl
      exact hm (hb ▸ ha)⟩

end Entries

end Cosim

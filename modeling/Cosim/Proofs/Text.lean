import Cosim.Text.Replace
import Mathlib.Data.List.TakeWhile

/-!
# Endings of texts

What a text ends with, and where it is split at the last occurrence of a character.
-/

namespace Cosim.Text

theorem endsWith_iff {s ending : String} :
  s.endsWith ending = true ↔ ending.toList <:+ s.toList
  := by
  rw [String.endsWith, String.Slice.endsWith_string_iff, String.copy_toSlice]

variable {mark : Char} {s front t : String}

theorem takeWhile_append_mark {cs : List Char} (h : mark ∉ cs) (ds : List Char) :
  (cs ++ mark :: ds).takeWhile (· != mark) = cs
  := by
  rw [List.takeWhile_append_of_pos, List.takeWhile_cons_of_neg (by simp), List.append_nil]
  intro c hc
  rw [bne_iff_ne]
  rintro rfl
  exact h hc

theorem splitLast?_append (h : mark ∉ t.toList) (s : String) :
  splitLast? mark (s ++ String.singleton mark ++ t) = some (s, t)
  := by
  have hbehind : (t.toList.reverse ++ mark :: s.toList.reverse).takeWhile (· != mark) =
      t.toList.reverse := takeWhile_append_mark (mt List.mem_reverse.mp h) _
  simp [splitLast?, hbehind]

theorem splitLast?_of_not_mem (h : mark ∉ s.toList) :
  splitLast? mark s = none
  := by
  have hbehind : s.toList.reverse.takeWhile (· != mark) = s.toList.reverse := by
    rw [List.takeWhile_eq_self_iff]
    intro c hc
    rw [bne_iff_ne]
    rintro rfl
    exact h (List.mem_reverse.mp hc)
  simp only [splitLast?, hbehind, List.drop_length]

/-- There is only one way to split a text at a character that does not occur behind. -/
theorem splitLast?_eq_some_iff :
  splitLast? mark s = some (front, t) ↔ s = front ++ String.singleton mark ++ t ∧ mark ∉ t.toList
  := by
  constructor
  · intro h
    by_cases hmem : mark ∈ s.toList
    · obtain ⟨behind, before, hreverse, hbehind⟩ :=
        List.eq_append_cons_of_mem (List.mem_reverse.mpr hmem)
      have hs : s = String.ofList before.reverse ++ String.singleton mark ++
          String.ofList behind.reverse := by
        apply String.toList_injective
        rw [← List.reverse_inj, hreverse]
        simp
      have hnot : mark ∉ (String.ofList behind.reverse).toList := by simpa using hbehind
      rw [hs, splitLast?_append hnot] at h
      cases h
      exact ⟨hs, hnot⟩
    · rw [splitLast?_of_not_mem hmem] at h
      cases h
  · rintro ⟨rfl, h⟩
    exact splitLast?_append h front

end Cosim.Text

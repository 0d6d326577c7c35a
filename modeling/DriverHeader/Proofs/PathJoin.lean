import DriverHeader.FileTree.Path
import DriverHeader.Placement
import Mathlib.Data.List.Basic

/-! # Joined paths

Joining looks at the front of the second path and at the end of the first one, and at nothing else.
So a path that is not empty can be joined to what comes before it or to what comes after it first,
and the steps of a joined path are those of its parts.
-/
namespace DriverHeader

def separatorAfter (base : Text) : Text :=
  if base = [] ∨ base.getLast? = some '/' then [] else "/"

theorem joinPath_of_absolute (base : Text) {path : Text} (h : path.head? = some '/') :
    joinPath base path = path := if_pos h

theorem joinPath_of_relative (base : Text) {path : Text} (h : path.head? ≠ some '/') :
    joinPath base path = base ++ separatorAfter base ++ path := by
  rw [joinPath, if_neg h, separatorAfter]
  split
  · rw [List.append_nil]
  · rfl

theorem joinPath_nil (path : Text) : joinPath [] path = path := by
  by_cases h : path.head? = some '/'
  · exact joinPath_of_absolute [] h
  · exact joinPath_of_relative [] h

theorem separatorAfter_append (base : Text) {path : Text} (h : path ≠ []) :
    separatorAfter (base ++ path) = separatorAfter path := by
  simp [separatorAfter, List.getLast?_append_of_ne_nil base h, h]

theorem joinPath_assoc (root : Text) {a : Text} (ha : a ≠ []) (b : Text) :
    joinPath (joinPath root a) b = joinPath root (joinPath a b) := by
  by_cases hb : b.head? = some '/'
  · rw [joinPath_of_absolute _ hb, joinPath_of_absolute _ hb, joinPath_of_absolute _ hb]
  · have hhead : (joinPath a b).head? = a.head? := by
      rw [joinPath_of_relative a hb, List.append_assoc, List.head?_append_of_ne_nil a ha]
    by_cases habsolute : a.head? = some '/'
    · rw [joinPath_of_absolute root habsolute, joinPath_of_absolute root (hhead.trans habsolute)]
    · rw [joinPath_of_relative root habsolute, joinPath_of_relative root (hhead ▸ habsolute),
        joinPath_of_relative _ hb, joinPath_of_relative _ hb, separatorAfter_append _ ha]
      simp only [List.append_assoc]

/-- An absolute and a relative path can meet below an absolute base only. -/
theorem joinPath_inj {base p q : Text}
    (h : base.head? ≠ some '/' ∨ (p.head? = some '/' ↔ q.head? = some '/')) :
    joinPath base p = joinPath base q ↔ p = q := by
  have hmixed : ∀ {s t : Text}, base.head? ≠ some '/' → s.head? = some '/' →
      t.head? ≠ some '/' → joinPath base s ≠ joinPath base t := by
    intro s t hbase hs ht heq
    have hfront := congrArg List.head? heq
    rw [joinPath_of_absolute base hs, joinPath_of_relative base ht, hs] at hfront
    cases base with
    | nil => exact ht hfront.symm
    | cons c rest => exact hbase hfront.symm
  refine ⟨fun heq => ?_, congrArg _⟩
  by_cases hp : p.head? = some '/' <;> by_cases hq : q.head? = some '/'
  · rwa [joinPath_of_absolute base hp, joinPath_of_absolute base hq] at heq
  · rcases h with h | h
    · exact absurd heq (hmixed h hp hq)
    · exact absurd (h.mp hp) hq
  · rcases h with h | h
    · exact absurd heq.symm (hmixed h hq hp)
    · exact absurd (h.mpr hq) hp
  · rw [joinPath_of_relative base hp, joinPath_of_relative base hq] at heq
    exact List.append_cancel_left heq

namespace Path

theorem stepsOf_append_slash (a b : Text) : stepsOf (a ++ '/' :: b) = stepsOf a ++ stepsOf b := by
  simp only [stepsOf, List.splitOn_append_cons_self, List.filter_append, List.map_append]

theorem stepsOf_joinPath {base path : Text} (h : path.head? ≠ some '/') :
    stepsOf (joinPath base path) = stepsOf base ++ stepsOf path := by
  have hnothing : stepsOf [] = [] := by decide
  rw [joinPath_of_relative base h, separatorAfter]
  split
  · next hbase =>
    rcases hbase with rfl | hlast
    · rw [hnothing]
      rfl
    · obtain ⟨front, rfl⟩ := List.getLast?_eq_some_iff.mp hlast
      have htext : front ++ ['/'] ++ [] ++ path = front ++ '/' :: path := by simp
      rw [htext, stepsOf_append_slash, stepsOf_append_slash, hnothing, List.append_nil]
  · rw [List.append_assoc]
    exact stepsOf_append_slash base path

end Path
end DriverHeader

/-!
# Cutting lists

A list cut into pieces of a given size, the last one shorter. The pieces make up the list again,
and none is empty or too long.
-/

namespace UniversalRemote

/-- The pieces of `size` elements that a list is cut into; a size of zero counts as one. -/
def chunks (size : Nat) : List α → List (List α)
  | [] => []
  | a :: rest => (a :: rest.take (size - 1)) :: chunks size (rest.drop (size - 1))
termination_by l => l.length
decreasing_by
  rw [List.length_drop, List.length_cons]
  omega

theorem flatten_chunks (size : Nat) (l : List α) : (chunks size l).flatten = l := by
  fun_induction chunks size l with
  | case1 => rfl
  | case2 a rest ih => simp [ih]

theorem length_le_of_mem_chunks {size : Nat} {l c : List α} (hsize : 0 < size)
    (h : c ∈ chunks size l) : c.length ≤ size := by
  fun_induction chunks size l with
  | case1 => simp at h
  | case2 a rest ih =>
    rcases List.mem_cons.1 h with rfl | h
    · rw [List.length_cons, List.length_take]
      omega
    · exact ih h

theorem ne_nil_of_mem_chunks {size : Nat} {l c : List α} (h : c ∈ chunks size l) : c ≠ [] := by
  fun_induction chunks size l with
  | case1 => simp at h
  | case2 a rest ih =>
    rcases List.mem_cons.1 h with rfl | h
    · simp
    · exact ih h

theorem length_chunks {size : Nat} (hsize : 0 < size) (l : List α) :
    (chunks size l).length = (l.length + size - 1) / size := by
  fun_induction chunks size l with
  | case1 =>
    rw [List.length_nil, List.length_nil, Nat.zero_add, Nat.div_eq_of_lt (by omega)]
  | case2 a rest ih =>
    rw [List.length_drop] at ih
    rw [List.length_cons, List.length_cons, ih]
    by_cases hrest : rest.length ≤ size - 1
    · have hlast : (rest.length + 1 + size - 1) / size = 1 :=
        Nat.div_eq_of_lt_le (by omega) (by omega)
      rw [hlast, Nat.div_eq_of_lt (by omega)]
    · have hmore : rest.length + 1 + size - 1 = rest.length - (size - 1) + size - 1 + size := by
        omega
      rw [hmore, Nat.add_div_right _ hsize]

end UniversalRemote

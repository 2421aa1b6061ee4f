/-
A text inside a larger one.

What stands in `l` stands in `a ++ l ++ b` as many bytes further on as `a` is long. Cutting and slicing give the same
there as long as they do not leave `l` (`slice?_inside`).
-/
import MarkVeil.Proofs.Text.Place

namespace MarkVeil.Text

variable {a b l s : List Char} {i j k n p q : Nat}

/-! ## Cuts -/

theorem dropBytes?_add (a t : List Char) (n : Nat) : dropBytes? (a ++ t) (byteLen a + n) = dropBytes? t n := by
  induction a with
  | nil => simp
  | cons c a ih =>
    obtain ⟨k, hk⟩ := Nat.exists_eq_add_of_le' c.utf8Size_pos
    rw [List.cons_append, byteLen_cons, show c.utf8Size + byteLen a + n = (k + byteLen a + n) + 1 by omega, dropBytes?,
      if_pos (by omega), show k + byteLen a + n + 1 - c.utf8Size = byteLen a + n by omega, ih]

theorem dropBytes?_inside (hn : n ≤ byteLen l) (b : List Char) :
    dropBytes? (l ++ b) n = (dropBytes? l n).map (· ++ b) := by
  induction l generalizing n with
  | nil =>
    obtain rfl : n = 0 := by simpa using hn
    cases b <;> rfl
  | cons c l ih =>
    cases n with
    | zero => rfl
    | succ n =>
      rw [List.cons_append, dropBytes?, dropBytes?]
      split_ifs
      · refine ih ?_
        rw [byteLen_cons] at hn
        omega
      · rfl

theorem takeBytes?_inside (hn : n ≤ byteLen l) (b : List Char) : takeBytes? (l ++ b) n = takeBytes? l n := by
  induction l generalizing n with
  | nil =>
    obtain rfl : n = 0 := by simpa using hn
    cases b <;> rfl
  | cons c l ih =>
    cases n with
    | zero => rfl
    | succ n =>
      rw [List.cons_append, takeBytes?, takeBytes?, ih]
      rw [byteLen_cons] at hn
      omega

/-- **A slice of a text is a slice of every text around it.** -/
theorem slice?_inside (hj : j ≤ byteLen l) (a b : List Char) :
    slice? (a ++ l ++ b) (byteLen a + i) (byteLen a + j) = slice? l i j := by
  by_cases hij : i ≤ j
  · rw [slice?, slice?, if_pos hij, if_pos (by omega), List.append_assoc, dropBytes?_add,
      dropBytes?_inside (hij.trans hj), Nat.add_sub_add_left]
    cases hdrop : dropBytes? l i with
    | none => rfl
    | some rest =>
      obtain ⟨c, rfl, rfl⟩ := dropBytes?_eq_some.1 hdrop
      rw [byteLen_append] at hj
      exact takeBytes?_inside (by omega) b
  · rw [slice?, slice?, if_neg hij, if_neg (by omega)]

/-- what is sliced out of a slice -/
theorem slice?_of_slice? (h : slice? s p q = some l) (hj : j ≤ byteLen l) :
    slice? s (p + i) (p + j) = slice? l i j := by
  obtain ⟨a, b, rfl, rfl, rfl⟩ := slice?_eq_some.1 h
  exact slice?_inside hj a b

theorem placeFrom?_add (a t : List Char) (n : Nat) :
    placeFrom? (a ++ t) (byteLen a + n) = (placeFrom? t n).map fun p => (byteLen a + p.1, p.2) := by
  induction a with
  | nil => simp
  | cons c a ih =>
    obtain ⟨k, hk⟩ := Nat.exists_eq_add_of_le' c.utf8Size_pos
    rw [List.cons_append, byteLen_cons, show c.utf8Size + byteLen a + n = (k + byteLen a + n) + 1 by omega, placeFrom?,
      show k + byteLen a + n + 1 - c.utf8Size = byteLen a + n by omega, ih, Option.map_map]
    refine congrArg (Option.map · _) (funext fun p => ?_)
    simp [Nat.add_assoc]

theorem placeFrom?_inside (hn : n ≤ byteLen l) (b : List Char) :
    placeFrom? (l ++ b) n = (placeFrom? l n).map fun p => (p.1, p.2 ++ b) := by
  induction l generalizing n with
  | nil =>
    obtain rfl : n = 0 := by simpa using hn
    cases b <;> rfl
  | cons c l ih =>
    cases n with
    | zero => rfl
    | succ n =>
      rw [List.cons_append, placeFrom?, placeFrom?, ih, Option.map_map, Option.map_map]
      · rfl
      · rw [byteLen_cons] at hn
        omega

theorem placeFrom?_eq_none (h : byteLen s < n) : placeFrom? s n = none := by
  cases hplace : placeFrom? s n with
  | none => rfl
  | some p =>
    obtain ⟨a, rfl, hlen, hle⟩ := of_placeFrom? hplace
    rw [byteLen_append] at h
    omega

theorem placeFrom?_eq_none_iff : placeFrom? s n = none ↔ byteLen s < n := by
  refine ⟨?_, placeFrom?_eq_none⟩
  intro h
  by_contra hle
  induction s generalizing n with
  | nil =>
    obtain rfl : n = 0 := by simpa using hle
    simp [placeFrom?] at h
  | cons c s ih =>
    cases n with
    | zero => simp [placeFrom?] at h
    | succ n =>
      rw [placeFrom?, Option.map_eq_none_iff] at h
      rw [byteLen_cons] at hle
      exact ih h (by omega)

/-- no place comes between an offset and the next place -/
theorem placeFrom?_le (h : placeFrom? s n = some (p, t)) (hq : IsPlace s q) (hn : n ≤ q) : p ≤ q := by
  obtain ⟨b, d, rfl, rfl⟩ := hq
  induction b generalizing n p with
  | nil =>
    obtain rfl : n = 0 := by simpa using hn
    obtain ⟨rfl, -⟩ : 0 = p ∧ d = t := by simpa [placeFrom?_zero] using h
    exact le_rfl
  | cons c b ih =>
    cases n with
    | zero =>
      obtain ⟨rfl, -⟩ : 0 = p ∧ c :: b ++ d = t := by simpa [placeFrom?_zero] using h
      exact Nat.zero_le _
    | succ n =>
      simp only [List.cons_append, placeFrom?, Option.map_eq_some_iff, Prod.exists, Prod.mk.injEq] at h
      obtain ⟨r, t', h, rfl, rfl⟩ := h
      rw [byteLen_cons] at hn ⊢
      have := ih h (by omega)
      omega

/-- before a place that an offset is not at stands the character that the offset is inside of -/
theorem placeFrom?_inner (h : placeFrom? (a ++ t) n = some (p, t)) (hlen : byteLen a = p) (hne : p ≠ n) :
    ∃ c, a.getLast? = some c ∧ 1 < c.utf8Size := by
  induction a generalizing n p with
  | nil =>
    obtain ⟨-, -, -, hle⟩ := of_placeFrom? h
    rw [byteLen_nil] at hlen
    omega
  | cons c a ih =>
    cases n with
    | zero =>
      obtain ⟨rfl, -⟩ : 0 = p ∧ c :: a ++ t = t := by simpa [placeFrom?_zero] using h
      exact absurd rfl hne
    | succ n =>
      simp only [List.cons_append, placeFrom?, Option.map_eq_some_iff, Prod.exists, Prod.mk.injEq] at h
      obtain ⟨q, t', h, hq, rfl⟩ := h
      have hpos := c.utf8Size_pos
      rw [byteLen_cons] at hlen
      by_cases hc : n + 1 < c.utf8Size
      · -- the offset is inside the first character
        rw [Nat.sub_eq_zero_of_le hc.le, placeFrom?_zero] at h
        have hnil : a = [] := by
          rw [← byteLen_eq_zero]
          have : 0 = q := by simpa using (Prod.mk.inj (Option.some.inj h)).1
          omega
        exact ⟨c, by rw [hnil, List.getLast?_singleton], by omega⟩
      · obtain ⟨e, he, hsize⟩ := ih h (by omega) (by omega)
        refine ⟨e, ?_, hsize⟩
        obtain ⟨x, a, rfl⟩ := List.exists_cons_of_ne_nil (l := a) (by rintro rfl; simp at he)
        rwa [List.getLast?_cons_cons]

end MarkVeil.Text

/-
Places of a text, and the texts between them.

An offset is a place (`IsPlace`) when it falls between two characters. Cutting a text there is splitting it as a list:
`dropBytes?_eq_some`, `takeBytes?_eq_some` and `slice?_eq_some` say so, and with them every fact about offsets becomes
one about appended lists.
-/
import Mathlib.Tactic
import MarkVeil.Text.Bytes

namespace MarkVeil.Text

/-- an offset between two characters of a text, or at one of its ends -/
def IsPlace (s : List Char) (n : Nat) : Prop := ∃ a b, s = a ++ b ∧ byteLen a = n

variable {s t a b c d m : List Char} {i j n p : Nat}

/-! ## Lengths -/

@[simp] theorem byteLen_nil : byteLen [] = 0 := rfl

@[simp] theorem byteLen_cons (c : Char) (s : List Char) : byteLen (c :: s) = c.utf8Size + byteLen s := rfl

attribute [simp] byteLen_append

theorem byteLen_replicate (n : Nat) (c : Char) : byteLen (List.replicate n c) = n * c.utf8Size := by
  induction n with
  | zero => simp
  | succ n ih => rw [List.replicate_succ, byteLen_cons, ih]; ring

/-- a run of a one-byte character is as long as it has characters -/
theorem byteLen_replicate_one {c : Char} (hc : c.utf8Size = 1) (n : Nat) : byteLen (List.replicate n c) = n := by
  rw [byteLen_replicate, hc, Nat.mul_one]

theorem byteLen_pos (h : s ≠ []) : 0 < byteLen s := by
  obtain ⟨c, s, rfl⟩ := List.exists_cons_of_ne_nil h
  have := c.utf8Size_pos
  simp only [byteLen_cons]
  omega

theorem byteLen_eq_zero : byteLen s = 0 ↔ s = [] := by
  refine ⟨?_, fun h => h ▸ rfl⟩
  intro h
  by_contra hs
  have := byteLen_pos hs
  omega

/-! ## Two cuts of one text -/

/-- of two cuts the later one leaves more in front -/
theorem append_split (h : a ++ b = c ++ d) (hle : byteLen a ≤ byteLen c) : ∃ m, c = a ++ m ∧ b = m ++ d := by
  rcases List.append_eq_append_iff.1 h with ⟨m, hc, hb⟩ | ⟨m, ha, hd⟩
  · exact ⟨m, hc, hb⟩
  · have hm : m = [] := by
      rw [← byteLen_eq_zero]
      rw [ha, byteLen_append] at hle
      omega
    subst hm
    exact ⟨[], by simpa using ha.symm, by simpa using hd.symm⟩

/-- cuts at one offset are one cut -/
theorem append_inj_byteLen (h : a ++ b = c ++ d) (hlen : byteLen a = byteLen c) : a = c ∧ b = d := by
  obtain ⟨m, hc, hb⟩ := append_split h hlen.le
  have hm : m = [] := by
    rw [← byteLen_eq_zero]
    rw [hc, byteLen_append] at hlen
    omega
  subst hm
  exact ⟨by simpa using hc.symm, by simpa using hb⟩

/-! ## Cutting -/

theorem dropBytes?_zero (s : List Char) : dropBytes? s 0 = some s := by cases s <;> rfl

theorem placeFrom?_zero (s : List Char) : placeFrom? s 0 = some (0, s) := by cases s <;> rfl

theorem dropBytes?_append (a t : List Char) : dropBytes? (a ++ t) (byteLen a) = some t := by
  induction a with
  | nil => cases t <;> rfl
  | cons c a ih =>
    obtain ⟨k, hk⟩ := Nat.exists_eq_add_of_le' c.utf8Size_pos
    rw [List.cons_append, byteLen_cons, show c.utf8Size + byteLen a = (k + byteLen a) + 1 by omega, dropBytes?,
      if_pos (by omega), show k + byteLen a + 1 - c.utf8Size = byteLen a by omega, ih]

theorem dropBytes?_eq_some : dropBytes? s n = some t ↔ ∃ a, s = a ++ t ∧ byteLen a = n := by
  constructor
  · intro h
    induction s generalizing n with
    | nil =>
      cases n with
      | zero => exact ⟨[], by simpa [dropBytes?] using h, rfl⟩
      | succ n => simp [dropBytes?] at h
    | cons c s ih =>
      cases n with
      | zero => exact ⟨[], by simpa [dropBytes?] using h, rfl⟩
      | succ n =>
        simp only [dropBytes?] at h
        split_ifs at h with hc
        obtain ⟨a, ha, hn⟩ := ih h
        exact ⟨c :: a, by rw [ha, List.cons_append], by rw [byteLen_cons, hn]; omega⟩
  · rintro ⟨a, rfl, rfl⟩
    exact dropBytes?_append a t

theorem takeBytes?_append (a b : List Char) : takeBytes? (a ++ b) (byteLen a) = some a := by
  induction a with
  | nil => cases b <;> rfl
  | cons c a ih =>
    obtain ⟨k, hk⟩ := Nat.exists_eq_add_of_le' c.utf8Size_pos
    rw [List.cons_append, byteLen_cons, show c.utf8Size + byteLen a = (k + byteLen a) + 1 by omega, takeBytes?,
      if_pos (by omega), show k + byteLen a + 1 - c.utf8Size = byteLen a by omega, ih, Option.map_some]

theorem takeBytes?_eq_some : takeBytes? s n = some a ↔ ∃ b, s = a ++ b ∧ byteLen a = n := by
  constructor
  · intro h
    induction s generalizing n a with
    | nil =>
      cases n with
      | zero => obtain rfl : [] = a := by simpa [takeBytes?] using h
                exact ⟨[], rfl, rfl⟩
      | succ n => simp [takeBytes?] at h
    | cons c s ih =>
      cases n with
      | zero => obtain rfl : [] = a := by simpa [takeBytes?] using h
                exact ⟨c :: s, rfl, rfl⟩
      | succ n =>
        simp only [takeBytes?] at h
        split_ifs at h with hc
        obtain ⟨a', ha', rfl⟩ := Option.map_eq_some_iff.1 h
        obtain ⟨b, hb, hn⟩ := ih ha'
        exact ⟨b, by rw [hb, List.cons_append], by rw [byteLen_cons, hn]; omega⟩
  · rintro ⟨b, rfl, rfl⟩
    exact takeBytes?_append a b

theorem slice?_append (a m b : List Char) : slice? (a ++ m ++ b) (byteLen a) (byteLen a + byteLen m) = some m := by
  rw [slice?, if_pos (Nat.le_add_right _ _), List.append_assoc, dropBytes?_append, Option.bind_some,
    Nat.add_sub_cancel_left, takeBytes?_append]

/-- **A slice is what stands between two places.** -/
theorem slice?_eq_some : slice? s i j = some m ↔ ∃ a b, s = a ++ m ++ b ∧ byteLen a = i ∧ j = i + byteLen m := by
  constructor
  · intro h
    unfold slice? at h
    split_ifs at h with hij
    obtain ⟨t, ht, hm⟩ := Option.bind_eq_some_iff.1 h
    obtain ⟨a, rfl, rfl⟩ := dropBytes?_eq_some.1 ht
    obtain ⟨b, rfl, hlen⟩ := takeBytes?_eq_some.1 hm
    exact ⟨a, b, (List.append_assoc a m b).symm, rfl, by omega⟩
  · rintro ⟨a, b, rfl, rfl, rfl⟩
    exact slice?_append a m b

/-- a slice of a slice -/
theorem slice?_slice? {k l : Nat} (h : slice? s i j = some t) (ht : slice? t k l = some m) :
    slice? s (i + k) (i + l) = some m := by
  obtain ⟨a, b, rfl, rfl, rfl⟩ := slice?_eq_some.1 h
  obtain ⟨c, d, rfl, rfl, rfl⟩ := slice?_eq_some.1 ht
  exact slice?_eq_some.2 ⟨a ++ c, d ++ b, by simp, by simp, by omega⟩

/-! ## Places -/

namespace IsPlace

theorem le (h : IsPlace s n) : n ≤ byteLen s := by
  obtain ⟨a, b, rfl, rfl⟩ := h
  rw [byteLen_append]
  omega

/-- nothing stands between a place and itself -/
theorem slice (h : IsPlace s n) : slice? s n n = some [] := by
  obtain ⟨a, b, rfl, rfl⟩ := h
  exact slice?_eq_some.2 ⟨a, b, by simp, rfl, rfl⟩

theorem of_slice (h : slice? s i j = some m) : IsPlace s i ∧ IsPlace s j := by
  obtain ⟨a, b, rfl, rfl, rfl⟩ := slice?_eq_some.1 h
  exact ⟨⟨a, m ++ b, by simp, rfl⟩, ⟨a ++ m, b, rfl, by simp⟩⟩

/-- a text stands between two places in order -/
theorem exists_slice (hi : IsPlace s i) (hj : IsPlace s j) (hij : i ≤ j) : ∃ m, slice? s i j = some m := by
  obtain ⟨a, b, rfl, rfl⟩ := hi
  obtain ⟨c, d, h, rfl⟩ := hj
  obtain ⟨m, rfl, rfl⟩ := append_split h hij
  exact ⟨m, slice?_eq_some.2 ⟨a, d, (List.append_assoc a m d).symm, rfl, byteLen_append a m⟩⟩

/-- a place of a slice is a place of the text -/
theorem shift (h : slice? s i j = some t) (hn : IsPlace t n) : IsPlace s (i + n) := by
  obtain ⟨a, b, rfl, rfl, rfl⟩ := slice?_eq_some.1 h
  obtain ⟨c, d, rfl, rfl⟩ := hn
  exact ⟨a ++ c, d ++ b, by simp, by simp⟩

/-- a place of the text that a slice reaches is a place of the slice -/
theorem of_shift (h : slice? s i j = some t) (hp : IsPlace s p) (hi : i ≤ p) (hj : p ≤ j) : IsPlace t (p - i) := by
  obtain ⟨a, b, rfl, rfl, rfl⟩ := slice?_eq_some.1 h
  obtain ⟨c, d, hcut, rfl⟩ := hp
  rw [List.append_assoc] at hcut
  obtain ⟨m, rfl, htail⟩ := append_split hcut hi
  rw [byteLen_append] at hj ⊢
  obtain ⟨r, rfl, -⟩ := append_split htail.symm (by omega)
  exact ⟨m, r, rfl, by omega⟩

theorem zero (s : List Char) : IsPlace s 0 := ⟨[], s, rfl, rfl⟩

theorem stop (s : List Char) : IsPlace s (byteLen s) := ⟨s, [], (List.append_nil s).symm, rfl⟩

theorem max (hi : IsPlace s i) (hj : IsPlace s j) : IsPlace s (max i j) := by
  rcases Nat.le_total i j with h | h
  · rwa [Nat.max_eq_right h]
  · rwa [Nat.max_eq_left h]

end IsPlace

/-! ## The next place -/

theorem placeFrom?_append (a t : List Char) : placeFrom? (a ++ t) (byteLen a) = some (byteLen a, t) := by
  induction a with
  | nil => cases t <;> rfl
  | cons c a ih =>
    obtain ⟨k, hk⟩ := Nat.exists_eq_add_of_le' c.utf8Size_pos
    rw [List.cons_append, byteLen_cons, show c.utf8Size + byteLen a = (k + byteLen a) + 1 by omega, placeFrom?,
      show k + byteLen a + 1 - c.utf8Size = byteLen a by omega, ih, Option.map_some]
    simp only [Option.some.injEq, Prod.mk.injEq, and_true]
    omega

theorem of_placeFrom? (h : placeFrom? s n = some (p, t)) : ∃ a, s = a ++ t ∧ byteLen a = p ∧ n ≤ p := by
  induction s generalizing n p with
  | nil =>
    cases n with
    | zero => obtain ⟨rfl, rfl⟩ : 0 = p ∧ [] = t := by simpa [placeFrom?] using h
              exact ⟨[], rfl, rfl, le_rfl⟩
    | succ n => simp [placeFrom?] at h
  | cons c s ih =>
    cases n with
    | zero => obtain ⟨rfl, rfl⟩ : 0 = p ∧ c :: s = t := by simpa [placeFrom?] using h
              exact ⟨[], rfl, rfl, le_rfl⟩
    | succ n =>
      simp only [placeFrom?, Option.map_eq_some_iff, Prod.exists, Prod.mk.injEq] at h
      obtain ⟨q, t', h, rfl, rfl⟩ := h
      obtain ⟨a, rfl, rfl, hle⟩ := ih h
      exact ⟨c :: a, rfl, rfl, by omega⟩

end MarkVeil.Text

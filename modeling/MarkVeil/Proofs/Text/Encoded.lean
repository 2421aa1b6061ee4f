/-
The bytes of a text.

`utf8` spells a text in UTF-8. All bytes of a character of several bytes are 128 or more, so the byte of an ASCII
character stands exactly where the character does (`getElem?_utf8_iff`), and what a scan of bytes learns from ASCII
bytes it learns of characters.
-/
import MarkVeil.Proofs.Text.Place

namespace MarkVeil.Text

variable {s a b : List Char} {c d : Char} {i : Nat}

def utf8 (s : List Char) : List UInt8 := s.flatMap String.utf8EncodeChar

@[simp] theorem utf8_cons (c : Char) (s : List Char) : utf8 (c :: s) = String.utf8EncodeChar c ++ utf8 s := rfl

@[simp] theorem utf8_append (a b : List Char) : utf8 (a ++ b) = utf8 a ++ utf8 b := List.flatMap_append

@[simp] theorem length_utf8 (s : List Char) : (utf8 s).length = byteLen s := by
  induction s with
  | nil => rfl
  | cons c s ih => rw [utf8_cons, List.length_append, String.length_utf8EncodeChar, ih, byteLen_cons]

theorem drop_utf8 (a b : List Char) : (utf8 (a ++ b)).drop (byteLen a) = utf8 b := by
  rw [utf8_append, List.drop_left' (length_utf8 a)]

/-! ## ASCII -/

/-- an ASCII character is its one byte -/
theorem utf8EncodeChar_ascii (hd : d.utf8Size = 1) : String.utf8EncodeChar d = [d.toUInt8] :=
  String.utf8EncodeChar_eq_singleton hd

theorem toNat_toUInt8_ascii (hd : d.utf8Size = 1) : d.toUInt8.toNat = d.toNat ∧ d.toNat < 128 := by
  have hle : d.val.toNat ≤ 127 := UInt32.le_iff_toNat_le.1 (Char.utf8Size_eq_one_iff.1 hd)
  have hbyte : d.toUInt8.toNat = d.val.toNat % 256 := UInt32.toNat_toUInt8 d.val
  have hcode : d.toNat = d.val.toNat := rfl
  omega

/-- all bytes of a longer character are 128 or more -/
theorem le_of_mem_utf8EncodeChar {x : UInt8} (hx : x ∈ String.utf8EncodeChar c) (hc : c.utf8Size ≠ 1) :
    128 ≤ x.toNat := by
  have hbyte : ∀ n m k : Nat, 0 < m → 128 ≤ k → m + k ≤ 256 → 128 ≤ (UInt8.ofNat (n % m + k)).toNat := by
    intro n m k hm hk hmk
    have := Nat.mod_lt n hm
    rw [UInt8.toNat_ofNat', Nat.mod_eq_of_lt (by omega)]
    omega
  unfold String.utf8EncodeChar at hx
  simp only at hx
  split_ifs at hx with h1
  · exact absurd (Char.utf8Size_eq_one_iff.2 (UInt32.le_iff_toNat_le.2 h1)) hc
  all_goals simp only [List.mem_cons, List.not_mem_nil, or_false] at hx
  · rcases hx with rfl | rfl <;> exact hbyte _ _ _ (by decide) (by decide) (by decide)
  · rcases hx with rfl | rfl | rfl <;> exact hbyte _ _ _ (by decide) (by decide) (by decide)
  · rcases hx with rfl | rfl | rfl | rfl <;> exact hbyte _ _ _ (by decide) (by decide) (by decide)

/-- no other character has the byte of an ASCII character -/
theorem eq_of_mem_utf8EncodeChar (hd : d.utf8Size = 1) (hx : d.toUInt8 ∈ String.utf8EncodeChar c) : c = d := by
  obtain ⟨hbyte, hlt⟩ := toNat_toUInt8_ascii hd
  by_cases hc : c.utf8Size = 1
  · rw [utf8EncodeChar_ascii hc, List.mem_singleton] at hx
    have hcode := congrArg UInt8.toNat hx
    rw [hbyte, (toNat_toUInt8_ascii hc).1] at hcode
    exact (Char.toNat_inj.1 hcode).symm
  · have := le_of_mem_utf8EncodeChar hx hc
    omega

/-- **The byte of an ASCII character stands exactly where the character does.** -/
theorem getElem?_utf8_iff (hd : d.utf8Size = 1) :
    (utf8 s)[i]? = some d.toUInt8 ↔ ∃ a b, s = a ++ d :: b ∧ byteLen a = i := by
  constructor
  · intro h
    induction s generalizing i with
    | nil => simp at h
    | cons c s ih =>
      by_cases hi : i < c.utf8Size
      · rw [utf8_cons, List.getElem?_append_left (by simpa using hi)] at h
        obtain rfl := eq_of_mem_utf8EncodeChar hd (List.mem_of_getElem? h)
        exact ⟨[], s, rfl, by rw [byteLen_nil]; omega⟩
      · rw [utf8_cons, List.getElem?_append_right (by simpa using hi), String.length_utf8EncodeChar] at h
        obtain ⟨a, b, rfl, ha⟩ := ih h
        exact ⟨c :: a, b, rfl, by rw [byteLen_cons, ha]; omega⟩
  · rintro ⟨a, b, rfl, rfl⟩
    rw [utf8_append, utf8_cons, utf8EncodeChar_ascii hd, List.getElem?_append_right (by simp)]
    simp

/-- what stands right before a place is an ASCII character exactly if it is the character's byte -/
theorem getLast?_iff_byte (hd : d.utf8Size = 1) (ha : a ≠ []) :
    a.getLast? = some d ↔ (utf8 (a ++ b))[byteLen a - 1]? = some d.toUInt8 := by
  rw [getElem?_utf8_iff hd]
  constructor
  · intro h
    obtain ⟨k, rfl⟩ := List.getLast?_eq_some_iff.1 h
    exact ⟨k, b, by simp, by simp [hd]⟩
  · rintro ⟨k, t, hs, hk⟩
    have hpos := byteLen_pos ha
    rw [List.append_cons] at hs
    obtain ⟨rfl, -⟩ := append_inj_byteLen hs (by simp [hd]; omega)
    exact List.getLast?_concat

end MarkVeil.Text

/-
Quoted text is read back.

Each character in quotes is read back with whatever follows it (`unquoteChar?_quoteChar`): hexadecimal digits end at
their brace (`unquoteHex?_hexDigits`), and no other character begins like an escape. So a quoted text gives back the
text (`unquote?_quote`), and it has no line feed.
-/
import Mathlib.Tactic
import MarkVeil.Text.Quoted

namespace MarkVeil.Text

variable {c : Char} {s t rest : List Char} {n fuel : Nat}

/-! ## Hexadecimal digits -/

theorem hexDigits_eq (n : Nat) :
    hexDigits n = if n < 16 then [n.digitChar] else hexDigits (n / 16) ++ [(n % 16).digitChar] :=
  Nat.toDigits_eq_if (by norm_num)

theorem unquoteHex?_digit (value : Nat) {d : Nat} (hd : d < 16) (s : List Char) :
    unquoteHex? value (d.digitChar :: s) = unquoteHex? (value * 16 + d) s := by
  interval_cases d <;> rfl

/-- digits are read after those before them -/
theorem exists_unquoteHex? (n value : Nat) :
    ∃ k, ∀ s, unquoteHex? value (hexDigits n ++ s) = unquoteHex? (value * k + n) s := by
  induction n using Nat.strong_induction_on with
  | h n ih =>
    rw [hexDigits_eq]
    split_ifs with hn
    · exact ⟨16, fun s => unquoteHex?_digit value hn s⟩
    · obtain ⟨k, hk⟩ := ih (n / 16) (by omega)
      refine ⟨k * 16, fun s => ?_⟩
      have hvalue : (value * k + n / 16) * 16 + n % 16 = value * (k * 16) + n := by
        calc (value * k + n / 16) * 16 + n % 16 = value * (k * 16) + (n / 16 * 16 + n % 16) := by ring
          _ = value * (k * 16) + n := by rw [Nat.div_add_mod']
      rw [List.append_assoc, hk, List.singleton_append, unquoteHex?_digit _ (Nat.mod_lt n (by norm_num)), hvalue]

/-- digits in front of a brace are read as their number -/
theorem unquoteHex?_hexDigits (n : Nat) (rest : List Char) :
    unquoteHex? 0 (hexDigits n ++ '\x7d' :: rest) = some (n, rest) := by
  obtain ⟨k, hk⟩ := exists_unquoteHex? n 0
  rw [hk, Nat.zero_mul, Nat.zero_add, unquoteHex?, if_pos rfl]

theorem feed_not_mem_hexDigits (n : Nat) : '\n' ∉ hexDigits n := by
  have hdigit : ∀ d < 16, '\n' ≠ d.digitChar := by decide
  induction n using Nat.strong_induction_on with
  | h n ih =>
    rw [hexDigits_eq]
    split_ifs with hn
    · exact mt List.mem_singleton.1 (hdigit n hn)
    · rw [List.mem_append, List.mem_singleton]
      rintro (hmem | heq)
      · exact ih (n / 16) (by omega) hmem
      · exact hdigit (n % 16) (Nat.mod_lt n (by norm_num)) heq

/-! ## Characters -/

/-- a character that stands for itself in quotes -/
theorem unquoteChar?_self (hquote : c ≠ '"') (hescape : c ≠ '\\') (rest : List Char) :
    unquoteChar? (c :: rest) = some (c, rest) := by
  unfold unquoteChar?
  split <;> simp_all

/-- **A character in quotes is read back**, whatever follows it. -/
theorem unquoteChar?_quoteChar (c : Char) (rest : List Char) :
    unquoteChar? (quoteChar c ++ rest) = some (c, rest) := by
  unfold quoteChar
  split_ifs with hnull htab hreturn hfeed hquote hescape hplain
  · rw [hnull]; rfl
  · rw [htab]; rfl
  · rw [hreturn]; rfl
  · rw [hfeed]; rfl
  · rw [hquote]; rfl
  · rw [hescape]; rfl
  · exact unquoteChar?_self hquote hescape rest
  · have hhex := unquoteHex?_hexDigits c.toNat rest
    simp only [List.append_assoc, List.cons_append, List.nil_append, unquoteChar?, hhex, Option.map_some,
      Char.ofNat_toNat]

theorem quoteChar_ne_nil (c : Char) : quoteChar c ≠ [] := by
  unfold quoteChar
  split_ifs <;> simp

theorem feed_not_mem_quoteChar (c : Char) : '\n' ∉ quoteChar c := by
  unfold quoteChar
  split_ifs with hnull htab hreturn hfeed hquote hescape hplain
  · decide
  · decide
  · decide
  · decide
  · decide
  · decide
  · simpa using Ne.symm hfeed
  · simpa using feed_not_mem_hexDigits c.toNat

/-! ## Texts -/

/-- the inside of quotes is read back with enough fuel -/
theorem unquoteRest?_quote (s : List Char) (h : (s.flatMap quoteChar).length ≤ fuel) :
    unquoteRest? fuel (s.flatMap quoteChar ++ ['"']) = some s := by
  induction s generalizing fuel with
  | nil => rw [List.flatMap_nil, List.nil_append, unquoteRest?]
  | cons c s ih =>
    have hpos := List.length_pos_iff.2 (quoteChar_ne_nil c)
    rw [List.flatMap_cons, List.length_append] at h
    obtain ⟨fuel, rfl⟩ : ∃ m, fuel = m + 1 := ⟨fuel - 1, by omega⟩
    have hlong : quoteChar c ++ (s.flatMap quoteChar ++ ['"']) ≠ ['"'] := by
      intro heq
      have hlength := congrArg List.length heq
      simp only [List.length_append, List.length_singleton] at hlength
      omega
    rw [List.flatMap_cons, List.append_assoc, unquoteRest?]
    · rw [unquoteChar?_quoteChar, Option.bind_some]
      have hrest : (s.flatMap quoteChar).length ≤ fuel := by omega
      simp only [ih hrest, Option.map_some]
    · exact hlong

/-- **A text in quotes is read back**, whatever characters it has. -/
theorem unquote?_quote (s : List Char) : unquote? (quote s) = some s := by
  rw [quote, unquote?]
  refine unquoteRest?_quote s ?_
  rw [List.length_append]
  exact Nat.le_add_right _ _

/-- a text in quotes has no line feed -/
theorem feed_not_mem_quote (s : List Char) : '\n' ∉ quote s := by
  simp [quote, feed_not_mem_quoteChar]

end MarkVeil.Text

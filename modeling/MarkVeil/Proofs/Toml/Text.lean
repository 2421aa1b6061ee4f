/-
Written texts are read back.

Whatever the style, `read?` takes a written text back, and what follows it stays, as long as no quote follows at once
(`read?_write`). Double-quoted styles are right for every text: each character is read back from what it is written as
(`readBasic?_escapeChar`), and no run of quotes is long enough to close the text before its end
(`quotes_end_or_stop`). Single-quoted styles are right for the texts that `Style.of` writes in them.
-/
import MarkVeil.Proofs.Text.Search
import MarkVeil.Toml.Text

namespace MarkVeil.Toml

open MarkVeil.Text

variable {c q : Char} {s t u rest : List Char} {long : Bool} {k run : Nat}

/-- no quote comes first -/
def NoQuote (rest : List Char) : Prop := rest.head? ≠ some '"' ∧ rest.head? ≠ some '\''

/-! ## Quotes that close -/

theorem countRun_cons_ne (hc : c ≠ q) (s : List Char) : countRun q (c :: s) = 0 := by
  rw [countRun, runLen, if_neg (by simpa using hc)]

theorem countRun_cons_self (c : Char) (s : List Char) : countRun c (c :: s) = countRun c s + 1 := by
  rw [countRun, runLen, if_pos (by simp)]
  rfl

/-- another character closes nothing -/
theorem close?_ne (hc : c ≠ q) (s : List Char) : close? long q (c :: s) = none := by
  cases long <;> simp [close?, countRun_cons_ne hc]

/-- nor do two quotes, where three are needed -/
theorem close?_few (h : countRun q s ≤ 2) : close? true q s = none := by
  simp [close?]
  omega

/-- up to two quotes before the three that close still belong to the text -/
theorem close?_long (hk : k ≤ 2) (h : rest.head? ≠ some q) :
    close? true q (List.replicate k q ++ (q :: q :: q :: rest)) = some (List.replicate k q, rest) := by
  have hall : List.replicate k q ++ (q :: q :: q :: rest) = List.replicate (k + 3) q ++ rest := by
    rw [List.replicate_add, List.append_assoc]
    rfl
  have hmin : min (k + 3) 5 = k + 3 := by omega
  have hrest : (List.replicate (k + 3) q ++ rest).drop (k + 3) = rest := List.drop_left' List.length_replicate
  simp [close?, hall, countRun_replicate_append (k + 3) h, hmin, hrest]

/-- in a text without three quotes in a row, the quotes at the front end the text or stop short of closing it -/
theorem quotes_end_or_stop (h : longestRun q run u ≤ 2) (rest : List Char) :
    (∃ k, u = List.replicate k q ∧ run + k ≤ 2) ∨ run + countRun q (u ++ rest) ≤ 2 := by
  induction u generalizing run with
  | nil => exact Or.inl ⟨0, rfl, h⟩
  | cons c u ih =>
    rw [longestRun] at h
    split_ifs at h with hc
    · subst hc
      rcases ih h with ⟨k, rfl, hk⟩ | hstop
      · exact Or.inl ⟨k + 1, rfl, by omega⟩
      · refine Or.inr ?_
        rw [List.cons_append, countRun_cons_self]
        omega
    · refine Or.inr ?_
      rw [List.cons_append, countRun_cons_ne hc]
      omega

/-! ## Characters -/

theorem isText_of_not_isControl (h : isControl c = false) (hc : c ≠ '\n') : isText c = true := by
  have hfeed : (c != '\n') = true := by simpa using hc
  simp only [isControl, isText, hfeed, Bool.and_true, Bool.or_eq_false_iff, Bool.or_eq_true, Bool.and_eq_true,
    decide_eq_false_iff_not, decide_eq_true_eq, beq_eq_false_iff_ne, bne_iff_ne] at h ⊢
  omega

theorem not_isReturn (hc : c ≠ '\r') (s : List Char) : isReturn c s = false := by simp [isReturn, hc]

theorem hexValue?_hexDigit : ∀ n < 16, hexValue? (hexDigit n) = some n := by decide

/-- a character that stands for itself -/
theorem readBasic?_self (hq : c ≠ '"') (hb : c ≠ '\\') (hc : isControl c = false) (hlong : c = '\n' → long = true)
    (s : List Char) :
    readBasic? long (.plain false) (c :: s) = (readBasic? long (.plain false) s).map fun r => (c :: r.1, r.2) := by
  have hr : c ≠ '\r' := by
    rintro rfl
    exact absurd hc (by decide)
  have htext : (isText c || (long && c == '\n')) = true := by
    by_cases hn : c = '\n'
    · simp [hn, hlong hn]
    · rw [isText_of_not_isControl hc hn, Bool.true_or]
  rw [readBasic?, close?_ne hq]
  simp [hb, not_isReturn hr, htext]

/-- **Every character is read back from its escape.** -/
theorem readBasic?_escapeChar (long : Bool) (c : Char) (s : List Char) :
    readBasic? long (.plain false) (escapeChar c ++ s) =
      (readBasic? long (.plain false) s).map fun r => (c :: r.1, r.2) := by
  have hback : ∀ d t, readBasic? long (.plain false) ('\\' :: d :: t) = readBasic? long .escape (d :: t) := by
    intro d t
    rw [readBasic?, close?_ne (by decide)]
    simp
  unfold escapeChar
  split_ifs with h1 h2 h3 h4 h5 h6 h7 h8
  · simp [h1, hback, readBasic?, named?]
  · simp [h2, hback, readBasic?, named?]
  · simp [h3, hback, readBasic?, named?]
  · simp [h4, hback, readBasic?, named?]
  · simp [h5, hback, readBasic?, named?]
  · simp [h6, hback, readBasic?, named?]
  · simp [h7, hback, readBasic?, named?]
  · -- a control character is two digits behind two zeros
    have hlt : c.toNat < 128 := by
      simp only [isControl, Bool.or_eq_true, Bool.and_eq_true, decide_eq_true_eq, beq_iff_eq] at h8
      omega
    have hhigh := hexValue?_hexDigit (c.toNat / 16) (by omega)
    have hlow := hexValue?_hexDigit (c.toNat % 16) (by omega)
    have hzero : hexValue? '0' = some 0 := by decide
    have hnat : c.toNat / 16 * 16 + c.toNat % 16 = c.toNat := by omega
    have hchar : charOf? c.toNat = some c := by
      rw [charOf?, if_pos (Or.inl (by omega)), Char.ofNat_toNat]
    simp [hback, readBasic?, named?, hexCount?, hhigh, hlow, hzero, hnat, hchar]
  · exact readBasic?_self h6 h7 (by simpa using h8) (fun h => absurd h h3) s

/-! ## Double-quoted texts -/

theorem readBasic?_short (s rest : List Char) :
    readBasic? false (.plain false) (s.flatMap escapeChar ++ '"' :: rest) = some (s, rest) := by
  induction s with
  | nil =>
    have hclose : close? false '"' ('"' :: rest) = some ([], rest) := by simp [close?, countRun_cons_self]
    simp [readBasic?, hclose]
  | cons c s ih => rw [List.flatMap_cons, List.append_assoc, readBasic?_escapeChar, ih, Option.map_some]

/-- what a character is written as between double quotes begins neither with one nor with a line end -/
theorem exists_escapeChar (c : Char) : ∃ d t, escapeChar c = d :: t ∧ d ≠ '"' ∧ d ≠ '\n' ∧ d ≠ '\r' := by
  have hback : '\\' ≠ '"' ∧ '\\' ≠ '\n' ∧ '\\' ≠ '\r' := by decide
  unfold escapeChar
  split_ifs with h1 h2 h3 h4 h5 h6 h7 h8
  all_goals first
    | exact ⟨_, _, rfl, hback⟩
    | exact ⟨_, _, rfl, h6, h3, h5⟩

/-- the quotes at the front of a text between three double quotes end it or stop short of closing it -/
theorem escapeLong_end_or_stop (hrun : run ≤ 2) (s rest : List Char) :
    (∃ k, s = List.replicate k '"' ∧ run + k ≤ 2) ∨ run + countRun '"' (escapeLong run s ++ rest) ≤ 2 := by
  induction s generalizing run with
  | nil => exact Or.inl ⟨0, rfl, hrun⟩
  | cons c s ih =>
    rw [escapeLong]
    split_ifs with hc hlt hn
    · subst hc
      rcases ih (by omega : run + 1 ≤ 2) with ⟨k, rfl, hk⟩ | hstop
      · exact Or.inl ⟨k + 1, rfl, by omega⟩
      · refine Or.inr ?_
        rw [List.cons_append, countRun_cons_self]
        omega
    · exact Or.inr (by rw [List.cons_append, countRun_cons_ne (by decide)]; exact hrun)
    · exact Or.inr (by rw [List.cons_append, List.cons_append, countRun_cons_ne (by decide)]; exact hrun)
    · obtain ⟨d, t, hd, hne, -, -⟩ := exists_escapeChar c
      exact Or.inr (by rw [hd, List.cons_append, List.cons_append, countRun_cons_ne hne]; exact hrun)

/-- up to two quotes are written as they are -/
theorem escapeLong_replicate (h : run + k ≤ 2) : escapeLong run (List.replicate k '"') = List.replicate k '"' := by
  induction k generalizing run with
  | zero => rfl
  | succ k ih => rw [List.replicate_succ, escapeLong, if_pos rfl, if_pos (by omega), ih (by omega)]

/-- **A text between three double quotes is read back**, also from behind one or two quotes of a run. -/
theorem readBasic?_long (hrest : rest.head? ≠ some '"') (hrun : run ≤ 2) (s : List Char) :
    readBasic? true (.plain false) (escapeLong run s ++ ('"' :: '"' :: '"' :: rest)) = some (s, rest) := by
  induction s generalizing run with
  | nil =>
    have hclose := close?_long (k := 0) (Nat.zero_le 2) hrest
    rw [List.replicate_zero, List.nil_append] at hclose
    rw [escapeLong, List.nil_append, readBasic?, hclose]
    rfl
  | cons c s ih =>
    by_cases hc : c = '"'
    · subst hc
      rw [escapeLong, if_pos rfl]
      split_ifs with hlt
      · rcases escapeLong_end_or_stop hrun ('"' :: s) ('"' :: '"' :: '"' :: rest) with ⟨k, hk, hle⟩ | hstop
        · -- the rest of the text is quotes only
          obtain ⟨k, rfl⟩ : ∃ j, k = j + 1 := Nat.exists_eq_succ_of_ne_zero (by rintro rfl; simp at hk)
          obtain rfl : s = List.replicate k '"' := by simpa [List.replicate_succ] using hk
          have hclose := close?_long (k := k + 1) (by omega) hrest
          rw [List.replicate_succ, List.cons_append] at hclose
          rw [escapeLong_replicate (by omega), List.cons_append, readBasic?, hclose]
          rfl
        · rw [escapeLong, if_pos rfl, if_pos hlt, List.cons_append] at hstop
          rw [List.cons_append, readBasic?, close?_few (by omega), ih (Nat.succ_le_of_lt hlt)]
          simp [not_isReturn, isText]
      · have hquote : escapeChar '"' = ['\\', '"'] := rfl
        have h := readBasic?_escapeChar true '"' (escapeLong 0 s ++ ('"' :: '"' :: '"' :: rest))
        rw [hquote, ih (Nat.zero_le 2)] at h
        exact h
    · rw [escapeLong, if_neg hc, List.append_assoc]
      split_ifs with hn
      · subst hn
        rw [List.singleton_append, readBasic?_self (by decide) (by decide) (by decide) (fun _ => rfl),
          ih (Nat.zero_le 2), Option.map_some]
      · rw [readBasic?_escapeChar, ih (Nat.zero_le 2), Option.map_some]

/-! ## Single-quoted texts -/

/-- a character that stands for itself -/
theorem readLiteral?_self (hclose : close? long '\'' (c :: s) = none) (hc : isControl c = false)
    (hlong : c = '\n' → long = true) :
    readLiteral? long (c :: s) = (readLiteral? long s).map fun r => (c :: r.1, r.2) := by
  have hr : c ≠ '\r' := by
    rintro rfl
    exact absurd hc (by decide)
  have htext : (isText c || (long && c == '\n')) = true := by
    by_cases hn : c = '\n'
    · simp [hn, hlong hn]
    · rw [isText_of_not_isControl hc hn, Bool.true_or]
  rw [readLiteral?, hclose]
  simp [not_isReturn hr, htext]

theorem readLiteral?_short (hs : ∀ c ∈ s, isControl c = false ∧ c ≠ '\'' ∧ c ≠ '\n') (rest : List Char) :
    readLiteral? false (s ++ '\'' :: rest) = some (s, rest) := by
  induction s with
  | nil =>
    have hclose : close? false '\'' ('\'' :: rest) = some ([], rest) := by simp [close?, countRun_cons_self]
    rw [List.nil_append, readLiteral?, hclose]
  | cons c s ih =>
    obtain ⟨⟨hc, hquote, hn⟩, hs⟩ := List.forall_mem_cons.1 hs
    rw [List.cons_append, readLiteral?_self (close?_ne hquote _) hc (fun h => absurd h hn), ih hs, Option.map_some]

/-- **A text between three single quotes is read back** if it has no three in a row. -/
theorem readLiteral?_long (hrest : rest.head? ≠ some '\'') (hs : ∀ c ∈ s, isControl c = false)
    (hrun : longestRun '\'' run s ≤ 2) :
    readLiteral? true (s ++ ('\'' :: '\'' :: '\'' :: rest)) = some (s, rest) := by
  induction s generalizing run with
  | nil =>
    have hclose := close?_long (k := 0) (Nat.zero_le 2) hrest
    rw [List.replicate_zero, List.nil_append] at hclose
    rw [List.nil_append, readLiteral?, hclose]
  | cons c s ih =>
    obtain ⟨hc, hs⟩ := List.forall_mem_cons.1 hs
    rcases quotes_end_or_stop hrun ('\'' :: '\'' :: '\'' :: rest) with ⟨k, hk, hle⟩ | hstop
    · obtain ⟨k, rfl⟩ : ∃ j, k = j + 1 := Nat.exists_eq_succ_of_ne_zero (by rintro rfl; simp at hk)
      have hclose := close?_long (k := k + 1) (by omega) hrest
      rw [← hk, List.cons_append] at hclose
      rw [List.cons_append, readLiteral?, hclose]
    · have hnext : ∃ run', longestRun '\'' run' s ≤ 2 := by
        rw [longestRun] at hrun
        split_ifs at hrun
        · exact ⟨_, hrun⟩
        · exact ⟨0, by omega⟩
      obtain ⟨run', hrun'⟩ := hnext
      rw [List.cons_append] at hstop ⊢
      rw [readLiteral?_self (close?_few (by omega)) hc (fun _ => rfl), ih hs hrun', Option.map_some]

/-! ## Styles -/

theorem dropLineEnd_leadIn (h : s.contains '\n' = false → u.head? ≠ some '\n' ∧ u.head? ≠ some '\r') :
    dropLineEnd (leadIn s ++ u) = u := by
  unfold leadIn
  split_ifs with hs
  · rfl
  · obtain ⟨hn, hr⟩ := h (by simpa using hs)
    rw [List.nil_append]
    unfold dropLineEnd
    split <;> simp_all

theorem le_longestRun (q : Char) (run : Nat) (s : List Char) : run ≤ longestRun q run s := by
  induction s generalizing run with
  | nil => exact le_rfl
  | cons c s ih =>
    rw [longestRun]
    split_ifs
    · exact (Nat.le_succ run).trans (ih (run + 1))
    · exact le_max_left _ _

theorem not_mem_of_longestRun (h : longestRun q 0 s = 0) : q ∉ s := by
  induction s with
  | nil => exact List.not_mem_nil
  | cons c s ih =>
    rw [longestRun] at h
    split_ifs at h with hc
    · have := le_longestRun q (0 + 1) s
      omega
    · exact List.not_mem_cons_of_ne_of_not_mem (Ne.symm hc) (ih (by omega))

theorem Style.of_eq_literal (h : Style.of s = .literal) : ∀ c ∈ s, isControl c = false ∧ c ≠ '\'' ∧ c ≠ '\n' := by
  simp only [Style.of] at h
  split_ifs at h with h1 h2
  simp only [Bool.and_eq_true, Bool.not_eq_true', beq_iff_eq] at h2
  obtain ⟨⟨hcontrols, hquotes⟩, hfeeds⟩ := h2
  intro c hc
  refine ⟨by simpa using List.any_eq_false.1 hcontrols c hc, ?_, ?_⟩
  · rintro rfl
    exact not_mem_of_longestRun hquotes hc
  · rintro rfl
    simp [hc] at hfeeds

theorem Style.of_eq_longLiteral (h : Style.of s = .longLiteral) :
    (∀ c ∈ s, isControl c = false) ∧ longestRun '\'' 0 s ≤ 2 := by
  simp only [Style.of] at h
  split_ifs at h with h1 h2 h3 h4
  simp only [Bool.and_eq_true, Bool.not_eq_true', decide_eq_true_eq] at h4
  exact ⟨fun c hc => by simpa using List.any_eq_false.1 h4.1 c hc, h4.2⟩

/-- one quote that two others do not follow begins a text on one line -/
theorem read?_basic (h : ∀ u, t ≠ '"' :: '"' :: u) : read? ('"' :: t) = readBasic? false (.plain false) t := by
  unfold read?
  split
  next u heq => exact absurd (List.cons.inj heq).2 (h u)
  next u heq => simp at heq
  next => rfl

theorem read?_literal (h : ∀ u, t ≠ '\'' :: '\'' :: u) : read? ('\'' :: t) = readLiteral? false t := by
  unfold read?
  split
  next u heq => simp at heq
  next u heq => exact absurd (List.cons.inj heq).2 (h u)
  next => rfl

/-- **Every written text is read back**, and what follows it stays. -/
theorem read?_write (hrest : NoQuote rest) (s : List Char) : read? (write s ++ rest) = some (s, rest) := by
  unfold write
  cases hstyle : Style.of s with
  | basic =>
    simp only [List.cons_append, List.append_assoc, List.nil_append]
    rw [read?_basic, readBasic?_short]
    intro u hu
    cases s with
    | nil => exact hrest.1 (by rw [(List.cons.inj hu).2, List.head?_cons])
    | cons c s =>
      obtain ⟨d, t, hd, hne, -, -⟩ := exists_escapeChar c
      rw [List.flatMap_cons, hd] at hu
      exact hne (List.cons.inj hu).1
  | literal =>
    have hs := Style.of_eq_literal hstyle
    simp only [List.cons_append, List.append_assoc, List.nil_append]
    rw [read?_literal, readLiteral?_short hs]
    intro u hu
    cases s with
    | nil => exact hrest.2 (by rw [(List.cons.inj hu).2, List.head?_cons])
    | cons c s => exact (hs c List.mem_cons_self).2.1 (List.cons.inj hu).1
  | longBasic =>
    simp only [List.cons_append, List.append_assoc, List.nil_append, read?]
    rw [dropLineEnd_leadIn, readBasic?_long hrest.1 (Nat.zero_le 2)]
    intro hfeeds
    cases s with
    | nil => simp [escapeLong]
    | cons c s =>
      have hn : c ≠ '\n' := by
        rintro rfl
        simp at hfeeds
      obtain ⟨d, t, hd, -, hn', hr'⟩ := exists_escapeChar c
      rw [escapeLong, if_neg hn, hd, if_pos Nat.zero_lt_two]
      split_ifs
      · simp
      · simp [hn', hr']
  | longLiteral =>
    obtain ⟨hcontrols, hrun⟩ := Style.of_eq_longLiteral hstyle
    simp only [List.cons_append, List.append_assoc, List.nil_append, read?]
    rw [dropLineEnd_leadIn, readLiteral?_long hrest.2 hcontrols hrun]
    intro hfeeds
    cases s with
    | nil => simp
    | cons c s =>
      have hn : c ≠ '\n' := by
        rintro rfl
        simp at hfeeds
      have hr : c ≠ '\r' := by
        rintro rfl
        exact absurd (hcontrols '\r' List.mem_cons_self) (by decide)
      simp [hn, hr]

end MarkVeil.Toml

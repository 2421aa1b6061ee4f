/-
A text is its lines, each with what ends it.

A line that is not the last is followed by a terminator (`Terminates`), and behind the terminator the next line begins
(`LineAt.next`). So the text in front of a line is made of the lines before it and their terminators
(`lines_before`). Main result:
- `lines_lossless`: the index cuts a text into lines without loss (`Splits`).
-/
import MarkVeil.Proofs.Text.Lines

namespace MarkVeil.Text

/-- a line ends in a line feed, or in a carriage return and a line feed -/
def Terminates (line t : List Char) : Prop :=
  t = ['\r', '\n'] ∨ t = ['\n'] ∧ line.getLast? ≠ some '\r'

namespace LineIndex

/-- the text between the content of a line and the next line; none behind the last line -/
def terminator? (ix : LineIndex) (s : List Char) (line : Nat) : Option (List Char) :=
  (ix.stop? line).bind fun stop => (ix.start? (line + 1)).bind fun next => slice? s stop next

/-- a line and what ends it, as they stand in the text -/
def withTerminator (ix : LineIndex) (s : List Char) (line : Nat) : List Char :=
  (ix.text? s line).getD [] ++ (ix.terminator? s line).getD []

/-- the index cuts a text into lines without loss -/
structure Splits (ix : LineIndex) (s : List Char) : Prop where
  count : ix.count = s.count '\n' + 1
  len : ix.len = byteLen s
  first : ix.start? 0 = some 0
  /-- every line has an extent between two characters, and no line feed in it -/
  line : ∀ i < ix.count, ∃ e l, ix.extent? i = some e ∧ e.start ≤ e.stop ∧ IsPlace s e.start ∧ IsPlace s e.stop ∧
    ix.text? s i = some l ∧ '\n' ∉ l
  ascending : ∀ i j e f, i < j → ix.extent? i = some e → ix.extent? j = some f → e.start < f.start
  /-- behind a line stands the line feed that the next line begins after, with a carriage return in front of it if
  there is one -/
  terminator : ∀ i e f, ix.extent? i = some e → ix.extent? (i + 1) = some f → e.stop ≤ f.start ∧
    ∃ before rest, s = before ++ '\n' :: rest ∧ f.start = byteLen before + 1 ∧
      ix.terminator? s i = some (if before.getLast? = some '\r' then ['\r', '\n'] else ['\n'])
  last : ix.stop? (ix.count - 1) = some (byteLen s)
  /-- a carriage return at the end of the text belongs to the last line -/
  lone : s.getLast? = some '\r' → ∀ l, ix.text? s (ix.count - 1) = some l → l.getLast? = some '\r'
  whole : (List.range ix.count).flatMap (ix.withTerminator s) = s

end LineIndex

variable {s b l a b' l' a' t : List Char} {i j : Nat}

/-! ## One line after the other -/

theorem Terminates.getLast? (h : Terminates l t) : t.getLast? = some '\n' := by
  rcases h with rfl | ⟨rfl, -⟩ <;> rfl

theorem Terminates.count (h : Terminates l t) : t.count '\n' = 1 := by
  rcases h with rfl | ⟨rfl, -⟩ <;> decide

/-- before the line feed of a terminator stands a carriage return iff the terminator has one -/
theorem Terminates.exists_before (h : Terminates l t) (b : List Char) (hb : BeginsLine b) :
    ∃ before, b ++ l ++ t = before ++ ['\n'] ∧ t = if before.getLast? = some '\r' then ['\r', '\n'] else ['\n'] := by
  rcases h with rfl | ⟨rfl, hl⟩
  · refine ⟨b ++ l ++ ['\r'], by simp, ?_⟩
    rw [if_pos List.getLast?_concat]
  · refine ⟨b ++ l, rfl, ?_⟩
    rw [if_neg]
    intro hcr
    by_cases hnil : l = []
    · -- the line is empty, so the character in front of it would be the line feed that it begins after
      subst hnil
      rw [List.append_nil] at hcr
      rcases hb with rfl | hb
      · simp at hcr
      · rw [hb] at hcr
        exact absurd hcr (by decide)
    · rw [List.getLast?_append_of_ne_nil b hnil] at hcr
      exact hl hcr

namespace LineAt

theorem count_front (h : LineAt i b l a) : (b ++ l).count '\n' = i := by
  rw [List.count_append, h.number, List.count_eq_zero.2 h.noFeed, Nat.add_zero]

/-- **Behind a line and its terminator the next line begins.** -/
theorem next (h : LineAt i b l a) (ha : a ≠ []) :
    ∃ t l' a', a = t ++ l' ++ a' ∧ LineAt (i + 1) (b ++ l ++ t) l' a' ∧ Terminates l t := by
  obtain ⟨t, rest, rfl, ht⟩ : ∃ t rest, a = t ++ rest ∧ Terminates l t := by
    rcases h.ends with rfl | ⟨hhead, hl⟩ | ⟨rest, rfl⟩
    · exact absurd rfl ha
    · obtain ⟨rest, rfl⟩ := List.head?_eq_some_iff.1 hhead
      exact ⟨['\n'], rest, rfl, Or.inr ⟨rfl, hl⟩⟩
    · exact ⟨['\r', '\n'], rest, rfl, Or.inl rfl⟩
  obtain ⟨l', a', rfl, hl', ha'⟩ := exists_first_line rest
  refine ⟨t, l', a', by rw [List.append_assoc], ⟨?_, ?_, hl', ha'⟩, ht⟩
  · rw [List.count_append, h.count_front, ht.count]
  · have hne : t ≠ [] := by
      intro hnil
      have hlast := ht.getLast?
      rw [hnil] at hlast
      simp at hlast
    exact Or.inr (by rw [List.getLast?_append_of_ne_nil _ hne, ht.getLast?])

/-- nothing stands behind the last line -/
theorem after_eq_nil (h : LineAt i b l a) (hi : (b ++ l ++ a).count '\n' = i) : a = [] := by
  by_contra ha
  obtain ⟨t, l', a', rfl, hnext, -⟩ := h.next ha
  have hcount := hnext.number
  rw [← List.append_assoc, ← List.append_assoc, List.count_append, List.count_append, hcount] at hi
  omega

/-- a later line begins further on -/
theorem start_lt (h : LineAt i b l a) (h' : LineAt j b' l' a') (heq : b ++ l ++ a = b' ++ l' ++ a') (hij : i < j) :
    byteLen b < byteLen b' := by
  by_contra hle
  rw [List.append_assoc, List.append_assoc] at heq
  obtain ⟨m, rfl, -⟩ := append_split heq.symm (Nat.le_of_not_lt hle)
  have hcount := h.number
  rw [List.count_append, h'.number] at hcount
  omega

/-- there is one line of each number -/
theorem unique (h : LineAt i b l a) (h' : LineAt i b' l' a') (heq : b ++ l ++ a = b' ++ l' ++ a') :
    b = b' ∧ l = l' := by
  have hextent := LineIndex.extent?_of_lineAt h
  rw [heq, LineIndex.extent?_of_lineAt h', Option.some.injEq, Extent.mk.injEq] at hextent
  obtain ⟨hstart, hstop⟩ := hextent
  rw [List.append_assoc, List.append_assoc] at heq
  obtain ⟨rfl, hrest⟩ := append_inj_byteLen heq hstart.symm
  exact ⟨rfl, (append_inj_byteLen hrest (by omega)).1⟩

end LineAt

/-! ## Lines and terminators of the index -/

namespace LineIndex

theorem text?_of_lineAt (h : LineAt i b l a) : (ofText (b ++ l ++ a)).text? (b ++ l ++ a) i = some l := by
  rw [text?, extent?_of_lineAt h, Option.bind_some, slice?_append]

theorem terminator?_of_lineAt (h : LineAt i b l (t ++ l' ++ a')) (h' : LineAt (i + 1) (b ++ l ++ t) l' a') :
    (ofText (b ++ l ++ (t ++ l' ++ a'))).terminator? (b ++ l ++ (t ++ l' ++ a')) i = some t := by
  have hnext := extent?_of_lineAt h'
  have htext : b ++ l ++ t ++ l' ++ a' = b ++ l ++ (t ++ l' ++ a') := by simp
  rw [htext] at hnext
  rw [terminator?, stop?, start?, extent?_of_lineAt h, hnext]
  refine slice?_eq_some.2 ⟨b ++ l, l' ++ a', by simp, byteLen_append b l, ?_⟩
  rw [byteLen_append, byteLen_append]

/-- no terminator is behind the last line -/
theorem terminator?_last (h : LineAt i b l []) :
    (ofText (b ++ l ++ [])).terminator? (b ++ l ++ []) i = none := by
  have hnone : (ofText (b ++ l ++ [])).extent? (i + 1) = none := by
    refine List.getElem?_eq_none ?_
    have hcount := count_ofText (b ++ l)
    rw [h.count_front, count] at hcount
    rw [List.append_nil, hcount]
  rw [terminator?, start?, hnone]
  cases (ofText (b ++ l ++ [])).stop? i <;> rfl

theorem exists_lineAt_of_lt (h : i < (ofText s).count) : ∃ b l a, s = b ++ l ++ a ∧ LineAt i b l a := by
  rw [count_ofText] at h
  exact exists_lineAt s (Nat.le_of_lt_succ h)

/-- **The text in front of a line is the lines before it and their terminators.** -/
theorem lines_before (h : LineAt i b l a) :
    (List.range i).flatMap ((ofText (b ++ l ++ a)).withTerminator (b ++ l ++ a)) = b := by
  induction i generalizing b l a with
  | zero =>
    rcases h.begins with rfl | hb
    · rfl
    · exact absurd (List.mem_of_getLast? hb) (List.count_eq_zero.1 h.number)
  | succ i ih =>
    have hcount : i + 1 ≤ (b ++ l ++ a).count '\n' := by
      rw [List.append_assoc, List.count_append, h.number]
      exact Nat.le_add_right _ _
    obtain ⟨b₀, l₀, a₀, hs, hprev⟩ := exists_lineAt (b ++ l ++ a) (Nat.le_of_succ_le hcount)
    have hne : a₀ ≠ [] := by
      rintro rfl
      rw [hs, List.append_nil, hprev.count_front] at hcount
      omega
    obtain ⟨t, l', a', rfl, hnext, -⟩ := hprev.next hne
    obtain ⟨rfl, -⟩ := h.unique hnext (by rw [hs]; simp)
    rw [hs, List.range_succ, List.flatMap_append, ih hprev, List.flatMap_singleton, withTerminator,
      text?_of_lineAt hprev, terminator?_of_lineAt hprev hnext, Option.getD_some, Option.getD_some, List.append_assoc]

/-- the last line goes up to the end of the text -/
theorem exists_last (s : List Char) :
    ∃ b l, s = b ++ l ++ [] ∧ LineAt ((ofText s).count - 1) b l [] := by
  have hlast : (ofText s).count - 1 = s.count '\n' := by rw [count_ofText, Nat.add_sub_cancel]
  obtain ⟨b, l, a, rfl, h⟩ := exists_lineAt s le_rfl
  rw [hlast]
  obtain rfl := h.after_eq_nil rfl
  exact ⟨b, l, rfl, h⟩

theorem terminator_spec {e f : Extent} (he : (ofText s).extent? i = some e) (hf : (ofText s).extent? (i + 1) = some f) :
    e.stop ≤ f.start ∧ ∃ before rest, s = before ++ '\n' :: rest ∧ f.start = byteLen before + 1 ∧
      (ofText s).terminator? s i = some (if before.getLast? = some '\r' then ['\r', '\n'] else ['\n']) := by
  obtain ⟨b, l, a, rfl, h, rfl⟩ := extent?_eq_some.1 he
  obtain ⟨b', l', a', hs, h', rfl⟩ := extent?_eq_some.1 hf
  have hne : a ≠ [] := by
    rintro rfl
    have hcount := h.count_front
    rw [← List.append_nil (b ++ l), hs, List.append_assoc, List.count_append, h'.number] at hcount
    omega
  obtain ⟨t, l'', a'', rfl, hnext, ht⟩ := h.next hne
  obtain ⟨rfl, rfl⟩ := h'.unique hnext (by rw [← hs]; simp)
  obtain ⟨before, hbefore, hterm⟩ := ht.exists_before b h.begins
  have hstart : byteLen (b ++ l ++ t) = byteLen before + 1 := by
    rw [hbefore, byteLen_append]
    rfl
  refine ⟨?_, before, l' ++ a'', ?_, hstart, ?_⟩
  · simp only [byteLen_append]
    omega
  · calc b ++ l ++ (t ++ l' ++ a'') = b ++ l ++ t ++ (l' ++ a'') := by simp
      _ = before ++ ['\n'] ++ (l' ++ a'') := by rw [hbefore]
      _ = before ++ '\n' :: (l' ++ a'') := by simp
  · rw [terminator?_of_lineAt h hnext, ← hterm]

theorem start?_zero (s : List Char) : (ofText s).start? 0 = some 0 := by
  obtain ⟨stop, es, hes, -⟩ := scan_cons 0 0 false s
  rw [start?, extent?, ofText, hes]
  rfl

theorem stop?_last (s : List Char) : (ofText s).stop? ((ofText s).count - 1) = some (byteLen s) := by
  obtain ⟨b, l, hs, h⟩ := exists_last s
  have hextent := extent?_of_lineAt h
  rw [← hs] at hextent
  rw [stop?, hextent, Option.map_some, hs, List.append_nil, byteLen_append]

/-- the last line has a carriage return that the text ends in -/
theorem getLast?_last (hcr : s.getLast? = some '\r') (hl : (ofText s).text? s ((ofText s).count - 1) = some l) :
    l.getLast? = some '\r' := by
  obtain ⟨b, l', hs, h⟩ := exists_last s
  have htext := text?_of_lineAt h
  rw [← hs, hl, Option.some.injEq] at htext
  subst htext
  rw [hs, List.append_nil] at hcr
  by_cases hnil : l = []
  · subst hnil
    rw [List.append_nil] at hcr
    rcases h.begins with rfl | hb
    · simp at hcr
    · rw [hb] at hcr
      exact absurd hcr (by decide)
  · rwa [List.getLast?_append_of_ne_nil b hnil] at hcr

theorem flatMap_withTerminator (s : List Char) :
    (List.range (ofText s).count).flatMap ((ofText s).withTerminator s) = s := by
  obtain ⟨b, l, hs, h⟩ := exists_last s
  have hcount : (ofText s).count = (ofText s).count - 1 + 1 := by
    rw [count_ofText]
    rfl
  have hbefore := lines_before h
  have htext := text?_of_lineAt h
  have hlast := terminator?_last h
  rw [← hs] at hbefore htext hlast
  calc (List.range (ofText s).count).flatMap ((ofText s).withTerminator s)
      = b ++ (ofText s).withTerminator s ((ofText s).count - 1) := by
        rw [hcount, List.range_succ, List.flatMap_append, List.flatMap_singleton, Nat.add_sub_cancel, hbefore]
    _ = b ++ l ++ [] := by rw [withTerminator, htext, hlast, Option.getD_some, Option.getD_none, List.append_assoc]
    _ = s := hs.symm

/-- **The index cuts every text into lines without loss.** -/
theorem lines_lossless (s : List Char) : (ofText s).Splits s where
  count := count_ofText s
  len := rfl
  first := start?_zero s
  line := by
    intro i hi
    obtain ⟨b, l, a, rfl, h⟩ := exists_lineAt_of_lt hi
    exact ⟨_, l, extent?_of_lineAt h, Nat.le_add_right _ _, ⟨b, l ++ a, by simp, rfl⟩,
      ⟨b ++ l, a, rfl, byteLen_append b l⟩, text?_of_lineAt h, h.noFeed⟩
  ascending := by
    intro i j e f hij he hf
    obtain ⟨b, l, a, rfl, h, rfl⟩ := extent?_eq_some.1 he
    obtain ⟨b', l', a', hs, h', rfl⟩ := extent?_eq_some.1 hf
    exact h.start_lt h' hs hij
  terminator := fun _ _ _ he hf => terminator_spec he hf
  last := stop?_last s
  lone := fun hcr _ hl => getLast?_last hcr hl
  whole := flatMap_withTerminator s

/-- a carriage return that no line feed follows is not a terminator -/
example : (ofText "a\r\n\nb\r".toList).lines = [⟨0, 1⟩, ⟨3, 3⟩, ⟨4, 6⟩] := by decide

end LineIndex

end MarkVeil.Text

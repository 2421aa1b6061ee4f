/-
What the lines of a text are.

`LineAt i before line after` says that `line` is the content of line number `i` of the text `before ++ line ++ after`.
Main results:
- `extent?_eq_some`: the index has exactly the lines of the text;
- `lineOf_within`: an offset is on the line that has begun where it stands;
- `lineOf_mono`: a later offset is on no earlier line;
- `exists_onLine`: a text without line ends stands on one line.
-/
import MarkVeil.Proofs.Text.Place
import MarkVeil.Text.Lines

namespace MarkVeil.Text

/-- a line ends at the end of the text, at a line feed, or at a carriage return and a line feed -/
def EndsLine (line after : List Char) : Prop :=
  after = [] ∨ (after.head? = some '\n' ∧ line.getLast? ≠ some '\r') ∨ ∃ t, after = '\r' :: '\n' :: t

/-- a line begins at the start of the text or behind a line feed -/
def BeginsLine (before : List Char) : Prop := before = [] ∨ before.getLast? = some '\n'

/-- line number `i` stands between `before` and `after` -/
structure LineAt (i : Nat) (before line after : List Char) : Prop where
  number : before.count '\n' = i
  begins : BeginsLine before
  noFeed : '\n' ∉ line
  ends : EndsLine line after

/-- the bytes lie in the content of line number `i` -/
def OnLine (s : List Char) (i : Nat) (r : Extent) : Prop :=
  ∃ e, (LineIndex.ofText s).extent? i = some e ∧ e.start ≤ r.start ∧ r.stop ≤ e.stop

variable {s t a b k l m before line after : List Char} {i j n start pos p q : Nat} {cr : Bool} {e : Extent}

@[simp] theorem LineSpan.last_line (n : Nat) : (LineSpan.line n).last = n := by simp [line, ofLines, last]

/-! ## Cutting a text into lines -/

theorem exists_first_line (s : List Char) : ∃ l a, s = l ++ a ∧ '\n' ∉ l ∧ EndsLine l a := by
  by_cases h : '\n' ∈ s
  · obtain ⟨l, t, rfl, hl⟩ := List.eq_append_cons_of_mem h
    by_cases hcr : l.getLast? = some '\r'
    · obtain ⟨k, rfl⟩ := List.getLast?_eq_some_iff.1 hcr
      exact ⟨k, '\r' :: '\n' :: t, by simp, fun hk => hl (List.mem_append_left _ hk), Or.inr (Or.inr ⟨t, rfl⟩)⟩
    · exact ⟨l, '\n' :: t, rfl, hl, Or.inr (Or.inl ⟨rfl, hcr⟩)⟩
  · exact ⟨s, [], by simp, h, Or.inl rfl⟩

theorem exists_last_line (s : List Char) : ∃ b l, s = b ++ l ∧ BeginsLine b ∧ '\n' ∉ l := by
  induction s using List.reverseRecOn with
  | nil => exact ⟨[], [], rfl, Or.inl rfl, by simp⟩
  | append_singleton s c ih =>
    by_cases hc : c = '\n'
    · exact ⟨s ++ [c], [], by simp, Or.inr (by simp [hc]), by simp⟩
    · obtain ⟨b, l, rfl, hb, hl⟩ := ih
      exact ⟨b, l ++ [c], by simp, hb, by simpa [hl] using Ne.symm hc⟩

theorem BeginsLine.append_feed (l : List Char) (h : BeginsLine b) : BeginsLine (l ++ '\n' :: b) := by
  rcases h with rfl | hb
  · exact Or.inr (by simp)
  · obtain ⟨k, rfl⟩ := List.getLast?_eq_some_iff.1 hb
    rw [show l ++ '\n' :: (k ++ ['\n']) = (l ++ '\n' :: k) ++ ['\n'] by simp]
    exact Or.inr List.getLast?_concat

theorem exists_lineAt (s : List Char) (h : i ≤ s.count '\n') : ∃ b l a, s = b ++ l ++ a ∧ LineAt i b l a := by
  induction i generalizing s with
  | zero =>
    obtain ⟨l, a, rfl, hl, ha⟩ := exists_first_line s
    exact ⟨[], l, a, by simp, ⟨rfl, Or.inl rfl, hl, ha⟩⟩
  | succ i ih =>
    have hmem : '\n' ∈ s := List.count_pos_iff.1 (by omega)
    obtain ⟨l, t, rfl, hl⟩ := List.eq_append_cons_of_mem hmem
    have hcount : (l ++ ['\n']).count '\n' = 1 := by simp [List.count_eq_zero.2 hl]
    have ht : i ≤ t.count '\n' := by
      rw [List.append_cons, List.count_append, hcount] at h
      omega
    obtain ⟨b, k, a, rfl, hk⟩ := ih t ht
    refine ⟨l ++ '\n' :: b, k, a, by simp, ⟨?_, hk.begins.append_feed l, hk.noFeed, hk.ends⟩⟩
    rw [List.append_cons, List.count_append, hcount, hk.number, Nat.add_comm]

/-! ## The scan -/

namespace LineIndex

/-- after text without a line feed the scan is still on its line -/
theorem scan_append (h : '\n' ∉ m) (start pos : Nat) (cr : Bool) (s : List Char) :
    scan start pos cr (m ++ s) = scan start (pos + byteLen m) (m.getLast?.elim cr (· == '\r')) s := by
  induction m generalizing pos cr with
  | nil => rfl
  | cons c m ih =>
    have hc : ¬ c = '\n' := fun hc => h (hc ▸ List.mem_cons_self)
    have hm : '\n' ∉ m := fun hm => h (List.mem_cons_of_mem _ hm)
    rw [List.cons_append, scan, if_neg hc, ih hm, byteLen_cons, Nat.add_assoc]
    cases m with
    | nil => rfl
    | cons d m =>
      rw [List.getLast?_cons_cons]
      simp [List.getLast?_cons]

theorem scan_feed (start pos : Nat) (cr : Bool) (s : List Char) :
    scan start pos cr ('\n' :: s) = ⟨start, if cr then pos - 1 else pos⟩ :: scan (pos + 1) (pos + 1) false s := by
  rw [scan, if_pos rfl]

theorem length_scan (start pos : Nat) (cr : Bool) (s : List Char) :
    (scan start pos cr s).length = s.count '\n' + 1 := by
  induction s generalizing start pos cr with
  | nil => rfl
  | cons c s ih =>
    by_cases hc : c = '\n'
    · rw [hc, scan_feed, List.length_cons, ih, List.count_cons_self]
    · rw [scan, if_neg hc, ih, List.count_cons_of_ne hc]

/-- the first line begins where the scan says, all others behind the scanned text -/
theorem scan_cons (start pos : Nat) (cr : Bool) (s : List Char) :
    ∃ stop es, scan start pos cr s = ⟨start, stop⟩ :: es ∧ ∀ e ∈ es, pos < e.start := by
  induction s generalizing start pos cr with
  | nil => exact ⟨pos, [], rfl, by simp⟩
  | cons c s ih =>
    by_cases hc : c = '\n'
    · subst hc
      obtain ⟨stop, es, hes, hlt⟩ := ih (pos + 1) (pos + 1) false
      refine ⟨_, _, scan_feed start pos cr s, ?_⟩
      intro e he
      rw [hes] at he
      rcases List.mem_cons.1 he with rfl | he
      · exact Nat.lt_succ_self pos
      · have := hlt e he; omega
    · obtain ⟨stop, es, hes, hlt⟩ := ih start (pos + c.utf8Size) (c == '\r')
      refine ⟨stop, es, by rw [scan, if_neg hc, hes], ?_⟩
      intro e he
      have := hlt e he; omega

/-- where the line ends the scan closes its extent -/
theorem scan_line (hl : '\n' ∉ l) (ha : EndsLine l a) (pos : Nat) :
    ∃ es, scan pos pos false (l ++ a) = ⟨pos, pos + byteLen l⟩ :: es := by
  obtain ⟨stop, es, hes, -⟩ := scan_cons pos (pos + byteLen l) (l.getLast?.elim false (· == '\r')) a
  refine ⟨es, ?_⟩
  rw [scan_append hl, hes]
  suffices hstop : stop = pos + byteLen l by rw [hstop]
  rcases ha with rfl | ⟨ha, hcr⟩ | ⟨t, rfl⟩
  · injection hes with h1 h2
    injection h1 with h3 h4
    exact h4.symm
  · obtain ⟨t, rfl⟩ := List.head?_eq_some_iff.1 ha
    have hend : l.getLast?.elim false (· == '\r') = false := by
      cases hlast : l.getLast? with
      | none => rfl
      | some c => simpa [hlast] using hcr
    rw [scan_feed, hend] at hes
    injection hes with h1 h2
    injection h1 with h3 h4
    simpa using h4.symm
  · rw [scan, if_neg (by decide), scan_feed] at hes
    injection hes with h1 h2
    injection h1 with h3 h4
    have hsize : '\r'.utf8Size = 1 := rfl
    simpa [hsize] using h4.symm

/-- text up to a line start gives the lines before it -/
theorem scan_lines (h : before.getLast? = some '\n') (start pos : Nat) (cr : Bool) (s : List Char)
    (hle : start ≤ pos) :
    ∃ es, es.length = before.count '\n' ∧ (∀ e ∈ es, e.start ≤ pos + byteLen before) ∧
      scan start pos cr (before ++ s) = es ++ scan (pos + byteLen before) (pos + byteLen before) false s := by
  induction before generalizing start pos cr with
  | nil => simp at h
  | cons c before ih =>
    by_cases hnil : before = []
    · subst hnil
      obtain rfl : c = '\n' := by simpa using h
      exact ⟨[⟨start, if cr then pos - 1 else pos⟩], by simp, by simp; omega, by
        rw [List.cons_append, scan_feed]; rfl⟩
    · have hlast : before.getLast? = some '\n' := by
        obtain ⟨d, k, rfl⟩ := List.exists_cons_of_ne_nil hnil
        rwa [List.getLast?_cons_cons] at h
      by_cases hc : c = '\n'
      · subst hc
        obtain ⟨es, hlen, hstart, hes⟩ := ih hlast (pos + 1) (pos + 1) false le_rfl
        have hlen' : pos + byteLen ('\n' :: before) = pos + 1 + byteLen before := by
          rw [byteLen_cons, ← Nat.add_assoc]; rfl
        refine ⟨⟨start, if cr then pos - 1 else pos⟩ :: es, by simp [hlen], ?_, ?_⟩
        · intro e he
          rcases List.mem_cons.1 he with rfl | he
          · exact hle.trans (Nat.le_add_right _ _)
          · rw [hlen']; exact hstart e he
        · rw [List.cons_append, scan_feed, hes, hlen', List.cons_append]
      · obtain ⟨es, hlen, hstart, hes⟩ := ih hlast start (pos + c.utf8Size) (c == '\r') (by omega)
        rw [Nat.add_assoc] at hstart hes
        exact ⟨es, by rw [hlen, List.count_cons_of_ne hc], hstart, by rw [List.cons_append, scan, if_neg hc, hes]; rfl⟩

/-! ## The index -/

/-- the lines around a place: `k` stands between the start of its line and the place -/
theorem lines_split (hb : BeginsLine b) (hk : '\n' ∉ k) (rest : List Char) :
    ∃ es stop fs, (ofText (b ++ (k ++ rest))).lines = es ++ ⟨byteLen b, stop⟩ :: fs ∧
      es.length = b.count '\n' ∧ (∀ e ∈ es, e.start ≤ byteLen b) ∧
      (∀ e ∈ fs, byteLen b + byteLen k < e.start) ∧
      ∀ l a, rest = l ++ a → '\n' ∉ l → EndsLine (k ++ l) a → stop = byteLen b + byteLen (k ++ l) := by
  obtain ⟨stop, fs, hfs, hlt⟩ :=
    scan_cons (byteLen b) (byteLen b + byteLen k) (k.getLast?.elim false (· == '\r')) rest
  rw [← scan_append hk] at hfs
  have hstop : ∀ l a, rest = l ++ a → '\n' ∉ l → EndsLine (k ++ l) a → stop = byteLen b + byteLen (k ++ l) := by
    rintro l a rfl hl ha
    obtain ⟨fs', hfs'⟩ := scan_line (by simp [hk, hl]) ha (byteLen b)
    rw [List.append_assoc, hfs] at hfs'
    injection hfs' with h1 h2
    injection h1 with h3 h4
  rcases hb with rfl | hb
  · exact ⟨[], stop, fs, hfs, rfl, by simp, hlt, hstop⟩
  · obtain ⟨es, hlen, hle, hes⟩ := scan_lines hb 0 0 false (k ++ rest) le_rfl
    rw [Nat.zero_add] at hle hes
    exact ⟨es, stop, fs, by rw [ofText, hes, hfs], hlen, hle, hlt, hstop⟩

theorem extent?_of_lineAt (h : LineAt i before line after) :
    (ofText (before ++ line ++ after)).extent? i = some ⟨byteLen before, byteLen before + byteLen line⟩ := by
  obtain ⟨es, stop, fs, hlines, hlen, -, -, hstop⟩ := lines_split h.begins h.noFeed after
  obtain rfl : stop = byteLen before + byteLen line := by
    simpa using hstop [] after rfl (by simp) (by simpa using h.ends)
  rw [h.number] at hlen
  rw [extent?, List.append_assoc, hlines, List.getElem?_append_right hlen.le, hlen, Nat.sub_self,
    List.getElem?_cons_zero]

/-- **The index has exactly the lines of the text.** -/
theorem extent?_eq_some : (ofText s).extent? i = some e ↔
    ∃ b l a, s = b ++ l ++ a ∧ LineAt i b l a ∧ e = ⟨byteLen b, byteLen b + byteLen l⟩ := by
  constructor
  · intro h
    have hi : i ≤ s.count '\n' := by
      have hlt : i < (scan 0 0 false s).length := (List.getElem?_eq_some_iff.1 h).1
      rw [length_scan] at hlt
      omega
    obtain ⟨b, l, a, rfl, hl⟩ := exists_lineAt s hi
    rw [extent?_of_lineAt hl] at h
    exact ⟨b, l, a, rfl, hl, (Option.some.inj h).symm⟩
  · rintro ⟨b, l, a, rfl, hl, rfl⟩
    exact extent?_of_lineAt hl

/-- a line's extent holds its content -/
theorem text?_eq_some : (ofText s).text? s i = some l ↔
    ∃ e, (ofText s).extent? i = some e ∧ slice? s e.start e.stop = some l ∧ e.stop = e.start + byteLen l := by
  constructor
  · intro h
    obtain ⟨e, he, hl⟩ := Option.bind_eq_some_iff.1 h
    obtain ⟨a, b, -, -, hstop⟩ := slice?_eq_some.1 hl
    exact ⟨e, he, hl, hstop⟩
  · rintro ⟨e, he, hl, -⟩
    exact Option.bind_eq_some_iff.2 ⟨e, he, hl⟩

/-- **An offset behind a text without a line feed is on the line where that text begins.** -/
theorem lineOf_within (hm : '\n' ∉ m) (b : List Char) (h1 : byteLen a ≤ p) (h2 : p ≤ byteLen a + byteLen m) :
    (ofText (a ++ (m ++ b))).lineOf p = a.count '\n' := by
  obtain ⟨before, k, rfl, hbefore, hk⟩ := exists_last_line a
  obtain ⟨es, stop, fs, hlines, hlen, hes, hfs, -⟩ :=
    lines_split (k := k ++ m) hbefore (by simp [hk, hm]) b
  rw [byteLen_append] at h1 h2 hfs
  have htake : (ofText (before ++ k ++ (m ++ b))).lines.takeWhile (·.start ≤ p) = es ++ [⟨byteLen before, stop⟩] := by
    rw [show before ++ k ++ (m ++ b) = before ++ (k ++ m ++ b) by simp, hlines,
      List.takeWhile_append_of_pos fun e he => by have := hes e he; simp; omega,
      List.takeWhile_cons_of_pos (by simp; omega)]
    cases fs with
    | nil => rfl
    | cons f fs =>
      have := hfs f List.mem_cons_self
      rw [List.takeWhile_cons_of_neg (by simp; omega)]
  rw [lineOf, htake, List.length_append, List.length_singleton, Nat.add_sub_cancel, hlen, List.count_append,
    List.count_eq_zero.2 hk, Nat.add_zero]

/-- lines up to that of a line start begin at or before it -/
theorem start?_le (hb : BeginsLine b) (hi : i ≤ b.count '\n') (h : (ofText (b ++ t)).start? i = some p) :
    p ≤ byteLen b := by
  obtain ⟨es, stop, fs, hlines, hlen, hes, -⟩ := lines_split (k := []) hb (by simp) t
  obtain ⟨e, he, rfl⟩ := Option.map_eq_some_iff.1 h
  rw [extent?, show b ++ t = b ++ ([] ++ t) from rfl, hlines] at he
  by_cases hlt : i < es.length
  · rw [List.getElem?_append_left hlt] at he
    exact hes e (List.mem_of_getElem? he)
  · obtain rfl : i = es.length := by omega
    rw [List.getElem?_append_right le_rfl, Nat.sub_self, List.getElem?_cons_zero] at he
    obtain rfl := Option.some.inj he
    exact le_rfl

theorem lineOf_append (a t : List Char) : (ofText (a ++ t)).lineOf (byteLen a) = a.count '\n' :=
  lineOf_within (m := []) (by simp) t le_rfl (by simp)

/-- **Offsets in the content of a line, its end included, are on that line.** -/
theorem lineOf_of_extent? (h : (ofText s).extent? i = some e) (h1 : e.start ≤ p) (h2 : p ≤ e.stop) :
    (ofText s).lineOf p = i := by
  obtain ⟨b, l, a, rfl, hl, rfl⟩ := extent?_eq_some.1 h
  rw [List.append_assoc, lineOf_within hl.noFeed a h1 h2]
  exact hl.number

/-- **A later offset is on no earlier line**, whatever lines an index has. -/
theorem lineOf_mono (ix : LineIndex) (h : p ≤ q) : ix.lineOf p ≤ ix.lineOf q := by
  refine Nat.sub_le_sub_right ?_ 1
  induction ix.lines with
  | nil => exact le_rfl
  | cons e es ih =>
    by_cases he : e.start ≤ p
    · rw [List.takeWhile_cons_of_pos (by simpa using he), List.takeWhile_cons_of_pos (by simpa using he.trans h)]
      exact Nat.succ_le_succ ih
    · rw [List.takeWhile_cons_of_neg (by simpa using he)]
      exact Nat.zero_le _

/-- between two offsets on a line all offsets are on it -/
theorem lineOf_between {ix : LineIndex} (hi : ix.lineOf i = n) (hj : ix.lineOf j = n) (h1 : i ≤ p) (h2 : p ≤ j) :
    ix.lineOf p = n := by
  have hle := lineOf_mono ix h1
  have hge := lineOf_mono ix h2
  omega

theorem count_ofText (s : List Char) : (ofText s).count = s.count '\n' + 1 := length_scan 0 0 false s

/-- no offset is on a line that the text does not have -/
theorem lineOf_lt_count (s : List Char) (p : Nat) : (ofText s).lineOf p < (ofText s).count := by
  have hle := ((ofText s).lines.takeWhile_sublist (·.start ≤ p)).length_le
  have hcount := count_ofText s
  rw [lineOf, hcount]
  rw [← count, hcount] at hle
  omega

/-- offsets up to where a line's content stops are on no later line -/
theorem lineOf_le_of_stop? (h : (ofText s).stop? i = some q) (hp : p ≤ q) : (ofText s).lineOf p ≤ i := by
  obtain ⟨e, he, rfl⟩ := Option.map_eq_some_iff.1 h
  obtain ⟨b, l, a, rfl, -, rfl⟩ := extent?_eq_some.1 he
  exact (lineOf_mono _ hp).trans (lineOf_of_extent? he (Nat.le_add_right _ _) le_rfl).le

/-- a line begins before its content stops -/
theorem start_le_stop (h : (ofText s).extent? i = some e) : e.start ≤ e.stop := by
  obtain ⟨b, l, a, rfl, -, rfl⟩ := extent?_eq_some.1 h
  exact Nat.le_add_right _ _

/-- the content of a later line stops no earlier -/
theorem stop_le_stop {f : Extent} (he : (ofText s).extent? i = some e) (hf : (ofText s).extent? j = some f)
    (hij : i ≤ j) : e.stop ≤ f.stop := by
  by_contra hlt
  have hle : f.stop ≤ e.stop := by omega
  have hstop : (ofText s).stop? i = some e.stop := by rw [stop?, he, Option.map_some]
  have hj : (ofText s).lineOf f.stop = j := lineOf_of_extent? hf (start_le_stop hf) le_rfl
  have hji : j ≤ i := hj ▸ lineOf_le_of_stop? hstop hle
  obtain rfl : i = j := le_antisymm hij hji
  rw [he, Option.some.injEq] at hf
  subst hf
  exact hlt le_rfl

end LineIndex

/-! ## Texts on one line -/

theorem EndsLine.append (h : EndsLine l a) (hcr : m.getLast? ≠ some '\r') : EndsLine (m ++ l) a := by
  rcases h with rfl | ⟨ha, hl⟩ | ht
  · exact Or.inl rfl
  · refine Or.inr (Or.inl ⟨ha, ?_⟩)
    rw [List.getLast?_append]
    cases hlast : l.getLast? with
    | none => simpa using hcr
    | some c => rw [hlast] at hl; simpa using hl
  · exact Or.inr (Or.inr ht)

/-- the line around a text without line ends -/
theorem exists_line_around (a b : List Char) (hne : m ≠ []) (hlf : '\n' ∉ m) (hcr : '\r' ∉ m) :
    ∃ before k l after, a = before ++ k ∧ b = l ++ after ∧ LineAt (a.count '\n') before (k ++ m ++ l) after := by
  obtain ⟨before, k, rfl, hbefore, hk⟩ := exists_last_line a
  obtain ⟨l, after, rfl, hl, hafter⟩ := exists_first_line b
  have hends : EndsLine (k ++ m ++ l) after := by
    refine hafter.append ?_
    intro hlast
    rw [List.getLast?_append_of_ne_nil k hne] at hlast
    exact hcr (List.mem_of_getLast? hlast)
  have hcount : before.count '\n' = (before ++ k).count '\n' := by
    rw [List.count_append, List.count_eq_zero.2 hk, Nat.add_zero]
  exact ⟨before, k, l, after, rfl, rfl, hcount, hbefore, by simp [hk, hlf, hl], hends⟩

/-- **A text without line ends stands on one line.** -/
theorem exists_onLine (h : slice? s p q = some m) (hne : m ≠ []) (hlf : '\n' ∉ m) (hcr : '\r' ∉ m) :
    ∃ i, OnLine s i ⟨p, q⟩ := by
  obtain ⟨a, b, rfl, rfl, rfl⟩ := slice?_eq_some.1 h
  obtain ⟨before, k, l, after, rfl, rfl, hline⟩ := exists_line_around a b hne hlf hcr
  have htext : before ++ k ++ m ++ (l ++ after) = before ++ (k ++ m ++ l) ++ after := by simp
  refine ⟨_, _, htext ▸ LineIndex.extent?_of_lineAt hline, ?_, ?_⟩
  · simp only [byteLen_append]; omega
  · simp only [byteLen_append]; omega

end MarkVeil.Text

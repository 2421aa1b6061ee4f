/-
The line and column of an offset.

`Contains i o` says that line `i` has begun at offset `o` and the next one has not. The lines that have begun at an
offset are the first ones, so `lineOf`, which counts them, finds the one line that contains it (`lineOf_eq_iff`).
Main result:
- `position_exact`: what the line and column of each offset are, and how they grow (`Locates`).
-/
import MarkVeil.Proofs.Text.Terminators

namespace MarkVeil.Text

/-- an earlier line, or the same line further left -/
def Position.Before (p q : Position) : Prop := p.line < q.line ∨ p.line = q.line ∧ p.column < q.column

namespace LineIndex

/-- line `i` has begun at the offset and the next line, if there is one, has not -/
structure Contains (ix : LineIndex) (i o : Nat) : Prop where
  begun : ∃ p, ix.start? i = some p ∧ p ≤ o
  goesOn : i + 1 = ix.count ∨ ∃ q, ix.start? (i + 1) = some q ∧ o < q

/-- lines and positions are where the offsets of a text of that length are -/
structure Locates (ix : LineIndex) (len : Nat) : Prop where
  line_iff : ∀ o i, ix.lineOf o = i ↔ ix.Contains i o
  line_mono : ∀ o o', o ≤ o' → ix.lineOf o ≤ ix.lineOf o'
  /-- from the start of a line through the end of its content all offsets are on it -/
  content : ∀ i e o, ix.extent? i = some e → e.start ≤ o → o ≤ e.stop → ix.lineOf o = i
  position_line : ∀ o, (ix.position o).line = ix.lineOf o
  column : ∀ o, ∃ p, ix.start? (ix.position o).line = some p ∧ p + (ix.position o).column = min o len
  increasing : ∀ o o', o < o' → o' ≤ len → (ix.position o).Before (ix.position o')
  injective : ∀ o o', o ≤ len → o' ≤ len → ix.position o = ix.position o' → o = o'
  constant : ∀ o, len ≤ o → ix.position o = ix.position len

variable {s : List Char} {i j o o' p q : Nat}

/-! ## Starts of lines -/

theorem exists_start? (h : i < (ofText s).count) : ∃ p, (ofText s).start? i = some p :=
  ⟨_, by rw [start?, extent?, List.getElem?_eq_getElem h, Option.map_some]⟩

/-- the start of a line is on it -/
theorem lineOf_start (h : (ofText s).start? i = some p) : (ofText s).lineOf p = i := by
  obtain ⟨e, he, rfl⟩ := Option.map_eq_some_iff.1 h
  exact lineOf_of_extent? he le_rfl (start_le_stop he)

/-- later lines begin later -/
theorem start_le_start (hp : (ofText s).start? i = some p) (hq : (ofText s).start? j = some q) (hij : i ≤ j) :
    p ≤ q := by
  obtain ⟨e, he, rfl⟩ := Option.map_eq_some_iff.1 hp
  obtain ⟨f, hf, rfl⟩ := Option.map_eq_some_iff.1 hq
  rcases hij.lt_or_eq with hlt | rfl
  · obtain ⟨b, l, a, rfl, h, rfl⟩ := extent?_eq_some.1 he
    obtain ⟨b', l', a', hs', h', rfl⟩ := extent?_eq_some.1 hf
    exact (h.start_lt h' hs' hlt).le
  · rw [he, Option.some.injEq] at hf
    exact (congrArg Extent.start hf).le

/-- the line of an offset has begun there -/
theorem exists_start?_lineOf (s : List Char) (o : Nat) :
    ∃ p, (ofText s).start? ((ofText s).lineOf o) = some p ∧ p ≤ o := by
  have hbegun : (ofText s).lines.takeWhile (·.start ≤ o) <+: (ofText s).lines := List.takeWhile_prefix _
  -- the first line begins at 0, so some line has begun
  have hpos : 0 < ((ofText s).lines.takeWhile (·.start ≤ o)).length := by
    obtain ⟨stop, es, hlines, -⟩ := scan_cons 0 0 false s
    rw [ofText, hlines, List.takeWhile_cons_of_pos (by simp)]
    exact Nat.succ_pos _
  have hlt : (ofText s).lineOf o < ((ofText s).lines.takeWhile (·.start ≤ o)).length := Nat.sub_lt hpos Nat.one_pos
  have hline := hbegun.getElem hlt
  have hstart : ((ofText s).lines.takeWhile (·.start ≤ o))[(ofText s).lineOf o].start ≤ o := by
    simpa using List.all_eq_true.1 List.all_takeWhile _ (List.getElem_mem hlt)
  refine ⟨_, ?_, hstart⟩
  rw [start?, extent?, hline, List.getElem?_eq_getElem, Option.map_some]

/-! ## The line of an offset -/

/-- **The line of an offset is the one that contains it.** -/
theorem lineOf_eq_iff : (ofText s).lineOf o = i ↔ (ofText s).Contains i o := by
  constructor
  · rintro rfl
    refine ⟨exists_start?_lineOf s o, ?_⟩
    by_cases hlast : (ofText s).lineOf o + 1 = (ofText s).count
    · exact Or.inl hlast
    have hlt := lineOf_lt_count s o
    obtain ⟨q, hq⟩ := exists_start? (s := s) (i := (ofText s).lineOf o + 1) (by omega)
    refine Or.inr ⟨q, hq, ?_⟩
    by_contra hle
    -- the next line would have begun, and the offset would be on it or further down
    have hmono := lineOf_mono (ofText s) (Nat.le_of_not_lt hle)
    rw [lineOf_start hq] at hmono
    omega
  · rintro ⟨⟨p, hp, hpo⟩, hnext⟩
    have hge := lineOf_mono (ofText s) hpo
    rw [lineOf_start hp] at hge
    rcases hnext with hlast | ⟨q, hq, hoq⟩
    · have hlt := lineOf_lt_count s o
      omega
    · by_contra hne
      obtain ⟨r, hr, hro⟩ := exists_start?_lineOf s o
      have hqr : q ≤ r := start_le_start hq hr (by omega)
      omega

/-- all offsets from the end of the text on are on the last line -/
theorem lineOf_min (s : List Char) (o : Nat) : (ofText s).lineOf (min o (byteLen s)) = (ofText s).lineOf o := by
  rcases Nat.le_total o (byteLen s) with hle | hle
  · rw [Nat.min_eq_left hle]
  rw [Nat.min_eq_right hle]
  have hend : (ofText s).lineOf (byteLen s) = (ofText s).count - 1 := by
    obtain ⟨e, he, hstop⟩ := Option.map_eq_some_iff.1 (stop?_last s)
    exact lineOf_of_extent? he (hstop ▸ start_le_stop he) hstop.ge
  have hmono := lineOf_mono (ofText s) hle
  have hlt := lineOf_lt_count s o
  omega

/-! ## Positions -/

theorem position_line (s : List Char) (o : Nat) : ((ofText s).position o).line = (ofText s).lineOf o := lineOf_min s o

/-- **Start of the line and column add up to the offset.** -/
theorem exists_column (s : List Char) (o : Nat) : ∃ p, (ofText s).start? ((ofText s).position o).line = some p ∧
    p + ((ofText s).position o).column = min o (byteLen s) := by
  obtain ⟨p, hp, hle⟩ := exists_start?_lineOf s (min o (byteLen s))
  refine ⟨p, hp, ?_⟩
  have hcolumn : ((ofText s).position o).column = min o (byteLen s) - p := by
    rw [position]
    simp only [show (ofText s).len = byteLen s from rfl, hp, Option.getD_some]
  rw [hcolumn]
  omega

/-- **A later offset of the text has a later position.** -/
theorem position_before (hlt : o < o') (hle : o' ≤ byteLen s) :
    ((ofText s).position o).Before ((ofText s).position o') := by
  have hmono := lineOf_mono (ofText s) hlt.le
  rw [← position_line, ← position_line] at hmono
  rcases hmono.lt_or_eq with hline | hline
  · exact Or.inl hline
  obtain ⟨p, hp, hcolumn⟩ := exists_column s o
  obtain ⟨q, hq, hcolumn'⟩ := exists_column s o'
  rw [hline, hq, Option.some.injEq] at hp
  exact Or.inr ⟨hline, by omega⟩

/-- **Lines and positions are where the offsets of the text are.** -/
theorem position_exact (s : List Char) : (ofText s).Locates (byteLen s) where
  line_iff := fun _ _ => lineOf_eq_iff
  line_mono := fun _ _ h => lineOf_mono (ofText s) h
  content := fun _ _ _ he h1 h2 => lineOf_of_extent? he h1 h2
  position_line := position_line s
  column := exists_column s
  increasing := fun _ _ hlt hle => position_before hlt hle
  injective := by
    intro o o' ho ho' heq
    obtain ⟨p, hp, hcolumn⟩ := exists_column s o
    obtain ⟨q, hq, hcolumn'⟩ := exists_column s o'
    rw [heq, hq, Option.some.injEq] at hp
    rw [heq] at hcolumn
    omega
  constant := by
    intro o hle
    rw [position, position]
    simp only [show (ofText s).len = byteLen s from rfl, Nat.min_eq_right hle, Nat.min_self]

/-- both bytes of a terminator are on the line that they end -/
example : (List.range 6).map (ofText "a\r\nb".toList).position = [⟨0, 0⟩, ⟨0, 1⟩, ⟨0, 2⟩, ⟨1, 0⟩, ⟨1, 1⟩, ⟨1, 1⟩] := by
  decide

end LineIndex

end MarkVeil.Text

/-
One text carried over to another.

A `Move` says where the offsets and the lines of a text are in another one, and a `Scope` which lines and which needles
a search may name. `Carries` holds of two texts when every search within the scope comes to the moved place: lines have
the same content and stand at moved offsets, and what is looked for beyond a line is found at a moved offset or in
neither text. From these few facts every search of a source commutes with the move (`findOnLine?`, `findForward?`).
-/
import MarkVeil.Proofs.Text.Context
import MarkVeil.Proofs.Text.Source
import MarkVeil.Marker.CodeSpan

namespace MarkVeil.Text

open MarkVeil.Marker

/-- where offsets go, and how many lines further on lines are -/
structure Move where
  offset : Nat → Nat
  lines : Nat

namespace Move

def extent (m : Move) (e : Extent) : Extent := ⟨m.offset e.start, m.offset e.stop⟩

def span (m : Move) (s : LineSpan) : LineSpan := ⟨m.lines + s.start, m.lines + s.stop⟩

theorem last_span (m : Move) (s : LineSpan) : (m.span s).last = m.lines + s.last := by
  simp only [span, LineSpan.last]
  omega

end Move

/-- what searches may name -/
structure Scope where
  /-- a line, or none for the whole text -/
  line : Option Nat → Prop
  /-- what is looked for beyond a line -/
  needle : List Char → Prop

/-- a search stops where a line of the scope does, or at the end of the text if that is in the scope -/
def Scope.Stops (sc : Scope) (s : List Char) (stop : Nat) : Prop :=
  (∃ i, sc.line (some i) ∧ (Source.ofText s).lines.stop? i = some stop) ∨ sc.line none ∧ stop = byteLen s

/-- the text `t` carries the text `s` -/
structure Carries (m : Move) (sc : Scope) (s t : List Char) : Prop where
  mono : StrictMono m.offset
  /-- texts without line ends may be looked for -/
  plain : ∀ {x}, '\n' ∉ x → '\r' ∉ x → sc.needle x
  earlier : ∀ {i j}, sc.line (some i) → j ≤ i → sc.line (some j)
  missing : ∀ {i}, sc.line (some i) → (Source.ofText s).lines.extent? i = none → sc.line none
  extent : ∀ {i}, sc.line (some i) →
    (Source.ofText t).lines.extent? (m.lines + i) = ((Source.ofText s).lines.extent? i).map m.extent
  text : ∀ {i}, sc.line (some i) → (Source.ofText t).lineText? (m.lines + i) = (Source.ofText s).lineText? i
  /-- lines are not stretched -/
  onLine : ∀ {i e x}, sc.line (some i) → (Source.ofText s).lines.extent? i = some e → e.start + x ≤ e.stop →
    m.offset (e.start + x) = m.offset e.start + x
  /-- nor are needles -/
  onNeedle : ∀ {x i}, sc.needle x → slice? s i (i + byteLen x) = some x →
    m.offset (i + byteLen x) = m.offset i + byteLen x
  whole : sc.line none → m.offset 0 = 0 ∧ m.offset (byteLen s) = byteLen t
  between : ∀ {x start stop}, sc.needle x → x ≠ [] → sc.Stops s stop →
    (Source.ofText t).findBetween? (m.offset start) (m.offset stop) x =
      ((Source.ofText s).findBetween? start stop x).map m.offset
  before : ∀ {content x}, sc.line none → sc.needle content → sc.needle x →
    (Source.ofText t).findBefore? content x = ((Source.ofText s).findBefore? content x).map m.offset
  after : ∀ {content x}, sc.line none → sc.needle content → sc.needle x →
    (Source.ofText t).findAfter? content x = ((Source.ofText s).findAfter? content x).map m.offset
  /-- a run of backticks that begins on a line -/
  ticksOn : ∀ {i start run}, sc.line (some i) →
    ((findRun? t (m.offset start) run).filter fun p => (Source.ofText t).lines.lineOf p == m.lines + i) =
      ((findRun? s start run).filter fun p => (Source.ofText s).lines.lineOf p == i).map m.offset
  /-- a run of backticks that ends in time -/
  ticksTo : ∀ {start stop run}, sc.Stops s stop →
    ((findRun? t (m.offset start) run).filter fun p => p + run ≤ m.offset stop) =
      ((findRun? s start run).filter fun p => p + run ≤ stop).map m.offset

namespace Carries

variable {m : Move} {sc : Scope} {s t x : List Char} {i j base cursor start : Nat} {line? : Option Nat}

section

variable (h : Carries m sc s t)
include h

theorem start? (hi : sc.line (some i)) :
    (Source.ofText t).lines.start? (m.lines + i) = ((Source.ofText s).lines.start? i).map m.offset := by
  rw [LineIndex.start?, h.extent hi, LineIndex.start?, Option.map_map, Option.map_map]
  rfl

theorem stop? (hi : sc.line (some i)) :
    (Source.ofText t).lines.stop? (m.lines + i) = ((Source.ofText s).lines.stop? i).map m.offset := by
  rw [LineIndex.stop?, h.extent hi, LineIndex.stop?, Option.map_map, Option.map_map]
  rfl

theorem hasLine (hi : sc.line (some i)) : (Source.ofText t).hasLine (m.lines + i) = (Source.ofText s).hasLine i := by
  have hsome : ∀ (u : List Char) (k : Nat),
      (Source.ofText u).hasLine k = ((Source.ofText u).lines.extent? k).isSome := by
    intro u k
    rw [Source.hasLine, LineIndex.count, LineIndex.extent?, Bool.eq_iff_iff, decide_eq_true_eq,
      isSome_getElem?]
  rw [hsome, hsome, h.extent hi, Option.isSome_map]

/-- offsets on a line keep their distance from its start -/
theorem offset_add (hi : sc.line (some i)) (hbase : (Source.ofText s).lines.start? i = some base)
    (htext : (Source.ofText s).lineText? i = some x) (hj : j ≤ byteLen x) :
    m.offset (base + j) = m.offset base + j := by
  obtain ⟨hextent, -⟩ := Source.extent?_of_lineText? hbase htext
  refine h.onLine hi hextent ?_
  simp only
  omega

theorem scanStart? (hi : sc.line (some i)) (cursor : Nat) :
    (Source.ofText t).scanStart? (m.lines + i) (m.offset cursor) =
      ((Source.ofText s).scanStart? i cursor).map m.offset := by
  rw [Source.scanStart?, h.extent hi, Source.scanStart?, Option.map_map, Option.map_map]
  refine congrArg (Option.map · _) (funext fun e => ?_)
  simp only [Function.comp_apply, Move.extent, h.mono.le_iff_le]
  exact (apply_ite m.offset _ _ _).symm

/-- a search on the rest of a line comes to the same character -/
theorem findBetween?_onLine {e : Extent} (hi : sc.line (some i))
    (he : (Source.ofText s).lines.extent? i = some e) (h1 : e.start ≤ start) (h2 : start ≤ e.stop) :
    (Source.ofText t).findBetween? (m.offset start) (m.offset e.stop) x =
      ((Source.ofText s).findBetween? start e.stop x).map m.offset := by
  obtain ⟨b, l, a, hs, hl, rfl⟩ := LineIndex.extent?_eq_some.1 he
  obtain ⟨k, rfl⟩ := Nat.exists_eq_add_of_le h1
  simp only at h2
  have hk : k ≤ byteLen l := by omega
  -- both slices are the same rest of the line
  have hslice : slice? s (byteLen b) (byteLen b + byteLen l) = some l := slice?_eq_some.2 ⟨b, a, hs, rfl, rfl⟩
  have hslice' : slice? t (m.offset (byteLen b)) (m.offset (byteLen b) + byteLen l) = some l := by
    have htext : (Source.ofText s).lineText? i = some l := LineIndex.text?_eq_some.2 ⟨_, he, hslice, rfl⟩
    have htext' : (Source.ofText t).lineText? (m.lines + i) = some l := (h.text hi).trans htext
    obtain ⟨e', he', hl', hstop⟩ := LineIndex.text?_eq_some.1 htext'
    have hextent := h.extent hi
    rw [he, Option.map_some] at hextent
    obtain rfl : e' = m.extent ⟨byteLen b, byteLen b + byteLen l⟩ := Option.some.inj (he'.symm.trans hextent)
    rw [hstop] at hl'
    exact hl'
  have hoff : ∀ j ≤ byteLen l, m.offset (byteLen b + j) = m.offset (byteLen b) + j := by
    intro j hj
    refine h.onLine hi he ?_
    simp only
    omega
  rw [Source.findBetween?, Source.findBetween?, hoff k hk, hoff (byteLen l) le_rfl]
  change ((slice? t _ _).bind _) = ((slice? s _ _).bind _).map _
  rw [slice?_of_slice? hslice' le_rfl, slice?_of_slice? hslice le_rfl]
  cases hrest : slice? l k (byteLen l) with
  | none => rfl
  | some rest =>
    obtain ⟨c, d, rfl, rfl, hlen⟩ := slice?_eq_some.1 hrest
    rw [Option.bind_some, Option.bind_some, Option.map_map]
    cases hfind : find? x rest with
    | none => rfl
    | some p =>
      obtain ⟨u, v, rfl, rfl⟩ := of_find? hfind
      rw [Option.map_some, Option.map_some, Option.some.injEq, Function.comp_apply, Nat.add_assoc, Nat.add_assoc,
        hoff _ (by simp only [byteLen_append]; omega)]

/-- **A search on a line comes to the moved place.** -/
theorem findOnLine? (hi : sc.line (some i)) :
    (Source.ofText t).findOnLine? (m.lines + i) x (m.offset cursor) =
      ((Source.ofText s).findOnLine? i x cursor).map m.offset := by
  rw [Source.findOnLine?, Source.findOnLine?]
  split_ifs
  · rfl
  · rw [h.scanStart? hi cursor, h.stop? hi]
    cases he : (Source.ofText s).lines.extent? i with
    | none =>
      rw [Source.scanStart?, he]
      rfl
    | some e =>
      obtain ⟨b, l, a, -, -, rfl⟩ := LineIndex.extent?_eq_some.1 he
      have hstop : (Source.ofText s).lines.stop? i = some (byteLen b + byteLen l) := by
        rw [LineIndex.stop?, he, Option.map_some]
      rw [Source.scanStart?, he, hstop]
      simp only [Option.map_some, Option.bind_some]
      split_ifs with hc
      · exact h.findBetween?_onLine hi he hc.1 hc.2
      · exact h.findBetween?_onLine hi he le_rfl (Nat.le_add_right _ _)

/-- **A search up to the end of a line, or of the text, comes to the moved place.** -/
theorem findForward? (hline : sc.line line?) (hx : sc.needle x) :
    (Source.ofText t).findForward? (m.offset start) (line?.map (m.lines + ·)) x =
      ((Source.ofText s).findForward? start line? x).map m.offset := by
  unfold Source.findForward?
  split_ifs with hnil
  · rfl
  · have hne : x ≠ [] := by simpa using hnil
    cases line? with
    | none =>
      change Source.findBetween? _ _ (byteLen t) _ = Option.map _ (Source.findBetween? _ _ (byteLen s) _)
      rw [← (h.whole hline).2]
      exact h.between hx hne (Or.inr ⟨hline, rfl⟩)
    | some i =>
      simp only [Option.map_some]
      rw [h.stop? hline]
      cases hstop : (Source.ofText s).lines.stop? i with
      | none => rfl
      | some stop => exact h.between hx hne (Or.inl ⟨i, hline, hstop⟩)

end

end Carries

end MarkVeil.Text

/-
Code spans.

`TicksAt` says that a run of exactly so many backticks stands at an offset, with no backtick on either side. A code span
opens at the first run of its length, `Least` from an offset on, and closes at the next; longer and shorter runs,
before it, in it and right behind it, do not count.
Main result:
- `codeSpan_exact`: a code span whose two runs stand on its lines gives a hide for each run and a style for what is
  between them, and moves the cursor past it; every other one gives nothing and changes nothing.
-/
import MarkVeil.Proofs.Decoration.Origin
import MarkVeil.Proofs.Phrase.Handlers

namespace MarkVeil.Decoration

open MarkVeil.Text
open MarkVeil.Token (Node)
open MarkVeil.Marker (RunFrom findRun?_eq_some)

variable {s : List Char} {n : Node} {span : LineSpan} {sc : Scan} {len start cursor line p q first last : Nat}

/-! ## Runs of backticks -/

/-- a run of exactly `len` backticks stands at an offset, and no backtick on either side of it -/
def TicksAt (s : List Char) (len p : Nat) : Prop :=
  ∃ a b, s = a ++ (List.replicate len '`' ++ b) ∧ byteLen a = p ∧ a.getLast? ≠ some '`' ∧ b.head? ≠ some '`'

/-- no backtick stands right before an offset -/
def NotBehindTick (s : List Char) (p : Nat) : Prop := ∀ a b, s = a ++ b → byteLen a = p → a.getLast? ≠ some '`'

/-- an offset is not inside a run of backticks, though one may end or begin there -/
def NotInTicks (s : List Char) (p : Nat) : Prop :=
  ∀ a b, s = a ++ b → byteLen a = p → a.getLast? ≠ some '`' ∨ b.head? ≠ some '`'

/-- a search that does not begin inside a run meets whole runs only -/
theorem runFrom_iff_ticksAt (h : NotInTicks s start) (hlen : 0 < len) :
    RunFrom s start len p ↔ TicksAt s len p ∧ start ≤ p := by
  constructor
  · rintro ⟨-, hle, a, b, hs, ha, hbefore, hb⟩
    refine ⟨⟨a, b, hs, ha, ?_, hb⟩, hle⟩
    rcases hbefore with rfl | hlast
    · have hhead : (List.replicate len '`' ++ b).head? = some '`' := by simp [List.head?_replicate, hlen.ne']
      exact (h a _ hs ha).resolve_right (not_not.2 hhead)
    · exact hlast
  · rintro ⟨⟨a, b, hs, ha, hlast, hb⟩, hle⟩
    exact ⟨hlen, hle, a, b, hs, ha, Or.inr hlast, hb⟩

/-- such a search answers with the first run -/
theorem findRun?_iff_least (h : NotInTicks s start) (hlen : 0 < len) :
    Marker.findRun? s start len = some p ↔ Least (TicksAt s len) start p := by
  simp only [findRun?_eq_some, runFrom_iff_ticksAt h hlen]
  constructor
  · rintro ⟨⟨hstands, hle⟩, hleast⟩
    exact ⟨hstands, hle, fun q hq hstart => hleast q ⟨hq, hstart⟩⟩
  · intro hfirst
    exact ⟨⟨hfirst.stands, hfirst.le⟩, fun q hq => hfirst.least q hq.1 hq.2⟩

theorem NotBehindTick.notInTicks (h : NotBehindTick s p) : NotInTicks s p := fun a b hs ha => Or.inl (h a b hs ha)

/-- no run goes on where one ends -/
theorem TicksAt.notInTicks (h : TicksAt s len p) : NotInTicks s (p + len) := by
  obtain ⟨a, b, rfl, rfl, -, hb⟩ := h
  intro c d hs hc
  rw [← List.append_assoc] at hs
  obtain ⟨-, rfl⟩ := append_inj_byteLen hs (by rw [byteLen_append, byteLen_replicate_one rfl, hc])
  exact Or.inr hb

/-- a run behind another is not right behind it -/
theorem TicksAt.lt_of_le (h : TicksAt s len p) (hq : TicksAt s len q) (hlen : 0 < len) (hle : p + len ≤ q) :
    p + len < q := by
  refine lt_of_le_of_ne hle ?_
  rintro rfl
  obtain ⟨a, b, hs, ha, hlast, -⟩ := h
  obtain ⟨c, d, hs', hc, hlast', -⟩ := hq
  have hcut : (a ++ List.replicate len '`') ++ b = c ++ (List.replicate len '`' ++ d) := by
    rw [List.append_assoc, ← hs, hs']
  obtain ⟨rfl, -⟩ := append_inj_byteLen hcut (by rw [byteLen_append, byteLen_replicate_one rfl, ha, hc])
  refine hlast' ?_
  rw [List.getLast?_append_of_ne_nil _ (by simp [hlen.ne']), List.getLast?_replicate, if_neg hlen.ne']

/-! ## Where a search begins -/

/-- no backtick stands right before a line -/
theorem notBehindTick_start {e : Extent} (h : (Source.ofText s).lines.extent? line = some e) :
    NotBehindTick s e.start := by
  obtain ⟨b, l, a, rfl, hline, rfl⟩ := LineIndex.extent?_eq_some.1 h
  intro c d hs hc
  rw [List.append_assoc] at hs
  obtain ⟨rfl, -⟩ := append_inj_byteLen hs hc.symm
  rcases hline.begins with rfl | hlast
  · simp
  · simp [hlast]

/-- nor before where a search on a line begins, if none stands before the cursor -/
theorem notBehindTick_scanStart? (hcursor : NotBehindTick s cursor)
    (h : (Source.ofText s).scanStart? line cursor = some start) : NotBehindTick s start := by
  obtain ⟨e, he, h⟩ := Option.map_eq_some_iff.1 h
  split_ifs at h
  · rwa [← h]
  · rw [← h]
    exact notBehindTick_start he

/-- a run is on a line exactly if the line is the one of its offset -/
theorem TicksAt.onLine_iff (h : TicksAt s len p) (hlen : 0 < len) :
    OnLine s line ⟨p, p + len⟩ ↔ (Source.ofText s).lines.lineOf p = line := by
  obtain ⟨a, b, hs, ha, -, -⟩ := h
  have hslice : slice? s p (p + len) = some (List.replicate len '`') := by
    refine slice?_eq_some.2 ⟨a, b, by rw [hs, List.append_assoc], ha, ?_⟩
    rw [byteLen_replicate_one rfl]
  constructor
  · rintro ⟨e, he, hle, hstop⟩
    exact LineIndex.lineOf_of_extent? he hle (le_trans (Nat.le_add_right p len) hstop)
  · rintro rfl
    obtain ⟨i, e, he, hle, hstop⟩ := exists_onLine hslice (by simp [hlen.ne']) (by simp) (by simp)
    have hi : (Source.ofText s).lines.lineOf p = i :=
      LineIndex.lineOf_of_extent? he hle (le_trans (Nat.le_add_right p len) hstop)
    exact hi ▸ ⟨e, he, hle, hstop⟩

/-! ## The rule -/

/-- a code span of runs of `len` backticks, looked for from `start` on: it opens on the first line of its token and
closes on the last, or on one between them -/
structure SpansTicks (s : List Char) (span : LineSpan) (len start first last : Nat) : Prop where
  opens : Least (TicksAt s len) start first
  opens_on : OnLine s span.start ⟨first, first + len⟩
  closes : Least (TicksAt s len) (first + len) last
  closes_by : ∃ stop, (Source.ofText s).lines.stop? span.last = some stop ∧ last + len ≤ stop

/-- what a code span gives that is looked for from `start` on -/
structure GivesCodeSpan (s : List Char) (n : Node) (span : LineSpan) (sc : Scan) (start : Nat) : Prop where
  /-- both runs are hidden and what is between them is styled; the cursor goes past the second -/
  found : ∀ first last, SpansTicks s span (Scan.tickLen n) start first last → first + Scan.tickLen n < last ∧
    sc.step (.ofText s) n = (⟨last + Scan.tickLen n, sc.frames⟩,
      [.hide first (first + Scan.tickLen n), .hide last (last + Scan.tickLen n),
        .styled (first + Scan.tickLen n) last .code])
  /-- without two such runs nothing is given, and nothing changes -/
  missed : (¬ ∃ first last, SpansTicks s span (Scan.tickLen n) start first last) → sc.step (.ofText s) n = (sc, [])

/-- where a code span opens: at the first run, if that is on the first line -/
theorem locateTicks?_eq_some (hspan : n.span? = some span)
    (hstart : (Source.ofText s).scanStart? span.start sc.cursor = some start) (hbehind : NotBehindTick s start)
    (hlen : 0 < len) :
    sc.locateTicks? (.ofText s) n len = some p ↔
      Least (TicksAt s len) start p ∧ OnLine s span.start ⟨p, p + len⟩ := by
  rw [Scan.locateTicks?, hspan]
  simp only [hstart, Option.bind_some, Option.filter_eq_some_iff, beq_iff_eq]
  rw [show (Source.ofText s).text = s from rfl, findRun?_iff_least hbehind.notInTicks hlen]
  exact and_congr_right fun h => (h.stands.onLine_iff hlen).symm

/-- **A code span opens at the first run of its length on its first line and closes at the next.** If there are no two
such runs on its lines, it is left out. -/
theorem codeSpan_exact (hkind : n.kind = .codeInline) (hspan : n.span? = some span) (hlt : span.start < span.stop)
    (hin : span.stop ≤ (Source.ofText s).lines.count) (hcursor : NotBehindTick s sc.cursor) :
    ∃ start, (Source.ofText s).scanStart? span.start sc.cursor = some start ∧ GivesCodeSpan s n span sc start := by
  obtain ⟨e, he⟩ : ∃ e, (Source.ofText s).lines.extent? span.start = some e :=
    ⟨_, List.getElem?_eq_getElem (hlt.trans_le hin)⟩
  obtain ⟨stop, hstop⟩ : ∃ stop, (Source.ofText s).lines.stop? span.last = some stop := by
    have hlast : span.last < (Source.ofText s).lines.count := by
      rw [LineSpan.last, max_eq_left (by omega)]
      omega
    exact ⟨_, congrArg _ (List.getElem?_eq_getElem hlast)⟩
  obtain ⟨start, hstart⟩ : ∃ start, (Source.ofText s).scanStart? span.start sc.cursor = some start :=
    ⟨_, by rw [Source.scanStart?, he, Option.map_some]⟩
  have hlen := Scan.tickLen_pos n
  have hbehind := notBehindTick_scanStart? hcursor hstart
  have hstep : sc.step (.ofText s) n = sc.codeSpan (.ofText s) n := by rw [Scan.step, hkind]
  have hopen := fun p => locateTicks?_eq_some (p := p) hspan hstart hbehind hlen
  refine ⟨start, hstart, ?_, ?_⟩
  · intro first last h
    have hfirst := h.opens.stands
    have hbody := hfirst.lt_of_le h.closes.stands hlen h.closes.le
    have hlast := (findRun?_iff_least hfirst.notInTicks hlen).2 h.closes
    obtain ⟨stop', hstop', hle⟩ := h.closes_by
    refine ⟨hbody, ?_⟩
    rw [hstep, Scan.codeSpan_of_found hspan rfl hlen ((hopen first).2 ⟨h.opens, h.opens_on⟩) hlast hstop' hle hbody]
  · intro hnone
    rw [hstep, Scan.codeSpan]
    simp only [hspan, Option.bind_some, hstop, Option.getD_some]
    split
    next => rfl
    next first hfirst =>
      obtain ⟨hopens, honline⟩ := (hopen first).1 hfirst
      split
      next => rfl
      next last hlast =>
        obtain ⟨hlast, hle⟩ := Option.filter_eq_some_iff.1 hlast
        have hcloses := (findRun?_iff_least hopens.stands.notInTicks hlen).1 hlast
        exact absurd ⟨first, last, hopens, honline, hcloses, stop, hstop, by simpa using hle⟩ hnone

theorem notBehindTick_zero (s : List Char) : NotBehindTick s 0 := by
  intro a b _ ha
  obtain rfl := byteLen_eq_zero.1 ha
  simp

/-- two backticks behind a single one, and the next two behind two more single ones, on the second line -/
theorem codeSpan_exact_two_lines :
    let s := "`a ``b`c\n` d`` e".toList
    let span : LineSpan := ⟨0, 2⟩
    let n : Node := ⟨.codeInline, some span, "``", "", none, some "b`c ` d", []⟩
    let sc : Scan := ⟨0, [.link none]⟩
    n.kind = .codeInline ∧ n.span? = some span ∧ span.start < span.stop ∧
      span.stop ≤ (Source.ofText s).lines.count ∧ NotBehindTick s sc.cursor ∧
      (∃ start, (Source.ofText s).scanStart? span.start sc.cursor = some start ∧ GivesCodeSpan s n span sc start) ∧
      sc.step (.ofText s) n = (⟨14, [.link none]⟩, [.hide 3 5, .hide 12 14, .styled 5 12 .code]) := by
  intro s span n sc
  have hkind : n.kind = .codeInline := rfl
  have hspan : n.span? = some span := rfl
  have hlt : span.start < span.stop := Nat.two_pos
  have hin : span.stop ≤ (Source.ofText s).lines.count := by decide
  have hcursor : NotBehindTick s sc.cursor := notBehindTick_zero s
  exact ⟨hkind, hspan, hlt, hin, hcursor, codeSpan_exact hkind hspan hlt hin hcursor, by decide⟩

end MarkVeil.Decoration

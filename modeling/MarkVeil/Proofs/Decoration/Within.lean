/-
On which lines ranges lie.

A token stands on lines, and what a scan looks for at a token it looks for on these. A frame keeps the place where its
content begins, which is on no line before the first of all. So all ranges of a scan lie between the first and the last
line of its tokens, wherever the cursor is (`run_within`), and those of a heading or of inline elements between their
own lines (`Leaf.ranges_within`).
-/
import MarkVeil.Proofs.Decoration.Collect
import MarkVeil.Proofs.Decoration.Leaves
import MarkVeil.Proofs.Token.Lines
import MarkVeil.Proofs.Token.Spelling

namespace MarkVeil.Decoration

open MarkVeil.Text
open MarkVeil.Markdown (Inline)
open MarkVeil.Token (Node exists_isHull hull lineOf_le_lastLineOf line_eq ofInline ofInlines spanOf
  spanOf_eq)
open MarkVeil.Marker (Emphasis)
open MarkVeil.Marker.Link (Parts)

/-- a range begins on the line `lo` or later and ends on the line `hi` or earlier -/
structure Range.Within (src : Source) (lo hi : Nat) (r : Range) : Prop where
  first : lo ≤ src.lines.lineOf r.start
  last : src.lines.lineOf r.stop ≤ hi

/-- a token stands on lines from `lo` to `hi` -/
def Standing (lo hi : Nat) (n : Node) : Prop := ∃ span, n.span? = some span ∧ lo ≤ span.start ∧ span.last ≤ hi

variable {s line : List Char} {src : Source} {n : Node} {r : Range} {kind : Kind} {e : Extent} {m : List Char}
  {lo hi i j base p q : Nat}

/-! ## Single ranges -/

theorem within_hide (h1 : lo ≤ src.lines.lineOf i) (h2 : src.lines.lineOf j ≤ hi) :
    ∀ r ∈ hide i j, r.Within src lo hi := by
  intro r hr
  unfold hide at hr
  split_ifs at hr
  · obtain rfl := List.mem_singleton.1 hr
    exact ⟨h1, h2⟩
  · simp at hr

theorem within_style (h : r.Within src lo hi) : ∀ x ∈ style r, x.Within src lo hi := by
  intro x hx
  unfold style at hx
  split_ifs at hx
  · obtain rfl := List.mem_singleton.1 hx
    exact h
  · simp at hx

/-- a slice of a line is hidden on that line -/
theorem within_hide_slice (hbase : (Source.ofText s).lines.start? i = some base)
    (hline : (Source.ofText s).lineText? i = some line) (hlo : lo ≤ i) (hhi : i ≤ hi) (h : slice? line p q = some m) :
    ∀ r ∈ hide (base + p) (base + q), r.Within (.ofText s) lo hi := by
  obtain ⟨h1, h2⟩ := Source.lineOf_slice hbase hline h
  exact within_hide (h1 ▸ hlo) (h2 ▸ hhi)

theorem within_partRanges {parts : Parts} {opener : List Char} (hbase : (Source.ofText s).lines.start? i = some base)
    (hline : (Source.ofText s).lineText? i = some line) (hlo : lo ≤ i) (hhi : i ≤ hi)
    (h : parts.Reads opener line) : ∀ r ∈ Scan.partRanges base parts kind, r.Within (.ofText s) lo hi := by
  obtain ⟨label, hlabel⟩ := h.slice_label
  obtain ⟨h1, h2⟩ := Source.lineOf_slice hbase hline hlabel
  simp only [Scan.partRanges, List.forall_mem_append]
  refine ⟨⟨⟨⟨?_, ?_⟩, ?_⟩, ?_⟩, ?_⟩
  · exact within_hide_slice hbase hline hlo hhi h.slice_opener
  · exact within_hide_slice hbase hline hlo hhi h.slice_closeBracket
  · exact within_hide_slice hbase hline hlo hhi h.slice_openParen
  · exact within_hide_slice hbase hline hlo hhi h.slice_closeParen
  · exact within_style ⟨h1 ▸ hlo, h2 ▸ hhi⟩

/-! ## The scan -/

/-- the content of an open emphasis begins on the line `lo` or later -/
def Frame.From (src : Source) (lo : Nat) : Frame → Prop
  | .emphasis _ _ contentStart? _ _ => ∀ p, contentStart? = some p → lo ≤ src.lines.lineOf p
  | .link _ => True

theorem Frame.from_mixOuter? {fs gs : List Frame} {e : Emphasis} (h : ∀ f ∈ fs, f.From src lo)
    (hm : Frame.mixOuter? e fs = some gs) : ∀ f ∈ gs, f.From src lo := by
  induction fs generalizing gs with
  | nil => simp [Frame.mixOuter?] at hm
  | cons f fs ih =>
    obtain ⟨hf, hfs⟩ := List.forall_mem_cons.1 h
    simp only [Frame.mixOuter?] at hm
    split at hm
    next hs hhs =>
      obtain rfl := Option.some.inj hm
      exact List.forall_mem_cons.2 ⟨hf, ih hfs hhs⟩
    next =>
      split_ifs at hm
      obtain rfl := Option.some.inj hm
      exact List.forall_mem_cons.2 ⟨by cases f <;> exact hf, hfs⟩

namespace Scan

/-- the invariant of a scan from the line `lo` on. The cursor may be anywhere -/
def From (src : Source) (lo : Nat) (sc : Scan) : Prop := ∀ f ∈ sc.frames, f.From src lo

/-- what a step has to give for the invariant and for its ranges -/
def StepWithin (src : Source) (lo hi : Nat) (x : Step) : Prop := x.1.From src lo ∧ ∀ r ∈ x.2, r.Within src lo hi

variable {sc : Scan} {e : Emphasis}

theorem openEmphasis_within (hn : Standing lo hi n) (h : sc.From (.ofText s) lo) :
    StepWithin (.ofText s) lo hi (sc.openEmphasis (.ofText s) n e) := by
  obtain ⟨span, hspan, hlo, hhi⟩ := hn
  have hstart : span.start ≤ span.last := Nat.le_max_right _ _
  set marker := markerOf n e.defaultMarker.toList with hmarker
  have hfound : ∀ p, sc.locateOpen? (.ofText s) n marker = some p →
      (Source.ofText s).lines.lineOf p = span.start ∧ (Source.ofText s).lines.lineOf (p + byteLen marker) = span.start := by
    intro p hp
    rw [locateOpen?, hspan] at hp
    exact Source.findOnLine?_lines hp
  constructor
  · refine List.forall_mem_cons.2 ⟨?_, ?_⟩
    · intro p hp
      obtain ⟨q, hq, rfl⟩ := Option.map_eq_some_iff.1 hp
      rw [(hfound q hq).2]
      exact hlo
    · cases houter : (if e.merges then Frame.mixOuter? e sc.frames else none) with
      | none => exact h
      | some fs =>
        split_ifs at houter
        exact Frame.from_mixOuter? h houter
  · simp only [openEmphasis, ← hmarker]
    split
    next p hp =>
      obtain ⟨h1, h2⟩ := hfound p hp
      exact within_hide (h1 ▸ hlo) (h2 ▸ hstart.trans hhi)
    next => simp

theorem closeEmphasis_within (hn : Standing lo hi n) (h : sc.From (.ofText s) lo) :
    StepWithin (.ofText s) lo hi (sc.closeEmphasis (.ofText s) n e) := by
  obtain ⟨span, hspan, hlo, hhi⟩ := hn
  have hstart : span.start ≤ span.last := Nat.le_max_right _ _
  unfold closeEmphasis
  split
  next e' openMarker contentStart? mixed suppressed frames hdrop =>
    have hframes : ∀ f ∈ Frame.emphasis e' openMarker contentStart? mixed suppressed :: frames,
        f.From (.ofText s) lo := by
      rw [← hdrop]
      exact fun f hf => h f ((List.dropWhile_suffix _).mem hf)
    obtain ⟨hcontent, hrest⟩ := List.forall_mem_cons.1 hframes
    simp only
    split
    next => exact ⟨hrest, by simp⟩
    next found hfound =>
      rw [locateClose?, hspan] at hfound
      obtain ⟨h1, h2⟩ := Source.findOnLine?_lines hfound
      refine ⟨hrest, List.forall_mem_append.2 ⟨?_, within_hide (h1 ▸ hlo) (h2 ▸ hstart.trans hhi)⟩⟩
      split
      next start =>
        split_ifs
        · simp
        · exact within_style ⟨hcontent start rfl, h1 ▸ hstart.trans hhi⟩
      next => simp
  next => exact ⟨h, by simp⟩

theorem codeSpan_within (hn : Standing lo hi n) (h : sc.From (.ofText s) lo) :
    StepWithin (.ofText s) lo hi (sc.codeSpan (.ofText s) n) := by
  obtain ⟨span, hspan, hlo, hhi⟩ := hn
  unfold codeSpan
  simp only
  split
  next => exact ⟨h, by simp⟩
  next first hfirst =>
    split
    next => exact ⟨h, by simp⟩
    next last hlast =>
      obtain ⟨hrun, hlimit⟩ := Option.filter_eq_some_iff.1 hlast
      have hle := (Marker.findRun?_sound hrun).2
      simp only [hspan, Option.bind_some, decide_eq_true_eq] at hlimit
      have hon : (Source.ofText s).lines.lineOf first = span.start := by
        rw [locateTicks?, hspan] at hfirst
        simpa using (Option.filter_eq_some_iff.1 hfirst).2
      -- past the limit is past the last line of the token, or past the text
      have hend : ∀ p ≤ last + tickLen n, (Source.ofText s).lines.lineOf p ≤ hi := by
        intro p hp
        cases hstop : (Source.ofText s).lines.stop? span.last with
        | some stop =>
          rw [hstop, Option.getD_some] at hlimit
          exact (LineIndex.lineOf_le_of_stop? hstop (hp.trans hlimit)).trans hhi
        | none =>
          have hout : (Source.ofText s).lines.count ≤ span.last := by
            rw [LineIndex.stop?, Option.map_eq_none_iff, LineIndex.extent?, List.getElem?_eq_none_iff] at hstop
            exact hstop
          have := LineIndex.lineOf_lt_count s p
          exact this.le.trans (hout.trans hhi)
      have hbegin : ∀ p, first ≤ p → lo ≤ (Source.ofText s).lines.lineOf p := fun p hp =>
        hlo.trans (hon ▸ LineIndex.lineOf_mono _ hp)
      refine ⟨h, List.forall_mem_append.2 ⟨List.forall_mem_append.2 ⟨?_, ?_⟩, ?_⟩⟩
      · exact within_hide (hbegin _ le_rfl) (hend _ (by omega))
      · exact within_hide (hbegin _ (by omega)) (hend _ le_rfl)
      · exact within_style ⟨hbegin _ (Nat.le_add_right _ _), hend _ (Nat.le_add_right _ _)⟩

theorem lineAt?_lines {k start : Nat} (h : sc.lineAt? (.ofText s) k = some (base, line, start)) :
    (Source.ofText s).lines.start? k = some base ∧ (Source.ofText s).lineText? k = some line := by
  obtain ⟨b, hb, h⟩ := Option.bind_eq_some_iff.1 h
  obtain ⟨t, ht, h⟩ := Option.bind_eq_some_iff.1 h
  obtain ⟨c, -, h⟩ := Option.map_eq_some_iff.1 h
  obtain ⟨rfl, rfl, -⟩ : b = base ∧ t = line ∧ c - b = start := by simpa using h
  exact ⟨hb, ht⟩

theorem openAutolink?_within {k resume cursor : Nat} {rs : List Range} (hlo : lo ≤ k) (hhi : k ≤ hi)
    (h : sc.openAutolink? (.ofText s) k = some (resume, cursor, rs)) : ∀ r ∈ rs, r.Within (.ofText s) lo hi := by
  obtain ⟨⟨base, line, start⟩, hline, h⟩ := Option.bind_eq_some_iff.1 h
  obtain ⟨angle, hangle, h⟩ := Option.map_eq_some_iff.1 h
  obtain ⟨hbase, hline⟩ := lineAt?_lines hline
  obtain ⟨hextent, -⟩ := Source.extent?_of_lineText? hbase hline
  obtain ⟨a, url, b, rfl, rfl⟩ := Marker.Link.findAutolink?_sound hangle
  simp only [Prod.mk.injEq] at h
  obtain ⟨-, -, rfl⟩ := h
  have hlen : byteLen (a ++ '<' :: (url ++ '>' :: b)) = byteLen a + 1 + byteLen url + 1 + byteLen b := by
    have h1 : '<'.utf8Size = 1 := rfl
    have h2 : '>'.utf8Size = 1 := rfl
    simp only [byteLen_append, byteLen_cons]
    omega
  rw [hlen] at hextent
  have hon : ∀ p, base ≤ p → p ≤ base + (byteLen a + 1 + byteLen url + 1) →
      (Source.ofText s).lines.lineOf p = k := fun p h1 h2 =>
    LineIndex.lineOf_of_extent? hextent h1 (h2.trans (by simp only; omega))
  have hwithin : ∀ p q, base ≤ p → p ≤ base + (byteLen a + 1 + byteLen url + 1) → base ≤ q →
      q ≤ base + (byteLen a + 1 + byteLen url + 1) → lo ≤ (Source.ofText s).lines.lineOf p ∧
        (Source.ofText s).lines.lineOf q ≤ hi := fun p q h1 h2 h3 h4 =>
    ⟨(hon p h1 h2).symm ▸ hlo, (hon q h3 h4).symm ▸ hhi⟩
  simp only [List.forall_mem_append]
  refine ⟨⟨?_, ?_⟩, ?_⟩
  · obtain ⟨h1, h2⟩ := hwithin (base + byteLen a) (base + byteLen a + 1) (by omega) (by omega) (by omega) (by omega)
    exact within_hide h1 h2
  · obtain ⟨h1, h2⟩ := hwithin (base + (byteLen a + 1 + byteLen url + 1) - 1)
      (base + (byteLen a + 1 + byteLen url + 1)) (by omega) (by omega) (by omega) (by omega)
    exact within_hide h1 h2
  · obtain ⟨h1, h2⟩ := hwithin (base + byteLen a + 1) (base + (byteLen a + 1 + byteLen url + 1) - 1)
      (by omega) (by omega) (by omega) (by omega)
    exact within_style ⟨h1, h2⟩

theorem openInline?_within {k resume cursor : Nat} {rs : List Range} (hlo : lo ≤ k) (hhi : k ≤ hi)
    (h : sc.openInline? (.ofText s) k = some (resume, cursor, rs)) : ∀ r ∈ rs, r.Within (.ofText s) lo hi := by
  obtain ⟨⟨base, line, start⟩, hline, h⟩ := Option.bind_eq_some_iff.1 h
  obtain ⟨p, hp, h⟩ := Option.map_eq_some_iff.1 h
  obtain ⟨hbase, hline⟩ := lineAt?_lines hline
  simp only [Prod.mk.injEq] at h
  obtain ⟨-, -, rfl⟩ := h
  exact within_partRanges hbase hline hlo hhi (Marker.Link.findLink?_sound hp)

theorem openLink_within (hn : Standing lo hi n) (h : sc.From (.ofText s) lo) :
    StepWithin (.ofText s) lo hi (sc.openLink (.ofText s) n) := by
  obtain ⟨span, hspan, hlo, hhi⟩ := hn
  have hstart : span.start ≤ hi := (Nat.le_max_right _ _).trans hhi
  unfold openLink
  simp only [hspan, Option.bind_some]
  split
  next resume cursor rs hfound =>
    refine ⟨List.forall_mem_cons.2 ⟨trivial, h⟩, ?_⟩
    split_ifs at hfound
    · exact openAutolink?_within hlo hstart hfound
    · exact openInline?_within hlo hstart hfound
  next => exact ⟨List.forall_mem_cons.2 ⟨trivial, h⟩, by simp⟩

theorem closeLink_from (h : sc.From src lo) : sc.closeLink.From src lo := by
  unfold closeLink
  split
  next resume? frames hdrop =>
    intro f hf
    refine h f ((List.dropWhile_suffix _).mem (?_ : f ∈ sc.frames.dropWhile fun f => !f.isLink))
    rw [hdrop]
    exact List.mem_cons_of_mem _ hf
  next => exact h

theorem image_within (hn : Standing lo hi n) (h : sc.From (.ofText s) lo) :
    StepWithin (.ofText s) lo hi (sc.image (.ofText s) n) := by
  obtain ⟨span, hspan, hlo, hhi⟩ := hn
  have hstart : span.start ≤ hi := (Nat.le_max_right _ _).trans hhi
  unfold image
  simp only [hspan, Option.bind_some]
  split
  next base p hfound =>
    refine ⟨h, ?_⟩
    obtain ⟨⟨base', line, start⟩, hline, hfound⟩ := Option.bind_eq_some_iff.1 hfound
    obtain ⟨parts, hparts, hfound⟩ := Option.map_eq_some_iff.1 hfound
    obtain ⟨rfl, rfl⟩ : base' = base ∧ parts = p := by simpa using hfound
    obtain ⟨hbase, hline⟩ := lineAt?_lines hline
    exact within_partRanges hbase hline hlo hstart (Marker.Link.findImage?_sound hparts)
  next => exact ⟨h, by simp⟩

/-- **A step keeps the invariant, and its ranges lie between the lines.** -/
theorem step_within (hn : Standing lo hi n) (h : sc.From (.ofText s) lo) :
    StepWithin (.ofText s) lo hi (sc.step (.ofText s) n) := by
  have hskip : (sc.skipText (.ofText s) n).From (.ofText s) lo := by
    unfold From
    rw [frames_skipText]
    exact h
  refine step_cases (.ofText s) sc n ?text ?opening ?closing ?code ?linkOpening ?linkClosing ?image ?other
  case text =>
    intro _
    exact ⟨hskip, by simp⟩
  case opening =>
    intro e _
    exact openEmphasis_within hn h
  case closing =>
    intro e _
    exact closeEmphasis_within hn h
  case code =>
    intro _
    exact codeSpan_within hn h
  case linkOpening =>
    intro _
    exact openLink_within hn h
  case linkClosing =>
    intro _
    exact ⟨closeLink_from h, by simp⟩
  case image =>
    intro _
    exact image_within hn h
  case other =>
    intro _
    exact ⟨h, by simp⟩

/-- **The ranges of a scan lie between the lines of its tokens.** -/
theorem run_within (h : sc.From (.ofText s) lo) {ns : List Node} (hns : ∀ n ∈ ns, Standing lo hi n) :
    ∀ r ∈ sc.run (.ofText s) ns, r.Within (.ofText s) lo hi := by
  induction ns generalizing sc with
  | nil => simp [run]
  | cons n ns ih =>
    obtain ⟨hn, hns⟩ := List.forall_mem_cons.1 hns
    obtain ⟨hfrom, hwithin⟩ := step_within hn h
    exact List.forall_mem_append.2 ⟨hwithin, ih hfrom hns⟩

end Scan

/-! ## Headings -/

theorem atxHeading_within {level : Nat} (hlo : lo ≤ i) (hhi : i ≤ hi) :
    ∀ r ∈ atxHeading (.ofText s) i level, r.Within (.ofText s) lo hi := by
  unfold atxHeading
  split
  next e text hextent htext =>
    split
    next parts hparts =>
      have hbase : (Source.ofText s).lines.start? i = some e.start := by
        rw [LineIndex.start?, hextent, Option.map_some]
      have hstop : (Source.ofText s).lines.stop? i = some e.stop := by rw [LineIndex.stop?, hextent, Option.map_some]
      obtain ⟨hmarker, hcontent⟩ := Marker.Heading.atx?_sound hparts
      have hfirst := (Source.lineOf_slice hbase htext hcontent.slice).1
      have hlast := LineIndex.lineOf_le_of_stop? hstop le_rfl
      exact List.forall_mem_append.2 ⟨within_hide_slice hbase htext hlo hhi hmarker,
        within_style ⟨hfirst.symm ▸ hlo, hlast.trans hhi⟩⟩
    next => simp
  next => simp

theorem setextHeading_within {span : LineSpan} {level : Nat} (hlo : lo ≤ span.start) (hhi : span.last ≤ hi) :
    ∀ r ∈ setextHeading (.ofText s) span level, r.Within (.ofText s) lo hi := by
  unfold setextHeading
  simp only
  split_ifs with hline
  · simp
  split
  next base marker hbase hmarker =>
    obtain ⟨text, htext, hmarker⟩ := Option.bind_eq_some_iff.1 hmarker
    obtain ⟨c, k, -, -, hslice⟩ := Marker.Heading.underline?_sound hmarker
    refine List.forall_mem_append.2 ⟨within_hide_slice hbase htext (by omega) hhi hslice, ?_⟩
    split
    next start stop hcontent =>
      unfold setextContent? at hcontent
      split at hcontent
      next first text' stop' hfirst htext' hstop' =>
        obtain ⟨rfl, rfl⟩ : first + Marker.Heading.contentStart text' = start ∧ stop' = stop := by simpa using hcontent
        have hbegin := (Source.lineOf_slice hfirst htext' (Marker.Heading.isPlace_indentLen text').slice).1
        have hend := LineIndex.lineOf_le_of_stop? hstop' le_rfl
        exact within_style ⟨hbegin.symm ▸ hlo, hend.trans (by omega)⟩
      next => simp at hcontent
    next => simp
  next => simp

theorem heading_within (hn : Standing lo hi n) : ∀ r ∈ heading (.ofText s) n, r.Within (.ofText s) lo hi := by
  obtain ⟨span, hspan, hlo, hhi⟩ := hn
  unfold heading
  split
  next level span' hlevel hspan' =>
    obtain rfl : span = span' := Option.some.inj (hspan.symm.trans hspan')
    split_ifs
    · simp
    · exact setextHeading_within hlo hhi
    · exact atxHeading_within hlo ((Nat.le_max_right _ _).trans hhi)
  next => simp

/-! ## Leaves -/

/-- a token stands on one line at least -/
def Spanned (n : Node) : Prop := ∃ span, n.span? = some span ∧ span.start < span.stop

theorem spanOf_spanned (src : Source) (e : Extent) : (spanOf src e).start < (spanOf src e).stop := by
  rw [spanOf_eq]
  exact Nat.lt_succ_of_le (lineOf_le_lastLineOf src e)

theorem line_spanned (k : Nat) : (LineSpan.line k).start < (LineSpan.line k).stop := by
  rw [line_eq]
  exact Nat.lt_succ_self k

theorem spanned_pair {nopen nclose : Node} {ns : List Node} (hopen : Spanned nopen) (hns : ∀ n ∈ ns, Spanned n)
    (hclose : Spanned nclose) : ∀ n ∈ nopen :: (ns ++ [nclose]), Spanned n :=
  List.forall_mem_cons.2 ⟨hopen, List.forall_mem_append.2 ⟨hns, by simpa using hclose⟩⟩

mutual

theorem ofInline_spanned (src : Source) : ∀ i : Inline, ∀ n ∈ ofInline src i, Spanned n
  | .text e | .code e _ | .html e _ | .softBreak e | .hardBreak e | .image e _ => by
    intro n hn
    obtain rfl := List.mem_singleton.1 (by simpa only [ofInline] using hn)
    exact ⟨_, rfl, spanOf_spanned src e⟩
  | .stress e kind children => by
    rw [ofInline]
    exact spanned_pair ⟨_, rfl, line_spanned _⟩ (ofInlines_spanned src children) ⟨_, rfl, line_spanned _⟩
  | .link e form children => by
    rw [ofInline]
    exact spanned_pair ⟨_, rfl, spanOf_spanned src e⟩ (ofInlines_spanned src children) ⟨_, rfl, line_spanned _⟩

theorem ofInlines_spanned (src : Source) : ∀ is : List Inline, ∀ n ∈ ofInlines src is, Spanned n
  | [] => by simp [ofInlines]
  | i :: is => by
    rw [ofInlines]
    exact List.forall_mem_append.2 ⟨ofInline_spanned src i, ofInlines_spanned src is⟩

end

/-- tokens stand on the lines that hold them all -/
theorem exists_hull {ns : List Node} (h : ∀ n ∈ ns, Spanned n) (hne : ns ≠ []) :
    ∃ span, hull ns = some span ∧ ∀ n ∈ ns, Standing span.start span.last n := by
  obtain ⟨n, hn⟩ := List.exists_mem_of_ne_nil ns hne
  obtain ⟨u, hu, -⟩ := h n hn
  obtain ⟨span, hspan, hhull⟩ := exists_isHull hn hu
  refine ⟨span, hspan, ?_⟩
  intro m hm
  obtain ⟨v, hv, hlt⟩ := h m hm
  obtain ⟨hstart, hstop⟩ := hhull.holds m hm v hv
  refine ⟨v, hv, hstart, ?_⟩
  simp only [LineSpan.last]
  omega

namespace Leaf

/-- the lines where a leaf stands -/
def lines (src : Source) : Leaf → LineSpan
  | .heading e _ => spanOf src e
  | .fence e _ _ _ => spanOf src e
  | .inlines content => (hull (ofInlines src content).reverse).getD default

/-- **The ranges of a leaf that is no fence lie on its lines.** -/
theorem ranges_within (s : List Char) {l : Leaf} (hl : l.isFence = false) :
    ∀ r ∈ l.ranges (.ofText s), r.Within (.ofText s) (l.lines (.ofText s)).start (l.lines (.ofText s)).last := by
  cases l with
  | heading e level => exact heading_within ⟨_, rfl, le_rfl, le_rfl⟩
  | fence e info body closed => exact absurd hl (by simp [isFence])
  | inlines content =>
    by_cases hnil : ofInlines (.ofText s) content = []
    · simp [ranges, hnil, Scan.run]
    · have hspanned : ∀ n ∈ (ofInlines (.ofText s) content).reverse, Spanned n := fun n hn =>
        ofInlines_spanned _ content n (List.mem_reverse.1 hn)
      obtain ⟨span, hhull, hstand⟩ := exists_hull hspanned (List.reverse_ne_nil_iff.2 hnil)
      simp only [lines, hhull, Option.getD_some]
      exact Scan.run_within (by simp [Scan.From, scanOf, Scan.start]) fun n hn => hstand n (List.mem_reverse.2 hn)

end Leaf

end MarkVeil.Decoration

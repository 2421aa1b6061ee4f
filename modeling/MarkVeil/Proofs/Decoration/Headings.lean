/-
Headings.

A heading is looked for where its token says that it is: an ATX heading on its first line, the underline of a setext
heading on its last. `Holds` gives a line of a text with its bytes, and what has to stand on it is `IsAtx` or
`IsUnderline`.
Main result:
- `heading_rule`: the marker of a heading is hidden exactly if it stands there, and then its content is styled, if it
  has any; a heading gives nothing else, and its two ranges share no byte.
-/
import MarkVeil.Proofs.Decoration.Collect

namespace MarkVeil.Decoration

open MarkVeil.Text
open MarkVeil.Token (Node)
open MarkVeil.Marker.Heading

variable {s line line' : List Char} {n : Node} {span : LineSpan} {e f marker content : Extent} {r : Range}
  {rs : List Range} {i j level first underline : Nat}

/-! ## Lines of a text -/

/-- line number `i` of a text, and its bytes -/
def Holds (s : List Char) (i : Nat) (line : List Char) (e : Extent) : Prop :=
  ∃ before after, s = before ++ line ++ after ∧ LineAt i before line after ∧
    e = ⟨byteLen before, byteLen before + byteLen line⟩

theorem Holds.extent? (h : Holds s i line e) : (Source.ofText s).lines.extent? i = some e := by
  obtain ⟨b, a, rfl, hline, rfl⟩ := h
  exact LineIndex.extent?_of_lineAt hline

theorem Holds.start? (h : Holds s i line e) : (Source.ofText s).lines.start? i = some e.start := by
  rw [LineIndex.start?, h.extent?, Option.map_some]

theorem Holds.stop? (h : Holds s i line e) : (Source.ofText s).lines.stop? i = some e.stop := by
  rw [LineIndex.stop?, h.extent?, Option.map_some]

theorem Holds.lineText? (h : Holds s i line e) : (Source.ofText s).lineText? i = some line := by
  have hextent := h.extent?
  obtain ⟨b, a, rfl, -, rfl⟩ := h
  exact LineIndex.text?_eq_some.2 ⟨_, hextent, slice?_append b line a, rfl⟩

/-- a text has every line up to its number of lines -/
theorem exists_holds : (∃ line e, Holds s i line e) ↔ i < (Source.ofText s).lines.count := by
  constructor
  · rintro ⟨line, e, h⟩
    exact (List.getElem?_eq_some_iff.1 h.extent?).1
  · intro h
    have hcount : (Source.ofText s).lines.count = s.count '\n' + 1 := LineIndex.count_ofText s
    obtain ⟨b, line, a, hs, hline⟩ := exists_lineAt s (i := i) (by omega)
    exact ⟨line, _, b, a, hs, hline, rfl⟩

/-- a line ends before a later one begins -/
theorem Holds.stop_lt_start (h : Holds s i line e) (h' : Holds s j line' f) (hij : i < j) : e.stop < f.start := by
  by_contra hle
  have hj : (LineIndex.ofText s).lineOf f.start = j :=
    LineIndex.lineOf_of_extent? h'.extent? le_rfl (LineIndex.start_le_stop h'.extent?)
  have hi : (LineIndex.ofText s).lineOf f.start ≤ i := LineIndex.lineOf_le_of_stop? h.stop? (Nat.le_of_not_lt hle)
  omega

/-! ## Where a heading stands -/

/-- an ATX heading of a level stands on line number `i` -/
def AtxStands (s : List Char) (i level : Nat) (marker content : Extent) : Prop :=
  ∃ line e parts, Holds s i line e ∧ IsAtx level line parts ∧ marker = parts.marker.shift e.start ∧
    content = ⟨e.start + parts.contentStart, e.stop⟩

/-- the underline of a setext heading stands behind its first line -/
def UnderlineStands (s : List Char) (first underline : Nat) (marker : Extent) : Prop :=
  first < underline ∧ ∃ line e mark, Holds s underline line e ∧ IsUnderline line mark ∧ marker = mark.shift e.start

/-- the content above an underline: from behind the indent of the first line up to the end of the line above -/
def ContentStands (s : List Char) (first underline : Nat) (content : Extent) : Prop :=
  ∃ top e indent rest above f, Holds s first top e ∧ Indented top indent rest ∧ Holds s (underline - 1) above f ∧
    content = ⟨e.start + byteLen indent, f.stop⟩

/-! ## What a heading gives -/

/-- the kind of a heading's content follows its level, and from level four on its level is kept -/
def Range.HasLevel (r : Range) (level : Nat) : Prop :=
  level = 1 ∧ r.kind = .heading1 ∧ r.level? = none ∨ level = 2 ∧ r.kind = .heading2 ∧ r.level? = none ∨
    level = 3 ∧ r.kind = .heading3 ∧ r.level? = none ∨
    (4 ≤ level ∧ level ≤ 6) ∧ r.kind = .heading ∧ r.level? = some level

/-- the marker of a heading, and its content if it has any -/
def headed (marker content : Extent) (level : Nat) : List Range :=
  .hide marker.start marker.stop :: style (.heading content.start content.stop level)

/-- what the ranges of a heading token are -/
structure HeadingRule (s : List Char) (n : Node) (rs : List Range) : Prop where
  /-- an ATX heading is marked on its first line, behind spaces and tabs, by as many number signs as its level -/
  atx : ∀ level span, n.headingLevel? = some level → n.span? = some span →
    span.start < (Source.ofText s).lines.count → n.markup ≠ "=" → n.markup ≠ "-" →
    (rs ≠ [] ↔ ∃ marker content, AtxStands s span.start level marker content) ∧
      ∀ marker content, AtxStands s span.start level marker content → rs = headed marker content level
  /-- a setext heading is marked on its last line, behind its first, by a run of equals signs or of dashes alone -/
  setext : ∀ level span, n.headingLevel? = some level → n.span? = some span →
    span.start < (Source.ofText s).lines.count → n.markup = "=" ∨ n.markup = "-" →
    (rs ≠ [] ↔ ∃ marker, UnderlineStands s span.start span.last marker) ∧
      ∀ marker, UnderlineStands s span.start span.last marker →
        ∃ content, ContentStands s span.start span.last content ∧ rs = headed marker content level
  /-- a heading without a level or without lines of the text gives nothing -/
  silent : (∀ level span, n.headingLevel? = some level → n.span? = some span →
    (Source.ofText s).lines.count ≤ span.start) → rs = []
  /-- in any case there is a hide or nothing, and at most one styled range, which shares no byte with the hide -/
  shape : rs = [] ∨ ∃ i j styled, i < j ∧ rs = .hide i j :: styled ∧ styled.length ≤ 1 ∧
    ∀ r ∈ styled, r.start < r.stop ∧ r.Apart (.hide i j) ∧ ∃ level, n.headingLevel? = some level ∧ r.HasLevel level

theorem hasLevel_heading (h : 1 ≤ level ∧ level ≤ 6) : (Range.heading i j level).HasLevel level := by
  obtain ⟨h1, h6⟩ := h
  interval_cases level <;> simp [Range.HasLevel, Range.heading, Kind.ofLevel]

/-- a marker and a content that share no byte give a hide and at most one styled range -/
theorem shape_headed (hn : n.headingLevel? = some level) (hmarker : marker.start < marker.stop)
    (hapart : content.stop ≤ marker.start ∨ marker.stop ≤ content.start) :
    ∃ i j styled, i < j ∧ headed marker content level = .hide i j :: styled ∧ styled.length ≤ 1 ∧
      ∀ r ∈ styled, r.start < r.stop ∧ r.Apart (.hide i j) ∧
        ∃ level, n.headingLevel? = some level ∧ r.HasLevel level := by
  refine ⟨_, _, _, hmarker, rfl, ?_, ?_⟩
  · unfold style
    split_ifs <;> simp
  · intro r hr
    unfold style at hr
    split_ifs at hr with hlt
    · obtain rfl := List.mem_singleton.1 hr
      exact ⟨hlt, hapart, level, hn, hasLevel_heading (headingLevel?_bounds hn)⟩
    · simp at hr

/-! ## ATX headings -/

theorem AtxStands.order (h : AtxStands s i level marker content) (hl : 0 < level) :
    marker.start < marker.stop ∧ marker.stop ≤ content.start := by
  obtain ⟨line, e, parts, -, ⟨indent, gap, rest, after, -, -, -, rfl⟩, rfl, rfl⟩ := h
  simp only [Extent.shift]
  omega

/-- an ATX heading that stands on its line -/
theorem AtxStands.atxHeading (h : AtxStands s i level marker content) (hl : 0 < level) :
    atxHeading (.ofText s) i level = headed marker content level := by
  have horder := (h.order hl).1
  obtain ⟨line, e, parts, hline, hatx, rfl, rfl⟩ := h
  change e.start + parts.marker.start < e.start + parts.marker.stop at horder
  simp only [Decoration.atxHeading, hline.extent?, hline.lineText?, (atx?_eq_some hl).2 hatx]
  rw [hide, if_pos horder]
  rfl

/-- an ATX heading that gives anything stands on its line -/
theorem exists_atxStands (hl : 0 < level) (h : atxHeading (.ofText s) i level ≠ []) :
    ∃ marker content, AtxStands s i level marker content := by
  have hi : i < (Source.ofText s).lines.count := by
    by_contra hi
    have hnone : (Source.ofText s).lines.extent? i = none := List.getElem?_eq_none (Nat.le_of_not_lt hi)
    exact h (by simp only [Decoration.atxHeading, hnone])
  obtain ⟨line, e, hline⟩ := exists_holds.2 hi
  simp only [Decoration.atxHeading, hline.extent?, hline.lineText?] at h
  split at h
  next parts hparts => exact ⟨_, _, line, e, parts, hline, (atx?_eq_some hl).1 hparts, rfl, rfl⟩
  next => exact absurd rfl h

/-! ## Setext headings -/

/-- the content above an underline is there, and ends before it -/
theorem exists_contentStands (h : UnderlineStands s first underline marker) :
    ∃ content, ContentStands s first underline content ∧ content.stop ≤ marker.start ∧
      setextContent? (.ofText s) first underline = some (content.start, content.stop) := by
  obtain ⟨hlt, line, e, mark, hline, -, rfl⟩ := h
  have hcount := exists_holds.1 ⟨line, e, hline⟩
  obtain ⟨top, f, htop⟩ := exists_holds.2 (hlt.trans hcount)
  obtain ⟨above, g, habove⟩ := exists_holds.2 (show underline - 1 < (Source.ofText s).lines.count by omega)
  obtain ⟨indent, rest, hindent⟩ : ∃ indent rest, Indented top indent rest := ⟨_, _, indented_drop top⟩
  refine ⟨_, ⟨top, f, indent, rest, above, g, htop, hindent, habove, rfl⟩, ?_, ?_⟩
  · have := habove.stop_lt_start hline (by omega)
    simp only [Extent.shift]
    omega
  · have hstart : contentStart top = byteLen indent := by rw [contentStart, hindent.indentLen_eq.1]
    simp only [setextContent?, htop.start?, htop.lineText?, habove.stop?, hstart]

theorem UnderlineStands.lt (h : UnderlineStands s first underline marker) : marker.start < marker.stop := by
  obtain ⟨-, line, e, mark, -, ⟨indent, c, len, blanks, -, -, hpos, -, rfl⟩, rfl⟩ := h
  simp only [Extent.shift]
  omega

/-- a setext heading whose underline stands below it -/
theorem UnderlineStands.setextHeading (h : UnderlineStands s span.start span.last marker)
    (hcontent : setextContent? (.ofText s) span.start span.last = some (content.start, content.stop)) :
    setextHeading (.ofText s) span level = headed marker content level := by
  have hmarker := h.lt
  obtain ⟨hlt, line, e, mark, hline, hmark, rfl⟩ := h
  change e.start + mark.start < e.start + mark.stop at hmarker
  simp only [Decoration.setextHeading, if_neg (Nat.not_le.2 hlt), hline.start?, hline.lineText?, Option.bind_some,
    underline?_eq_some.2 hmark, hcontent]
  rw [hide, if_pos hmarker]
  rfl

/-- a setext heading that gives anything has an underline below it -/
theorem exists_underlineStands (h : setextHeading (.ofText s) span level ≠ []) :
    ∃ marker, UnderlineStands s span.start span.last marker := by
  unfold Decoration.setextHeading at h
  simp only at h
  split_ifs at h with hle
  · exact absurd rfl h
  split at h
  next base mark hbase hmark =>
    obtain ⟨line, htext, hmark⟩ := Option.bind_eq_some_iff.1 hmark
    obtain ⟨e, he, -⟩ := Option.map_eq_some_iff.1 hbase
    obtain ⟨line', e', hline⟩ := exists_holds.2 (List.getElem?_eq_some_iff.1 he).1
    obtain rfl := Option.some.inj (hline.lineText?.symm.trans htext)
    exact ⟨_, Nat.lt_of_not_le hle, line', e', mark, hline, underline?_eq_some.1 hmark, rfl⟩
  next => exact absurd rfl h

/-! ## The rule -/

theorem walk_heading (hk : n.kind = .headingOpen) (src : Source) : walk src n = heading src n := by
  obtain ⟨kind, span?, markup, tag, info?, content?, children⟩ := n
  obtain rfl : kind = .headingOpen := hk
  rfl

theorem heading_eq_atx (hlevel : n.headingLevel? = some level) (hspan : n.span? = some span)
    (hfirst : span.start < (Source.ofText s).lines.count) (heq : n.markup ≠ "=") (hdash : n.markup ≠ "-") :
    heading (.ofText s) n = atxHeading (.ofText s) span.start level := by
  have hline : (Source.ofText s).hasLine span.start = true := by simpa [Source.hasLine] using hfirst
  simp [heading, hlevel, hspan, hline, heq, hdash]

theorem heading_eq_setext (hlevel : n.headingLevel? = some level) (hspan : n.span? = some span)
    (hfirst : span.start < (Source.ofText s).lines.count) (hmarkup : n.markup = "=" ∨ n.markup = "-") :
    heading (.ofText s) n = setextHeading (.ofText s) span level := by
  have hline : (Source.ofText s).hasLine span.start = true := by simpa [Source.hasLine] using hfirst
  simp [heading, hlevel, hspan, hline, hmarkup]

theorem heading_silent (h : ∀ level span, n.headingLevel? = some level → n.span? = some span →
    (Source.ofText s).lines.count ≤ span.start) : heading (.ofText s) n = [] := by
  unfold heading
  split
  next level span hlevel hspan =>
    have hline : (Source.ofText s).hasLine span.start = false := by
      simpa [Source.hasLine] using h level span hlevel hspan
    rw [if_pos (by simp [hline])]
  next => rfl

/-- a heading that gives anything gives a hide and at most one styled range -/
theorem heading_shape (hne : heading (.ofText s) n ≠ []) :
    ∃ i j styled, i < j ∧ heading (.ofText s) n = .hide i j :: styled ∧ styled.length ≤ 1 ∧
      ∀ r ∈ styled, r.start < r.stop ∧ r.Apart (.hide i j) ∧
        ∃ level, n.headingLevel? = some level ∧ r.HasLevel level := by
  unfold heading at hne ⊢
  split at hne
  next level span hlevel hspan =>
    have hl := (headingLevel?_bounds hlevel).1
    split_ifs at hne ⊢ with hline hmarkup
    · exact absurd rfl hne
    · obtain ⟨marker, h⟩ := exists_underlineStands hne
      obtain ⟨content, -, hle, hread⟩ := exists_contentStands h
      rw [h.setextHeading hread]
      exact shape_headed hlevel h.lt (Or.inl hle)
    · obtain ⟨marker, content, h⟩ := exists_atxStands hl hne
      obtain ⟨hmarker, hle⟩ := h.order hl
      rw [h.atxHeading hl]
      exact shape_headed hlevel hmarker (Or.inr hle)
  next => exact absurd rfl hne

/-- **A heading gives its marker, and its content if it has any, exactly if its marker stands where its token says.** -/
theorem heading_rule (s : List Char) (hk : n.kind = .headingOpen) : HeadingRule s n (walk (.ofText s) n) := by
  rw [walk_heading hk]
  refine ⟨?_, ?_, heading_silent, or_iff_not_imp_left.2 heading_shape⟩
  · intro level span hlevel hspan hfirst heq hdash
    have hl := (headingLevel?_bounds hlevel).1
    rw [heading_eq_atx hlevel hspan hfirst heq hdash]
    refine ⟨⟨exists_atxStands hl, ?_⟩, fun marker content h => h.atxHeading hl⟩
    rintro ⟨marker, content, h⟩
    rw [h.atxHeading hl]
    exact List.cons_ne_nil _ _
  · intro level span hlevel hspan hfirst hmarkup
    rw [heading_eq_setext hlevel hspan hfirst hmarkup]
    have hgives : ∀ marker, UnderlineStands s span.start span.last marker →
        ∃ content, ContentStands s span.start span.last content ∧
          setextHeading (.ofText s) span level = headed marker content level := by
      intro marker h
      obtain ⟨content, hcontent, -, hread⟩ := exists_contentStands h
      exact ⟨content, hcontent, h.setextHeading hread⟩
    refine ⟨⟨exists_underlineStands, ?_⟩, hgives⟩
    rintro ⟨marker, h⟩
    obtain ⟨content, -, heq⟩ := hgives marker h
    rw [heq]
    exact List.cons_ne_nil _ _

/-- two lines of content behind tabs and spaces, and an underline with blanks on either side -/
theorem heading_rule_setext :
    let s := "x\n\t Title #\n  more\n --- \t\ny".toList
    let n : Node := ⟨.headingOpen, some ⟨1, 4⟩, "-", "h2", none, none, []⟩
    n.kind = .headingOpen ∧ HeadingRule s n (walk (.ofText s) n) ∧
      walk (.ofText s) n = [.hide 20 23, .heading 4 18 2] := by
  intro s n
  have hkind : n.kind = .headingOpen := rfl
  exact ⟨hkind, heading_rule s hkind, by decide⟩

end MarkVeil.Decoration

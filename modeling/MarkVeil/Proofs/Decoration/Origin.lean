/-
What ranges stand on.

The tree that is decorated need not belong to the text, so nothing is taken from it but its markers: `Markup` lists
what a hide can hide, and `Drawn` says that a range lies between two places, that its level goes with its kind, and
that a hide hides such a marker or an opening fence. Every step of a scan keeps `Scan.Sound`, from which all its ranges
are drawn, and so are those of a whole tree (`collect_drawn`).
-/
import MarkVeil.Decoration.Extract
import MarkVeil.Proofs.Marker.Block
import MarkVeil.Proofs.Marker.CodeSpan
import MarkVeil.Proofs.Marker.Link
import MarkVeil.Proofs.Text.Source

namespace MarkVeil.Decoration

open MarkVeil.Text
open MarkVeil.Token (Node)
open MarkVeil.Marker (Emphasis)
open MarkVeil.Marker.Link (Parts)

/-! ## What a hide hides -/

/-- a marker of an emphasis: a default one, or that of a token -/
def IsStress (nodes : List Node) (m : List Char) : Prop :=
  (∃ e : Emphasis, m = e.defaultMarker.toList) ∨
    ∃ n ∈ nodes, ((Emphasis.ofOpen? n.kind).isSome ∨ (Emphasis.ofClose? n.kind).isSome) ∧ m = n.markup.toList

def fenceMarkerOf (n : Node) : List Char :=
  if n.markup.isEmpty then Marker.Fence.defaultMarker.toList else n.markup.toList

/-- markers that are hidden wherever they stand -/
inductive Markup (nodes : List Node) : List Char → Prop
  | atx {level : Nat} (h : 1 ≤ level ∧ level ≤ 6) : Markup nodes (List.replicate level '#')
  | underline {c : Char} {n : Nat} (hc : c = '=' ∨ c = '-') (hn : 0 < n) : Markup nodes (List.replicate n c)
  | stress {m : List Char} (h : IsStress nodes m) : Markup nodes m
  | ticks {n : Nat} (hn : 0 < n) : Markup nodes (List.replicate n '`')
  | bracket {m : List Char} (h : m ∈ [['['], [']'], ['('], [')'], ['!', '['], ['<'], ['>']]) : Markup nodes m
  | closeFence {n : Node} {c : Char} {k : Nat} (hn : n ∈ nodes) (hf : n.kind = .fence)
      (hc : (fenceMarkerOf n).head? = some c) (hk : 0 < k) : Markup nodes (List.replicate k c)

/-- the opening fence of a token, on its first line: the marker, or what stands from the marker to the info string -/
def IsOpenFence (s : List Char) (nodes : List Node) (r : Extent) (m : List Char) : Prop :=
  ∃ n ∈ nodes, n.kind = .fence ∧ ∃ span, n.span? = some span ∧ OnLine s span.start r ∧
    (m = fenceMarkerOf n ∨ ∃ info mid, n.info? = some info ∧ m = fenceMarkerOf n ++ mid ++ info.toList)

/-- a level from 4 to 6, for the kind that stands for these and for no other -/
def Range.Leveled (r : Range) : Prop :=
  (r.level?.isSome ↔ r.kind = .heading) ∧ ∀ l, r.level? = some l → 4 ≤ l ∧ l ≤ 6

/-- what holds of every range before overlaps are settled -/
structure Drawn (s : List Char) (nodes : List Node) (r : Range) : Prop where
  start : IsPlace s r.start
  stop : IsPlace s r.stop
  leveled : r.Leveled
  markup : r.kind = .hide →
    ∃ m, slice? s r.start r.stop = some m ∧ (Markup nodes m ∨ IsOpenFence s nodes r.extent m)

variable {s line : List Char} {nodes : List Node} {n : Node} {r : Range} {kind : Kind} {i j base : Nat} {m : List Char}

/-! ## Single ranges -/

theorem drawn_hide (h : slice? s i j = some m) (hm : Markup nodes m ∨ IsOpenFence s nodes ⟨i, j⟩ m) :
    ∀ r ∈ hide i j, Drawn s nodes r := by
  intro r hr
  unfold hide at hr
  split_ifs at hr
  · obtain rfl := List.mem_singleton.1 hr
    have hplaces := IsPlace.of_slice h
    exact ⟨hplaces.1, hplaces.2, ⟨by simp [Range.hide], by simp [Range.hide]⟩, fun _ => ⟨m, h, hm⟩⟩
  · simp at hr

theorem drawn_style (hr : r.Leveled) (hk : r.kind ≠ .hide) (hi : IsPlace s r.start) (hj : IsPlace s r.stop) :
    ∀ x ∈ style r, Drawn s nodes x := by
  intro x hx
  unfold style at hx
  split_ifs at hx
  · obtain rfl := List.mem_singleton.1 hx
    exact ⟨hi, hj, hr, fun h => absurd h hk⟩
  · simp at hx

theorem leveled_styled (h : kind ≠ .heading) : (Range.styled i j kind).Leveled :=
  ⟨by simpa [Range.styled] using h, by simp [Range.styled]⟩

theorem styledKind_styled (e : Emphasis) (mixed : Bool) :
    e.styledKind mixed ≠ .heading ∧ e.styledKind mixed ≠ .hide := by
  cases e <;> cases mixed <;> decide

/-- a heading has a level exactly when its kind is shared -/
theorem leveled_heading {level : Nat} (h : 1 ≤ level ∧ level ≤ 6) :
    (Range.heading i j level).Leveled ∧ (Range.heading i j level).kind ≠ .hide := by
  obtain ⟨h1, h6⟩ := h
  have hcases : level = 1 ∨ level = 2 ∨ level = 3 ∨ 4 ≤ level := by omega
  rcases hcases with rfl | rfl | rfl | h4
  · exact ⟨⟨by simp [Range.heading, Kind.ofLevel], by simp [Range.heading, Kind.ofLevel]⟩,
      by simp [Range.heading, Kind.ofLevel]⟩
  · exact ⟨⟨by simp [Range.heading, Kind.ofLevel], by simp [Range.heading, Kind.ofLevel]⟩,
      by simp [Range.heading, Kind.ofLevel]⟩
  · exact ⟨⟨by simp [Range.heading, Kind.ofLevel], by simp [Range.heading, Kind.ofLevel]⟩,
      by simp [Range.heading, Kind.ofLevel]⟩
  · have hkind : Kind.ofLevel level = .heading := by
      unfold Kind.ofLevel
      split <;> first | omega | rfl
    refine ⟨⟨by simp [Range.heading, hkind], ?_⟩, by simp [Range.heading, hkind]⟩
    intro l hl
    obtain rfl : level = l := by simpa [Range.heading, hkind] using hl
    exact ⟨h4, h6⟩

theorem Range.Leveled.of_eq {x : Range} (h : r.Leveled) (hk : x.kind = r.kind) (hl : x.level? = r.level?) :
    x.Leveled := by
  unfold Range.Leveled at *
  rwa [hk, hl]

/-! ## Links -/

/-- the ranges of a link or image that reads so on a line -/
theorem drawn_partRanges {p : Parts} {opener : List Char} (hline : slice? s base j = some line)
    (h : p.Reads opener line) (hopener : opener ∈ [['['], ['!', '[']]) (hk : kind ≠ .hide ∧ kind ≠ .heading) :
    ∀ r ∈ Scan.partRanges base p kind, Drawn s nodes r := by
  obtain ⟨label, hlabel⟩ := h.slice_label
  have hplaces := IsPlace.of_slice (slice?_slice? hline hlabel)
  have hmem : opener ∈ [['['], [']'], ['('], [')'], ['!', '['], ['<'], ['>']] := by
    simp only [List.mem_cons, List.not_mem_nil, or_false] at hopener
    rcases hopener with rfl | rfl <;> decide
  simp only [Scan.partRanges, List.forall_mem_append]
  refine ⟨⟨⟨⟨?_, ?_⟩, ?_⟩, ?_⟩, ?_⟩
  · exact drawn_hide (slice?_slice? hline h.slice_opener) (Or.inl (.bracket hmem))
  · exact drawn_hide (slice?_slice? hline h.slice_closeBracket) (Or.inl (.bracket (by decide)))
  · exact drawn_hide (slice?_slice? hline h.slice_openParen) (Or.inl (.bracket (by decide)))
  · exact drawn_hide (slice?_slice? hline h.slice_closeParen) (Or.inl (.bracket (by decide)))
  · exact drawn_style (leveled_styled hk.2) hk.1 hplaces.1 hplaces.2

/-! ## The scan -/

/-- what an open frame may be trusted with -/
def Frame.Sound (s : List Char) (nodes : List Node) : Frame → Prop
  | .emphasis _ marker contentStart? _ _ => IsStress nodes marker ∧ ∀ p, contentStart? = some p → IsPlace s p
  | .link _ => True

theorem Frame.Sound.mix {f : Frame} (h : f.Sound s nodes) (e : Emphasis) : (f.mix e).Sound s nodes := by
  cases f <;> exact h

theorem Frame.sound_mixOuter? {fs gs : List Frame} {e : Emphasis} (h : ∀ f ∈ fs, f.Sound s nodes)
    (hm : Frame.mixOuter? e fs = some gs) : ∀ f ∈ gs, f.Sound s nodes := by
  induction fs generalizing gs with
  | nil => simp [Frame.mixOuter?] at hm
  | cons f fs ih =>
    obtain ⟨hf, hfs⟩ := List.forall_mem_cons.1 h
    simp only [Frame.mixOuter?] at hm
    split at hm
    next hs hhs =>
      obtain rfl := Option.some.inj hm
      exact List.forall_mem_cons.2 ⟨hf, ih hfs hhs⟩
    next =>
      split_ifs at hm
      obtain rfl := Option.some.inj hm
      exact List.forall_mem_cons.2 ⟨hf.mix e, hfs⟩

namespace Scan

/-- the invariant of a scan: all its frames may be trusted. The cursor may be anywhere -/
def Sound (s : List Char) (nodes : List Node) (sc : Scan) : Prop := ∀ f ∈ sc.frames, f.Sound s nodes

variable {sc : Scan} {e : Emphasis} {default : List Char} {p : Nat}

theorem isStress_markerOf (hn : n ∈ nodes)
    (hk : (Emphasis.ofOpen? n.kind).isSome ∨ (Emphasis.ofClose? n.kind).isSome) (hd : IsStress nodes default) :
    IsStress nodes (markerOf n default) := by
  unfold markerOf
  split_ifs
  · exact hd
  · exact Or.inr ⟨n, hn, hk, rfl⟩

theorem locateOpen?_sound (h : sc.locateOpen? (.ofText s) n m = some p) : slice? s p (p + byteLen m) = some m := by
  unfold locateOpen? at h
  split at h
  next => exact Source.findOnLine?_sound h
  next =>
    obtain ⟨content, -, h⟩ := Option.bind_eq_some_iff.1 h
    exact Source.findBefore?_sound h

theorem locateClose?_sound (h : sc.locateClose? (.ofText s) n m = some p) : slice? s p (p + byteLen m) = some m := by
  unfold locateClose? at h
  split at h
  next => exact Source.findOnLine?_sound h
  next =>
    obtain ⟨content, -, h⟩ := Option.bind_eq_some_iff.1 h
    exact Source.findAfter?_sound h

theorem openEmphasis_sound (hn : n ∈ nodes) (hk : (Emphasis.ofOpen? n.kind).isSome) (h : sc.Sound s nodes) :
    (sc.openEmphasis (.ofText s) n e).1.Sound s nodes ∧
      ∀ r ∈ (sc.openEmphasis (.ofText s) n e).2, Drawn s nodes r := by
  have hm : IsStress nodes (markerOf n e.defaultMarker.toList) :=
    isStress_markerOf hn (Or.inl hk) (Or.inl ⟨e, rfl⟩)
  set marker := markerOf n e.defaultMarker.toList with hmarker
  have hfound : ∀ p, sc.locateOpen? (.ofText s) n marker = some p → slice? s p (p + byteLen marker) = some marker :=
    fun p => locateOpen?_sound
  constructor
  · refine List.forall_mem_cons.2 ⟨⟨hm, ?_⟩, ?_⟩
    · intro p hp
      obtain ⟨q, hq, rfl⟩ := Option.map_eq_some_iff.1 hp
      exact (IsPlace.of_slice (hfound q hq)).2
    · cases houter : (if e.merges then Frame.mixOuter? e sc.frames else none) with
      | none => exact h
      | some fs =>
        split_ifs at houter
        exact Frame.sound_mixOuter? h houter
  · simp only [openEmphasis, ← hmarker]
    split
    next p hp => exact drawn_hide (hfound p hp) (Or.inl (.stress hm))
    next => simp

theorem closeEmphasis_sound (hn : n ∈ nodes) (hk : (Emphasis.ofClose? n.kind).isSome) (h : sc.Sound s nodes) :
    (sc.closeEmphasis (.ofText s) n e).1.Sound s nodes ∧
      ∀ r ∈ (sc.closeEmphasis (.ofText s) n e).2, Drawn s nodes r := by
  unfold closeEmphasis
  split
  next e' openMarker contentStart? mixed suppressed frames hdrop =>
    have hframes : ∀ f ∈ Frame.emphasis e' openMarker contentStart? mixed suppressed :: frames, f.Sound s nodes := by
      rw [← hdrop]
      exact fun f hf => h f ((List.dropWhile_suffix _).mem hf)
    obtain ⟨⟨hopen, hstart⟩, hrest⟩ := List.forall_mem_cons.1 hframes
    have hm : IsStress nodes (markerOf n openMarker) := isStress_markerOf hn (Or.inr hk) hopen
    simp only
    split
    next => exact ⟨hrest, by simp⟩
    next found hfound =>
      have hslice := locateClose?_sound hfound
      refine ⟨hrest, List.forall_mem_append.2 ⟨?_, drawn_hide hslice (Or.inl (.stress hm))⟩⟩
      split
      next start =>
        split_ifs
        · simp
        · have hkind := styledKind_styled e mixed
          exact drawn_style (leveled_styled hkind.1) hkind.2 (hstart start rfl) (IsPlace.of_slice hslice).1
      next => simp
  next => exact ⟨h, by simp⟩

theorem tickLen_pos (n : Node) : 0 < tickLen n := by
  unfold tickLen
  split_ifs with hm
  · exact Nat.one_pos
  · refine byteLen_pos fun hnil => hm ?_
    rw [String.isEmpty_iff, ← String.toList_inj, hnil]
    rfl

theorem locateTicks?_sound {run : Nat} (h : sc.locateTicks? (.ofText s) n run = some p) :
    slice? s p (p + run) = some (List.replicate run '`') := by
  unfold locateTicks? at h
  split at h
  next =>
    obtain ⟨h, -⟩ := Option.filter_eq_some_iff.1 h
    obtain ⟨start, -, h⟩ := Option.bind_eq_some_iff.1 h
    exact (Marker.findRun?_sound h).1
  next =>
    obtain ⟨content, -, h⟩ := Option.bind_eq_some_iff.1 h
    have hslice := Source.findBefore?_sound h
    rwa [byteLen_replicate_one rfl] at hslice

theorem codeSpan_sound (h : sc.Sound s nodes) :
    (sc.codeSpan (.ofText s) n).1.Sound s nodes ∧ ∀ r ∈ (sc.codeSpan (.ofText s) n).2, Drawn s nodes r := by
  have hpos := tickLen_pos n
  unfold codeSpan
  simp only
  split
  next => exact ⟨h, by simp⟩
  next first hfirst =>
    split
    next => exact ⟨h, by simp⟩
    next last hlast =>
      have h1 := locateTicks?_sound hfirst
      have h2 := (Marker.findRun?_sound (Option.filter_eq_some_iff.1 hlast).1).1
      refine ⟨h, List.forall_mem_append.2 ⟨List.forall_mem_append.2 ⟨?_, ?_⟩, ?_⟩⟩
      · exact drawn_hide h1 (Or.inl (.ticks hpos))
      · exact drawn_hide h2 (Or.inl (.ticks hpos))
      · exact drawn_style (leveled_styled (by decide)) (by simp [Range.styled]) (IsPlace.of_slice h1).2
          (IsPlace.of_slice h2).1

theorem lineAt?_sound {k start : Nat} (h : sc.lineAt? (.ofText s) k = some (base, line, start)) :
    slice? s base (base + byteLen line) = some line := by
  obtain ⟨b, hb, h⟩ := Option.bind_eq_some_iff.1 h
  obtain ⟨t, ht, h⟩ := Option.bind_eq_some_iff.1 h
  obtain ⟨c, -, h⟩ := Option.map_eq_some_iff.1 h
  obtain ⟨rfl, rfl, -⟩ : b = base ∧ t = line ∧ c - b = start := by simpa using h
  exact (Source.extent?_of_lineText? hb ht).2

theorem openAutolink?_sound {k resume cursor : Nat} {rs : List Range}
    (h : sc.openAutolink? (.ofText s) k = some (resume, cursor, rs)) : ∀ r ∈ rs, Drawn s nodes r := by
  obtain ⟨⟨base, line, start⟩, hline, h⟩ := Option.bind_eq_some_iff.1 h
  obtain ⟨angle, hangle, h⟩ := Option.map_eq_some_iff.1 h
  have hslice := lineAt?_sound hline
  obtain ⟨a, url, b, rfl, rfl⟩ := Marker.Link.findAutolink?_sound hangle
  simp only [Prod.mk.injEq] at h
  obtain ⟨-, -, rfl⟩ := h
  have h1 : '<'.utf8Size = 1 := rfl
  have h2 : '>'.utf8Size = 1 := rfl
  have hopen : slice? (a ++ '<' :: (url ++ '>' :: b)) (byteLen a) (byteLen a + 1) = some ['<'] :=
    slice?_eq_some.2 ⟨a, url ++ '>' :: b, by simp, rfl, by simp [h1]⟩
  have hurl : slice? (a ++ '<' :: (url ++ '>' :: b)) (byteLen a + 1) (byteLen a + 1 + byteLen url) = some url :=
    slice?_eq_some.2 ⟨a ++ ['<'], '>' :: b, by simp, by simp [h1], rfl⟩
  have hclose : slice? (a ++ '<' :: (url ++ '>' :: b)) (byteLen a + 1 + byteLen url)
      (byteLen a + 1 + byteLen url + 1) = some ['>'] :=
    slice?_eq_some.2 ⟨a ++ '<' :: url, b, by simp, by simp [h1]; omega, by simp [h2]⟩
  have hplaces := IsPlace.of_slice (slice?_slice? hslice hurl)
  have hend : base + (byteLen a + 1 + byteLen url + 1) - 1 = base + (byteLen a + 1 + byteLen url) := by omega
  rw [hend]
  refine List.forall_mem_append.2 ⟨List.forall_mem_append.2 ⟨?_, ?_⟩, ?_⟩
  · exact drawn_hide (slice?_slice? hslice hopen) (Or.inl (.bracket (by decide)))
  · exact drawn_hide (slice?_slice? hslice hclose) (Or.inl (.bracket (by decide)))
  · exact drawn_style (leveled_styled (by decide)) (by simp [Range.styled]) hplaces.1 hplaces.2

theorem openInline?_sound {k resume cursor : Nat} {rs : List Range}
    (h : sc.openInline? (.ofText s) k = some (resume, cursor, rs)) : ∀ r ∈ rs, Drawn s nodes r := by
  obtain ⟨⟨base, line, start⟩, hline, h⟩ := Option.bind_eq_some_iff.1 h
  obtain ⟨p, hp, h⟩ := Option.map_eq_some_iff.1 h
  simp only [Prod.mk.injEq] at h
  obtain ⟨-, -, rfl⟩ := h
  exact drawn_partRanges (lineAt?_sound hline) (Marker.Link.findLink?_sound hp) (by decide) (by decide)

theorem openLink_sound (h : sc.Sound s nodes) :
    (sc.openLink (.ofText s) n).1.Sound s nodes ∧ ∀ r ∈ (sc.openLink (.ofText s) n).2, Drawn s nodes r := by
  unfold openLink
  simp only
  split
  next resume cursor rs hfound =>
    refine ⟨List.forall_mem_cons.2 ⟨trivial, h⟩, ?_⟩
    obtain ⟨span, -, hfound⟩ := Option.bind_eq_some_iff.1 hfound
    split_ifs at hfound
    · exact openAutolink?_sound hfound
    · exact openInline?_sound hfound
  next => exact ⟨List.forall_mem_cons.2 ⟨trivial, h⟩, by simp⟩

theorem closeLink_sound (h : sc.Sound s nodes) : sc.closeLink.Sound s nodes := by
  unfold closeLink
  split
  next resume? frames hdrop =>
    intro f hf
    refine h f ((List.dropWhile_suffix _).mem (?_ : f ∈ sc.frames.dropWhile fun f => !f.isLink))
    rw [hdrop]
    exact List.mem_cons_of_mem _ hf
  next => exact h

theorem image_sound (h : sc.Sound s nodes) :
    (sc.image (.ofText s) n).1.Sound s nodes ∧ ∀ r ∈ (sc.image (.ofText s) n).2, Drawn s nodes r := by
  unfold image
  split
  next base p hfound =>
    refine ⟨h, ?_⟩
    obtain ⟨span, -, hfound⟩ := Option.bind_eq_some_iff.1 hfound
    obtain ⟨⟨base', line, start⟩, hline, hfound⟩ := Option.bind_eq_some_iff.1 hfound
    obtain ⟨q, hq, hfound⟩ := Option.map_eq_some_iff.1 hfound
    obtain ⟨rfl, rfl⟩ : base' = base ∧ q = p := by simpa using hfound
    exact drawn_partRanges (lineAt?_sound hline) (Marker.Link.findImage?_sound hq) (by decide) (by decide)
  next => exact ⟨h, by simp⟩

/-- tokens that a scan passes over -/
def isPassed (k : Token.Kind) : Bool :=
  (Emphasis.ofOpen? k).isNone && (Emphasis.ofClose? k).isNone &&
    !([.text, .htmlInline, .codeInline, .linkOpen, .linkClose, .image] : List Token.Kind).contains k

/-- **A step, by its handler.** What holds of the step of each handler holds of every step. -/
@[elab_as_elim]
theorem step_cases (src : Source) (sc : Scan) (n : Node) {motive : Step → Prop}
    (text : n.kind = .text ∨ n.kind = .htmlInline → motive (sc.skipText src n, []))
    (opening : ∀ e, Emphasis.ofOpen? n.kind = some e → motive (sc.openEmphasis src n e))
    (closing : ∀ e, Emphasis.ofClose? n.kind = some e → motive (sc.closeEmphasis src n e))
    (code : n.kind = .codeInline → motive (sc.codeSpan src n))
    (linkOpening : n.kind = .linkOpen → motive (sc.openLink src n))
    (linkClosing : n.kind = .linkClose → motive (sc.closeLink, [])) (image : n.kind = .image → motive (sc.image src n))
    (other : isPassed n.kind = true → motive (sc, [])) : motive (sc.step src n) := by
  unfold step
  split
  next hk => exact text (Or.inl hk)
  next hk => exact text (Or.inr hk)
  next hk => exact opening .strong (by rw [hk]; rfl)
  next hk => exact opening .em (by rw [hk]; rfl)
  next hk => exact opening .strike (by rw [hk]; rfl)
  next hk => exact closing .strong (by rw [hk]; rfl)
  next hk => exact closing .em (by rw [hk]; rfl)
  next hk => exact closing .strike (by rw [hk]; rfl)
  next hk => exact code hk
  next hk => exact linkOpening hk
  next hk => exact linkClosing hk
  next hk => exact image hk
  next =>
    apply other
    cases hk : n.kind <;> first | rfl | (exfalso; simp_all)

theorem frames_skipText (src : Source) (sc : Scan) (n : Node) : (sc.skipText src n).frames = sc.frames := by
  unfold skipText
  split
  · rfl
  · simp only
    split <;> rfl

/-- **A step keeps the invariant, and its ranges are drawn.** -/
theorem step_sound (hn : n ∈ nodes) (h : sc.Sound s nodes) :
    (sc.step (.ofText s) n).1.Sound s nodes ∧ ∀ r ∈ (sc.step (.ofText s) n).2, Drawn s nodes r := by
  have hskip : (sc.skipText (.ofText s) n).Sound s nodes := by
    unfold Sound
    rw [frames_skipText]
    exact h
  refine step_cases (.ofText s) sc n ?text ?opening ?closing ?code ?linkOpening ?linkClosing ?image ?other
  case text =>
    intro _
    exact ⟨hskip, by simp⟩
  case opening =>
    intro e hk
    exact openEmphasis_sound hn (by rw [hk]; rfl) h
  case closing =>
    intro e hk
    exact closeEmphasis_sound hn (by rw [hk]; rfl) h
  case code =>
    intro _
    exact codeSpan_sound h
  case linkOpening =>
    intro _
    exact openLink_sound h
  case linkClosing =>
    intro _
    exact ⟨closeLink_sound h, by simp⟩
  case image =>
    intro _
    exact image_sound h
  case other =>
    intro _
    exact ⟨h, by simp⟩

/-- all ranges of a scan are drawn -/
theorem run_drawn (h : sc.Sound s nodes) {ns : List Node} (hns : ∀ n ∈ ns, n ∈ nodes) :
    ∀ r ∈ sc.run (.ofText s) ns, Drawn s nodes r := by
  induction ns generalizing sc with
  | nil => simp [run]
  | cons n ns ih =>
    obtain ⟨hn, hns⟩ := List.forall_mem_cons.1 hns
    obtain ⟨hsound, hdrawn⟩ := step_sound hn h
    exact List.forall_mem_append.2 ⟨hdrawn, ih hsound hns⟩

theorem start_sound (src : Source) (span? : Option LineSpan) : (start src span?).Sound s nodes := by simp [Sound, start]

end Scan

end MarkVeil.Decoration

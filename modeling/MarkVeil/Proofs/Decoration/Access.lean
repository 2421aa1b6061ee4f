/-
What a scan reads of its text.

`Checked.run` reads tokens as a scan does, with every slice, byte and offset checked on the way: an access that goes
wrong ends it with that access. A checked handler is the handler of `Scan` of its name, line by line, but for what its
docstring says is checked. Where the cursor is a place nothing goes wrong but one slice: the text of a token is looked
for from the cursor to the end of the token's last line, and the cursor may be past that end (`LooksBack`). Such a slice
ends a strict reader; any other finds nothing in it and goes on. Main results:
- `run_places`: for every text and any tokens, the offsets of the scan are places after each of them, and the checked
  run gives the scan and the ranges of the run, strict or not, up to the first token for which it looks back;
- `run_reversed`: it does look back for a token on a line before that of the token in front.
-/
import MarkVeil.Proofs.Decoration.Placed
import MarkVeil.Proofs.Marker.LinkAccess
import MarkVeil.Proofs.Marker.TickRuns

namespace MarkVeil.Decoration

open MarkVeil.Text
open MarkVeil.Token (Node)
open MarkVeil.Marker (Emphasis)
open MarkVeil.Marker.Link (Parts)

namespace Checked

open MarkVeil.Text.Checked
open MarkVeil.Decoration.Scan (Step)

/-! ## The checked handlers -/

/-- the slice that is searched is checked -/
def skipText (strict : Bool) (src : Source) (n : Node) (sc : Scan) : Access Scan :=
  match Scan.contentOf? n with
  | none => return sc
  | some content => do
    let lineStart := (n.span?.bind fun span => src.lines.start? span.start).getD 0
    match ← findForward strict src (max sc.cursor lineStart) (n.span?.map (·.last)) content with
    | some found => return { sc with cursor := found + byteLen content }
    | none => return sc

/-- `locateOpen?` and `locateClose?` in one, with the search around the content given; the slice of the line is checked,
and the slice that the search goes through -/
def locate (around : Source → (content marker : List Char) → Access (Option Nat)) (src : Source) (n : Node)
    (marker : List Char) (sc : Scan) : Access (Option Nat) :=
  match n.span? with
  | some span => findOnLine src span.start marker sc.cursor
  | none =>
    match Scan.contentOf? n with
    | some content => around src content marker
    | none => return none

def locateOpen (src : Source) : Node → List Char → Scan → Access (Option Nat) := locate findBefore src

def locateClose (src : Source) : Node → List Char → Scan → Access (Option Nat) := locate findAfter src

/-- the marker is located with checks -/
def openEmphasis (src : Source) (n : Node) (e : Emphasis) (sc : Scan) : Access Step := do
  let marker := Scan.markerOf n e.defaultMarker.toList
  let found? ← locateOpen src n marker sc
  let contentStart? := found?.map (· + byteLen marker)
  let outer? := if e.merges then Frame.mixOuter? e sc.frames else none
  return (⟨contentStart?.getD sc.cursor,
      .emphasis e marker contentStart? false outer?.isSome :: outer?.getD sc.frames⟩,
    match found? with
    | some found => hide found (found + byteLen marker)
    | none => [])

/-- the marker is located with checks -/
def closeEmphasis (src : Source) (n : Node) (e : Emphasis) (sc : Scan) : Access Step :=
  match sc.frames.dropWhile fun f => !f.isOpen e with
  | .emphasis _ openMarker contentStart? mixed suppressed :: frames => do
    let marker := Scan.markerOf n openMarker
    match ← locateClose src n marker sc with
    | none => return (⟨sc.cursor, frames⟩, [])
    | some found =>
      let styled := match contentStart? with
        | some start => if suppressed then [] else style (.styled start found (e.styledKind mixed))
        | none => []
      return (⟨max sc.cursor (found + byteLen marker), frames⟩, styled ++ hide found (found + byteLen marker))
  | _ => return (sc, [])

/-- every byte that the search for a run looks at is checked, and the slice before the content -/
def locateTicks (src : Source) (n : Node) (run : Nat) (sc : Scan) : Access (Option Nat) :=
  match n.span? with
  | some span =>
    match src.scanStart? span.start sc.cursor with
    | some start => do
      let found? ← Marker.Checked.findRun (utf8 src.text) start run
      return found?.filter fun found => src.lines.lineOf found == span.start
    | none => return none
  | none =>
    match Scan.contentOf? n with
    | some content => findBefore src content (List.replicate run '`')
    | none => return none

/-- both runs are located with checks -/
def codeSpan (src : Source) (n : Node) (sc : Scan) : Access Step := do
  let run := Scan.tickLen n
  let limit := (n.span?.bind fun span => src.lines.stop? span.last).getD (byteLen src.text)
  match ← locateTicks src n run sc with
  | none => return (sc, [])
  | some first =>
    let last? ← Marker.Checked.findRun (utf8 src.text) (first + run) run
    match last?.filter fun last => last + run ≤ limit with
    | none => return (sc, [])
    | some last =>
      return ({ sc with cursor := last + run },
        hide first (first + run) ++ hide last (last + run) ++ style (.styled (first + run) last .code))

/-- the offset of the closing parenthesis, one byte before the end, is checked -/
def partRanges (base : Nat) (p : Parts) (kind : Kind) : Access (List Range) := do
  let close ← Marker.Link.Checked.closeParen p
  return hide (base + p.full.start) (base + p.label.start) ++ hide (base + p.closeBracket) (base + p.closeBracket + 1) ++
    hide (base + p.openParen) (base + p.openParen + 1) ++ hide (base + close) (base + p.full.stop) ++
    style (.styled (base + p.label.start) (base + p.label.stop) kind)

/-- the slice of the line is checked, and the offset on it -/
def lineAt (src : Source) (line : Nat) (sc : Scan) : Access (Option (Nat × List Char × Nat)) := do
  match src.lines.start? line, ← lineText src line, src.scanStart? line sc.cursor with
  | some base, some text, some start =>
    let place ← below start base
    return some (base, text, place)
  | _, _, _ => return none

/-- the search on the line is checked, and the offset of the closing bracket, one byte before the end -/
def openAutolink (src : Source) (line : Nat) (sc : Scan) : Access (Option (Nat × Nat × List Range)) := do
  match ← lineAt src line sc with
  | none => return none
  | some (base, text, start) =>
    match ← Marker.Link.Checked.findAutolink text start with
    | none => return none
    | some angle =>
      let close ← below (base + angle.stop) 1
      return some (base + angle.stop, base + angle.start + 1,
        hide (base + angle.start) (base + angle.start + 1) ++ hide close (base + angle.stop) ++
          style (.styled (base + angle.start + 1) close .link))

/-- the search on the line is checked, and the ranges -/
def openInline (src : Source) (line : Nat) (sc : Scan) : Access (Option (Nat × Nat × List Range)) := do
  match ← lineAt src line sc with
  | none => return none
  | some (base, text, start) =>
    match ← Marker.Link.Checked.findLink text start with
    | none => return none
    | some p =>
      let ranges ← partRanges base p .link
      return some (base + p.full.stop, base + p.label.start, ranges)

/-- what `openLink` finds first, a definition of its own here -/
def locateLink (src : Source) (n : Node) (sc : Scan) : Access (Option (Nat × Nat × List Range)) :=
  match n.span? with
  | some span =>
    if n.markup = "<" then openAutolink src span.start sc
    else if n.markup = "[" then openInline src span.start sc
    else return none
  | none => return none

/-- the link is located with checks -/
def openLink (src : Source) (n : Node) (sc : Scan) : Access Step := do
  match ← locateLink src n sc with
  | some (resume, cursor, ranges) => return (⟨cursor, .link (some resume) :: sc.frames⟩, ranges)
  | none => return ({ sc with frames := .link none :: sc.frames }, [])

/-- the search on the line is checked, and the ranges -/
def image (src : Source) (n : Node) (sc : Scan) : Access Step :=
  match n.span? with
  | none => return (sc, [])
  | some span => do
    match ← lineAt src span.start sc with
    | none => return (sc, [])
    | some (base, text, start) =>
      match ← Marker.Link.Checked.findImage text start with
      | none => return (sc, [])
      | some p =>
        let ranges ← partRanges base p .image
        return ({ sc with cursor := base + p.full.stop }, ranges)

/-- every handler but that of a closing link, which reads nothing, is the checked one -/
def step (strict : Bool) (src : Source) (sc : Scan) (n : Node) : Access Step :=
  match n.kind with
  | .text => return (← skipText strict src n sc, [])
  | .htmlInline => return (← skipText strict src n sc, [])
  | .strongOpen => openEmphasis src n .strong sc
  | .emOpen => openEmphasis src n .em sc
  | .strikeOpen => openEmphasis src n .strike sc
  | .strongClose => closeEmphasis src n .strong sc
  | .emClose => closeEmphasis src n .em sc
  | .strikeClose => closeEmphasis src n .strike sc
  | .codeInline => codeSpan src n sc
  | .linkOpen => openLink src n sc
  | .linkClose => return (sc.closeLink, [])
  | .image => image src n sc
  | _ => return (sc, [])

/-- `Scan.after` and `Scan.run` in one: the scan after tokens and the ranges they give -/
def run (strict : Bool) (src : Source) : Scan → List Node → Access Step
  | sc, [] => return (sc, [])
  | sc, n :: ns => do
    let (sc, ranges) ← step strict src sc n
    let (sc, rest) ← run strict src sc ns
    return (sc, ranges ++ rest)

/-- The text of a token would be looked for between reversed offsets: from the cursor, or from where the token's first
line starts, back to where its last line stops. -/
structure LooksBack (src : Source) (sc : Scan) (n : Node) (p q : Nat) : Prop where
  kind : n.kind = .text ∨ n.kind = .htmlInline
  content : ∃ content, Scan.contentOf? n = some content ∧ content ≠ []
  start : p = max sc.cursor ((n.span?.bind fun span => src.lines.start? span.start).getD 0)
  stop : lastStop? src (n.span?.map (·.last)) = some q
  reversed : q < p

/-! ## No handler misreads -/

/-- runs of backticks are looked for byte by byte, so the search may begin anywhere -/
theorem locateTicks_eq (s : List Char) (sc : Scan) (n : Node) (run : Nat) :
    locateTicks (.ofText s) n run sc = .ok (sc.locateTicks? (.ofText s) n run) := by
  unfold locateTicks Scan.locateTicks?
  cases n.span? with
  | some span =>
    simp only
    cases (Source.ofText s).scanStart? span.start sc.cursor with
    | none => rfl
    | some start =>
      simp only [Marker.Checked.findRun_eq, ok_bind, Option.bind_some]
      rfl
  | none =>
    cases Scan.contentOf? n with
    | some content => exact findBefore_eq (.ofText s) content _
    | none => rfl

theorem codeSpan_eq (s : List Char) (sc : Scan) (n : Node) :
    codeSpan (.ofText s) n sc = .ok (sc.codeSpan (.ofText s) n) := by
  simp only [codeSpan, Scan.codeSpan, locateTicks_eq, ok_bind]
  cases sc.locateTicks? (.ofText s) n (Scan.tickLen n) with
  | none => rfl
  | some first =>
    generalize (n.span?.bind fun span => (Source.ofText s).lines.stop? span.last).getD
      (byteLen (Source.ofText s).text) = limit
    have hlast := Marker.Checked.findRun_eq (Source.ofText s).text (first + Scan.tickLen n) (Scan.tickLen n)
    simp only [hlast, ok_bind]
    cases (Marker.findRun? (Source.ofText s).text (first + Scan.tickLen n) (Scan.tickLen n)).filter
      fun last => last + Scan.tickLen n ≤ limit <;> rfl

/-- the parts of a link or image that reads so on a line -/
theorem partRanges_eq {p : Parts} {opener line : List Char} (h : p.Reads opener line) (base : Nat) (kind : Kind) :
    partRanges base p kind = .ok (Scan.partRanges base p kind) := by
  rw [partRanges, Marker.Link.Checked.closeParen_eq h]
  rfl

section Place

variable {s : List Char} {sc : Scan} (hc : IsPlace s sc.cursor)
include hc

/-- the text of a token is not misread unless the search would have to go back -/
theorem skipText_eq {strict : Bool} {n : Node} (hk : n.kind = .text ∨ n.kind = .htmlInline)
    (h : strict = true → ∀ p q, ¬ LooksBack (.ofText s) sc n p q) :
    skipText strict (.ofText s) n sc = .ok (sc.skipText (.ofText s) n) := by
  unfold skipText Scan.skipText
  cases hcontent : Scan.contentOf? n with
  | none => rfl
  | some content =>
    have hstart := hc.max (Scan.isPlace_lineStart s n.span?)
    have hforward : strict = true → content ≠ [] → ∀ stop, lastStop? (.ofText s) (n.span?.map (·.last)) = some stop →
        max sc.cursor ((n.span?.bind fun span => (Source.ofText s).lines.start? span.start).getD 0) ≤ stop := by
      intro hstrict hne stop hstop
      by_contra hlt
      exact h hstrict _ stop ⟨hk, ⟨content, hcontent, hne⟩, rfl, hstop, Nat.lt_of_not_le hlt⟩
    simp only [findForward_eq hstart hforward, ok_bind]
    cases (Source.ofText s).findForward? _ _ content <;> rfl

theorem locate_eq {around : Source → List Char → List Char → Access (Option Nat)}
    {around? : Source → List Char → List Char → Option Nat}
    (h : ∀ src content marker, around src content marker = .ok (around? src content marker)) (n : Node)
    (marker : List Char) : locate around (.ofText s) n marker sc = .ok (match n.span? with
      | some span => (Source.ofText s).findOnLine? span.start marker sc.cursor
      | none => (Scan.contentOf? n).bind fun content => around? (.ofText s) content marker) := by
  unfold locate
  cases n.span? with
  | some span => exact findOnLine_eq hc span.start marker
  | none =>
    cases Scan.contentOf? n with
    | some content => exact h (.ofText s) content marker
    | none => rfl

theorem locateOpen_eq (n : Node) (marker : List Char) :
    locateOpen (.ofText s) n marker sc = .ok (sc.locateOpen? (.ofText s) n marker) :=
  locate_eq hc findBefore_eq n marker

theorem locateClose_eq (n : Node) (marker : List Char) :
    locateClose (.ofText s) n marker sc = .ok (sc.locateClose? (.ofText s) n marker) :=
  locate_eq hc findAfter_eq n marker

theorem openEmphasis_eq (n : Node) (e : Emphasis) :
    openEmphasis (.ofText s) n e sc = .ok (sc.openEmphasis (.ofText s) n e) := by
  simp only [openEmphasis, locateOpen_eq hc, ok_bind]
  rfl

theorem closeEmphasis_eq (n : Node) (e : Emphasis) :
    closeEmphasis (.ofText s) n e sc = .ok (sc.closeEmphasis (.ofText s) n e) := by
  unfold closeEmphasis Scan.closeEmphasis
  generalize sc.frames.dropWhile (fun f => !f.isOpen e) = frames
  rcases frames with - | ⟨f, frames⟩
  · rfl
  · cases f with
    | emphasis e' openMarker contentStart? mixed suppressed =>
      simp only [locateClose_eq hc, ok_bind]
      cases sc.locateClose? (.ofText s) n (Scan.markerOf n openMarker) <;> rfl
    | link resume? => rfl

theorem lineAt_eq (line : Nat) : lineAt (.ofText s) line sc = .ok (sc.lineAt? (.ofText s) line) := by
  simp only [lineAt, Scan.lineAt?, lineText_eq, ok_bind]
  cases hbase : (Source.ofText s).lines.start? line with
  | none => rfl
  | some base =>
    cases (Source.ofText s).lineText? line with
    | none => rfl
    | some text =>
      cases hstart : (Source.ofText s).scanStart? line sc.cursor with
      | none => rfl
      | some start =>
        obtain ⟨e, he, -, hle, -⟩ := isPlace_scanStart? hc hstart
        obtain rfl : e.start = base := by
          rw [LineIndex.start?, he] at hbase
          exact Option.some.inj hbase
        simp only [below_eq hle, ok_bind]
        rfl

/-- on its line the scan goes on at a place of the line -/
theorem isPlace_lineAt? {k base start : Nat} {line : List Char}
    (h : sc.lineAt? (.ofText s) k = some (base, line, start)) : IsPlace line start := by
  have hslice := Scan.lineAt?_sound h
  obtain ⟨b, hb, h⟩ := Option.bind_eq_some_iff.1 h
  obtain ⟨t, ht, h⟩ := Option.bind_eq_some_iff.1 h
  obtain ⟨c, hstart, h⟩ := Option.map_eq_some_iff.1 h
  obtain ⟨rfl, rfl, rfl⟩ : b = base ∧ t = line ∧ c - b = start := by simpa using h
  obtain ⟨e, he, hplace, hle, hstop⟩ := isPlace_scanStart? hc hstart
  obtain rfl := Option.some.inj (he.symm.trans (Source.extent?_of_lineText? hb ht).1)
  exact .of_shift hslice hplace hle hstop

theorem openAutolink_eq (line : Nat) :
    openAutolink (.ofText s) line sc = .ok (sc.openAutolink? (.ofText s) line) := by
  simp only [openAutolink, Scan.openAutolink?, lineAt_eq hc, ok_bind]
  cases hline : sc.lineAt? (.ofText s) line with
  | none => rfl
  | some found =>
    obtain ⟨base, text, start⟩ := found
    simp only [Marker.Link.Checked.findAutolink_eq (isPlace_lineAt? hc hline), ok_bind, Option.bind_some]
    cases hangle : Marker.Link.findAutolink? text start with
    | none => rfl
    | some angle =>
      obtain ⟨a, url, b, -, rfl⟩ := Marker.Link.findAutolink?_sound hangle
      have hclose : 1 ≤ base + (byteLen a + 1 + byteLen url + 1) := by omega
      simp only [below_eq hclose, ok_bind]
      rfl

theorem openInline_eq (line : Nat) : openInline (.ofText s) line sc = .ok (sc.openInline? (.ofText s) line) := by
  simp only [openInline, Scan.openInline?, lineAt_eq hc, ok_bind]
  cases sc.lineAt? (.ofText s) line with
  | none => rfl
  | some found =>
    obtain ⟨base, text, start⟩ := found
    simp only [Marker.Link.Checked.findLink_eq, ok_bind, Option.bind_some]
    cases hp : Marker.Link.findLink? text start with
    | none => rfl
    | some p =>
      simp only [partRanges_eq (Marker.Link.findLink?_sound hp), ok_bind]
      rfl

theorem openLink_eq (n : Node) : openLink (.ofText s) n sc = .ok (sc.openLink (.ofText s) n) := by
  unfold openLink locateLink Scan.openLink
  cases n.span? with
  | none => rfl
  | some span =>
    simp only [Option.bind_some]
    split_ifs
    · rw [openAutolink_eq hc, ok_bind]
      cases sc.openAutolink? (.ofText s) span.start <;> rfl
    · rw [openInline_eq hc, ok_bind]
      cases sc.openInline? (.ofText s) span.start <;> rfl
    · rfl

theorem image_eq (n : Node) : image (.ofText s) n sc = .ok (sc.image (.ofText s) n) := by
  unfold image Scan.image
  cases n.span? with
  | none => rfl
  | some span =>
    simp only [lineAt_eq hc, ok_bind, Option.bind_some]
    cases sc.lineAt? (.ofText s) span.start with
    | none => rfl
    | some found =>
      obtain ⟨base, text, start⟩ := found
      simp only [Marker.Link.Checked.findImage_eq, ok_bind, Option.bind_some]
      cases hp : Marker.Link.findImage? text start with
      | none => rfl
      | some p =>
        simp only [partRanges_eq (Marker.Link.findImage?_sound hp), ok_bind]
        rfl

/-- **At a place a step misreads nothing**, unless it is strict and looks back. -/
theorem step_eq {strict : Bool} {n : Node} (h : strict = true → ∀ p q, ¬ LooksBack (.ofText s) sc n p q) :
    step strict (.ofText s) sc n = .ok (sc.step (.ofText s) n) := by
  unfold step Scan.step
  cases hk : n.kind with
  | text => simp only [skipText_eq hc (.inl hk) h, ok_bind]; rfl
  | htmlInline => simp only [skipText_eq hc (.inr hk) h, ok_bind]; rfl
  | _ =>
    simp only [openEmphasis_eq hc, closeEmphasis_eq hc, codeSpan_eq, openLink_eq hc, image_eq hc]
    try rfl

end Place

/-- from inside a character a step does misread -/
example : step false (.ofText "é*".toList) ⟨1, []⟩ { kind := .emOpen, span? := some (.line 0), markup := "*" } =
    .error (.slice 1 3) := by decide

variable {s : List Char} {sc : Scan} {n : Node} {ns : List Node} {p q : Nat}

/-- the ends of a slice that is reversed are places all the same -/
theorem LooksBack.places (hc : IsPlace s sc.cursor) (h : LooksBack (.ofText s) sc n p q) :
    IsPlace s p ∧ IsPlace s q :=
  ⟨h.start ▸ hc.max (Scan.isPlace_lineStart s n.span?), isPlace_lastStop? h.stop⟩

/-- a reader that is not strict misreads nothing -/
theorem run_eq (h : sc.Placed s) (ns : List Node) :
    run false (.ofText s) sc ns = .ok (sc.after (.ofText s) ns, sc.run (.ofText s) ns) := by
  induction ns generalizing sc with
  | nil => rfl
  | cons n ns ih =>
    have hstep : step false (.ofText s) sc n = .ok (sc.step (.ofText s) n) := step_eq h.cursor fun h => absurd h Bool.false_ne_true
    have hrest := ih (Scan.step_placed h n)
    simp only [run, hstep, hrest, ok_bind]
    rfl

end Checked

end MarkVeil.Decoration

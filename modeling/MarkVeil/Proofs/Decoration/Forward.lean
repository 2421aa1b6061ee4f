/-
A scan goes forward.

Every search begins at the cursor if the cursor is on the line that is searched, and otherwise where that line begins.
A cursor behind a line would go back, but none comes there when the tokens stand in order (`InOrder`): each on lines of
the document, none before the last line of an earlier text, HTML, code or emphasis token, or before the first line of
an earlier link or image. `Ahead` says that neither the cursor nor an offset at which an open link resumes is past the
line that the next tokens may begin on; a step keeps it, moves the cursor forward, and lays its hides between the
cursors before and after (`Scan.step_forward`). Main result:
- `scan_forward`: the cursor never goes back, the hides of emphasis, code and images follow one another, and the
  opening hide of a pair ends before its closing hide begins.
-/
import MarkVeil.Proofs.Decoration.Nesting
import MarkVeil.Proofs.Decoration.Within

namespace MarkVeil.Decoration

open MarkVeil.Text
open MarkVeil.Token (Node)
open MarkVeil.Marker (Emphasis)
open MarkVeil.Marker.Link (Parts)

variable {s line : List Char} {src : Source} {i j k l p lo mid hi cursor start : Nat} {kind : Kind} {m : List Char}

/-! ## Hides that follow one another -/

def hidesOf (rs : List Range) : List Range := rs.filter (·.kind == .hide)

/-- the hides among ranges follow one another between two offsets -/
structure Rises (lo hi : Nat) (rs : List Range) : Prop where
  apart : (hidesOf rs).Pairwise fun r q => r.stop ≤ q.start
  within : ∀ r ∈ hidesOf rs, lo ≤ r.start ∧ r.start < r.stop ∧ r.stop ≤ hi

namespace Rises

variable {rs qs : List Range}

theorem of_nil (h : hidesOf rs = []) : Rises lo hi rs := by
  constructor
  · rw [h]
    exact List.Pairwise.nil
  · intro r hr
    rw [h] at hr
    simp at hr

theorem nil : Rises lo hi [] := of_nil rfl

theorem hide (hi' : lo ≤ i) (hj : j ≤ hi) : Rises lo hi (hide i j) := by
  unfold Decoration.hide
  split_ifs with hij
  · constructor
    · exact List.pairwise_singleton _ _
    · intro r hr
      obtain rfl : r = .hide i j := by simpa [hidesOf, Range.hide] using hr
      exact ⟨hi', hij, hj⟩
  · exact nil

theorem style (hk : kind ≠ .hide) : Rises lo hi (style (.styled i j kind)) := by
  apply of_nil
  have hkind : ((Range.styled i j kind).kind == .hide) = false := by simpa [Range.styled] using hk
  unfold Decoration.style
  split_ifs <;> simp [hidesOf, hkind]

theorem append (h : Rises lo mid rs) (h' : Rises mid hi qs) (hlo : lo ≤ mid) (hhi : mid ≤ hi) :
    Rises lo hi (rs ++ qs) := by
  constructor
  · rw [hidesOf, List.filter_append]
    apply List.pairwise_append.2
    refine ⟨h.apart, h'.apart, ?_⟩
    intro r hr q hq
    exact (h.within r hr).2.2.trans (h'.within q hq).1
  · intro r hr
    rw [hidesOf, List.filter_append] at hr
    rcases List.mem_append.1 hr with hr | hr
    · obtain ⟨h1, h2, h3⟩ := h.within r hr
      exact ⟨h1, h2, h3.trans hhi⟩
    · obtain ⟨h1, h2, h3⟩ := h'.within r hr
      exact ⟨hlo.trans h1, h2, h3⟩

theorem mono (h : Rises i j rs) (hlo : lo ≤ i) (hhi : j ≤ hi) : Rises lo hi rs := by
  refine ⟨h.apart, ?_⟩
  intro r hr
  obtain ⟨h1, h2, h3⟩ := h.within r hr
  exact ⟨hlo.trans h1, h2, h3.trans hhi⟩

/-- the delimiters of a link or image follow one another -/
theorem partRanges {parts : Parts} {opener : List Char} (base : Nat) (h : parts.Reads opener line) (ho : opener ≠ [])
    (hk : kind ≠ .hide) :
    Rises (base + parts.full.start) (base + parts.full.stop) (Scan.partRanges base parts kind) := by
  obtain ⟨h1, h2, h3, h4, h5, -⟩ := h.order ho
  have hopener : Rises (base + parts.full.start) (base + parts.label.start)
      (Decoration.hide (base + parts.full.start) (base + parts.label.start)) := hide le_rfl le_rfl
  have hbracket : Rises (base + parts.label.start) (base + parts.closeBracket + 1)
      (Decoration.hide (base + parts.closeBracket) (base + parts.closeBracket + 1)) := hide (by omega) le_rfl
  have hparen : Rises (base + parts.closeBracket + 1) (base + parts.openParen + 1)
      (Decoration.hide (base + parts.openParen) (base + parts.openParen + 1)) := hide (by omega) le_rfl
  have hclose : Rises (base + parts.openParen + 1) (base + parts.full.stop)
      (Decoration.hide (base + parts.closeParen) (base + parts.full.stop)) := hide (by omega) le_rfl
  have hlabel : Rises (base + parts.full.stop) (base + parts.full.stop)
      (Decoration.style (.styled (base + parts.label.start) (base + parts.label.stop) kind)) := style hk
  have hbrackets := (hopener.append hbracket (by omega) (by omega)).append hparen (by omega) (by omega)
  exact (hbrackets.append hclose (by omega) (by omega)).append hlabel (by omega) le_rfl

end Rises

/-! ## Offsets and lines -/

/-- an offset is not past the content of any line from `k` on -/
def NotPast (src : Source) (k p : Nat) : Prop := ∀ i e, k ≤ i → src.lines.extent? i = some e → p ≤ e.stop

theorem NotPast.mono (h : NotPast src k p) (hk : k ≤ l) : NotPast src l p := by
  intro i e hi he
  exact h i e (hk.trans hi) he

theorem notPast_of_le {e : Extent} (he : (Source.ofText s).lines.extent? i = some e) (hp : p ≤ e.stop) :
    NotPast (.ofText s) i p := by
  intro j f hj hf
  exact hp.trans (LineIndex.stop_le_stop he hf hj)

/-- a search on a line that the cursor is not past begins at the cursor or behind it -/
theorem NotPast.le_scanStart? (h : NotPast src k cursor) (hk : k ≤ i) (hs : src.scanStart? i cursor = some start) :
    cursor ≤ start := by
  obtain ⟨e, he, rfl⟩ := Option.map_eq_some_iff.1 hs
  have hstop := h i e hk he
  split_ifs with hon
  · exact le_rfl
  · omega

theorem NotPast.findOnLine? (h : NotPast (.ofText s) k cursor) (hk : k ≤ i)
    (hf : (Source.ofText s).findOnLine? i m cursor = some p) :
    cursor ≤ p ∧ NotPast (.ofText s) i (p + byteLen m) := by
  unfold Source.findOnLine? at hf
  split_ifs at hf
  obtain ⟨start, hstart, hf⟩ := Option.bind_eq_some_iff.1 hf
  obtain ⟨stop, hstop, hf⟩ := Option.bind_eq_some_iff.1 hf
  obtain ⟨e, he, rfl⟩ := Option.map_eq_some_iff.1 hstop
  obtain ⟨h1, h2⟩ := Source.findBetween?_bounds hf
  exact ⟨(h.le_scanStart? hk hstart).trans h1, notPast_of_le he h2⟩

/-! ## A scan that is ahead of nothing to come -/

/-- where the scan goes on behind an open link -/
def Frame.resume? : Frame → Option Nat
  | .emphasis .. => none
  | .link resume? => resume?

theorem Frame.resume?_mix (f : Frame) (e : Emphasis) : (f.mix e).resume? = f.resume? := by cases f <;> rfl

/-- neither the cursor nor an offset at which an open link resumes is past the line `k` or a later one -/
structure Ahead (src : Source) (k : Nat) (sc : Scan) : Prop where
  cursor : NotPast src k sc.cursor
  resumes : ∀ f ∈ sc.frames, ∀ p, f.resume? = some p → NotPast src k p

theorem Ahead.mono {sc : Scan} (h : Ahead src k sc) (hk : k ≤ l) : Ahead src l sc := by
  refine ⟨h.cursor.mono hk, ?_⟩
  intro f hf p hp
  exact (h.resumes f hf p hp).mono hk

/-- the last line that the tokens behind a token may not come before: the last of a text, HTML, code or emphasis token,
and the first of a link or image -/
def floor? (n : Node) : Option Nat :=
  match n.kind with
  | .text | .htmlInline | .codeInline | .strongOpen | .strongClose | .emOpen | .emClose | .strikeOpen | .strikeClose =>
    n.span?.map (·.last)
  | .linkOpen | .image => n.span?.map (·.start)
  | _ => none

/-- tokens whose hides follow one another -/
def hidesInOrder : Token.Kind → Bool
  | .strongOpen | .strongClose | .emOpen | .emClose | .strikeOpen | .strikeClose | .codeInline | .image => true
  | _ => false

namespace Scan

variable {sc : Scan} {n : Node} {e : Emphasis} {span : LineSpan} {x : Step}

/-- a step from `sc` that does not go back and comes no further than the line `k` -/
structure Forward (src : Source) (k : Nat) (sc : Scan) (x : Step) : Prop where
  cursor : sc.cursor ≤ x.1.cursor
  ahead : Ahead src k x.1

theorem Forward.mono (h : Forward src k sc x) (hk : k ≤ l) : Forward src l sc x := ⟨h.cursor, h.ahead.mono hk⟩

theorem forward_refl (h : Ahead src k sc) (hk : k ≤ l) (rs : List Range) : Forward src l sc (sc, rs) :=
  ⟨le_rfl, h.mono hk⟩

theorem forward_cursor (h : Ahead src k sc) (hk : k ≤ l) (hle : sc.cursor ≤ cursor) (hp : NotPast src l cursor)
    (rs : List Range) : Forward src l sc ({ sc with cursor := cursor }, rs) := by
  refine ⟨hle, hp, ?_⟩
  intro f hf p hp
  exact (h.resumes f hf p hp).mono hk

theorem skipText_forward (h : Ahead (.ofText s) k sc) (hspan : n.span? = some span) (hk : k ≤ span.start) :
    Forward (.ofText s) span.last sc (sc.skipText (.ofText s) n, []) := by
  have hlast : k ≤ span.last := hk.trans (Nat.le_max_right _ _)
  unfold skipText
  split
  next => exact forward_refl h hlast []
  next content hcontent =>
    simp only
    split
    next found hfound =>
      rw [hspan, Option.map_some, Source.findForward?] at hfound
      split_ifs at hfound
      obtain ⟨stop, hstop, hfound⟩ := Option.bind_eq_some_iff.1 hfound
      obtain ⟨e, he, rfl⟩ := Option.map_eq_some_iff.1 hstop
      obtain ⟨h1, h2⟩ := Source.findBetween?_bounds hfound
      have hle : sc.cursor ≤ found + byteLen content := by omega
      exact forward_cursor h hlast hle (notPast_of_le he h2) []
    next => exact forward_refl h hlast []

theorem openEmphasis_forward (h : Ahead (.ofText s) k sc) (hspan : n.span? = some span) (hk : k ≤ span.start) :
    Forward (.ofText s) span.start sc (sc.openEmphasis (.ofText s) n e) ∧
      Rises sc.cursor (sc.openEmphasis (.ofText s) n e).1.cursor (sc.openEmphasis (.ofText s) n e).2 := by
  have hresumes : ∀ f ∈ (sc.openEmphasis (.ofText s) n e).1.frames, ∀ p, f.resume? = some p →
      NotPast (.ofText s) span.start p := by
    intro f hf p hp
    rw [frames_openEmphasis, Frame.pushed] at hf
    rcases List.mem_cons.1 hf with rfl | hf
    · simp [Frame.resume?] at hp
    · have hmem : f.resume? ∈ sc.frames.map Frame.resume? := by
        split_ifs at hf
        · rw [← Frame.map_note Frame.resume?_mix sc.frames e]
          exact List.mem_map_of_mem hf
        · exact List.mem_map_of_mem hf
      obtain ⟨g, hg, hgf⟩ := List.mem_map.1 hmem
      exact (h.resumes g hg p (hgf.trans hp)).mono hk
  cases hfound : sc.locateOpen? (.ofText s) n (markerOf n e.defaultMarker.toList) with
  | none =>
    have hcursor : (sc.openEmphasis (.ofText s) n e).1.cursor = sc.cursor := by simp [openEmphasis, hfound]
    have hranges : (sc.openEmphasis (.ofText s) n e).2 = [] := by simp [openEmphasis, hfound]
    refine ⟨⟨hcursor.ge, ?_, hresumes⟩, ?_⟩
    · rw [hcursor]
      exact h.cursor.mono hk
    · rw [hranges]
      exact Rises.nil
  | some found =>
    have hcursor : (sc.openEmphasis (.ofText s) n e).1.cursor =
        found + byteLen (markerOf n e.defaultMarker.toList) := by simp [openEmphasis, hfound]
    have hranges : (sc.openEmphasis (.ofText s) n e).2 =
        hide found (found + byteLen (markerOf n e.defaultMarker.toList)) := by simp [openEmphasis, hfound]
    rw [locateOpen?, hspan] at hfound
    obtain ⟨h1, h2⟩ := h.cursor.findOnLine? hk hfound
    refine ⟨⟨?_, ?_, hresumes⟩, ?_⟩
    · rw [hcursor]
      omega
    · rw [hcursor]
      exact h2
    · rw [hcursor, hranges]
      exact Rises.hide h1 le_rfl

/-- the styled range of an emphasis is no hide -/
theorem rises_content (contentStart? : Option Nat) (found : Nat) (suppressed : Bool) (e : Emphasis) (mixed : Bool) :
    Rises lo hi (match contentStart? with
      | some start => if suppressed then [] else style (.styled start found (e.styledKind mixed))
      | none => []) := by
  split
  · split_ifs
    · exact Rises.nil
    · exact Rises.style (styledKind_styled e mixed).2
  · exact Rises.nil

theorem closeEmphasis_forward (h : Ahead (.ofText s) k sc) (hspan : n.span? = some span) (hk : k ≤ span.start) :
    Forward (.ofText s) span.start sc (sc.closeEmphasis (.ofText s) n e) ∧
      Rises sc.cursor (sc.closeEmphasis (.ofText s) n e).1.cursor (sc.closeEmphasis (.ofText s) n e).2 := by
  have hresumes : ∀ f ∈ (sc.closeEmphasis (.ofText s) n e).1.frames, ∀ p, f.resume? = some p →
      NotPast (.ofText s) span.start p := by
    intro f hf p hp
    exact (h.resumes f ((suffix_closeEmphasis _ sc n e).mem hf) p hp).mono hk
  revert hresumes
  unfold closeEmphasis
  split
  next e' openMarker contentStart? mixed suppressed fs hdrop =>
    simp only
    split
    next =>
      intro hresumes
      exact ⟨⟨le_rfl, h.cursor.mono hk, hresumes⟩, Rises.nil⟩
    next found hfound =>
      intro hresumes
      rw [locateClose?, hspan] at hfound
      obtain ⟨h1, h2⟩ := h.cursor.findOnLine? hk hfound
      have hmax : max sc.cursor (found + byteLen (markerOf n openMarker)) = found + byteLen (markerOf n openMarker) :=
        max_eq_right (by omega)
      rw [hmax] at hresumes ⊢
      refine ⟨⟨?_, h2, hresumes⟩, ?_⟩
      · simp only
        omega
      · apply (rises_content contentStart? found suppressed e mixed).append (Rises.hide h1 le_rfl) le_rfl
        simp only
        omega
  next =>
    intro hresumes
    exact ⟨⟨le_rfl, h.cursor.mono hk, hresumes⟩, Rises.nil⟩

theorem codeSpan_forward (h : Ahead (.ofText s) k sc) (hspan : n.span? = some span) (hk : k ≤ span.start)
    (hlast : span.last < (Source.ofText s).lines.count) :
    Forward (.ofText s) span.last sc (sc.codeSpan (.ofText s) n) ∧
      Rises sc.cursor (sc.codeSpan (.ofText s) n).1.cursor (sc.codeSpan (.ofText s) n).2 := by
  have hklast : k ≤ span.last := hk.trans (Nat.le_max_right _ _)
  obtain ⟨e, he⟩ : ∃ e, (Source.ofText s).lines.extent? span.last = some e := by
    rw [LineIndex.extent?]
    exact ⟨_, List.getElem?_eq_getElem hlast⟩
  unfold codeSpan
  simp only
  split
  next => exact ⟨forward_refl h hklast [], Rises.nil⟩
  next first hfirst =>
    split
    next => exact ⟨forward_refl h hklast [], Rises.nil⟩
    next last hrun =>
      rw [locateTicks?, hspan] at hfirst
      obtain ⟨hfirst, -⟩ := Option.filter_eq_some_iff.1 hfirst
      obtain ⟨start, hstart, hfirst⟩ := Option.bind_eq_some_iff.1 hfirst
      have h1 : sc.cursor ≤ first := (h.cursor.le_scanStart? hk hstart).trans (Marker.findRun?_sound hfirst).2
      obtain ⟨hrun, hlimit⟩ := Option.filter_eq_some_iff.1 hrun
      have h2 : first + tickLen n ≤ last := (Marker.findRun?_sound hrun).2
      have h3 : last + tickLen n ≤ e.stop := by
        simpa [hspan, LineIndex.stop?, he] using hlimit
      refine ⟨forward_cursor h hklast (by omega) (notPast_of_le he h3) _, ?_⟩
      have hopen : Rises sc.cursor (first + tickLen n) (hide first (first + tickLen n)) := Rises.hide h1 le_rfl
      have hclose : Rises (first + tickLen n) (last + tickLen n) (hide last (last + tickLen n)) := Rises.hide h2 le_rfl
      have hcode : Rises (last + tickLen n) (last + tickLen n) (style (.styled (first + tickLen n) last .code)) :=
        Rises.style (by decide)
      exact (hopen.append hclose (by omega) (by omega)).append hcode (by omega) le_rfl

/-- the search on a line begins at the cursor or behind it -/
theorem lineAt?_forward {base : Nat} (h : NotPast (.ofText s) k sc.cursor) (hk : k ≤ i)
    (hline : sc.lineAt? (.ofText s) i = some (base, line, start)) :
    sc.cursor ≤ base + start ∧ (Source.ofText s).lines.extent? i = some ⟨base, base + byteLen line⟩ := by
  obtain ⟨hbase, htext⟩ := lineAt?_lines hline
  refine ⟨?_, (Source.extent?_of_lineText? hbase htext).1⟩
  obtain ⟨b, -, hline⟩ := Option.bind_eq_some_iff.1 hline
  obtain ⟨t, -, hline⟩ := Option.bind_eq_some_iff.1 hline
  obtain ⟨from', hfrom, hline⟩ := Option.map_eq_some_iff.1 hline
  obtain ⟨rfl, rfl, rfl⟩ : b = base ∧ t = line ∧ from' - b = start := by simpa using hline
  have hle := h.le_scanStart? hk hfrom
  omega

theorem openLink_forward (h : Ahead (.ofText s) k sc) (hspan : n.span? = some span) (hk : k ≤ span.start) :
    Forward (.ofText s) span.start sc (sc.openLink (.ofText s) n) := by
  unfold openLink
  simp only [hspan, Option.bind_some]
  split
  next resume cursor rs hfound =>
    have hplaces : sc.cursor ≤ cursor ∧ cursor ≤ resume ∧ NotPast (.ofText s) span.start resume := by
      split_ifs at hfound
      · obtain ⟨⟨base, line, start⟩, hline, hfound⟩ := Option.bind_eq_some_iff.1 hfound
        obtain ⟨angle, hangle, hfound⟩ := Option.map_eq_some_iff.1 hfound
        obtain ⟨hstart, hextent⟩ := lineAt?_forward h.cursor hk hline
        have hfrom := Marker.Link.findAutolink?_start hangle
        obtain ⟨a, url, b, rfl, rfl⟩ := Marker.Link.findAutolink?_sound hangle
        simp only [Prod.mk.injEq] at hfound hfrom
        obtain ⟨rfl, rfl, -⟩ := hfound
        have h1 : '<'.utf8Size = 1 := rfl
        have h2 : '>'.utf8Size = 1 := rfl
        refine ⟨by omega, by omega, notPast_of_le hextent ?_⟩
        simp only [byteLen_append, byteLen_cons, h1, h2]
        omega
      · obtain ⟨⟨base, line, start⟩, hline, hfound⟩ := Option.bind_eq_some_iff.1 hfound
        obtain ⟨parts, hparts, hfound⟩ := Option.map_eq_some_iff.1 hfound
        obtain ⟨hstart, hextent⟩ := lineAt?_forward h.cursor hk hline
        have hfrom : start ≤ parts.full.start := Marker.Link.findLink?_start hparts
        have hreads : parts.Reads ['['] line := Marker.Link.findLink?_sound hparts
        obtain ⟨h1, h2, h3, h4, h5, h6⟩ := hreads.order (by simp)
        simp only [Prod.mk.injEq] at hfound
        obtain ⟨rfl, rfl, -⟩ := hfound
        exact ⟨by omega, by omega, notPast_of_le hextent (by simp only; omega)⟩
    obtain ⟨h1, h2, h3⟩ := hplaces
    refine ⟨h1, ?_, ?_⟩
    · intro i e hi he
      exact h2.trans (h3 i e hi he)
    · intro f hf p hp
      rcases List.mem_cons.1 hf with rfl | hf
      · obtain rfl : resume = p := by simpa [Frame.resume?] using hp
        exact h3
      · exact (h.resumes f hf p hp).mono hk
  next =>
    refine ⟨le_rfl, h.cursor.mono hk, ?_⟩
    intro f hf p hp
    rcases List.mem_cons.1 hf with rfl | hf
    · simp [Frame.resume?] at hp
    · exact (h.resumes f hf p hp).mono hk

theorem closeLink_forward (h : Ahead src k sc) : Forward src k sc (sc.closeLink, []) := by
  have hresumes : ∀ f ∈ sc.closeLink.frames, ∀ p, f.resume? = some p → NotPast src k p := by
    intro f hf p hp
    exact h.resumes f ((frames_closeLink sc).mem hf) p hp
  have hcursor : sc.cursor ≤ sc.closeLink.cursor ∧ NotPast src k sc.closeLink.cursor := by
    unfold closeLink
    split
    next resume? fs hdrop =>
      have hmem : Frame.link resume? ∈ sc.frames := by
        apply (List.dropWhile_suffix fun f => !Frame.isLink f).mem
        rw [hdrop]
        exact List.mem_cons_self
      refine ⟨le_max_left _ _, ?_⟩
      intro i e hi he
      apply max_le (h.cursor i e hi he)
      cases resume? with
      | none => exact Nat.zero_le _
      | some p => exact h.resumes _ hmem p rfl i e hi he
    next => exact ⟨le_rfl, h.cursor⟩
  exact ⟨hcursor.1, hcursor.2, hresumes⟩

theorem image_forward (h : Ahead (.ofText s) k sc) (hspan : n.span? = some span) (hk : k ≤ span.start) :
    Forward (.ofText s) span.start sc (sc.image (.ofText s) n) ∧
      Rises sc.cursor (sc.image (.ofText s) n).1.cursor (sc.image (.ofText s) n).2 := by
  unfold image
  simp only [hspan, Option.bind_some]
  split
  next base parts hfound =>
    obtain ⟨⟨base', line, start⟩, hline, hfound⟩ := Option.bind_eq_some_iff.1 hfound
    obtain ⟨parts', hparts, hfound⟩ := Option.map_eq_some_iff.1 hfound
    obtain ⟨rfl, rfl⟩ : base' = base ∧ parts' = parts := by simpa using hfound
    obtain ⟨hstart, hextent⟩ := lineAt?_forward h.cursor hk hline
    have hfrom : start ≤ parts'.full.start := Marker.Link.findImage?_start hparts
    have hreads : parts'.Reads ['!', '['] line := Marker.Link.findImage?_sound hparts
    obtain ⟨h1, h2, h3, h4, h5, h6⟩ := hreads.order (by simp)
    refine ⟨forward_cursor h hk (by omega) (notPast_of_le hextent (by simp only; omega)) _, ?_⟩
    exact (Rises.partRanges base' hreads (by simp) (by decide)).mono (by omega) le_rfl
  next => exact ⟨forward_refl h hk [], Rises.nil⟩

theorem floor?_of_open (h : Emphasis.ofOpen? n.kind = some e) : floor? n = n.span?.map (·.last) := by
  unfold Emphasis.ofOpen? at h
  unfold floor?
  split at h <;> simp_all

theorem floor?_of_close (h : Emphasis.ofClose? n.kind = some e) : floor? n = n.span?.map (·.last) := by
  unfold Emphasis.ofClose? at h
  unfold floor?
  split at h <;> simp_all

theorem floor?_of_isPassed (h : isPassed n.kind = true) : floor? n = none := by
  unfold floor?
  cases hk : n.kind <;> first | rfl | (rw [hk] at h; exact absurd h (by decide))

/-- **A step of a token in order goes forward**, and what it hides lies between the cursors before and after. -/
theorem step_forward (h : Ahead (.ofText s) k sc) (hspan : n.span? = some span) (hk : k ≤ span.start)
    (hlast : span.last < (Source.ofText s).lines.count) :
    Forward (.ofText s) ((floor? n).getD k) sc (sc.step (.ofText s) n) ∧
      (hidesInOrder n.kind = true → Rises sc.cursor (sc.step (.ofText s) n).1.cursor (sc.step (.ofText s) n).2) := by
  have hstart : span.start ≤ span.last := Nat.le_max_right _ _
  refine step_cases (.ofText s) sc n ?text ?opening ?closing ?code ?linkOpening ?linkClosing ?image ?other
  case text =>
    intro hkind
    have hfloor : floor? n = some span.last := by rcases hkind with hkind | hkind <;> simp [floor?, hkind, hspan]
    rw [hfloor]
    exact ⟨skipText_forward h hspan hk, fun _ => Rises.nil⟩
  case opening =>
    intro e hkind
    obtain ⟨hforward, hrises⟩ := openEmphasis_forward (e := e) h hspan hk
    rw [floor?_of_open hkind, hspan]
    exact ⟨hforward.mono hstart, fun _ => hrises⟩
  case closing =>
    intro e hkind
    obtain ⟨hforward, hrises⟩ := closeEmphasis_forward (e := e) h hspan hk
    rw [floor?_of_close hkind, hspan]
    exact ⟨hforward.mono hstart, fun _ => hrises⟩
  case code =>
    intro hkind
    obtain ⟨hforward, hrises⟩ := codeSpan_forward h hspan hk hlast
    have hfloor : floor? n = some span.last := by simp [floor?, hkind, hspan]
    rw [hfloor]
    exact ⟨hforward, fun _ => hrises⟩
  case linkOpening =>
    intro hkind
    have hfloor : floor? n = some span.start := by simp [floor?, hkind, hspan]
    rw [hfloor]
    exact ⟨openLink_forward h hspan hk, by simp [hidesInOrder, hkind]⟩
  case linkClosing =>
    intro hkind
    have hfloor : floor? n = none := by simp [floor?, hkind]
    rw [hfloor]
    exact ⟨closeLink_forward h, fun _ => Rises.nil⟩
  case image =>
    intro hkind
    obtain ⟨hforward, hrises⟩ := image_forward h hspan hk
    have hfloor : floor? n = some span.start := by simp [floor?, hkind, hspan]
    rw [hfloor]
    exact ⟨hforward, fun _ => hrises⟩
  case other =>
    intro hkind
    rw [floor?_of_isPassed hkind]
    exact ⟨forward_refl h le_rfl [], fun _ => Rises.nil⟩

/-! ## Runs -/

variable {o c : Node} {ns ms inside : List Node} {span? : Option LineSpan}

/-- tokens on lines of the document from `k` on, in order -/
structure Queued (src : Source) (k : Nat) (ns : List Node) : Prop where
  standing : ∀ n ∈ ns, ∃ span, n.span? = some span ∧ k ≤ span.start ∧ span.last < src.lines.count
  order : ns.Pairwise fun m n => ∀ k span, floor? m = some k → n.span? = some span → k ≤ span.start

theorem Queued.tail (h : Queued src k (n :: ns)) : Queued src ((floor? n).getD k) ns := by
  obtain ⟨hfirst, horder⟩ := List.pairwise_cons.1 h.order
  refine ⟨?_, horder⟩
  intro m hm
  obtain ⟨span, hspan, hk, hlast⟩ := h.standing m (List.mem_cons_of_mem _ hm)
  refine ⟨span, hspan, ?_, hlast⟩
  cases hfloor : floor? n with
  | none => exact hk
  | some l => exact hfirst m hm l span hfloor hspan

theorem Queued.step (h : Queued (.ofText s) k (n :: ns)) (hsc : Ahead (.ofText s) k sc) :
    Forward (.ofText s) ((floor? n).getD k) sc (sc.step (.ofText s) n) ∧
      (hidesInOrder n.kind = true → Rises sc.cursor (sc.step (.ofText s) n).1.cursor (sc.step (.ofText s) n).2) := by
  obtain ⟨span, hspan, hk, hlast⟩ := h.standing n List.mem_cons_self
  exact step_forward hsc hspan hk hlast

/-- **A scan goes forward** over the tokens that are read, and is ahead of nothing that is still to be read. -/
theorem Queued.after (h : Queued (.ofText s) k (ns ++ ms)) (hsc : Ahead (.ofText s) k sc) :
    ∃ l, Ahead (.ofText s) l (sc.after (.ofText s) ns) ∧ Queued (.ofText s) l ms ∧
      sc.cursor ≤ (sc.after (.ofText s) ns).cursor := by
  induction ns generalizing k sc with
  | nil => exact ⟨k, hsc, h, le_rfl⟩
  | cons n ns ih =>
    obtain ⟨hforward, -⟩ := h.step hsc
    obtain ⟨l, hahead, hqueued, hle⟩ := ih h.tail hforward.ahead
    exact ⟨l, hahead, hqueued, hforward.cursor.trans hle⟩

/-- the ranges that the tokens of some kinds give -/
def runOf (src : Source) (p : Token.Kind → Bool) : Scan → List Node → List Range
  | _, [] => []
  | sc, n :: ns => (if p n.kind then (sc.step src n).2 else []) ++ runOf src p (sc.step src n).1 ns

theorem Queued.rises (h : Queued (.ofText s) k ns) (hsc : Ahead (.ofText s) k sc) :
    Rises sc.cursor (sc.after (.ofText s) ns).cursor (sc.runOf (.ofText s) hidesInOrder ns) := by
  induction ns generalizing k sc with
  | nil => exact Rises.nil
  | cons n ns ih =>
    obtain ⟨hforward, hrises⟩ := h.step hsc
    have hrest := ih h.tail hforward.ahead
    have hqueued : Queued (.ofText s) ((floor? n).getD k) (ns ++ []) := by
      rw [List.append_nil]
      exact h.tail
    obtain ⟨-, -, -, hle⟩ := hqueued.after hforward.ahead
    have hfirst : Rises sc.cursor (sc.step (.ofText s) n).1.cursor
        (if hidesInOrder n.kind then (sc.step (.ofText s) n).2 else []) := by
      split_ifs with hkind
      · exact hrises hkind
      · exact Rises.nil
    exact hfirst.append hrest hforward.cursor hle

theorem hidesInOrder_of_open (h : Emphasis.ofOpen? n.kind = some e) : hidesInOrder n.kind = true := by
  unfold Emphasis.ofOpen? at h
  split at h <;> simp_all [hidesInOrder]

theorem hidesInOrder_of_close (h : Emphasis.ofClose? n.kind = some e) : hidesInOrder n.kind = true := by
  unfold Emphasis.ofClose? at h
  split at h <;> simp_all [hidesInOrder]

/-- a pair hides its opening marker before its closing marker -/
theorem Queued.pair (h : Queued (.ofText s) k (o :: (inside ++ c :: ns))) (hsc : Ahead (.ofText s) k sc)
    (hpair : Pairs (.ofText s) sc e o inside c) {r q : Range} (hr : r ∈ hidesOf (sc.step (.ofText s) o).2)
    (hq : q ∈ hidesOf ((sc.after (.ofText s) (o :: inside)).step (.ofText s) c).2) : r.stop ≤ q.start := by
  obtain ⟨hforward, hopen⟩ := h.step hsc
  obtain ⟨l, hahead, hqueued, hle⟩ := h.tail.after hforward.ahead
  obtain ⟨-, hclose⟩ := hqueued.step hahead
  calc r.stop ≤ (sc.step (.ofText s) o).1.cursor := ((hopen (hidesInOrder_of_open hpair.opens)).within r hr).2.2
    _ ≤ ((sc.step (.ofText s) o).1.after (.ofText s) inside).cursor := hle
    _ ≤ q.start := ((hclose (hidesInOrder_of_close hpair.closes)).within q hq).1

theorem start_ahead (s : List Char) (span? : Option LineSpan) :
    Ahead (.ofText s) (span?.elim 0 (·.start)) (Scan.start (.ofText s) span?) := by
  refine ⟨?_, by simp [Scan.start]⟩
  intro i e hi he
  cases span? with
  | none => exact Nat.zero_le _
  | some span =>
    cases hstart : (Source.ofText s).lines.extent? span.start with
    | none => simp [Scan.start, LineIndex.start?, hstart]
    | some f =>
      have hle : f.start ≤ e.stop :=
        (LineIndex.start_le_stop hstart).trans (LineIndex.stop_le_stop hstart he hi)
      simpa [Scan.start, LineIndex.start?, hstart] using hle

end Scan

/-! ## Tokens in order -/

/-- inline tokens in the order in which a document has them: on its lines, none before the first line of the container,
nor before the last line of an earlier text, HTML, code or emphasis token or the first of an earlier link or image -/
structure InOrder (src : Source) (span? : Option LineSpan) (ns : List Node) : Prop where
  standing : ∀ n ∈ ns, ∃ span, n.span? = some span ∧ span.start < span.stop ∧ span.stop ≤ src.lines.count
  inside : ∀ outer, span? = some outer → ∀ n ∈ ns, ∀ span, n.span? = some span → outer.start ≤ span.start
  order : ns.Pairwise fun m n => ∀ k span, floor? m = some k → n.span? = some span → k ≤ span.start

/-- what a scan from `sc` on that goes forward does -/
structure GoesForward (src : Source) (sc : Scan) (ns : List Node) : Prop where
  /-- the cursor never goes back -/
  cursor : ∀ ks ms, ks <+: ms → ms <+: ns → (sc.after src ks).cursor ≤ (sc.after src ms).cursor
  /-- the hides of emphasis, code and images are apart and in order -/
  hides : (hidesOf (sc.runOf src hidesInOrder ns)).Pairwise fun r q => r.start < q.start ∧ r.stop ≤ q.start
  /-- a pair hides its opening marker before its closing marker -/
  pairs : ∀ before e o inside c, before ++ o :: (inside ++ [c]) <+: ns →
    Scan.Pairs src (sc.after src before) e o inside c → ∀ r ∈ hidesOf ((sc.after src before).step src o).2,
      ∀ q ∈ hidesOf ((sc.after src (before ++ o :: inside)).step src c).2, r.stop ≤ q.start

theorem InOrder.queued {span? : Option LineSpan} {ns : List Node} (h : InOrder (.ofText s) span? ns) :
    Scan.Queued (.ofText s) (span?.elim 0 (·.start)) ns := by
  refine ⟨?_, h.order⟩
  intro n hn
  obtain ⟨span, hspan, hlt, hcount⟩ := h.standing n hn
  refine ⟨span, hspan, ?_, ?_⟩
  · cases houter : span? with
    | none => exact Nat.zero_le _
    | some outer => exact h.inside outer houter n hn span hspan
  · have hlast : span.last = span.stop - 1 := max_eq_left (by omega)
    omega

/-- **A scan of tokens in order goes forward.** -/
theorem scan_forward {span? : Option LineSpan} {ns : List Node} (h : InOrder (.ofText s) span? ns) :
    GoesForward (.ofText s) (Scan.start (.ofText s) span?) ns := by
  have hstart := Scan.start_ahead s span?
  have hqueued := h.queued
  refine ⟨?_, ?_, ?_⟩
  · rintro ks ms ⟨ds, rfl⟩ ⟨rest, rfl⟩
    rw [List.append_assoc] at hqueued
    obtain ⟨l, hahead, hrest, -⟩ := hqueued.after hstart
    obtain ⟨-, -, -, hle⟩ := hrest.after hahead
    rw [Scan.after_append]
    exact hle
  · have hrises := hqueued.rises hstart
    apply hrises.apart.imp_of_mem
    intro r q hr _ hrq
    have hlt := (hrises.within r hr).2.1
    exact ⟨by omega, hrq⟩
  · rintro before e o inside c ⟨rest, rfl⟩ hpair r hr q hq
    rw [List.append_assoc, List.cons_append, List.append_assoc, List.singleton_append] at hqueued
    obtain ⟨l, hahead, hrest, -⟩ := hqueued.after hstart
    rw [Scan.after_append] at hq
    exact hrest.pair hahead hpair hr hq

/-- behind a link, a code span that goes on over a line break, and an emphasis on the line where the code ends -/
theorem scan_forward_code :
    let src := Source.ofText "[a](u) `b\nc` *d*".toList
    let ns : List Node := [⟨.linkOpen, some (.line 0), "[", "", none, none, []⟩,
      ⟨.text, some (.line 0), "", "", none, some "a", []⟩, ⟨.linkClose, some (.line 0), "[", "", none, none, []⟩,
      ⟨.codeInline, some ⟨0, 2⟩, "`", "", none, some "b c", []⟩, ⟨.emOpen, some (.line 1), "*", "em", none, none, []⟩,
      ⟨.text, some (.line 1), "", "", none, some "d", []⟩, ⟨.emClose, some (.line 1), "*", "em", none, none, []⟩]
    InOrder src (some ⟨0, 2⟩) ns ∧ GoesForward src (Scan.start src (some ⟨0, 2⟩)) ns ∧
      hidesOf ((Scan.start src (some ⟨0, 2⟩)).runOf src hidesInOrder ns) =
        [.hide 7 8, .hide 11 12, .hide 13 14, .hide 15 16] := by
  intro src ns
  have hcount : src.lines.count = 2 := by decide
  have horder : InOrder src (some ⟨0, 2⟩) ns := by
    constructor
    · simp [ns, hcount, LineSpan.line, LineSpan.ofLines]
    · simp
    · simp [ns, floor?, LineSpan.line, LineSpan.ofLines, LineSpan.last]
  exact ⟨horder, scan_forward horder, by decide⟩

end MarkVeil.Decoration

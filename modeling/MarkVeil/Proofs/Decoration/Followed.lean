/-
When a scan recovers the markers that were read.

A reader knows where every element stands, but tokens do not say. A scan goes from marker to marker, so it finds each of
them again as long as nothing that looks like it stands in the gap between: behind what was found last, or behind the
start of the line. `Followed` says this of the elements of a paragraph, whatever stands around it; a bullet that is an
asterisk, before an emphasis written with asterisks, is a gap that is not clear. Main results:
- `Followed.reads`: then the scan hides the delimiters of every emphasis and every code span;
- `markers_hidden`: and these hides stay, in every leaf of a document;
- `markers_not_hidden_bullet`: with a gap that is not clear, a bullet is hidden in place of a delimiter.
-/
import MarkVeil.Proofs.Decoration.Collect
import MarkVeil.Proofs.Decoration.Leaves
import MarkVeil.Proofs.Phrase.Recovery
import MarkVeil.Proofs.Text.Gap

namespace MarkVeil.Decoration

open MarkVeil.Text
open MarkVeil.Marker (Emphasis RunFree)
open MarkVeil.Markdown (Inline LinkForm ReadBlock Stress)
open MarkVeil.Token (Node codeMarker lastLineOf ofInline ofInlines spanOf stressMarker stressShape textOf)

/-! ## Markers that were read -/

def delimiterOf (src : Source) (e : Extent) (kind : Stress) : List Char :=
  stressMarker src e.start (stressShape kind).2.2.2.1 (stressShape kind).2.2.2.2

def ends (e : Extent) (k : Nat) : List Extent := [⟨e.start, e.start + k⟩, ⟨e.stop - k, e.stop⟩]

mutual

/-- where the delimiters of emphases and code spans stand, outside images -/
def markers (src : Source) : Inline → List Extent
  | .stress e kind children => ends e (byteLen (delimiterOf src e kind)) ++ markersAll src children
  | .code e _ => ends e (byteLen (codeMarker src e.start))
  | .link _ _ children => markersAll src children
  | _ => []

def markersAll (src : Source) : List Inline → List Extent
  | [] => []
  | i :: is => markers src i ++ markersAll src is

end

/-! ## Clear gaps -/

/-- from the cursor on, or from the start of the line where the element begins if that is later, the first run of `n`
backticks begins the element and the next such run ends it -/
structure TicksMeet (src : Source) (cursor : Nat) (e : Extent) (n : Nat) : Prop where
  pos : 0 < n
  reach : ∃ line stop a gap t b, src.lines.extent? (spanOf src e).start = some line ∧
    src.lines.stop? (spanOf src e).last = some stop ∧ cursor ≤ line.stop ∧ e.stop ≤ stop ∧
    src.text = a ++ (gap ++ (List.replicate n '`' ++ (t ++ (List.replicate n '`' ++ b)))) ∧
    byteLen a = max cursor line.start ∧ e.start = byteLen a + byteLen gap ∧ e.stop = e.start + n + byteLen t + n ∧
    (RunFree n gap ∧ gap.getLast? ≠ some '`') ∧ (RunFree n t ∧ t.getLast? ≠ some '`') ∧ t ≠ [] ∧
    t.head? ≠ some '`' ∧ b.head? ≠ some '`'

/-- what the patterns find of a link: the offset past it, and the step to its label -/
def linkFound? (src : Source) (cursor : Nat) (e : Extent) : LinkForm → Option (Nat × Nat × List Range)
  | .inline => Scan.openInline? src (spanOf src e).start ⟨cursor, []⟩
  | .autolink => Scan.openAutolink? src (spanOf src e).start ⟨cursor, []⟩
  | .reference => none

def imageStop (src : Source) (cursor : Nat) (e : Extent) : Nat :=
  (Scan.image src { kind := .image, span? := spanOf src e } ⟨cursor, []⟩).1.cursor

/-- a scan follows elements from one offset to another: it meets each of them where it stands, behind a clear gap; a
link that the patterns do not find moves nothing -/
inductive Followed (src : Source) : Nat → List Inline → Nat → Prop
  | nil {c : Nat} : Followed src c [] c
  | text {c c' : Nat} {e : Extent} {is : List Inline}
      (hmeets : src.Meets (spanOf src e).start (spanOf src e).last c e.start (textOf src e))
      (hrest : Followed src (e.start + byteLen (textOf src e)) is c') : Followed src c (.text e :: is) c'
  | html {c c' p : Nat} {e : Extent} {content : List Char} {is : List Inline}
      (hmeets : src.Meets (spanOf src e).start (spanOf src e).last c p content)
      (hrest : Followed src (p + byteLen content) is c') : Followed src c (.html e content :: is) c'
  | softBreak {c c' : Nat} {e : Extent} {is : List Inline} (hrest : Followed src c is c') :
      Followed src c (.softBreak e :: is) c'
  | hardBreak {c c' : Nat} {e : Extent} {is : List Inline} (hrest : Followed src c is c') :
      Followed src c (.hardBreak e :: is) c'
  | code {c c' : Nat} {e : Extent} {content : List Char} {is : List Inline}
      (hmeets : TicksMeet src c e (byteLen (codeMarker src e.start))) (hrest : Followed src e.stop is c') :
      Followed src c (.code e content :: is) c'
  | stress {c c₁ c' p : Nat} {e : Extent} {kind : Stress} {children is : List Inline}
      (hopen : src.Meets (src.lines.lineOf e.start) (src.lines.lineOf e.start) c e.start (delimiterOf src e kind))
      (hbody : Followed src (e.start + byteLen (delimiterOf src e kind)) children c₁)
      (hclose : src.Meets (lastLineOf src e) (lastLineOf src e) c₁ p (delimiterOf src e kind))
      (hstop : p + byteLen (delimiterOf src e kind) = e.stop) (hrest : Followed src e.stop is c') :
      Followed src c (.stress e kind children :: is) c'
  | link {c c₁ c' : Nat} {e : Extent} {form : LinkForm} {children is : List Inline}
      (hbody : Followed src (((linkFound? src c e form).map (·.2.1)).getD c) children c₁)
      (hrest : Followed src (max c₁ (((linkFound? src c e form).map (·.1)).getD 0)) is c') :
      Followed src c (.link e form children :: is) c'
  | image {c c' : Nat} {e : Extent} {children is : List Inline} (hrest : Followed src (imageStop src c e) is c') :
      Followed src c (.image e children :: is) c'

variable {src : Source} {sc : Scan} {n : Node} {ns : List Node} {ms ms' : List Extent} {is : List Inline}
  {c c₁ c' p : Nat} {e : Extent} {m : List Char}

/-! ## Handlers -/

namespace Scan

theorem skipText_of_meets {span : LineSpan} (h : src.Meets span.start span.last sc.cursor p m)
    (hspan : n.span? = some span) (hcontent : n.content? = some (String.ofList m)) :
    sc.skipText src n = { sc with cursor := p + byteLen m } := by
  obtain ⟨base, hbase, hfound⟩ := h.findForward?
  rw [skipText, contentOf?, hcontent, Option.map_some, String.toList_ofList, hspan]
  simp only [Option.bind_some, hbase, Option.getD_some, Option.map_some, hfound]

theorem codeSpan_of_meets {k : Nat} (h : TicksMeet src sc.cursor e k) (hspan : n.span? = some (spanOf src e))
    (hmarkup : tickLen n = k) :
    sc.codeSpan src n = ({ sc with cursor := e.stop }, [.hide e.start (e.start + k), .hide (e.stop - k) e.stop,
      .styled (e.start + k) (e.stop - k) .code]) := by
  obtain ⟨line, stop, a, gap, t, b, hline, hstop, hcursor, hle, htext, ha, hestart, hestop, ⟨hgap, hgaplast⟩,
    ⟨ht, htlast⟩, htne, hthead, hb⟩ := h.reach
  have hpos := byteLen_pos htne
  have hstart : src.scanStart? (spanOf src e).start sc.cursor = some (byteLen a) := by
    rw [Source.scanStart?, hline, Option.map_some, Option.some.injEq, ha]
    split_ifs <;> omega
  have hthead' : (t ++ (List.replicate k '`' ++ b)).head? ≠ some '`' := by rwa [List.head?_append_of_ne_nil _ htne]
  have hfirst : Marker.findRun? src.text (byteLen a) k = some e.start := by
    rw [htext, hestart]
    exact Marker.findRun?_behind a hgap hgaplast h.pos hthead'
  have hrun : byteLen (List.replicate k '`') = k := byteLen_replicate_one rfl k
  have hsecond : Marker.findRun? src.text (e.start + k) k = some (e.start + k + byteLen t) := by
    have := Marker.findRun?_behind (a ++ (gap ++ List.replicate k '`')) ht htlast h.pos hb
    simpa [htext, hestart, hrun, Nat.add_assoc] using this
  have hlocate := locateTicks?_of_found hspan hstart hfirst rfl
  have hlast : e.stop - k = e.start + k + byteLen t := by omega
  rw [codeSpan_of_found hspan hmarkup h.pos hlocate hsecond hstop (by omega) (by omega), hlast, hestop]

end Scan

/-! ## Reading followed elements -/

/-- read from the cursor `c`, tokens give hides of all of `ms`, and the scan comes to `c'` with its frames but for notes -/
def Reads (src : Source) (c : Nat) (ns : List Node) (ms : List Extent) (c' : Nat) : Prop :=
  ∀ fs : List Frame, ∃ es, Scan.after src ⟨c, fs⟩ ns = ⟨c', Frame.notes fs es⟩ ∧
    ∀ m ∈ ms, m.start < m.stop ∧ Range.hide m.start m.stop ∈ Scan.run src ⟨c, fs⟩ ns

namespace Reads

theorem nil (src : Source) (c : Nat) : Reads src c [] [] c := fun fs => ⟨[], rfl, by simp⟩

theorem append {ns' : List Node} (h : Reads src c ns ms c₁) (h' : Reads src c₁ ns' ms' c') :
    Reads src c (ns ++ ns') (ms ++ ms') c' := by
  intro fs
  obtain ⟨es, hafter, hrun⟩ := h fs
  obtain ⟨es', hafter', hrun'⟩ := h' (Frame.notes fs es)
  refine ⟨es ++ es', ?_, ?_⟩
  · rw [Scan.after_append, hafter, hafter', Frame.notes_append]
  · rw [Scan.run_append, hafter]
    intro m hm
    rcases List.mem_append.1 hm with hm | hm
    · exact (hrun m hm).imp_right (List.mem_append_left _)
    · exact (hrun' m hm).imp_right (List.mem_append_right _)

/-- a token that moves the cursor and leaves the frames alone -/
theorem of_step (h : ∀ fs, ∃ rs, Scan.step src ⟨c, fs⟩ n = (⟨c', fs⟩, rs) ∧
    ∀ m ∈ ms, m.start < m.stop ∧ Range.hide m.start m.stop ∈ rs) : Reads src c [n] ms c' := by
  intro fs
  obtain ⟨rs, hstep, hms⟩ := h fs
  obtain ⟨hrun, hafter⟩ := Scan.run_cons_of_step hstep []
  refine ⟨[], hafter, fun m hm => ?_⟩
  rw [hrun]
  exact (hms m hm).imp_right (List.mem_append_left _)

/-- the tokens of an emphasis: its frame is gone behind it, and outer frames have noted it -/
theorem emphasis (x : Emphasis) (d : List Char) {nopen nclose : Node} {start i j : Nat}
    (hopen : ∀ fs, Scan.step src ⟨c, fs⟩ nopen = (⟨start, Frame.opened x d start fs⟩, [.hide i start]))
    (hinner : Reads src start ns ms c₁)
    (hclose : ∀ mixed suppressed fs, ∃ rs, Scan.step src
      ⟨c₁, .emphasis x d (some start) mixed suppressed :: fs⟩ nclose = (⟨c', fs⟩, rs ++ [.hide j c'])) (hi : i < start) (hj : j < c') :
    Reads src c (nopen :: (ns ++ [nclose])) (⟨i, start⟩ :: ⟨j, c'⟩ :: ms) c' := by
  intro fs
  obtain ⟨es, hafter, hms⟩ := hinner (Frame.opened x d start fs)
  obtain ⟨rs, hclosed⟩ := hclose (x.merges && !fs.any Frame.isOuter && es.any (x != ·))
    (x.merges && fs.any Frame.isOuter) (Frame.notes fs ((if x.merges then [x] else []) ++ es))
  obtain ⟨hrun', hafter'⟩ := Scan.read_emphasis (hopen fs) rfl hafter hclosed
  refine ⟨_, hafter', ?_⟩
  rw [hrun']
  intro m hm
  rcases List.mem_cons.1 hm with rfl | hm
  · exact ⟨hi, List.mem_append_left _ (List.mem_singleton.2 rfl)⟩
  rcases List.mem_cons.1 hm with rfl | hm
  · exact ⟨hj, by simp⟩
  · exact (hms m hm).imp_right fun h => List.mem_append_right _ (List.mem_append_left _ h)

/-- the tokens of a link: behind it the scan goes on where the link ends, if it was found -/
theorem link {nopen nclose : Node} {start : Nat} {resume? : Option Nat} {rs : List Range}
    (hopen : ∀ fs, Scan.step src ⟨c, fs⟩ nopen = (⟨start, .link resume? :: fs⟩, rs))
    (hinner : Reads src start ns ms c₁) (hclose : nclose.kind = .linkClose) :
    Reads src c (nopen :: (ns ++ [nclose])) ms (max c₁ (resume?.getD 0)) := by
  intro fs
  obtain ⟨es, hafter, hms⟩ := hinner (.link resume? :: fs)
  obtain ⟨hrun', hafter'⟩ := Scan.read_link (hopen fs) rfl hafter hclose
  refine ⟨es, hafter', ?_⟩
  rw [hrun']
  intro m hm
  exact (hms m hm).imp_right (List.mem_append_right _)

end Reads

def emphasisOf : Stress → Emphasis
  | .emphasis => .em
  | .strong => .strong
  | .strike => .strike

theorem reads_stress {kind : Stress} {children : List Inline}
    (hopen : src.Meets (src.lines.lineOf e.start) (src.lines.lineOf e.start) c e.start (delimiterOf src e kind))
    (hbody : Reads src (e.start + byteLen (delimiterOf src e kind)) (ofInlines src children) ms c₁)
    (hclose : src.Meets (lastLineOf src e) (lastLineOf src e) c₁ p (delimiterOf src e kind))
    (hstop : p + byteLen (delimiterOf src e kind) = e.stop) :
    Reads src c (ofInline src (.stress e kind children)) (ends e (byteLen (delimiterOf src e kind)) ++ ms) e.stop := by
  obtain ⟨nopen, nclose, htokens, hkopen, hsopen, hmopen, hkclose, hsclose, hmclose⟩ : ∃ nopen nclose : Node,
      ofInline src (.stress e kind children) = nopen :: (ofInlines src children ++ [nclose]) ∧
        nopen.kind = (stressShape kind).1 ∧ nopen.span? = some (.line (src.lines.lineOf e.start)) ∧
        nopen.markup = String.ofList (delimiterOf src e kind) ∧ nclose.kind = (stressShape kind).2.1 ∧
        nclose.span? = some (.line (lastLineOf src e)) ∧ nclose.markup = String.ofList (delimiterOf src e kind) :=
    ⟨_, _, rfl, rfl, rfl, rfl, rfl, rfl, rfl⟩
  have hopens : Emphasis.ofOpen? nopen.kind = some (emphasisOf kind) := by rw [hkopen]; cases kind <;> rfl
  have hcloses : Emphasis.ofClose? nclose.kind = some (emphasisOf kind) := by rw [hkclose]; cases kind <;> rfl
  have hlocateopen : ∀ sc : Scan, sc.cursor = c → sc.locateOpen? src nopen (delimiterOf src e kind) = some e.start := by
    rintro sc rfl
    rw [Scan.locateOpen?, hsopen]
    exact hopen.findOnLine?
  have hlocateclose : ∀ sc : Scan, sc.cursor = c₁ → sc.locateClose? src nclose (delimiterOf src e kind) = some p := by
    rintro sc rfl
    rw [Scan.locateClose?, hsclose]
    exact hclose.findOnLine?
  have hend : e.stop - byteLen (delimiterOf src e kind) = p := by omega
  have hpos := byteLen_pos hopen.ne_nil
  rw [htokens, ends, hend, ← hstop]
  refine Reads.emphasis (emphasisOf kind) (delimiterOf src e kind) (fun fs => ?_) hbody
    (fun mixed suppressed fs => ?_) (by omega) (by omega)
  · rw [Scan.step_of_open hopens]
    exact Scan.openEmphasis_of_locate hopen.ne_nil hmopen (hlocateopen _ rfl)
  · exact ⟨_, (Scan.step_of_close hcloses src _).trans
      (Scan.closeEmphasis_of_locate hclose.ne_nil hmclose rfl (hlocateclose _ rfl) hclose.le)⟩

theorem reads_link {form : LinkForm} {children : List Inline}
    (hbody : Reads src (((linkFound? src c e form).map (·.2.1)).getD c) (ofInlines src children) ms c₁) :
    Reads src c (ofInline src (.link e form children)) ms (max c₁ (((linkFound? src c e form).map (·.1)).getD 0)) := by
  have hopen : ∀ (fs : List Frame) (n : Node), n.kind = .linkOpen → n.span? = some (spanOf src e) →
      n.markup = Token.linkMarker form → Scan.step src ⟨c, fs⟩ n =
        (⟨((linkFound? src c e form).map (·.2.1)).getD c, .link ((linkFound? src c e form).map (·.1)) :: fs⟩,
          ((linkFound? src c e form).map (·.2.2)).getD []) := by
    intro fs n hkind hspan hmarkup
    have hfound : (if Token.linkMarker form = "<" then Scan.openAutolink? src (spanOf src e).start ⟨c, fs⟩
        else if Token.linkMarker form = "[" then Scan.openInline? src (spanOf src e).start ⟨c, fs⟩ else none) =
        linkFound? src c e form := by
      cases form <;> rfl
    rw [Scan.step, hkind]
    simp only [Scan.openLink, hspan, hmarkup, Option.bind_some, hfound]
    rcases linkFound? src c e form with _ | ⟨resume, cursor, rs⟩ <;> rfl
  exact Reads.link (fun fs => hopen fs _ rfl rfl rfl) hbody rfl

/-- the marker of a code span is as long as it says -/
theorem tickLen_codeMarker {offset : Nat} (h : n.markup = String.ofList (codeMarker src offset)) :
    Scan.tickLen n = byteLen (codeMarker src offset) := by
  have hne : codeMarker src offset ≠ [] := by simp [codeMarker]
  rw [Scan.tickLen, h, if_neg (by simpa using hne), String.toList_ofList]

/-- **A scan that follows elements hides their delimiters where they were read.** -/
theorem Followed.reads (h : Followed src c is c') : Reads src c (ofInlines src is) (markersAll src is) c' := by
  induction h with
  | nil => exact Reads.nil src _
  | text hmeets hrest ih =>
    refine Reads.append (.of_step fun fs => ⟨[], ?_, by simp [markers]⟩) ih
    rw [Scan.step]
    exact congrArg (·, []) (Scan.skipText_of_meets hmeets rfl rfl)
  | html hmeets hrest ih =>
    refine Reads.append (.of_step fun fs => ⟨[], ?_, by simp [markers]⟩) ih
    rw [Scan.step]
    exact congrArg (·, []) (Scan.skipText_of_meets hmeets rfl rfl)
  | softBreak hrest ih => exact Reads.append (.of_step fun fs => ⟨[], rfl, by simp [markers]⟩) ih
  | hardBreak hrest ih => exact Reads.append (.of_step fun fs => ⟨[], rfl, by simp [markers]⟩) ih
  | @code c _ e content is hmeets hrest ih =>
    have hpos := hmeets.pos
    obtain ⟨_, _, _, _, _, _, _, _, _, _, _, _, _, hstop, -⟩ := hmeets.reach
    refine Reads.append (.of_step fun fs => ⟨_, Scan.codeSpan_of_meets hmeets rfl (tickLen_codeMarker rfl), ?_⟩) ih
    intro m hm
    simp only [markers, ends, List.mem_cons, List.not_mem_nil, or_false] at hm
    rcases hm with rfl | rfl
    · exact ⟨by simp only; omega, by simp⟩
    · exact ⟨by simp only; omega, by simp⟩
  | stress hopen hbody hclose hstop hrest ihbody ihrest => exact (reads_stress hopen ihbody hclose hstop).append ihrest
  | link hbody hrest ihbody ihrest => exact (reads_link ihbody).append ihrest
  | image hrest ih =>
    exact Reads.append (.of_step fun fs => ⟨_, Scan.image_over src _ _ fs, by simp [markers]⟩) ih

/-! ## Documents -/

/-- **The delimiters of elements that a scan follows are hidden**, in every leaf of the blocks of a text and up to where
it follows them. -/
theorem markers_hidden_ofTree {s : List Char} {blocks : List ReadBlock} {content rest : List Inline}
    (hleaf : Leaf.inlines (content ++ rest) ∈ leaves blocks)
    (h : Followed (.ofText s) (Leaf.scanOf (.ofText s) (content ++ rest)).cursor content c') {m : Extent}
    (hm : m ∈ markersAll (.ofText s) content) :
    Range.hide m.start m.stop ∈ ofTree (.ofText s) (Token.ofReport (.ofText s) blocks) := by
  obtain ⟨es, -, hrun⟩ := h.reads []
  obtain ⟨hlt, hmem⟩ := hrun m hm
  rw [hide_mem_ofTree, Token.ofReport_eq, collect_ofBlocks]
  refine ⟨hlt, List.mem_flatMap.2 ⟨_, hleaf, ?_⟩⟩
  rw [Leaf.ranges, ofInlines_append, Scan.run_append]
  exact List.mem_append_left _ hmem

/-- **What a scan follows is hidden where it was read**: every delimiter of an emphasis or a code span outside images,
in every leaf of a document, whatever stands before it; and every element of the document is in a leaf. -/
theorem markers_hidden (s : List Char) :
    (leaves (Markdown.Document.ofText s)).flatMap Leaf.content =
        (leafBlocksAll (Markdown.Document.ofText s)).flatMap contentOf ∧
      ∀ content rest c', Leaf.inlines (content ++ rest) ∈ leaves (Markdown.Document.ofText s) →
        Followed (.ofText s) (Leaf.scanOf (.ofText s) (content ++ rest)).cursor content c' →
        ∀ m ∈ markersAll (.ofText s) content, Range.hide m.start m.stop ∈ extract s :=
  ⟨flatMap_content_leaves _, fun _ _ _ hleaf h _ hm => extract_eq s ▸ markers_hidden_ofTree hleaf h hm⟩

/-- in a quote, behind a link whose target has an asterisk: `> [l](u*v) *b*` and a code span -/
theorem markers_hidden_quote :
    let s := "> [l](u*v) *b* `c`".toList
    let content : List Inline := [.link ⟨2, 10⟩ .inline [.text ⟨3, 4⟩], .text ⟨10, 11⟩,
      .stress ⟨11, 14⟩ .emphasis [.text ⟨12, 13⟩], .text ⟨14, 15⟩, .code ⟨15, 18⟩ ['c']]
    Leaf.inlines (content ++ []) ∈ leaves (Markdown.Document.ofText s) ∧
      Followed (.ofText s) (Leaf.scanOf (.ofText s) (content ++ [])).cursor content 18 ∧
      markersAll (.ofText s) content = [⟨11, 12⟩, ⟨13, 14⟩, ⟨15, 16⟩, ⟨17, 18⟩] ∧
      ∀ m ∈ markersAll (.ofText s) content, Range.hide m.start m.stop ∈ extract s := by
  intro s content
  have hleaves : leaves (Markdown.Document.ofText s) = [.inlines (content ++ [])] := by
    subst s content
    cbv
  have hleaf : Leaf.inlines (content ++ []) ∈ leaves (Markdown.Document.ofText s) := hleaves ▸ List.mem_singleton_self _
  have hcode : Followed (.ofText s) 14 [.text ⟨14, 15⟩, .code ⟨15, 18⟩ ['c']] 18 := by
    refine .text ⟨by decide, ⟨0, 18⟩, 18, [], "`c`".toList, rfl, rfl, by decide, rfl, rfl, .nil _⟩ (.code ?_ .nil)
    refine ⟨by decide, ⟨0, 18⟩, 18, "> [l](u*v) *b* ".toList, [], ['c'], [], rfl, rfl, by decide, by decide, rfl, rfl,
      rfl, rfl, ⟨?_, by decide⟩, ⟨?_, by decide⟩, by decide, by decide, by decide⟩
    · exact .of_not_mem (by decide) (by decide)
    · exact .of_not_mem (by decide) (by decide)
  have hbody : Followed (.ofText s) 12 [.text ⟨12, 13⟩] 13 :=
    .text ⟨by decide, ⟨0, 18⟩, 18, [], "* `c`".toList, rfl, rfl, by decide, rfl, rfl, .nil _⟩ .nil
  have hstress : Followed (.ofText s) 11 [.stress ⟨11, 14⟩ .emphasis [.text ⟨12, 13⟩], .text ⟨14, 15⟩,
      .code ⟨15, 18⟩ ['c']] 18 := by
    refine .stress (p := 13) ?_ hbody ?_ rfl hcode
    · exact ⟨by decide, ⟨0, 18⟩, 18, [], "b* `c`".toList, rfl, rfl, by decide, rfl, rfl, .nil _⟩
    · exact ⟨by decide, ⟨0, 18⟩, 18, [], " `c`".toList, rfl, rfl, by decide, rfl, rfl, .nil _⟩
  have hlabel : Followed (.ofText s) 3 [.text ⟨3, 4⟩] 4 :=
    .text ⟨by decide, ⟨0, 18⟩, 18, [], "](u*v) *b* `c`".toList, rfl, rfl, by decide, rfl, rfl, .nil _⟩ .nil
  have hrest : Followed (.ofText s) 10 [.text ⟨10, 11⟩, .stress ⟨11, 14⟩ .emphasis [.text ⟨12, 13⟩], .text ⟨14, 15⟩,
      .code ⟨15, 18⟩ ['c']] 18 :=
    .text ⟨by decide, ⟨0, 18⟩, 18, [], "*b* `c`".toList, rfl, rfl, by decide, rfl, rfl, .nil _⟩ hstress
  have hfollowed : Followed (.ofText s) (Leaf.scanOf (.ofText s) (content ++ [])).cursor content 18 :=
    .link hlabel hrest
  exact ⟨hleaf, hfollowed, by decide +kernel, (markers_hidden s).2 content [] 18 hleaf hfollowed⟩

/-- in an item whose bullet is an asterisk, the delimiters of the emphasis are at 2 and at 4, but the bullet is hidden
in place of the first and the emphasis is styled from there on -/
theorem markers_not_hidden_bullet :
    let s := "* *a*".toList
    markersAll (.ofText s) ((leafBlocksAll (Markdown.Document.ofText s)).flatMap contentOf) = [⟨2, 3⟩, ⟨4, 5⟩] ∧
      Range.hide 2 3 ∉ extract s ∧ extract s = [.hide 0 1, .styled 1 4 .italic, .hide 4 5] := by
  decide +kernel

end MarkVeil.Decoration

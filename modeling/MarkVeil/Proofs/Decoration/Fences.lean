/-
What a fenced block hides.

The rule is that a fenced block hides its opening fence through the end of its info string, its closing fence if it has
one, and nothing else on its lines. A fence is read again from its lines: the opening where its run first stands, the
closing on the last line or on the one after it, behind spaces only. `Regular` says when this reading agrees with the
reader of the document, and `ApartFrom` that nothing else stands on the lines. Main results:
- `fence_ranges`: in any case a fence gives hides on its first line and what is read as its closing fence, nothing else;
- `fence_rule`: if both hold, so does the rule, whatever containers the block is in;
- `fence_rule_broken`: it fails for a block that is not closed and whose last line looks like a fence, for a closing
  fence in a quote, for an info string with an escape, and for lines that end in a carriage return only.
-/
import MarkVeil.Proofs.Decoration.Within
import MarkVeil.Proofs.Text.Gap

namespace MarkVeil.Marker.Fence

open MarkVeil.Text

variable {pre m gap info rest post : List Char}

theorem opening?_alone (hm : m ≠ []) (hpre : FirstBehind pre m) (rest : List Char) :
    opening? (pre ++ (m ++ rest)) m none = some ⟨byteLen pre, byteLen pre + byteLen m⟩ := by
  rw [opening?, if_neg (by simpa using hm), find?_behind hpre, Option.map_some]

theorem opening?_info (hm : m ≠ []) (hpre : FirstBehind pre m) (hgap : FirstBehind gap info) (post : List Char) :
    opening? (pre ++ (m ++ (gap ++ (info ++ post)))) m (some info) =
      some ⟨byteLen pre, byteLen pre + byteLen m + byteLen gap + byteLen info⟩ := by
  have hdrop : dropBytes? (pre ++ (m ++ (gap ++ (info ++ post)))) (byteLen pre + byteLen m) =
      some (gap ++ (info ++ post)) := by
    rw [← List.append_assoc, ← byteLen_append, dropBytes?_append]
  rw [opening?, if_neg (by simpa using hm), find?_behind hpre, Option.map_some]
  simp only [hdrop, find?_behind hgap]

end MarkVeil.Marker.Fence

namespace MarkVeil.Decoration

open MarkVeil.Text
open MarkVeil.Marker.Fence (ClosesAs)
open MarkVeil.Markdown (ReadBlock)
open MarkVeil.Token (IsFenceRun fenceMarker fenceMarker_run lastLineOf last_spanOf lineOf_le_lastLineOf spanOf
  spanOf_eq)

variable {s info body : List Char} {src : Source} {e opening : Extent} {closing? : Option Extent} {closed : Bool}
  {r : Range} {line first lo hi : Nat} {m : List Char}

/-! ## Reading a fence again -/

/-- on its first line a fence is its run and, behind blanks, the info string as it is written; no backtick or tilde
stands before it -/
def OpensAs (src : Source) (e : Extent) (info : List Char) (opening : Extent) : Prop :=
  ∃ base pre gap post, src.lines.start? (src.lines.lineOf e.start) = some base ∧
    src.lineText? (src.lines.lineOf e.start) =
      some (pre ++ (fenceMarker src e.start ++ (gap ++ (trim info ++ post)))) ∧
    '`' ∉ pre ∧ '~' ∉ pre ∧ allBlank gap = true ∧ (trim info = [] → gap = []) ∧ e.start = base + byteLen pre ∧
    opening = ⟨e.start, e.start + byteLen (fenceMarker src e.start) + byteLen gap + byteLen (trim info)⟩

theorem exists_of_mem_getD {α : Type} {o : Option (List α)} {a : α} (h : a ∈ o.getD []) : ∃ l, o = some l ∧ a ∈ l := by
  cases o with
  | none => simp at h
  | some l => exact ⟨l, rfl, h⟩

/-- a line of a text is read as the closing fence of a marker -/
def ClosesOn (src : Source) (marker : List Char) (line : Nat) (r : Extent) : Prop :=
  ∃ base text e, src.lines.start? line = some base ∧ src.lineText? line = some text ∧ ClosesAs marker text e ∧
    r = e.shift base

/-- the fence is read where the reader of the document has it, and closes where it does -/
structure Regular (src : Source) (e : Extent) (info : List Char) (closed : Bool) (opening : Extent)
    (closing? : Option Extent) : Prop where
  opens : OpensAs src e info opening
  isSome_closing : closing?.isSome = closed
  /-- the last line of a block that is closed is read as its closing fence -/
  closes : ∀ c, closing? = some c →
    src.lines.lineOf e.start < lastLineOf src e ∧ ClosesOn src (fenceMarker src e.start) (lastLineOf src e) c
  /-- neither the last line of a block that is not closed nor the line behind it is read as a closing fence -/
  unclosed : closed = false → ∀ line, line = lastLineOf src e ∨ line = lastLineOf src e + 1 →
    src.lines.lineOf e.start < line → ∀ c, ¬ ClosesOn src (fenceMarker src e.start) line c

def fenceHides (opening : Extent) (closing? : Option Extent) : List Range :=
  .hide opening.start opening.stop :: closing?.toList.map fun c => .hide c.start c.stop

theorem exists_hide_of_mem_fenceHides (h : r ∈ fenceHides opening closing?) : ∃ i j, r = .hide i j := by
  rcases List.mem_cons.1 h with rfl | hmap
  · exact ⟨_, _, rfl⟩
  · obtain ⟨c, -, rfl⟩ := List.mem_map.1 hmap
    exact ⟨_, _, rfl⟩

theorem closingFence?_eq_some {c : Extent} (hm : IsFenceRun m) (hline : first < line) (h : ClosesOn src m line c) :
    closingFence? src first m line = some [.hide c.start c.stop] := by
  obtain ⟨ch, n, hch, hn, rfl⟩ := hm
  obtain ⟨base, text, e, hbase, htext, hcloses, rfl⟩ := h
  have hread := (Marker.Fence.closing?_eq_some hch hn).2 hcloses
  have hlt : base + e.start < base + e.stop := by
    obtain ⟨-, -, -, -, hle, hlong, -⟩ := hcloses
    rw [List.length_replicate] at hlong
    unfold Extent.len at hlong
    omega
  rw [closingFence?, if_neg (Nat.not_le.2 hline), hbase, htext, Option.bind_some, hread]
  simp only [hide, if_pos hlt]
  rfl

theorem closingFence?_eq_none (hm : IsFenceRun m) (h : first < line → ∀ c, ¬ ClosesOn src m line c) :
    closingFence? src first m line = none := by
  obtain ⟨ch, n, hch, hn, rfl⟩ := hm
  unfold closingFence?
  split_ifs with hline
  · rfl
  split
  next base e hbase he =>
    obtain ⟨text, htext, hread⟩ := Option.bind_eq_some_iff.1 he
    exact absurd ⟨base, text, e, hbase, htext, (Marker.Fence.closing?_eq_some hch hn).1 hread, rfl⟩
      (h (Nat.lt_of_not_le hline) _)
  next => rfl

/-- what is read as the opening fence -/
theorem OpensAs.opening? (h : OpensAs src e info opening) :
    ∃ base text first, src.lines.start? (src.lines.lineOf e.start) = some base ∧
      src.lineText? (src.lines.lineOf e.start) = some text ∧
      Marker.Fence.opening? text (fenceMarker src e.start)
        (if (trim info).isEmpty then none else some (trim info)) = some first ∧
      opening = first.shift base ∧ first.start < first.stop := by
  obtain ⟨base, pre, gap, post, hbase, htext, htick, htilde, hgap, hnil, hstart, rfl⟩ := h
  obtain ⟨c, n, hc, hn, hrun⟩ := fenceMarker_run src e.start
  have hne : fenceMarker src e.start ≠ [] := by
    rw [hrun]
    simpa using hn.ne'
  have hpos := byteLen_pos hne
  have hpre : FirstBehind pre (fenceMarker src e.start) := by
    refine .of_not_mem (c := c) ?_ ?_
    · obtain ⟨n, rfl⟩ := Nat.exists_eq_succ_of_ne_zero hn.ne'
      rw [hrun, List.replicate_succ, List.head?_cons]
    · rcases hc with rfl | rfl <;> assumption
  by_cases hinfo : trim info = []
  · obtain rfl := hnil hinfo
    refine ⟨base, _, ⟨byteLen pre, byteLen pre + byteLen (fenceMarker src e.start)⟩, hbase, htext, ?_, ?_, ?_⟩
    · rw [if_pos (by simp [hinfo])]
      exact Marker.Fence.opening?_alone hne hpre _
    · simp [Extent.shift, hinfo, hstart, Nat.add_assoc]
    · simp only
      omega
  · have hbehind : FirstBehind gap (trim info) := by
      obtain ⟨d, t, hd⟩ := List.exists_cons_of_ne_nil hinfo
      refine .of_not_mem (c := d) (by rw [hd, List.head?_cons]) ?_
      intro hmem
      have hblank := head?_trim (s := info) (c := d) (by rw [hd, List.head?_cons])
      rw [List.all_eq_true.1 hgap d hmem] at hblank
      exact Bool.noConfusion hblank
    refine ⟨base, _, ⟨byteLen pre, byteLen pre + byteLen (fenceMarker src e.start) + byteLen gap +
      byteLen (trim info)⟩, hbase, htext, ?_, ?_, ?_⟩
    · rw [if_neg (by simpa using hinfo)]
      exact Marker.Fence.opening?_info hne hpre hbehind post
    · simp [Extent.shift, hstart, Nat.add_assoc]
    · simp only
      omega

theorem Leaf.fenceMarkerOf_fenceToken (src : Source) (e : Extent) (info body : List Char) :
    fenceMarkerOf (Leaf.fenceToken src e info body) = fenceMarker src e.start := by
  rw [fenceMarkerOf, Leaf.fenceToken, Token.fenceMarker]
  by_cases h : Token.fenceMarkup src e.start = []
  · rw [if_pos h, h]
    rfl
  · have hne : (String.ofList (Token.fenceMarkup src e.start)).isEmpty = false := by simpa using h
    rw [if_neg h, hne]
    exact String.toList_ofList

/-- **A fence that is read where it stands gives the hides of its block and no other range.** -/
theorem Regular.ranges (h : Regular src e info closed opening closing?) (body : List Char) :
    (Leaf.fence e info body closed).ranges src = fenceHides opening closing? := by
  have hrun := fenceMarker_run src e.start
  obtain ⟨base, text, first, hbase, htext, hfirst, rfl, hlt⟩ := h.opens.opening?
  have hclosing : (closingFence? src (src.lines.lineOf e.start) (fenceMarker src e.start) (lastLineOf src e)).or
      (closingFence? src (src.lines.lineOf e.start) (fenceMarker src e.start) (lastLineOf src e + 1)) =
      closing?.map fun c => [.hide c.start c.stop] := by
    cases hc : closing? with
    | some c =>
      obtain ⟨hline, hcloses⟩ := h.closes c hc
      rw [closingFence?_eq_some hrun hline hcloses, Option.some_or, Option.map_some]
    | none =>
      have hopen : closed = false := by rw [← h.isSome_closing, hc]; rfl
      rw [closingFence?_eq_none hrun fun hlt => h.unclosed hopen _ (Or.inl rfl) hlt,
        closingFence?_eq_none hrun fun hlt => h.unclosed hopen _ (Or.inr rfl) hlt]
      rfl
  have hinfo : (Leaf.fenceToken src e info body).info?.map String.toList =
      if (trim info).isEmpty then none else some (trim info) := by
    rw [show (Leaf.fenceToken src e info body).info? =
      if (trim info).isEmpty then none else some (String.ofList (trim info)) from rfl]
    split_ifs
    · rfl
    · exact congrArg some String.toList_ofList
  have hmarker := Leaf.fenceMarkerOf_fenceToken src e info body
  have hhide : base + first.start < base + first.stop := by omega
  rw [Leaf.ranges, fence]
  simp only [show (Leaf.fenceToken src e info body).span? = some (spanOf src e) from rfl]
  rw [← fenceMarkerOf, hmarker, hinfo]
  simp only [last_spanOf]
  simp only [spanOf_eq, hbase, htext, Option.bind_some, hfirst, hclosing, hide, if_pos hhide]
  cases closing? <;> rfl

/-- what closes a fence is read as a closing fence, on a line behind the first -/
theorem exists_of_closingFence? {rs : List Range} (hm : IsFenceRun m)
    (h : closingFence? src first m line = some rs) :
    first < line ∧ ∃ c, ClosesOn src m line c ∧ rs = [.hide c.start c.stop] := by
  by_cases hread : first < line ∧ ∃ c, ClosesOn src m line c
  · obtain ⟨hline, c, hc⟩ := hread
    rw [closingFence?_eq_some hm hline hc] at h
    exact ⟨hline, c, hc, (Option.some.inj h).symm⟩
  · have hnone := closingFence?_eq_none hm fun hline c hc => hread ⟨hline, c, hc⟩
    rw [hnone] at h
    exact absurd h (by simp)

/-- the ranges that a fence may give at all: hides on its first line, and a closing fence on its last line or on the
line behind it -/
def FenceRange (src : Source) (e : Extent) (r : Range) : Prop :=
  r.kind = .hide ∧ (r.Within src (src.lines.lineOf e.start) (src.lines.lineOf e.start) ∨
    ∃ line c, (line = lastLineOf src e ∨ line = lastLineOf src e + 1) ∧ src.lines.lineOf e.start < line ∧
      ClosesOn src (fenceMarker src e.start) line c ∧ r = .hide c.start c.stop)

/-- **Whatever a fence gives is a hide on its first line, or a line that is read as its closing fence.** -/
theorem fence_ranges (s : List Char) (e : Extent) (info body : List Char) (closed : Bool) :
    ∀ r ∈ (Leaf.fence e info body closed).ranges (.ofText s), FenceRange (.ofText s) e r := by
  have hrun := fenceMarker_run (.ofText s) e.start
  have hmarker := Leaf.fenceMarkerOf_fenceToken (.ofText s) e info body
  have hspan : (Leaf.fenceToken (.ofText s) e info body).span? = some (spanOf (.ofText s) e) := rfl
  rw [Leaf.ranges, fence]
  simp only [hspan]
  rw [← fenceMarkerOf, hmarker, last_spanOf, spanOf_eq]
  split
  next base opening hbase hopening =>
    obtain ⟨text, htext, hopening⟩ := Option.bind_eq_some_iff.1 hopening
    obtain ⟨m, hslice⟩ := Marker.Fence.opening?_slice hopening
    have hwithin := within_hide_slice hbase htext le_rfl le_rfl hslice
    refine List.forall_mem_append.2 ⟨fun r hr => ⟨?_, Or.inl (hwithin r hr)⟩, ?_⟩
    · unfold hide at hr
      split_ifs at hr
      · rw [List.mem_singleton.1 hr]
        rfl
      · simp at hr
    have hclosing : ∀ line, (line = lastLineOf (.ofText s) e ∨ line = lastLineOf (.ofText s) e + 1) → ∀ rs,
        closingFence? (.ofText s) ((Source.ofText s).lines.lineOf e.start) (fenceMarker (.ofText s) e.start) line =
          some rs → ∀ r ∈ rs, FenceRange (.ofText s) e r := by
      intro line hline rs hrs r hr
      obtain ⟨hlt, c, hc, rfl⟩ := exists_of_closingFence? hrun hrs
      obtain rfl := List.mem_singleton.1 hr
      exact ⟨rfl, Or.inr ⟨line, c, hline, hlt, hc, rfl⟩⟩
    intro r hr
    obtain ⟨rs, hrs, hr⟩ := exists_of_mem_getD hr
    rcases Option.or_eq_some_iff.1 hrs with hlast | ⟨-, hnext⟩
    · exact hclosing _ (Or.inl rfl) rs hlast r hr
    · exact hclosing _ (Or.inr rfl) rs hnext r hr
  next => simp

/-! ## The lines of a block -/

/-- the opening fence stands on the first line -/
theorem OpensAs.lineOf {p : Nat} (h : OpensAs (.ofText s) e info opening) (h1 : opening.start ≤ p)
    (h2 : p ≤ opening.stop) : (Source.ofText s).lines.lineOf p = (Source.ofText s).lines.lineOf e.start := by
  obtain ⟨base, text, first, hbase, htext, hfirst, rfl, -⟩ := h.opening?
  obtain ⟨m, hslice⟩ := Marker.Fence.opening?_slice hfirst
  obtain ⟨hi, hj⟩ := Source.lineOf_slice hbase htext hslice
  exact LineIndex.lineOf_between hi hj h1 h2

/-- a closing fence stands on its line -/
theorem ClosesOn.lineOf {c : Extent} {p : Nat} (hm : IsFenceRun m) (h : ClosesOn (.ofText s) m line c)
    (h1 : c.start ≤ p) (h2 : p ≤ c.stop) : (Source.ofText s).lines.lineOf p = line := by
  obtain ⟨ch, n, hch, hn, rfl⟩ := hm
  obtain ⟨base, text, e, hbase, htext, hcloses, rfl⟩ := h
  obtain ⟨_, _, -, -, hslice⟩ := Marker.Fence.closing?_sound ((Marker.Fence.closing?_eq_some hch hn).2 hcloses)
  obtain ⟨hi, hj⟩ := Source.lineOf_slice hbase htext hslice
  exact LineIndex.lineOf_between hi hj h1 h2

/-- a range has a byte on the lines from `lo` to `hi` -/
def Range.Touches (src : Source) (lo hi : Nat) (r : Range) : Prop :=
  ∃ p, r.extent.Has p ∧ lo ≤ src.lines.lineOf p ∧ src.lines.lineOf p ≤ hi

/-- a leaf stands on none of the lines from `lo` to `hi` -/
def Leaf.ApartFrom (src : Source) (lo hi : Nat) (l : Leaf) : Prop := (l.lines src).last < lo ∨ hi < (l.lines src).start

instance (src : Source) (lo hi : Nat) (l : Leaf) : Decidable (l.ApartFrom src lo hi) := by
  unfold Leaf.ApartFrom
  infer_instance

/-- what lies between two lines touches no line before or behind -/
theorem Range.Within.not_touches {lo' hi' : Nat} (h : r.Within src lo hi) (hapart : hi < lo' ∨ hi' < lo) :
    ¬ r.Touches src lo' hi' := by
  rintro ⟨p, ⟨h1, h2⟩, hlo, hhi⟩
  have hfirst := h.first.trans (LineIndex.lineOf_mono _ h1)
  have hlast := (LineIndex.lineOf_mono _ h2.le).trans h.last
  omega

/-- a text is cut in one way at its first character that does not satisfy `p` -/
theorem append_cons_inj {p : Char → Prop} {a b t : List Char} {x y : Char} (h : a ++ x :: s = b ++ y :: t)
    (ha : ∀ c ∈ a, p c) (hb : ∀ c ∈ b, p c) (hx : ¬ p x) (hy : ¬ p y) : a = b ∧ x :: s = y :: t := by
  induction a generalizing b with
  | nil =>
    cases b with
    | nil => exact ⟨rfl, h⟩
    | cons d b =>
      obtain ⟨rfl, -⟩ := List.cons.inj h
      exact absurd (hb x List.mem_cons_self) hx
  | cons c a ih =>
    cases b with
    | nil =>
      obtain ⟨rfl, -⟩ := List.cons.inj h
      exact absurd (ha c List.mem_cons_self) hy
    | cons d b =>
      obtain ⟨rfl, hrest⟩ := List.cons.inj h
      obtain ⟨rfl, htail⟩ := ih hrest (List.forall_mem_cons.1 ha).2 (List.forall_mem_cons.1 hb).2
      exact ⟨rfl, htail⟩

/-- the marker of a fence is its whole run -/
theorem fenceMarker_eq {a rest : List Char} {c : Char} {k : Nat} (hc : c = '`' ∨ c = '~') (hk : 0 < k)
    (hrest : rest.head? ≠ some c) :
    fenceMarker (.ofText (a ++ (List.replicate k c ++ rest))) (byteLen a) = List.replicate k c := by
  have hafter : Token.textAfter (.ofText (a ++ (List.replicate k c ++ rest))) (byteLen a) =
      List.replicate k c ++ rest := by
    rw [Token.textAfter, Source.ofText, dropBytes?_append, Option.getD_some]
  have hspace : (c == ' ') = false := by rcases hc with rfl | rfl <;> rfl
  have hrun := countRun_replicate_append k hrest
  have hmarkup : Token.fenceMarkup (.ofText (a ++ (List.replicate k c ++ rest))) (byteLen a) = List.replicate k c := by
    rw [Token.fenceMarkup, hafter]
    obtain ⟨k, rfl⟩ := Nat.exists_eq_succ_of_ne_zero hk.ne'
    rw [List.replicate_succ, List.cons_append] at hrun ⊢
    simp only [List.dropWhile_cons, hspace, Bool.false_eq_true, if_false, hrun, if_pos hc]
    rw [List.replicate_succ]
  rw [fenceMarker, hmarkup, if_neg (by simpa using hk.ne')]

/-- a line that begins with spaces and a run, and is blank behind it, has the whole run for its marker -/
theorem fenceMarker_line {base n k : Nat} {c : Char} {blanks : List Char} (hc : c = '`' ∨ c = '~') (hk : 0 < k)
    (hbase : (Source.ofText s).lines.start? line = some base)
    (htext : (Source.ofText s).lineText? line = some (List.replicate n ' ' ++ (List.replicate k c ++ blanks)))
    (hblanks : allBlank blanks = true) : fenceMarker (.ofText s) (base + n) = List.replicate k c := by
  obtain ⟨b, a, hs, hl, rfl⟩ := Source.exists_lineAt_of_lineText? hbase htext
  have hbehind : (blanks ++ a).head? ≠ some c := by
    intro hhead
    cases blanks with
    | cons x blanks =>
      obtain rfl : x = c := by simpa using hhead
      have hx := List.all_eq_true.1 hblanks x List.mem_cons_self
      rcases hc with rfl | rfl <;> exact absurd hx (by decide)
    | nil =>
      rw [List.nil_append] at hhead
      rcases hl.ends with rfl | ⟨hfeed, -⟩ | ⟨t, rfl⟩
      · simp at hhead
      · rw [hhead] at hfeed
        rcases hc with rfl | rfl <;> simp at hfeed
      · rcases hc with rfl | rfl <;> simp at hhead
  have hwhole : s = (b ++ List.replicate n ' ') ++ (List.replicate k c ++ (blanks ++ a)) := by
    rw [hs]
    simp only [List.append_assoc]
  have hplace : byteLen b + n = byteLen (b ++ List.replicate n ' ') := by
    rw [byteLen_append, byteLen_replicate_one rfl]
  rw [hplace, hwhole]
  exact fenceMarker_eq hc hk hbehind

/-- what stands before the first run of a line is its spaces, if no backtick or tilde is in it -/
theorem eq_spaces_of_fence_line {pre x y : List Char} {n k : Nat} {c : Char}
    (h : pre ++ (m ++ x) = List.replicate n ' ' ++ (List.replicate k c ++ y)) (hm : IsFenceRun m)
    (hc : c = '`' ∨ c = '~') (hk : 0 < k) (htick : '`' ∉ pre) (htilde : '~' ∉ pre) : pre = List.replicate n ' ' := by
  obtain ⟨d, j, hd, hj, rfl⟩ := hm
  obtain ⟨j, rfl⟩ := Nat.exists_eq_succ_of_ne_zero hj.ne'
  obtain ⟨k, rfl⟩ := Nat.exists_eq_succ_of_ne_zero hk.ne'
  rw [List.replicate_succ, List.replicate_succ] at h
  refine (append_cons_inj (p := fun c => c ≠ '`' ∧ c ≠ '~') h ?_ ?_ ?_ ?_).1
  · exact fun c hc => ⟨fun h => htick (h ▸ hc), fun h => htilde (h ▸ hc)⟩
  · intro c hc
    rw [List.eq_of_mem_replicate hc]
    decide
  · rcases hd with rfl | rfl <;> simp
  · rcases hc with rfl | rfl <;> simp

/-- a line that is read both as the opening fence of a block and as a closing fence is hidden alike by either -/
theorem OpensAs.eq_of_closesOn {c : Extent} (h : OpensAs (.ofText s) e info opening) (hm : IsFenceRun m)
    (hc : ClosesOn (.ofText s) m ((Source.ofText s).lines.lineOf e.start) c) : c = opening := by
  obtain ⟨base, pre, gap, post, hbase, htext, htick, htilde, -, hnil, hstart, rfl⟩ := h
  obtain ⟨base', text, d, hbase', htext', ⟨ch, blanks, hhead, rfl, hle, hlong, hblanks⟩, rfl⟩ := hc
  obtain rfl : base = base' := Option.some.inj (hbase.symm.trans hbase')
  obtain ⟨ch', n, hch, hn, rfl⟩ := hm
  obtain ⟨n, rfl⟩ := Nat.exists_eq_succ_of_ne_zero hn.ne'
  obtain rfl : ch' = ch := by simpa [List.replicate_succ] using hhead
  rw [List.length_replicate] at hlong
  have hpos : 0 < d.len := by omega
  -- the line, cut as an opening and as a closing fence
  have hline := Option.some.inj (htext.symm.trans htext')
  have hspaces := eq_spaces_of_fence_line hline (fenceMarker_run (.ofText s) e.start) hch hpos htick htilde
  have hindent : byteLen pre = d.start := by
    rw [hspaces, byteLen_replicate_one rfl]
  have hrun : fenceMarker (.ofText s) e.start = List.replicate d.len ch' := by
    rw [hstart, hindent]
    exact fenceMarker_line hch hpos hbase' htext' hblanks
  -- what stands behind the run is blank, so there is no info string
  have hrest : gap ++ (trim info ++ post) = blanks := by
    rw [hspaces, hrun] at hline
    exact List.append_cancel_left (List.append_cancel_left hline)
  have hinfo : trim info = [] := by
    cases hcons : trim info with
    | nil => rfl
    | cons x t =>
      have hx := head?_trim (s := info) (c := x) (by rw [hcons, List.head?_cons])
      have hmem : x ∈ blanks := by rw [← hrest, hcons]; simp
      rw [List.all_eq_true.1 hblanks x hmem] at hx
      exact Bool.noConfusion hx
  have hsize : byteLen (List.replicate d.len ch') = d.len := by
    rcases hch with rfl | rfl <;> exact byteLen_replicate_one rfl _
  have hstop : d.start + d.len = d.stop := by
    unfold Extent.len
    omega
  rw [hrun, hinfo, hnil hinfo, hstart, hindent, hsize]
  simp only [Extent.shift, byteLen_nil, Extent.mk.injEq, true_and]
  omega

/-- **A leaf on other lines gives nothing on the lines of a block**, but for what the opening fence is hidden by anyway:
a fence on the line before may be closed there. -/
theorem Leaf.ApartFrom.eq_opening {l : Leaf} {last : Nat} (h : OpensAs (.ofText s) e info opening)
    (hapart : l.ApartFrom (.ofText s) ((Source.ofText s).lines.lineOf e.start) last)
    (hr : r ∈ l.ranges (.ofText s)) (htouches : r.Touches (.ofText s) ((Source.ofText s).lines.lineOf e.start) last) :
    r = .hide opening.start opening.stop := by
  cases hl : l.isFence with
  | false => exact absurd htouches ((l.ranges_within s hl r hr).not_touches hapart)
  | true =>
    obtain ⟨e', info', body', closed', rfl⟩ : ∃ e' info' body' closed', l = .fence e' info' body' closed' := by
      cases l with
      | fence e' info' body' closed' => exact ⟨e', info', body', closed', rfl⟩
      | _ => exact Bool.noConfusion hl
    have hrun := fenceMarker_run (.ofText s) e'.start
    have hlines := lineOf_le_lastLineOf (.ofText s) e'
    simp only [Leaf.ApartFrom, Leaf.lines, last_spanOf] at hapart
    simp only [spanOf_eq] at hapart
    obtain ⟨-, hfirst | ⟨line, c, hline, hlt, hcloses, rfl⟩⟩ := fence_ranges s e' info' body' closed' r hr
    · exact absurd htouches (hfirst.not_touches (by omega))
    · obtain ⟨p, hp, hlo, hhi⟩ := htouches
      have hon := hcloses.lineOf hrun hp.1 hp.2.le
      -- the closing fence is behind the block and on the first line of the next
      obtain rfl : line = (Source.ofText s).lines.lineOf e.start := by omega
      rw [h.eq_of_closesOn hrun hcloses]

/-! ## The rule -/

/-- the rule for a fenced block of a text with decorations `rs`, on all its lines -/
structure FenceRule (s : List Char) (rs : List Range) (e : Extent) (info body : List Char) (closed : Bool)
    (opening : Extent) (closing? : Option Extent) : Prop where
  /-- what has a byte on the lines of the block is a hide of the block -/
  hides : ∀ r, r ∈ rs ∧ r.Touches (.ofText s) ((Source.ofText s).lines.lineOf e.start) (lastLineOf (.ofText s) e) ↔
    r ∈ fenceHides opening closing?
  /-- the block gives no range beyond -/
  own : (Leaf.fence e info body closed).ranges (.ofText s) = fenceHides opening closing?
  /-- no byte is hidden or styled on a line behind the first, but for the line of a closing fence -/
  body : ∀ r ∈ rs, ∀ p, r.extent.Has p →
    (Source.ofText s).lines.lineOf e.start < (Source.ofText s).lines.lineOf p →
    (Source.ofText s).lines.lineOf p ≤ lastLineOf (.ofText s) e →
    closed = true ∧ (Source.ofText s).lines.lineOf p = lastLineOf (.ofText s) e

/-- the hides of a block stand on its first and on its last line -/
theorem Regular.hides_lines (h : Regular (.ofText s) e info closed opening closing?) (hr : r ∈ fenceHides opening closing?) :
    r.start < r.stop ∧ ∀ p, r.extent.Has p →
      (Source.ofText s).lines.lineOf p = (Source.ofText s).lines.lineOf e.start ∨
        closed = true ∧ (Source.ofText s).lines.lineOf p = lastLineOf (.ofText s) e := by
  have hrun := fenceMarker_run (.ofText s) e.start
  rcases List.mem_cons.1 hr with rfl | hr
  · obtain ⟨base, text, first, -, -, -, hshift, hlt⟩ := h.opens.opening?
    refine ⟨?_, fun p hp => Or.inl (h.opens.lineOf hp.1 hp.2.le)⟩
    rw [hshift]
    exact Nat.add_lt_add_left hlt base
  · obtain ⟨c, hc, rfl⟩ := List.mem_map.1 hr
    have hsome : closing? = some c := by simpa using hc
    obtain ⟨hline, hcloses⟩ := h.closes c hsome
    refine ⟨?_, fun p hp => Or.inr ⟨by rw [← h.isSome_closing, hsome]; rfl, hcloses.lineOf hrun hp.1 hp.2.le⟩⟩
    obtain ⟨ch, n, -, hn, hm⟩ := hrun
    obtain ⟨base, text, d, -, -, ⟨-, -, -, -, hle, hlong, -⟩, rfl⟩ := hcloses
    rw [hm, List.length_replicate] at hlong
    unfold Extent.len at hlong
    simp only [Range.hide, Extent.shift]
    omega

/-- **A fence that is read where it stands, with nothing else on its lines, follows the rule**, in every text and
behind any containers. -/
theorem Regular.rule {blocks : List ReadBlock} {before after : List Leaf} {body : List Char}
    (h : Regular (.ofText s) e info closed opening closing?)
    (hleaves : leaves blocks = before ++ .fence e info body closed :: after)
    (hapart : ∀ l ∈ before ++ after,
      l.ApartFrom (.ofText s) ((Source.ofText s).lines.lineOf e.start) (lastLineOf (.ofText s) e)) :
    FenceRule s (ofTree (.ofText s) (Token.ofReport (.ofText s) blocks)) e info body closed opening closing? := by
  have hown := h.ranges body
  have hcollect : collect (.ofText s) (Token.ofReport (.ofText s) blocks) = before.flatMap (Leaf.ranges (.ofText s)) ++
      (fenceHides opening closing? ++ after.flatMap (Leaf.ranges (.ofText s))) := by
    rw [Token.ofReport_eq, collect_ofBlocks, hleaves, List.flatMap_append, List.flatMap_cons, hown]
  have hhides : ∀ r, r ∈ ofTree (.ofText s) (Token.ofReport (.ofText s) blocks) ∧
      r.Touches (.ofText s) ((Source.ofText s).lines.lineOf e.start) (lastLineOf (.ofText s) e) ↔
      r ∈ fenceHides opening closing? := by
    intro r
    constructor
    · rintro ⟨hr, p, hp, hlo, hhi⟩
      obtain ⟨x, hx, hbytes, heq⟩ := exists_source_of_mem_resolve hr
      have htouches : x.Touches (.ofText s) ((Source.ofText s).lines.lineOf e.start) (lastLineOf (.ofText s) e) :=
        ⟨p, hbytes p hp, hlo, hhi⟩
      have hother : ∀ l ∈ before ++ after, x ∈ l.ranges (.ofText s) → x ∈ fenceHides opening closing? :=
        fun l hl hxl => List.mem_cons.2 (Or.inl ((hapart l hl).eq_opening h.opens hxl htouches))
      have hmem : x ∈ fenceHides opening closing? := by
        rw [hcollect, List.mem_append, List.mem_append, List.mem_flatMap, List.mem_flatMap] at hx
        rcases hx with ⟨l, hl, hxl⟩ | hx | ⟨l, hl, hxl⟩
        · exact hother l (List.mem_append_left _ hl) hxl
        · exact hx
        · exact hother l (List.mem_append_right _ hl) hxl
      obtain ⟨i, j, rfl⟩ := exists_hide_of_mem_fenceHides hmem
      rwa [heq (Or.inr rfl)]
    · intro hr
      obtain ⟨hlt, hlines⟩ := h.hides_lines hr
      have hfirst := lineOf_le_lastLineOf (.ofText s) e
      obtain ⟨i, j, rfl⟩ := exists_hide_of_mem_fenceHides hr
      refine ⟨hide_mem_ofTree.2 ⟨hlt, ?_⟩, i, ⟨le_rfl, hlt⟩, ?_⟩
      · rw [hcollect]
        exact List.mem_append_right _ (List.mem_append_left _ hr)
      · rcases hlines i ⟨le_rfl, hlt⟩ with hi | ⟨-, hi⟩
        · rw [hi]
          exact ⟨le_rfl, hfirst⟩
        · rw [hi]
          exact ⟨hfirst, le_rfl⟩
  refine ⟨hhides, hown, ?_⟩
  intro r hr p hp hlo hhi
  have hmem := (hhides r).1 ⟨hr, p, hp, hlo.le, hhi⟩
  exact ((h.hides_lines hmem).2 p hp).resolve_left hlo.ne'

/-- **The fence rule**, for the blocks that a reader reports for a text. Every fenced block is one of their leaves. All
that it gives is hides on its first line, and a line that is read as its closing fence. If it is read where it stands,
with nothing else on its lines, it follows the rule, behind any containers and whatever stands on other lines. -/
theorem fence_rule (s : List Char) (blocks : List ReadBlock) :
    extract s = ofTree (.ofText s) (Token.ofReport (.ofText s) (Markdown.Document.ofText s)) ∧
    (∀ e info body closed, Markdown.Block.fence e info body closed ∈ leafBlocksAll blocks →
      Leaf.fence e info body closed ∈ leaves blocks) ∧
    (∀ e info body closed, ∀ r ∈ (Leaf.fence e info body closed).ranges (.ofText s), FenceRange (.ofText s) e r) ∧
    ∀ before after e info body closed opening closing?,
      leaves blocks = before ++ .fence e info body closed :: after →
      Regular (.ofText s) e info closed opening closing? →
      (∀ l ∈ before ++ after,
        l.ApartFrom (.ofText s) ((Source.ofText s).lines.lineOf e.start) (lastLineOf (.ofText s) e)) →
      FenceRule s (ofTree (.ofText s) (Token.ofReport (.ofText s) blocks)) e info body closed opening closing? :=
  ⟨extract_eq s, fun _ _ _ _ h => fence_mem_leaves.2 h, fence_ranges s,
    fun _ _ _ _ _ _ _ _ hleaves h hapart => h.rule hleaves hapart⟩

/-- in an item behind a heading, with a body line that looks like a fence -/
theorem fence_rule_item :
    let s := "# *b*\n- ~~~ rs\n      ~~~\n  ~~~~ ".toList
    let before : List Leaf := [.heading ⟨0, 6⟩ 1, .inlines [.stress ⟨2, 5⟩ .emphasis [.text ⟨3, 4⟩]]]
    leaves (Markdown.Document.ofText s) = before ++ .fence ⟨8, 32⟩ ['r', 's'] "    ~~~\n".toList true :: [] ∧
      Regular (.ofText s) ⟨8, 32⟩ ['r', 's'] true ⟨8, 14⟩ (some ⟨27, 31⟩) ∧
      (∀ l ∈ before ++ [], l.ApartFrom (.ofText s) 1 3) ∧
      FenceRule s (extract s) ⟨8, 32⟩ ['r', 's'] "    ~~~\n".toList true ⟨8, 14⟩ (some ⟨27, 31⟩) := by
  intro s before
  have hleaves : leaves (Markdown.Document.ofText s) =
      before ++ .fence ⟨8, 32⟩ ['r', 's'] "    ~~~\n".toList true :: [] := by
    subst s before
    cbv
  have hopens : OpensAs (.ofText s) ⟨8, 32⟩ ['r', 's'] ⟨8, 14⟩ :=
    ⟨6, "- ".toList, " ".toList, [], by decide, by decide, by decide, by decide, by decide, by decide, by decide,
      by decide⟩
  have hcloses : ClosesOn (.ofText s) "~~~".toList 3 ⟨27, 31⟩ :=
    ⟨25, "  ~~~~ ".toList, ⟨2, 6⟩, by decide, by decide, ⟨'~', " ".toList, by decide, by decide, by decide, by decide,
      by decide⟩, by decide⟩
  have hregular : Regular (.ofText s) ⟨8, 32⟩ ['r', 's'] true ⟨8, 14⟩ (some ⟨27, 31⟩) := by
    refine ⟨hopens, rfl, ?_, fun h => Bool.noConfusion h⟩
    intro c hc
    obtain rfl := Option.some.inj hc
    exact ⟨by decide, hcloses⟩
  have hapart : ∀ l ∈ before ++ [], l.ApartFrom (.ofText s) 1 3 := by
    subst s before
    decide
  have hrule := (fence_rule s _).2.2.2 before [] _ _ _ _ _ _ hleaves hregular hapart
  rw [← extract_eq] at hrule
  exact ⟨hleaves, hregular, hapart, hrule⟩

/-- the rule fails for a block that is not closed and whose last line, which is indented too far, looks like a fence;
for a closing fence in a quote; for an info string with an escape; and for lines that end in a carriage return only -/
theorem fence_rule_broken :
    (leaves (Markdown.Document.ofText "```\nx\n    ```".toList) = [.fence ⟨0, 13⟩ [] "x\n    ```".toList false] ∧
      extract "```\nx\n    ```".toList = [.hide 0 3, .hide 10 13]) ∧
    (leaves (Markdown.Document.ofText "> ```\n> x\n> ```".toList) = [.fence ⟨2, 15⟩ [] "x\n".toList true] ∧
      extract "> ```\n> x\n> ```".toList = [.hide 2 5]) ∧
    (leaves (Markdown.Document.ofText "~~~ a\\*b".toList) = [.fence ⟨0, 8⟩ "a*b".toList [] false] ∧
      extract "~~~ a\\*b".toList = [.hide 0 3]) ∧
    (leaves (Markdown.Document.ofText "# a\r~~~".toList) =
        [.heading ⟨0, 4⟩ 1, .inlines [.text ⟨2, 3⟩], .fence ⟨4, 7⟩ [] [] false] ∧
      extract "# a\r~~~".toList = [.hide 0 1, .styled 2 4 .heading1, .hide 4 7]) := by
  refine ⟨⟨?_, ?_⟩, ⟨?_, ?_⟩, ⟨?_, ?_⟩, ?_, ?_⟩
  · cbv
  · decide +kernel
  · cbv
  · decide +kernel
  · cbv
  · decide +kernel
  · cbv
  · decide +kernel

end MarkVeil.Decoration

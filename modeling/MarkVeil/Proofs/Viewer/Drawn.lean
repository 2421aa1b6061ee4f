/-
What a view draws once its document is decorated.

The view tells the line of its cursor as the only selection, so no range is applied there and the line is drawn as it
is written. Every other line is drawn as its characters that are not hidden, each in the style of the one stretch that
has it. Main results:
- `update_eq`: an update puts the ranges that are shown in the place of whatever was applied before;
- `clean_shown`: these mark every byte unambiguously;
- `renderLines_exact`: the rows that are drawn.
-/
import MarkVeil.Proofs.Editor.Update
import MarkVeil.Proofs.Viewer.Marks

namespace MarkVeil.Viewer

open MarkVeil.Text
open MarkVeil.Decoration (Kind Range Reader ofTree_nonempty ofTree_places resolve_disjoint)
open MarkVeil.Editor (Groups Host Options Selection shown mem_shown nodup_shown not_selected update_allowed)

variable {read : Reader} {o : Options} {h : Host} {v : View} {g : Groups} {k : Kind} {e : Extent} {n p : Nat}
  {s l : List Char}

/-! ## The view after an update -/

/-- calls for some kinds leave the other kinds as they are -/
theorem foldl_apply (f : Kind → List Extent) (k : Kind) (ks : List Kind) (v : View) :
    ((k :: ks).map fun k => (k, f k)).foldl View.apply v =
      { v with applied := Groups.ofFun fun j => if j ∈ k :: ks then f j else v.applied.get j } := by
  induction ks generalizing k v with
  | nil =>
    simp only [List.map_cons, List.map_nil, List.foldl_cons, List.foldl_nil, View.apply, Groups.set,
      List.mem_singleton]
    congr
    funext j
    by_cases hj : j = k <;> simp [hj]
  | cons j ks ih =>
    rw [List.map_cons, List.foldl_cons, ih]
    simp only [View.apply, Groups.get_set]
    congr
    funext i
    by_cases hi : i ∈ j :: ks
    · simp [hi]
    · by_cases hk : i = k <;> simp [hi, hk]

/-- **An update applies the ranges that are shown**, whatever was applied before. -/
theorem update_eq (hlines : v.lines = LineIndex.ofText v.text) (hlang : o.appliesTo "markdown" = true) :
    v.update o read = (some (Groups.ofFun (shown o v.host · read)),
      { v with applied := Groups.ofFun (shown o v.host · read) }) := by
  have hpos : v.host.position = (LineIndex.ofText v.host.text).position := congrArg LineIndex.position hlines
  rw [View.update, update_allowed hpos hlang]
  have hall : Kind.all = .hide :: Kind.all.tail := rfl
  simp only [Prod.mk.injEq, true_and]
  rw [hall, foldl_apply, ← hall]
  simp only [Kind.mem_all, if_true]

/-- what is shown of a document marks its bytes unambiguously -/
theorem clean_shown (read : Reader) (o : Options) (h : Host) : Clean h.text (Groups.ofFun (shown o h · read)) where
  entries := by simpa using Groups.entries_ofFun (shown o h · read)
  nonempty := by
    intro k e he
    obtain ⟨r, hr, -, -, rfl⟩ := mem_shown.1 (Groups.get_ofFun _ k ▸ he)
    exact ofTree_nonempty hr
  places := by
    intro k e he
    obtain ⟨r, hr, -, -, rfl⟩ := mem_shown.1 (Groups.get_ofFun _ k ▸ he)
    exact ofTree_places hr
  alone := by
    intro k hk e he j f hf p hep hfp
    obtain ⟨r, hr, hrk, -, rfl⟩ := mem_shown.1 (Groups.get_ofFun _ k ▸ he)
    obtain ⟨x, hx, hxj, -, rfl⟩ := mem_shown.1 (Groups.get_ofFun _ j ▸ hf)
    -- ranges of which one is styled share no byte unless they are the same range
    by_contra hne
    have hrx : r ≠ x := fun heq => hne ⟨by rw [← hxj, ← heq, hrk], by rw [heq]⟩
    have hsymm : Std.Symm fun a b : Range => a.kind ≠ .hide ∨ b.kind ≠ .hide → a.Apart b :=
      ⟨fun a b hab hk => (hab hk.symm).symm⟩
    rcases (resolve_disjoint _ _).forall hr hx hrx (Or.inl (hrk ▸ hk)) with hle | hle
    · exact absurd (hep.2.trans_le (hle.trans hfp.1)) (lt_irrefl _)
    · exact absurd (hfp.2.trans_le (hle.trans hep.1)) (lt_irrefl _)

/-! ## Styles of bytes -/

theorem styleAt_of_styledAs (h : Clean s g) (hk : StyledAs g k p) : styleAt g p = Style.ofKind k := by
  rw [styleAt, kindAt?_of_styledAs h hk]
  rfl

theorem styleAt_plain (h : ∀ k, ¬ StyledAs g k p) : styleAt g p = Style.plain := by
  rw [styleAt, kindAt?_eq_none h]
  rfl

theorem style?_markAt (g : Groups) (p : Nat) :
    (markAt g p).style? = if Hidden g p then none else some (styleAt g p) := by
  rw [markAt, styleAt]
  split_ifs
  · rfl
  · cases kindAt? g p <;> rfl

/-- characters with the marks of their bytes, drawn: those not hidden, in their styles -/
theorem cellsOf_markAt (g : Groups) (cs : List (Nat × Char)) :
    cellsOf (markAt g) cs = (cs.filter fun c => ¬ Hidden g c.1).map fun c => (c.2, styleAt g c.1) := by
  induction cs with
  | nil => rfl
  | cons c cs ih =>
    rw [cellsOf] at ih ⊢
    by_cases hc : Hidden g c.1
    · rw [List.filterMap_cons_none (by simp [style?_markAt, hc]), ih, List.filter_cons_of_neg (by simpa using hc)]
    · rw [List.filterMap_cons_some (by rw [style?_markAt, if_neg hc]; rfl), ih,
        List.filter_cons_of_pos (by simpa using hc), List.map_cons]

/-- the text of spans is that of their cells -/
theorem map_fst_cells (spans : List Span) : (cells spans).map Prod.fst = spans.flatMap Span.text := by
  simp [cells, List.map_flatMap, Function.comp_def]

/-! ## Rows -/

/-- the row of the line number `i` with the content `l` that begins at `start` -/
structure Row (v : View) (i start : Nat) (l : List Char) (row : List Span) : Prop where
  /-- a row is its gutter and spans whose text is the line without what is hidden, in order -/
  visible : ∃ spans, row = View.gutter (i == v.cursor) :: spans ∧
    spans.flatMap Span.text = ((located start l).filter fun c => ¬ Hidden v.applied c.1).map Prod.snd ∧
    cells spans = ((located start l).filter fun c => ¬ Hidden v.applied c.1).map fun c => (c.2, styleAt v.applied c.1)
  /-- the line of the cursor is drawn as it is written -/
  raw : i = v.cursor → row = View.gutter true :: if l = [] then [] else [⟨l, Style.plain⟩]

/-- the characters of a line carry the marks of their bytes -/
theorem mark_located {v : View} (h : Clean v.text v.applied) (hl : slice? v.text e.start e.stop = some l)
    {c : Nat × Char} (hc : c ∈ located e.start l) :
    (v.marks[c.1]?).getD .plain = markAt v.applied c.1 ∧ e.Has c.1 := by
  obtain ⟨a, b, rfl, hp⟩ := mem_located hc
  obtain ⟨x, y, hs, hx, hstop⟩ := slice?_eq_some.1 hl
  have hsize := c.2.utf8Size_pos
  have hlen := congrArg byteLen hs
  simp only [byteLen_append, byteLen_cons] at hstop hlen
  rw [getElem?_marks h (by omega)]
  exact ⟨rfl, by omega, by omega⟩

theorem row_renderLines (h : Clean v.text v.applied) (hlines : v.lines = LineIndex.ofText v.text)
    (hcursor : ∀ p, (LineIndex.ofText v.text).lineOf p = v.cursor → ∀ k, ∀ e ∈ v.applied.get k, ¬ e.Has p)
    (he : v.lines.extent? n = some e) (hl : slice? v.text e.start e.stop = some l) :
    ∃ row, v.renderLines[n]? = some row ∧ Row v n e.start l row := by
  have hmark : ∀ c ∈ located e.start l, (v.marks[c.1]?).getD .plain = markAt v.applied c.1 := fun c hc =>
    (mark_located h hl hc).1
  refine ⟨View.gutter (n == v.cursor) :: View.lineSpans v.text e v.marks, ?_, ?_, ?_⟩
  · rw [View.renderLines, List.getElem?_mapIdx, ← LineIndex.extent?, he]
    rfl
  · have hcells : cells (View.lineSpans v.text e v.marks) = ((located e.start l).filter fun c =>
        ¬ Hidden v.applied c.1).map fun c => (c.2, styleAt v.applied c.1) := by
      rw [cells_lineSpans hl, ← cellsOf_markAt]
      exact List.filterMap_congr fun c hc => by simp only [hmark c hc]
    refine ⟨_, rfl, ?_, hcells⟩
    rw [← map_fst_cells, hcells, List.map_map]
    rfl
  · rintro rfl
    -- nothing is applied to the bytes of this line
    have hplain : ∀ c ∈ located e.start l, (v.marks[c.1]?).getD .plain = .plain := by
      intro c hc
      have hin := (mark_located h hl hc).2
      have hnone := hcursor c.1 (LineIndex.lineOf_of_extent? (hlines ▸ he) hin.1 hin.2.le)
      have hshown : ¬ Hidden v.applied c.1 := by
        rintro ⟨e, he, hp⟩
        exact hnone .hide e he hp
      have hplain : ∀ k, ¬ StyledAs v.applied k c.1 := by
        rintro k ⟨-, e, he, hp⟩
        exact hnone k e he hp
      rw [hmark c hc, markAt, if_neg hshown, kindAt?_eq_none hplain]
      rfl
    rw [View.lineSpans, hl, Option.getD_some, runs_plain hplain, beq_self_eq_true]

/-- what is drawn of a document: its rows, and the stretches that say how -/
structure Draws (v : View) : Prop where
  count : v.renderLines.length = v.lines.count
  rows : ∀ i < v.lines.count, ∃ e l row, v.lines.extent? i = some e ∧ slice? v.text e.start e.stop = some l ∧
    v.renderLines[i]? = some row ∧ Row v i e.start l row
  /-- no stretch cuts a character -/
  places : ∀ k, ∀ e ∈ v.applied.get k, IsPlace v.text e.start ∧ IsPlace v.text e.stop
  /-- a byte of a styled stretch is in no other stretch -/
  alone : ∀ k, k ≠ .hide → ∀ e ∈ v.applied.get k, ∀ j, ∀ f ∈ v.applied.get j, ∀ p, e.Has p → f.Has p → j = k ∧ f = e
  /-- no stretch comes twice -/
  once : ∀ k, (v.applied.get k).Nodup
  /-- a byte that is not hidden has the style of the stretch that has it -/
  styled : ∀ k p, StyledAs v.applied k p → ¬ Hidden v.applied p ∧ styleAt v.applied p = Style.ofKind k
  unstyled : ∀ p, (∀ k, ¬ StyledAs v.applied k p) → styleAt v.applied p = Style.plain
  /-- all bytes of a character carry one mark -/
  whole : ∀ a c b, v.text = a ++ c :: b → ∀ i < c.utf8Size,
    v.marks[byteLen a + i]? = some (markAt v.applied (byteLen a))

/-- **Every line of a decorated document is drawn as its characters that are not hidden, each in the style of the one
stretch that has it, and the line of the cursor as it is written**, by whatever reader of tokens it is decorated. -/
theorem renderLines_exact (read : Reader) (o : Options) (v : View) (hlines : v.lines = LineIndex.ofText v.text)
    (hlang : o.appliesTo "markdown" = true) (hreveal : o.revealSelectedLines = true) :
    (v.update o read).2 = { v with applied := Groups.ofFun (shown o v.host · read) } ∧ Draws (v.update o read).2 := by
  rw [update_eq hlines hlang]
  refine ⟨rfl, ?_⟩
  have hclean : Clean v.text (Groups.ofFun (shown o v.host · read)) := clean_shown read o v.host
  have hcursor : ∀ p, (LineIndex.ofText v.text).lineOf p = v.cursor → ∀ k,
      ∀ e ∈ (Groups.ofFun (shown o v.host · read)).get k, ¬ e.Has p := by
    intro p hp k e he hin
    rw [Groups.get_ofFun] at he
    refine not_selected hreveal he hin (List.mem_singleton.2 rfl) ?_
    simp [View.host, Selection.line, Selection.between, hp]
  constructor
  · simp [View.renderLines, LineIndex.count]
  · intro i hi
    obtain ⟨e, he⟩ : ∃ e, v.lines.extent? i = some e := ⟨v.lines.lines[i], List.getElem?_eq_getElem hi⟩
    obtain ⟨b, l, a, hs, -, rfl⟩ := LineIndex.extent?_eq_some.1 (hlines ▸ he)
    have hl : slice? v.text (byteLen b) (byteLen b + byteLen l) = some l := hs ▸ slice?_append b l a
    obtain ⟨row, hrow⟩ := row_renderLines (v := { v with applied := Groups.ofFun (shown o v.host · read) }) hclean hlines
      hcursor he hl
    exact ⟨_, l, row, he, hl, hrow⟩
  · exact hclean.places
  · exact hclean.alone
  · intro k
    rw [Groups.get_ofFun]
    exact nodup_shown read o v.host k
  · exact fun k p hk => ⟨not_hidden_of_styledAs hclean hk, styleAt_of_styledAs hclean hk⟩
  · exact fun p hp => styleAt_plain hp
  · intro a c b hs i hi
    have hlen : byteLen a + i < byteLen v.text := by
      rw [hs, byteLen_append, byteLen_cons]
      omega
    rw [getElem?_marks (v := { v with applied := Groups.ofFun (shown o v.host · read) }) hclean hlen,
      markAt_character hclean hs hi]

/-- with the cursor on the first line, the heading is drawn as it is written and the bold text without its markers -/
theorem renderLines_exact_two_lines :
    let v := View.ofText "a.md" "# T
**b** é".toList
    v.lines = LineIndex.ofText v.text ∧ Options.default.appliesTo "markdown" = true ∧
      Options.default.revealSelectedLines = true ∧ Draws (v.update Options.default).2 ∧
      (v.update Options.default).2.renderLines =
        [[View.gutter true, ⟨"# T".toList, Style.plain⟩],
         [View.gutter false, ⟨['b'], Style.ofKind .bold⟩, ⟨" é".toList, Style.plain⟩]] := by
  intro v
  have hlang : Options.default.appliesTo "markdown" = true := by decide +kernel
  exact ⟨rfl, hlang, rfl, (renderLines_exact Token.parse Options.default v rfl hlang rfl).2, by decide +kernel⟩

end MarkVeil.Viewer

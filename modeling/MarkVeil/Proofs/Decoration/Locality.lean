/-
Decorations depend on their own lines only.

Text that begins a line and is closed carries its searches into every text around it (`carries_inside`): a search on
its lines stays inside them, and a run of backticks that only the longer text has is behind them. So the lines of a
tree decide its decorations (`ofTree_inside`), and where these lines stand in two texts the ranges differ by a constant
(`ofTree_local`).
-/
import MarkVeil.Proofs.Decoration.CarriedTree
import MarkVeil.Proofs.Decoration.Moved
import MarkVeil.Proofs.Marker.CodeSpan

namespace MarkVeil.Text

open MarkVeil.Marker

/-- the move into a text behind `before` -/
def Move.behind (before : List Char) : Move := ⟨(byteLen before + ·), before.count '\n'⟩

/-- number of lines of a stretch of text; the empty line behind a last line feed is not its own -/
def ownLines (s : List Char) : Nat := if s.getLast? = some '\n' then s.count '\n' else s.count '\n' + 1

/-- the lines of a stretch of text, and any needle -/
def Scope.ownLines (s : List Char) : Scope := ⟨fun line? => ∃ i, line? = some i ∧ i < Text.ownLines s, fun _ => True⟩

variable {before s after b l a : List Char} {i p start stop run : Nat}

/-! ## Lines -/

theorem lt_ownLines_le (h : i < ownLines s) : i ≤ s.count '\n' := by
  unfold ownLines at h
  split_ifs at h <;> omega

/-- a line of its own has its line end in the text, or nothing follows the text -/
theorem LineAt.closed (h : LineAt i b l []) (hi : i < ownLines (b ++ l)) (hclosed : Closed (b ++ l) after) :
    after = [] := by
  rcases hclosed with hlast | hnil
  · have hcount : (b ++ l).count '\n' = i := by
      rw [List.count_append, List.count_eq_zero.2 h.noFeed, h.number, Nat.add_zero]
    rw [ownLines, if_pos hlast, hcount] at hi
    exact absurd hi (Nat.lt_irrefl i)
  · exact hnil

/-- a line of its own is a line of every text around it -/
theorem LineAt.inside (h : LineAt i b l a) (hi : i < ownLines (b ++ l ++ a)) (hclosed : Closed (b ++ l ++ a) after)
    (hbefore : BeginsLine before) : LineAt (before.count '\n' + i) (before ++ b) l (a ++ after) := by
  refine ⟨by rw [List.count_append, h.number], ?_, h.noFeed, ?_⟩
  · rcases h.begins with rfl | hb
    · rwa [List.append_nil]
    · exact Or.inr (by rw [List.getLast?_append_of_ne_nil _ (by rintro rfl; simp at hb), hb])
  · rcases h.ends with rfl | ⟨ha, hl⟩ | ⟨t, rfl⟩
    · rw [List.append_nil] at hi hclosed
      exact Or.inl (h.closed hi hclosed)
    · refine Or.inr (Or.inl ⟨?_, hl⟩)
      obtain ⟨t, rfl⟩ := List.head?_eq_some_iff.1 ha
      rfl
    · exact Or.inr (Or.inr ⟨t ++ after, rfl⟩)

section

variable (hbefore : BeginsLine before) (hclosed : Closed s after)
include hbefore hclosed

/-- a line of its own, there and here -/
theorem exists_lineAt_inside (hi : i < ownLines s) : ∃ b l a, s = b ++ l ++ a ∧ LineAt i b l a ∧
    LineAt (before.count '\n' + i) (before ++ b) l (a ++ after) := by
  obtain ⟨b, l, a, rfl, hl⟩ := exists_lineAt s (lt_ownLines_le hi)
  exact ⟨b, l, a, rfl, hl, hl.inside hi hclosed hbefore⟩

theorem extent?_inside (hi : i < ownLines s) :
    (LineIndex.ofText (before ++ s ++ after)).extent? (before.count '\n' + i) =
      ((LineIndex.ofText s).extent? i).map (Move.behind before).extent := by
  obtain ⟨b, l, a, rfl, hl, hl'⟩ := exists_lineAt_inside hbefore hclosed hi
  have htext : before ++ (b ++ l ++ a) ++ after = before ++ b ++ l ++ (a ++ after) := by simp
  rw [LineIndex.extent?_of_lineAt hl, htext, LineIndex.extent?_of_lineAt hl', byteLen_append, Option.map_some]
  simp only [Move.extent, Move.behind, Nat.add_assoc]

theorem lineText?_inside (hi : i < ownLines s) :
    (Source.ofText (before ++ s ++ after)).lineText? (before.count '\n' + i) = (Source.ofText s).lineText? i := by
  obtain ⟨b, l, a, rfl, hl, hl'⟩ := exists_lineAt_inside hbefore hclosed hi
  have htext : before ++ (b ++ l ++ a) ++ after = before ++ b ++ l ++ (a ++ after) := by simp
  have hhere : (Source.ofText (b ++ l ++ a)).lineText? i = some l :=
    LineIndex.text?_eq_some.2 ⟨_, LineIndex.extent?_of_lineAt hl, slice?_append b l a, rfl⟩
  rw [hhere, htext]
  exact LineIndex.text?_eq_some.2 ⟨_, LineIndex.extent?_of_lineAt hl', slice?_append _ l _, rfl⟩

end

/-- a place is on as many lines further on -/
theorem lineOf_inside (h : IsPlace s p) :
    (LineIndex.ofText (before ++ s ++ after)).lineOf (byteLen before + p) =
      before.count '\n' + (LineIndex.ofText s).lineOf p := by
  obtain ⟨a, b, rfl, rfl⟩ := h
  have htext : before ++ (a ++ b) ++ after = (before ++ a) ++ (b ++ after) := by simp
  rw [htext, ← byteLen_append, LineIndex.lineOf_append, LineIndex.lineOf_append, List.count_append]

/-! ## Runs of backticks -/

section

variable (hclosed : Closed s after)
include hclosed

theorem runOn_inside (hi : i < ownLines s) :
    ((findRun? (before ++ s ++ after) (byteLen before + start) run).filter fun p =>
        (LineIndex.ofText (before ++ s ++ after)).lineOf p == before.count '\n' + i) =
      ((findRun? s start run).filter fun p => (LineIndex.ofText s).lineOf p == i).map (byteLen before + ·) := by
  obtain ⟨hfound, hbehind⟩ := findRun?_inside hclosed before start run
  cases hrun : findRun? s start run with
  | some p =>
    have hplace := (IsPlace.of_slice (findRun?_sound hrun).1).1
    have hline : ((LineIndex.ofText (before ++ s ++ after)).lineOf (byteLen before + p) == before.count '\n' + i) =
        ((LineIndex.ofText s).lineOf p == i) := by
      rw [lineOf_inside hplace, Bool.eq_iff_iff, beq_iff_eq, beq_iff_eq, Nat.add_left_cancel_iff]
    rw [hfound p hrun, Option.filter_some, Option.filter_some, hline]
    split_ifs <;> rfl
  | none =>
    rw [Option.filter_none, Option.map_none, Option.filter_eq_none_iff]
    intro q hq hline
    have hpast := hbehind q hrun hq
    rw [beq_iff_eq] at hline
    rcases hclosed with hlast | rfl
    · -- behind the text there are no lines of its own
      have hmono := LineIndex.lineOf_mono (LineIndex.ofText (before ++ s ++ after)) hpast
      rw [← byteLen_append, LineIndex.lineOf_append, List.count_append, hline] at hmono
      rw [ownLines, if_pos hlast] at hi
      omega
    · have hstop := (IsPlace.of_slice (findRun?_sound hq).1).2.le
      have hpos := findRun?_pos hq
      simp only [List.append_nil, byteLen_append] at hstop
      omega

theorem runTo_inside (hstop : stop ≤ byteLen s) :
    ((findRun? (before ++ s ++ after) (byteLen before + start) run).filter fun p => p + run ≤ byteLen before + stop) =
      ((findRun? s start run).filter fun p => p + run ≤ stop).map (byteLen before + ·) := by
  obtain ⟨hfound, hbehind⟩ := findRun?_inside hclosed before start run
  cases hrun : findRun? s start run with
  | some p =>
    rw [hfound p hrun, Option.filter_some, Option.filter_some]
    simp only [Nat.add_assoc, Nat.add_le_add_iff_left]
    split_ifs <;> rfl
  | none =>
    rw [Option.filter_none, Option.map_none, Option.filter_eq_none_iff]
    intro q hq hend
    have hpast := hbehind q hrun hq
    have hpos := findRun?_pos hq
    rw [decide_eq_true_eq] at hend
    omega

end

theorem stop_le_of_stops (h : (Scope.ownLines s).Stops s stop) : stop ≤ byteLen s := by
  rcases h with ⟨i, -, hstop⟩ | ⟨⟨i, hnone, -⟩, -⟩
  · obtain ⟨e, he, rfl⟩ := Option.map_eq_some_iff.1 hstop
    exact (Source.isPlace_of_extent? he).2.le
  · simp at hnone

/-- **Every closed text that begins a line is carried by the texts around it.** -/
theorem carries_inside (hbefore : BeginsLine before) (hclosed : Closed s after) :
    Carries (.behind before) (.ownLines s) s (before ++ s ++ after) where
  mono _ _ h := Nat.add_lt_add_left h _
  plain _ _ := trivial
  earlier := by
    rintro i j ⟨k, hk, hlt⟩ hji
    obtain rfl := Option.some.inj hk
    exact ⟨j, rfl, hji.trans_lt hlt⟩
  missing := by
    rintro i ⟨k, hk, hlt⟩ hnone
    obtain rfl := Option.some.inj hk
    obtain ⟨b, l, a, rfl, hl⟩ := exists_lineAt s (lt_ownLines_le hlt)
    have hextent := LineIndex.extent?_of_lineAt hl
    exact absurd (hnone.symm.trans hextent) (by simp)
  extent := by
    rintro i ⟨k, hk, hlt⟩
    obtain rfl := Option.some.inj hk
    exact extent?_inside hbefore hclosed hlt
  text := by
    rintro i ⟨k, hk, hlt⟩
    obtain rfl := Option.some.inj hk
    exact lineText?_inside hbefore hclosed hlt
  onLine _ _ _ := (Nat.add_assoc _ _ _).symm
  onNeedle _ _ := (Nat.add_assoc _ _ _).symm
  whole := by
    rintro ⟨k, hk, -⟩
    simp at hk
  between := by
    intro x start stop _ _ hstop
    rw [Source.findBetween?, Source.findBetween?]
    change ((slice? (before ++ s ++ after) (byteLen before + start) (byteLen before + stop)).bind _) =
      ((slice? s start stop).bind _).map _
    rw [slice?_inside (stop_le_of_stops hstop)]
    cases slice? s start stop with
    | none => rfl
    | some between =>
      rw [Option.bind_some, Option.bind_some, Option.map_map]
      refine congrArg (Option.map · _) (funext fun k => ?_)
      exact Nat.add_assoc _ _ _
  before := by
    rintro content x ⟨k, hk, -⟩
    simp at hk
  after := by
    rintro content x ⟨k, hk, -⟩
    simp at hk
  ticksOn := by
    rintro i start run ⟨k, hk, hlt⟩
    obtain rfl := Option.some.inj hk
    exact runOn_inside hclosed hlt
  ticksTo hstop := runTo_inside hclosed (stop_le_of_stops hstop)

end MarkVeil.Text

namespace MarkVeil.Decoration

open MarkVeil.Text
open MarkVeil.Marker (Closed)
open MarkVeil.Token (Node)

/-- a token names some of the first lines, and a fence also the line behind its own -/
def NamesLines (lines : Nat) (n : Node) : Prop :=
  ∃ span ∈ n.span?, span.start < span.stop ∧ span.stop ≤ lines ∧ (n.kind = .fence → span.stop < lines)

variable {before before₁ before₂ s after after₁ after₂ : List Char} {n root : Node}

theorem NamesLines.named (h : NamesLines (ownLines s) n) : Token.Named (.ownLines s) n := by
  obtain ⟨span, hspan, hlt, hle, hfence⟩ := h
  have hspan : n.span? = some span := hspan
  refine ⟨?_, ?_, trivial, fun _ => trivial, ?_⟩
  · exact ⟨span.start, by rw [hspan, Option.map_some], by omega⟩
  · refine ⟨span.last, by rw [hspan, Option.map_some], ?_⟩
    rw [LineSpan.last]
    omega
  · intro hk
    exact ⟨span.stop, by rw [hspan, Option.map_some], hfence hk⟩

/-- **The lines that a tree names decide its decorations**, whatever stands before and after them. -/
theorem ofTree_inside (hbefore : BeginsLine before) (hclosed : Closed s after)
    (hroot : ∀ n ∈ root.preorder, n.kind.isPlaced = true → NamesLines (ownLines s) n) :
    ofTree (.ofText (before ++ s ++ after)) (root.move (.behind before)) =
      (ofTree (.ofText s) root).map (·.move (.behind before)) := by
  have hcarries := carries_inside hbefore hclosed
  have hcollect := collect_carried hcarries root fun n hn hk => (hroot n hn hk).named
  have hfits : ∀ r ∈ collect (.ofText s) root,
      (r.move (.behind before)).fits (byteLen (before ++ s ++ after)) = r.fits (byteLen s) := by
    intro r hr
    have hstop := (collect_drawn s root r hr).stop.le
    rw [Bool.eq_iff_iff, fits_iff, fits_iff]
    simp only [Range.move, Move.behind, byteLen_append]
    omega
  have horder : KeepsOrder (.behind before) (collect (.ofText s) root) := by
    intro a _ b _ _ _ _
    simp only [Range.len, Range.move, Move.behind, Nat.add_sub_add_left]
  rw [ofTree, hcollect, ofTree]
  exact resolve_move hcarries.mono horder hfits

/-- **Decorations are local**: where the same lines stand in two texts, the tree that names them gives the same ranges
there, as far apart as the lines are. -/
theorem ofTree_local (hbefore₁ : BeginsLine before₁) (hbefore₂ : BeginsLine before₂)
    (hclosed : s.getLast? = some '\n' ∨ after₁ = [] ∧ after₂ = [])
    (hroot : ∀ n ∈ root.preorder, n.kind.isPlaced = true → NamesLines (ownLines s) n) :
    (ofTree (.ofText (before₁ ++ s ++ after₁)) (root.move (.behind before₁))).map (·.move (.behind before₂)) =
      (ofTree (.ofText (before₂ ++ s ++ after₂)) (root.move (.behind before₂))).map (·.move (.behind before₁)) := by
  have hclosed₁ : Closed s after₁ := hclosed.imp_right And.left
  have hclosed₂ : Closed s after₂ := hclosed.imp_right And.right
  rw [ofTree_inside hbefore₁ hclosed₁ hroot, ofTree_inside hbefore₂ hclosed₂ hroot, List.map_map, List.map_map]
  refine congrArg (List.map · _) (funext fun r => ?_)
  simp only [Function.comp_apply, Range.move, Move.behind, Nat.add_left_comm]

/-- the tokens of a heading on the first line whose content is one text -/
def headingTree (content : String) : Node :=
  { kind := .document
    children := [
      { kind := .headingOpen, span? := some (.line 0), markup := "#", tag := "h1" },
      { kind := .inline, span? := some (.line 0), children := [
          { kind := .text, span? := some (.line 0), content? := some content }] },
      { kind := .headingClose, span? := some (.line 0), markup := "#", tag := "h1" }] }

/-- a heading before a line and the same heading between two lines -/
theorem ofTree_local_heading :
    BeginsLine [] ∧ BeginsLine ['a', '\n'] ∧ (['#', ' ', 'b', '\n'].getLast? = some '\n' ∨ ['#'] = [] ∧ ['c'] = []) ∧
      (∀ n ∈ (headingTree "b").preorder, n.kind.isPlaced = true → NamesLines (ownLines ['#', ' ', 'b', '\n']) n) ∧
      ofTree (.ofText "# b\n#".toList) ((headingTree "b").move (.behind [])) = [.hide 0 1, .styled 2 3 .heading1] ∧
      ofTree (.ofText "a\n# b\nc".toList) ((headingTree "b").move (.behind ['a', '\n'])) =
        [.hide 2 3, .styled 4 5 .heading1] ∧
      (ofTree (.ofText ([] ++ ['#', ' ', 'b', '\n'] ++ ['#'])) ((headingTree "b").move (.behind []))).map
          (·.move (.behind ['a', '\n'])) =
        (ofTree (.ofText (['a', '\n'] ++ ['#', ' ', 'b', '\n'] ++ ['c']))
          ((headingTree "b").move (.behind ['a', '\n']))).map (·.move (.behind [])) := by
  have hlines : ∀ n ∈ (headingTree "b").preorder,
      n.kind.isPlaced = true → NamesLines (ownLines ['#', ' ', 'b', '\n']) n := by
    simp [headingTree, Node.preorder, Node.preorderAll, NamesLines, LineSpan.line, LineSpan.ofLines,
      Token.Kind.isPlaced, Token.Kind.isInline, ownLines]
  exact ⟨Or.inl rfl, Or.inr rfl, Or.inl rfl, hlines, by decide +kernel, by decide +kernel,
    ofTree_local (Or.inl rfl) (Or.inr rfl) (Or.inl rfl) hlines⟩

end MarkVeil.Decoration

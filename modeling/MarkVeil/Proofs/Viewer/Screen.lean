/-
Where a screen shows the line of the cursor.

A view scrolls until its cursor is among the lines of the panel (`follow_scroll`), and the panel draws as many lines as
fit from the line it is scrolled to, each behind its gutter (`panel_line`). But a panel scrolls no farther than
`maxScroll`. Main results:
- `draw_cursor`: the line of the cursor is drawn in its row exactly if the view is not scrolled past that;
- `draw_cursor_lost`: in a document with a line feed more it is not drawn.
-/
import MarkVeil.Proofs.Text.Lines
import MarkVeil.Viewer.Screen

namespace MarkVeil.Viewer.View

open MarkVeil.Text

variable {v : View} {width height first count n : Nat} {s : List Char} {c : Char}

/-! ## Scrolling -/

/-- to scroll changes nothing else -/
theorem follow_eq (height : Nat) (v : View) : v.follow height = { v with scroll := (v.follow height).scroll } := by
  unfold follow
  split_ifs <;> rfl

/-- **A view scrolls until its cursor is among the lines that fit.** -/
theorem follow_scroll (v : View) (hheight : 0 < height) :
    (v.follow height).scroll ≤ v.cursor ∧ v.cursor < (v.follow height).scroll + height := by
  unfold follow
  split_ifs with habove hbelow
  · exact ⟨le_rfl, Nat.lt_add_of_pos_right hheight⟩
  · refine ⟨?_, ?_⟩ <;> simp only <;> omega
  · refine ⟨by omega, by omega⟩

/-- a line fits a screen of four rows -/
theorem panelLines_pos (hheight : 4 ≤ height) : 0 < panelLines height := by
  unfold panelLines
  omega

/-! ## Rows of the panel -/

/-- the lines drawn from one on are those of the whole document from there on -/
theorem renderFrom_eq (v : View) (first count : Nat) :
    v.renderFrom first count = (v.renderLines.drop first).take count := by
  rw [renderFrom, renderLines, List.mapIdx_eq_zipIdx_map, ← List.map_drop, ← List.map_take]

/-- what a gutter begins with -/
def mark (atCursor : Bool) : Char := if atCursor then '▶' else ' '

/-- a line is drawn behind its gutter -/
theorem exists_visible (v : View) (marks : List Mark) (n : Nat) (e : Extent) :
    ∃ rest, visible ((v.renderLine marks n e).flatMap (·.text)) = mark (n == v.cursor) :: rest := by
  rw [renderLine, List.flatMap_cons, gutter, mark]
  cases n == v.cursor with
  | true => exact ⟨_, rfl⟩
  | false => exact ⟨_, rfl⟩

theorem edged_cons (hwidth : 3 ≤ width) (left right fill c : Char) (s : List Char) :
    ∃ rest, edged left right fill width (c :: s) = left :: c :: rest := by
  obtain ⟨m, rfl⟩ := Nat.exists_eq_add_of_le' hwidth
  exact ⟨_, rfl⟩

/-- **The panel draws a line behind its left edge and its gutter**, as far as there are lines and rows for them. -/
theorem panel_line (v : View) (hwidth : 3 ≤ width) (hn : n + 2 < height)
    (hline : min v.scroll maxScroll + n < v.lines.count) :
    ∃ rest, (v.panel width height)[n + 1]? =
      some ('│' :: mark (min v.scroll maxScroll + n == v.cursor) :: rest) := by
  set first := min v.scroll maxScroll with hfirst
  obtain ⟨line, hvisible⟩ := v.exists_visible v.marks (first + n) (v.lines.lines[first + n])
  obtain ⟨rest, hrow⟩ := edged_cons hwidth '│' '│' ' ' (mark (first + n == v.cursor)) line
  have hrendered : (v.renderFrom first (height - 2))[n]? =
      some (v.renderLine v.marks (first + n) v.lines.lines[first + n]) := by
    rw [renderFrom_eq, List.getElem?_take_of_lt (by omega), List.getElem?_drop, renderLines, List.getElem?_mapIdx,
      List.getElem?_eq_getElem hline]
    rfl
  refine ⟨rest, ?_⟩
  rw [panel, List.getElem?_take_of_lt (by omega), List.getElem?_cons_succ,
    List.getElem?_append_left (by simp; omega), List.getElem?_map, List.getElem?_range (by omega)]
  simp only [Option.map_some, List.getElem?_map, ← hfirst, hrendered, hvisible, Option.getD_some, hrow]

/-! ## The line of the cursor -/

/-- the row of the screen for the line of the cursor, below the panel's upper edge -/
def cursorRow (v : View) : Nat := 1 + v.cursor - v.scroll

/-- the row for the line of the cursor is between the panel's edges, and begins behind the left one with the mark of
the cursor -/
def ShowsCursor (width height : Nat) (v : View) : Prop :=
  0 < (v.draw width height).1.cursorRow ∧ (v.draw width height).1.cursorRow + 2 < height ∧
    ∃ rest, (v.draw width height).2[(v.draw width height).1.cursorRow]? = some ('│' :: '▶' :: rest)

theorem mark_eq_iff {atCursor : Bool} : mark atCursor = '▶' ↔ atCursor = true := by
  cases atCursor <;> decide

/-- the row for the line of the cursor begins with a mark if the panel is scrolled to the same line as the view -/
theorem draw_row (v : View) (hcursor : v.cursor < v.lines.count) (hwidth : 3 ≤ width) (hheight : 4 ≤ height) :
    (0 < (v.draw width height).1.cursorRow ∧ (v.draw width height).1.cursorRow + 2 < height) ∧
      ∃ rest, (v.draw width height).2[(v.draw width height).1.cursorRow]? =
        some ('│' :: mark ((v.draw width height).1.scroll ≤ maxScroll) :: rest) := by
  obtain ⟨hscroll, hbelow⟩ := v.follow_scroll (panelLines_pos hheight)
  set u := v.follow (panelLines height) with hu
  have hsame : u.cursor = v.cursor ∧ u.lines = v.lines := by
    rw [hu, follow_eq]
    exact ⟨rfl, rfl⟩
  have hdraw : v.draw width height = (u, u.panel width (height - 1) ++ [fitRow ' ' width help]) := by
    rw [draw, if_neg (by omega), ← hu]
  rw [hdraw]
  simp only [cursorRow, hsame.1]
  unfold panelLines at hbelow
  refine ⟨by omega, ?_⟩
  have hfits : v.cursor - u.scroll + 2 < height - 1 := by omega
  have hline : min u.scroll maxScroll + (v.cursor - u.scroll) < u.lines.count := by
    rw [hsame.2]
    omega
  obtain ⟨rest, hrow⟩ := u.panel_line hwidth hfits hline
  have hindex : 1 + v.cursor - u.scroll = v.cursor - u.scroll + 1 := by omega
  have hmark : (min u.scroll maxScroll + (v.cursor - u.scroll) == u.cursor) = decide (u.scroll ≤ maxScroll) := by
    rw [Bool.eq_iff_iff, beq_iff_eq, decide_eq_true_iff, hsame.1]
    omega
  rw [hmark] at hrow
  rw [hindex, List.getElem?_append_left (List.getElem?_eq_some_iff.1 hrow).1]
  exact ⟨rest, hrow⟩

theorem showsCursor_iff (hcursor : v.cursor < v.lines.count) (hwidth : 3 ≤ width) (hheight : 4 ≤ height) :
    ShowsCursor width height v ↔ (v.draw width height).1.scroll ≤ maxScroll := by
  obtain ⟨⟨habove, hbelow⟩, rest, hrow⟩ := v.draw_row hcursor hwidth hheight
  rw [ShowsCursor, hrow]
  constructor
  · rintro ⟨-, -, rest', heq⟩
    have hmark := (List.cons.inj (List.cons.inj (Option.some.inj heq)).2).1
    exact of_decide_eq_true (mark_eq_iff.1 hmark)
  · intro hscroll
    exact ⟨habove, hbelow, rest, by rw [mark_eq_iff.2 (decide_eq_true hscroll)]⟩

/-- **The row for the line of the cursor is always inside the panel, and the line is drawn there exactly if the view is
scrolled no farther than a panel can be**, as it is in every document with no more lines than that. -/
theorem draw_cursor (v : View) (hcursor : v.cursor < v.lines.count) (hwidth : 3 ≤ width) (hheight : 4 ≤ height) :
    (0 < (v.draw width height).1.cursorRow ∧ (v.draw width height).1.cursorRow + 2 < height) ∧
      (ShowsCursor width height v ↔ (v.draw width height).1.scroll ≤ maxScroll) ∧
      (v.lines.count ≤ maxScroll + 1 → ShowsCursor width height v) := by
  refine ⟨(v.draw_row hcursor hwidth hheight).1, showsCursor_iff hcursor hwidth hheight, fun hcount => ?_⟩
  have hscroll := (v.follow_scroll (panelLines_pos hheight)).1
  refine (showsCursor_iff hcursor hwidth hheight).2 (hscroll.trans ?_)
  omega

/-- from a scroll behind its end, the last line of a document is shown -/
theorem draw_cursor_last_line :
    let v : View := { View.ofText "a.md" "a\nb\n**c**".toList with cursor := 2, scroll := 7 }
    v.cursor < v.lines.count ∧ 3 ≤ 8 ∧ 4 ≤ 5 ∧ v.lines.count ≤ maxScroll + 1 ∧ ShowsCursor 8 5 v ∧
      (v.draw 8 5).2 = ["┌ a.md ┐".toList, "│▶ **c*│".toList, "│      │".toList, "└──────┘".toList, "q: Quit ".toList] := by
  intro v
  have hcursor : v.cursor < v.lines.count := by decide
  have hcount : v.lines.count ≤ maxScroll + 1 := by decide
  exact ⟨hcursor, by decide, by decide, hcount, (draw_cursor v hcursor (by decide) (by decide)).2.2 hcount,
    by decide +kernel⟩

/-- **In a document with a line more than a panel can be scrolled by, the last line is not drawn** where the cursor is
on it: the row for it is that of the line before. -/
theorem draw_cursor_lost :
    let v : View := { View.ofText "a.md" (List.replicate 65536 '\n') with cursor := 65536 }
    v.cursor < v.lines.count ∧ (v.draw 3 4).1.scroll = 65536 ∧ ¬ ShowsCursor 3 4 v := by
  intro v
  have hcount : v.lines.count = 65537 := by
    have hfeeds := LineIndex.count_ofText (List.replicate 65536 '\n')
    rw [List.count_replicate_self] at hfeeds
    exact hfeeds
  have hcursor : v.cursor < v.lines.count := by
    rw [hcount]
    exact Nat.lt_succ_self _
  have hscroll : (v.draw 3 4).1.scroll = 65536 := rfl
  refine ⟨hcursor, hscroll, ?_⟩
  rw [showsCursor_iff hcursor le_rfl le_rfl, hscroll]
  decide

end MarkVeil.Viewer.View

/-
Written documents are read back.

A written text, truth value or array is read back as that value and leaves what follows it (`readValue?_text`,
`readValue?_boolean`, `readValue?_array`), and so is a line that gives a name a value (`readStatement?_line`). A
document of such lines with different names is read as the table of its names and values (`readTable?_lines`).
-/
import MarkVeil.Proofs.Toml.Text
import MarkVeil.Toml.Read
import MarkVeil.Toml.Value

namespace MarkVeil.Toml

variable {c : Char} {s t w rest : List Char} {depth fuel : Nat} {v : Value} {α : Type}

/-- texts that are not empty have no fewer characters together than they are -/
theorem length_le_flatMap {β : Type} (f : β → List Char) (hf : ∀ b, f b ≠ []) (bs : List β) :
    bs.length ≤ (bs.flatMap f).length := by
  induction bs with
  | nil => exact le_rfl
  | cons b bs ih =>
    have hpos := List.length_pos_iff.2 (hf b)
    rw [List.flatMap_cons, List.length_append, List.length_cons]
    omega

/-! ## Filler -/

/-- neither a blank nor a line end nor the start of a comment -/
def IsSolid (c : Char) : Prop := isGap c = false ∧ c ≠ '\n' ∧ c ≠ '\r' ∧ c ≠ '#'

instance (c : Char) : Decidable (IsSolid c) := inferInstanceAs (Decidable (_ ∧ _))

theorem skipFiller?_solid (h : IsSolid c) (s : List Char) : skipFiller? false (c :: s) = some (c :: s) := by
  obtain ⟨hgap, hn, hr, hc⟩ := h
  simp [skipFiller?, hgap, hn, not_isReturn hr, hc]

theorem skipFiller?_blank (h : isGap c = true ∨ c = '\n') (s : List Char) :
    skipFiller? false (c :: s) = skipFiller? false s := by
  rw [skipFiller?, if_pos (h.imp_right Or.inl)]

/-! ## Values -/

theorem exists_write (s : List Char) : ∃ c t, write s = c :: t ∧ (c = '"' ∨ c = '\'') := by
  unfold write
  split
  · exact ⟨_, _, rfl, Or.inl rfl⟩
  · exact ⟨_, _, rfl, Or.inr rfl⟩
  · exact ⟨_, _, rfl, Or.inl rfl⟩
  · exact ⟨_, _, rfl, Or.inr rfl⟩

theorem readValue?_text (depth : Nat) (hrest : NoQuote rest) (s : List Char) :
    readValue? depth (write s ++ rest) = some (.text s, rest) := by
  have hread := read?_write hrest s
  obtain ⟨c, t, hc, hquote⟩ := exists_write s
  have hsimple : readSimple? (write s ++ rest) = some (.text s, rest) := by
    rw [readSimple?, if_pos (by rcases hquote with rfl | rfl <;> simp [hc]), hread, Option.map_some]
  cases depth with
  | zero => exact hsimple
  | succ depth =>
    rw [hc, List.cons_append] at hsimple ⊢
    rcases hquote with rfl | rfl <;> exact hsimple

theorem readValue?_boolean (depth : Nat) (b : Bool) (rest : List Char) :
    readValue? depth (writeBoolean b ++ '\n' :: rest) = some (.boolean b, '\n' :: rest) := by
  cases depth <;> cases b <;> rfl

/-! ## Arrays -/

section

variable {item : List Char → Option (α × List Char)} {value : List Char → α}
  (hitem : ∀ s rest, NoQuote rest → item (write s ++ rest) = some (value s, rest))
include hitem

/-- an item, up to the comma or the bracket behind it -/
theorem readItems?_item (hc : c = ',' ∨ c = ']') (fuel : Nat) (s rest : List Char) :
    readItems? item ']' (fuel + 1) (write s ++ c :: rest) =
      if c = ']' then some ([value s], rest)
      else (readItems? item ']' fuel rest).map fun r => (value s :: r.1, r.2) := by
  have hquote : NoQuote (c :: rest) := by rcases hc with rfl | rfl <;> exact ⟨by simp, by simp⟩
  have hsolid : skipFiller? false (c :: rest) = some (c :: rest) :=
    skipFiller?_solid (by rcases hc with rfl | rfl <;> decide) rest
  have hread := hitem s (c :: rest) hquote
  obtain ⟨d, t, hd, hq⟩ := exists_write s
  have hfront : skipFiller? false (write s ++ c :: rest) = some (write s ++ c :: rest) := by
    rw [hd, List.cons_append]
    exact skipFiller?_solid (by rcases hq with rfl | rfl <;> decide) _
  have hhead : (write s ++ c :: rest).head? ≠ some ']' := by
    rw [hd]
    rcases hq with rfl | rfl <;> simp
  rw [readItems?, hfront, Option.bind_some, if_neg hhead, hread, Option.bind_some]
  simp only [hsolid, Option.bind_some]
  rcases hc with rfl | rfl <;> rfl

/-- items on lines of their own, from behind the line end before them -/
theorem readItems?_lines (fuel : Nat) (ss : List (List Char)) (rest : List Char) (hfuel : ss.length < fuel) :
    readItems? item ']' fuel ('\n' :: ((ss.map write).flatMap writeItemLine ++ ']' :: rest)) =
      some (ss.map value, rest) := by
  induction ss generalizing fuel with
  | nil =>
    obtain ⟨fuel, rfl⟩ := Nat.exists_eq_succ_of_ne_zero (Nat.ne_of_gt hfuel)
    rfl
  | cons s ss ih =>
    obtain ⟨fuel, rfl⟩ := Nat.exists_eq_succ_of_ne_zero (Nat.ne_of_gt (Nat.lt_of_le_of_lt (Nat.zero_le _) hfuel))
    have hskip : ∀ u, readItems? item ']' (fuel + 1) ('\n' :: ' ' :: ' ' :: ' ' :: ' ' :: u) =
        readItems? item ']' (fuel + 1) u := by
      intro u
      simp only [readItems?, skipFiller?_blank (Or.inr rfl), skipFiller?_blank (Or.inl rfl : isGap ' ' = true ∨ _)]
    have hline : (List.map write (s :: ss)).flatMap writeItemLine ++ ']' :: rest =
        ' ' :: ' ' :: ' ' :: ' ' ::
          (write s ++ ',' :: '\n' :: ((ss.map write).flatMap writeItemLine ++ ']' :: rest)) := by
      simp [writeItemLine]
    rw [hline, hskip, readItems?_item hitem (Or.inl rfl), if_neg (by decide), ih fuel (by simpa using hfuel)]
    rfl

end

/-- **A written array of texts is read back.** -/
theorem readValue?_array (depth : Nat) (ss : List (List Char)) (rest : List Char) :
    readValue? (depth + 1) (writeArray (ss.map write) ++ rest) = some (.array (ss.map .text), rest) := by
  have hitem : ∀ s rest, NoQuote rest → readValue? depth (write s ++ rest) = some (.text s, rest) :=
    fun s rest h => readValue?_text depth h s
  match ss with
  | [] => rfl
  | [s] =>
    have hone := readItems?_item hitem (Or.inr rfl) (write s ++ ']' :: rest).length s rest
    rw [if_pos rfl] at hone
    have htext : writeArray ([s].map write) ++ rest = '[' :: (write s ++ ']' :: rest) := by simp [writeArray]
    rw [htext, readValue?, hone]
    rfl
  | s :: s' :: ss =>
    have htext : writeArray ((s :: s' :: ss).map write) ++ rest =
        '[' :: '\n' :: (((s :: s' :: ss).map write).flatMap writeItemLine ++ ']' :: rest) := by
      simp [writeArray]
    have hlength := length_le_flatMap writeItemLine (by simp [writeItemLine]) ((s :: s' :: ss).map write)
    have hfuel : (s :: s' :: ss).length <
        ('\n' :: (((s :: s' :: ss).map write).flatMap writeItemLine ++ ']' :: rest)).length + 1 := by
      simp only [List.length_map, List.length_cons, List.length_append] at hlength ⊢
      omega
    rw [htext, readValue?, readItems?_lines hitem _ (s :: s' :: ss) rest hfuel]
    rfl

/-! ## Lines -/

/-- a line that gives a bare name a value, which reads back from in front of the line's end -/
structure Line where
  name : Key
  text : List Char
  value : Value
  nonempty : name ≠ []
  bare : ∀ c ∈ name, isKeyChar c = true
  solid : ∀ c ∈ text.head?, isGap c = false
  reads : ∀ rest, readValue? maxDepth (text ++ '\n' :: rest) = some (value, '\n' :: rest)

namespace Line

/-- a line begins with a part of its name -/
theorem exists_name (l : Line) : ∃ c name, l.name = c :: name ∧ isKeyChar c = true := by
  obtain ⟨c, name, hname⟩ := List.exists_cons_of_ne_nil l.nonempty
  exact ⟨c, name, hname, l.bare c (by rw [hname]; exact List.mem_cons_self)⟩

def written (l : Line) : List Char := writeAssignment l.name l.text

def assignment (l : Line) : Assignment := ⟨[l.name], l.value⟩

theorem written_eq (l : Line) (rest : List Char) :
    l.written ++ rest = l.name ++ ' ' :: '=' :: ' ' :: (l.text ++ '\n' :: rest) := by
  simp [written, writeAssignment]

theorem readPath?_name (l : Line) (fuel : Nat) (rest : List Char) :
    readPath? (fuel + 1) (l.name ++ ' ' :: '=' :: rest) = some ([l.name], '=' :: rest) := by
  have htake : (l.name ++ ' ' :: '=' :: rest).takeWhile isKeyChar = l.name := by
    rw [List.takeWhile_append_of_pos l.bare, List.takeWhile_cons_of_neg (by decide), List.append_nil]
  have hdrop : (l.name ++ ' ' :: '=' :: rest).dropWhile isKeyChar = ' ' :: '=' :: rest := by
    rw [List.dropWhile_append_of_pos l.bare, List.dropWhile_cons_of_neg (by decide)]
  have hkey : readKey? (l.name ++ ' ' :: '=' :: rest) = some (l.name, ' ' :: '=' :: rest) := by
    unfold readKey?
    rw [htake, hdrop]
    split
    next heq => exact absurd heq l.nonempty
    next => rfl
  rw [readPath?, hkey, Option.bind_some]
  rfl

/-- **A written line is read back** as its assignment. -/
theorem readStatement?_line (l : Line) (rest : List Char) :
    readStatement? (l.written ++ rest) = some (.assignment l.assignment, '\n' :: rest) := by
  obtain ⟨c, name, hname, hkey⟩ := l.exists_name
  have hbracket : c ≠ '[' := by
    rintro rfl
    exact absurd hkey (by decide)
  obtain ⟨fuel, hfuel⟩ : ∃ n, (l.written ++ rest).length = n + 1 := by
    rw [written_eq, hname]
    exact ⟨_, rfl⟩
  have hgap : skipGaps (' ' :: (l.text ++ '\n' :: rest)) = l.text ++ '\n' :: rest := by
    have hfront : (l.text ++ '\n' :: rest).dropWhile isGap = l.text ++ '\n' :: rest := by
      cases htext : l.text with
      | nil => rfl
      | cons d text =>
        have hd := l.solid d (by rw [htext]; rfl)
        rw [List.cons_append, List.dropWhile_cons_of_neg (by simp [hd])]
    rw [skipGaps, List.dropWhile_cons_of_pos rfl, hfront]
  have hread : readAssignment? (readValue? maxDepth) (l.written ++ rest) = some (l.assignment, '\n' :: rest) := by
    rw [readAssignment?, hfuel, written_eq, readPath?_name, Option.bind_some]
    simp only [after?, if_pos, Option.bind_some, hgap, l.reads]
    rfl
  rw [written_eq, hname, List.cons_append] at hread ⊢
  unfold readStatement?
  split
  next heq => exact absurd (List.cons.inj heq).1 hbracket
  next heq => exact absurd (List.cons.inj heq).1 hbracket
  next => rw [hread, Option.map_some]

end Line

/-! ## Documents -/

theorem readStatements?_lines (ls : List Line) (hfuel : ls.length < fuel) :
    readStatements? fuel (ls.flatMap Line.written) = some (ls.map fun l => .assignment l.assignment) := by
  induction ls generalizing fuel with
  | nil =>
    obtain ⟨fuel, rfl⟩ := Nat.exists_eq_succ_of_ne_zero (Nat.ne_of_gt hfuel)
    rfl
  | cons l ls ih =>
    obtain ⟨fuel, rfl⟩ := Nat.exists_eq_succ_of_ne_zero (Nat.ne_of_gt (Nat.lt_of_le_of_lt (Nat.zero_le _) hfuel))
    obtain ⟨c, name, hname, hkey⟩ := l.exists_name
    have hsolid : IsSolid c := by
      refine ⟨?_, ?_, ?_, ?_⟩
      · by_contra hgap
        rw [Bool.not_eq_false, isGap, Bool.or_eq_true, beq_iff_eq, beq_iff_eq] at hgap
        rcases hgap with rfl | rfl <;> exact absurd hkey (by decide)
      all_goals
        rintro rfl
        exact absurd hkey (by decide)
    have hfront : skipFiller? false (l.written ++ ls.flatMap Line.written) =
        some (l.written ++ ls.flatMap Line.written) := by
      rw [l.written_eq, hname, List.cons_append]
      exact skipFiller?_solid hsolid _
    have hne : (l.written ++ ls.flatMap Line.written).isEmpty = false := by
      rw [l.written_eq, hname]
      rfl
    have hend : endLine? false ('\n' :: ls.flatMap Line.written) = some (ls.flatMap Line.written) := rfl
    rw [List.flatMap_cons, readStatements?, hfront, Option.bind_some, hne, if_neg Bool.false_ne_true,
      l.readStatement?_line, Option.bind_some]
    simp only [hend, Option.bind_some, ih (by simpa using hfuel)]
    rfl

theorem ofStatements_assignments (as : List Assignment) :
    Document.ofStatements (as.map .assignment) = ⟨as, []⟩ := by
  induction as with
  | nil => rfl
  | cons a as ih => rw [List.map_cons, Document.ofStatements, ih]

namespace Entries

theorem assign?_name {k : Key} {es : Entries} (h : es.lookup k = none) (v : Value) :
    assign? es ⟨[k], v⟩ = some (es ++ [(k, v)]) := by
  simp [assign?, within?, insert?, h]

/-- names that are all different fill a table in order -/
theorem fill?_names (es : Entries) (ls : List Line) (hes : ∀ l ∈ ls, es.lookup l.name = none)
    (hls : (ls.map Line.name).Nodup) :
    fill? es (ls.map Line.assignment) = some (es ++ ls.map fun l => (l.name, l.value)) := by
  induction ls generalizing es with
  | nil => simp [fill?]
  | cons l ls ih =>
    obtain ⟨hl, hes⟩ := List.forall_mem_cons.1 hes
    obtain ⟨hfresh, hls⟩ := List.nodup_cons.1 hls
    have hnext : ∀ l' ∈ ls, (es ++ [(l.name, l.value)]).lookup l'.name = none := by
      intro l' hl'
      have hne : ¬ l'.name = l.name := by
        intro heq
        exact hfresh (heq ▸ List.mem_map_of_mem hl')
      rw [List.lookup_append, hes l' hl']
      simp [hne]
    rw [List.map_cons, fill?, Line.assignment, assign?_name hl, Option.bind_some, ih _ hnext hls, List.map_cons,
      List.append_assoc, List.singleton_append]

end Entries

/-- a text of lines is read as the document of their assignments -/
theorem ofText?_lines (ls : List Line) :
    Document.ofText? (ls.flatMap Line.written) = some ⟨ls.map Line.assignment, []⟩ := by
  have hmark : dropMark (ls.flatMap Line.written) = ls.flatMap Line.written := by
    cases ls with
    | nil => rfl
    | cons l ls =>
      obtain ⟨c, name, hname, hkey⟩ := l.exists_name
      rw [List.flatMap_cons, l.written_eq, hname, List.cons_append]
      unfold dropMark
      split
      next heq =>
        rw [(List.cons.inj heq).1] at hkey
        exact absurd hkey (by decide)
      next => rfl
  have hlength : ls.length < (ls.flatMap Line.written).length + 1 :=
    Nat.lt_succ_of_le (length_le_flatMap Line.written (by simp [Line.written, writeAssignment]) ls)
  rw [Document.ofText?, hmark]
  simp only [readStatements?_lines ls hlength, Option.map_some, ← ofStatements_assignments, List.map_map]
  rfl

/-- with different names, they are the table's -/
theorem table?_lines (ls : List Line) (hls : (ls.map Line.name).Nodup) :
    Document.table? ⟨ls.map Line.assignment, []⟩ = some (ls.map fun l => (l.name, l.value)) := by
  rw [Document.table?, Entries.fill?_names [] ls (fun _ _ => rfl) hls]
  rfl

/-- **A document of lines with different names is read as the table of its names and values.** -/
theorem readTable?_lines (ls : List Line) (hls : (ls.map Line.name).Nodup) :
    readTable? (ls.flatMap Line.written) = some (ls.map fun l => (l.name, l.value)) := by
  rw [readTable?, ofText?_lines, Option.bind_some, table?_lines ls hls]

end MarkVeil.Toml

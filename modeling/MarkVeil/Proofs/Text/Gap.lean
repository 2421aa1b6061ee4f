/-
Searches over a gap.

Between where a search begins and what it looks for there may be text of any kind: markers of containers, blanks,
backslashes. The search comes to the right place if no look-alike begins in this gap, which is what `FirstBehind` says
of two texts and `Source.Meets` of a search on the lines of a source.
-/
import MarkVeil.Proofs.Text.Source

namespace MarkVeil.Text

variable {gap m : List Char} {first last line cursor p : Nat} {src : Source}

/-- `m` stands behind the gap and begins nowhere in it -/
def FirstBehind (gap m : List Char) : Prop := ∀ i < gap.length, ¬ m <+: (gap ++ m).drop i

instance (gap m : List Char) : Decidable (FirstBehind gap m) := Nat.decidableBallLT _ _

theorem FirstBehind.nil (m : List Char) : FirstBehind [] m := fun i hi => absurd hi (Nat.not_lt_zero i)

/-- what begins with a character that the gap does not have begins nowhere in it -/
theorem FirstBehind.of_not_mem {c : Char} (hm : m.head? = some c) (hgap : c ∉ gap) : FirstBehind gap m := by
  obtain ⟨t, rfl⟩ := List.head?_eq_some_iff.1 hm
  rintro i hi ⟨rest, hrest⟩
  refine hgap (List.mem_of_getElem? (i := i) ?_)
  have hget : ((gap ++ c :: t).drop i)[0]? = some c := by rw [← hrest, List.cons_append, List.getElem?_cons_zero]
  rwa [List.getElem?_drop, Nat.add_zero, List.getElem?_append_left hi] at hget

theorem find?_behind (h : FirstBehind gap m) (rest : List Char) :
    find? m (gap ++ (m ++ rest)) = some (byteLen gap) := by
  induction gap with
  | nil => exact find?_prefix m rest
  | cons c gap ih =>
    -- a needle that begins at the front ends before the rest begins
    have hfront : ¬ m.isPrefixOf (c :: (gap ++ (m ++ rest))) = true := by
      intro hprefix
      have hlong : m <+: (c :: gap ++ m) ++ rest := by simpa using List.isPrefixOf_iff_prefix.1 hprefix
      refine h 0 (Nat.succ_pos _) ?_
      rw [List.drop_zero]
      exact List.prefix_of_prefix_length_le hlong (List.prefix_append _ _) (by simp; omega)
    have hgap : FirstBehind gap m := fun i hi => by simpa using h (i + 1) (Nat.succ_lt_succ hi)
    rw [List.cons_append, find?, if_neg hfront, ih hgap, Option.map_some, byteLen_cons]

namespace Source

/-- a search from the cursor on, but not before the line `first`, up to the end of the line `last`, comes to `m` first
at `p` -/
structure Meets (src : Source) (first last cursor p : Nat) (m : List Char) : Prop where
  ne_nil : m ≠ []
  reach : ∃ e stop gap rest, src.lines.extent? first = some e ∧ src.lines.stop? last = some stop ∧ cursor ≤ e.stop ∧
    slice? src.text (max cursor e.start) stop = some (gap ++ (m ++ rest)) ∧ p = max cursor e.start + byteLen gap ∧
    FirstBehind gap m

namespace Meets

theorem le (h : src.Meets first last cursor p m) : cursor ≤ p := by
  obtain ⟨e, stop, gap, rest, -, -, -, -, rfl, -⟩ := h.reach
  exact (le_max_left _ _).trans (Nat.le_add_right _ _)

theorem findForward? (h : src.Meets first last cursor p m) : ∃ base, src.lines.start? first = some base ∧
    src.findForward? (max cursor base) (some last) m = some p := by
  obtain ⟨e, stop, gap, rest, he, hstop, -, hslice, rfl, hfirst⟩ := h.reach
  refine ⟨e.start, by rw [LineIndex.start?, he, Option.map_some], ?_⟩
  rw [Source.findForward?, if_neg (by simpa using h.ne_nil), hstop, Option.bind_some, findBetween?, hslice,
    Option.bind_some, find?_behind hfirst, Option.map_some]

theorem findOnLine? (h : src.Meets line line cursor p m) : src.findOnLine? line m cursor = some p := by
  obtain ⟨e, stop, gap, rest, he, hstop, hle, hslice, rfl, hfirst⟩ := h.reach
  have hstart : (if e.start ≤ cursor ∧ cursor ≤ e.stop then cursor else e.start) = max cursor e.start := by
    split_ifs <;> omega
  rw [Source.findOnLine?, if_neg (by simpa using h.ne_nil), scanStart?, he, Option.map_some, Option.bind_some, hstart,
    hstop, Option.bind_some, findBetween?, hslice, Option.bind_some, find?_behind hfirst, Option.map_some]

end Meets

end Source

end MarkVeil.Text

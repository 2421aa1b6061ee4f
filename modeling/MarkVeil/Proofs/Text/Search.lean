/-
Searches in a text.

What `find?` and `rfind?` answer is where the needle stands, and a needle at the front is found there. Runs of a
character are the replicates at the front (`replicate_append_drop`, `countRun_replicate_append`).
-/
import Mathlib.Data.List.TakeWhile
import MarkVeil.Proofs.Text.Place

namespace MarkVeil.Text

variable {x s t a b : List Char} {c : Char} {i j k n : Nat} {p : Char → Bool}

/-! ## Needles -/

theorem of_find? (h : find? x s = some i) : ∃ a b, s = a ++ x ++ b ∧ byteLen a = i := by
  induction s generalizing i with
  | nil =>
    simp only [find?] at h
    split_ifs at h with hx
    obtain rfl : x = [] := by simpa using hx
    exact ⟨[], [], rfl, by simpa using h⟩
  | cons c s ih =>
    simp only [find?] at h
    split_ifs at h with hx
    · obtain ⟨b, hb⟩ := List.isPrefixOf_iff_prefix.1 hx
      exact ⟨[], b, by simpa using hb.symm, by simpa using h⟩
    · obtain ⟨j, hj, rfl⟩ := Option.map_eq_some_iff.1 h
      obtain ⟨a, b, rfl, rfl⟩ := ih hj
      exact ⟨c :: a, b, rfl, rfl⟩

/-- what a search in a slice finds stands in the text -/
theorem slice?_of_find? (hs : slice? s i j = some t) (h : find? x t = some k) :
    slice? s (i + k) (i + k + byteLen x) = some x := by
  obtain ⟨a, b, rfl, rfl⟩ := of_find? h
  rw [Nat.add_assoc]
  exact slice?_slice? hs (slice?_append a x b)

theorem of_rfind? (h : rfind? x s = some i) : ∃ a b, s = a ++ x ++ b ∧ byteLen a = i := by
  induction s generalizing i with
  | nil =>
    simp only [rfind?] at h
    split_ifs at h with hx
    obtain rfl : x = [] := by simpa using hx
    exact ⟨[], [], rfl, by simpa using h⟩
  | cons c s ih =>
    simp only [rfind?] at h
    split at h
    next j hj =>
      obtain ⟨a, b, rfl, rfl⟩ := ih hj
      exact ⟨c :: a, b, rfl, by simpa using h⟩
    next =>
      split_ifs at h with hx
      obtain ⟨b, hb⟩ := List.isPrefixOf_iff_prefix.1 hx
      exact ⟨[], b, by simpa using hb.symm, by simpa using h⟩

theorem find?_prefix (x b : List Char) : find? x (x ++ b) = some 0 := by
  cases h : x ++ b with
  | nil =>
    obtain ⟨rfl, rfl⟩ := List.append_eq_nil_iff.1 h
    rfl
  | cons c s =>
    have hx : x.isPrefixOf (c :: s) = true := List.isPrefixOf_iff_prefix.2 ⟨b, h⟩
    simp [find?, hx]

/-- a character is found behind what does not have it -/
theorem find?_single (ha : c ∉ a) (b : List Char) : find? [c] (a ++ c :: b) = some (byteLen a) := by
  induction a with
  | nil => exact find?_prefix [c] b
  | cons d a ih =>
    have hd : ¬ c = d := fun h => ha (h ▸ List.mem_cons_self)
    have ha' : c ∉ a := fun h => ha (List.mem_cons_of_mem _ h)
    simp [find?, List.isPrefixOf, hd, ih ha']

/-! ## Runs -/

theorem runLen_eq (p : Char → Bool) (s : List Char) : runLen p s = (s.takeWhile p).length := by
  induction s with
  | nil => rfl
  | cons c s ih =>
    simp only [runLen, List.takeWhile_cons]
    split_ifs
    · rw [ih, List.length_cons]
    · rfl

theorem take_runLen (p : Char → Bool) (s : List Char) : s.take (runLen p s) = s.takeWhile p := by
  rw [runLen_eq]
  exact List.prefix_iff_eq_take.1 (List.takeWhile_prefix p) |>.symm

/-- a text is its run in front and the rest -/
theorem replicate_append_drop (c : Char) (s : List Char) :
    List.replicate (countRun c s) c ++ s.drop (countRun c s) = s := by
  have hrun : s.take (countRun c s) = List.replicate (countRun c s) c := by
    refine List.eq_replicate_iff.2 ⟨?_, ?_⟩
    · rw [countRun, take_runLen, runLen_eq]
    · intro d hd
      rw [countRun, take_runLen] at hd
      simpa using List.mem_takeWhile_imp hd
  rw [← hrun, List.take_append_drop]

/-- a stretch in front is as long as it goes on -/
theorem runLen_append (ha : ∀ c ∈ a, p c = true) (hb : ∀ c ∈ b.head?, p c = false) : runLen p (a ++ b) = a.length := by
  induction a with
  | nil =>
    cases b with
    | nil => rfl
    | cons c b => rw [List.nil_append, runLen, if_neg (by simp [hb c rfl]), List.length_nil]
  | cons c a ih =>
    obtain ⟨hc, ha⟩ := List.forall_mem_cons.1 ha
    rw [List.cons_append, runLen, if_pos hc, ih ha, List.length_cons]

theorem head?_drop_runLen (p : Char → Bool) (s : List Char) : ∀ c ∈ (s.drop (runLen p s)).head?, p c = false := by
  induction s with
  | nil => simp
  | cons d s ih =>
    rw [runLen]
    split_ifs with hd
    · exact ih
    · simpa using hd

theorem countRun_replicate_append (n : Nat) (h : b.head? ≠ some c) : countRun c (List.replicate n c ++ b) = n := by
  have hb : ∀ d ∈ b.head?, (d == c) = false := by
    intro d hd
    simp only [beq_eq_false_iff_ne]
    rintro rfl
    exact h hd
  have hrun : ∀ d ∈ List.replicate n c, (d == c) = true := by
    intro d hd
    simpa using List.eq_of_mem_replicate hd
  rw [countRun, runLen_append hrun hb, List.length_replicate]

theorem head?_drop_countRun (c : Char) (s : List Char) : (s.drop (countRun c s)).head? ≠ some c := by
  intro h
  simpa using head?_drop_runLen (· == c) s c h

/-- a run of one-byte characters has as many bytes as characters -/
theorem byteLen_run (hp : ∀ c, p c = true → c.utf8Size = 1) (s : List Char) :
    byteLen (s.take (runLen p s)) = runLen p s := by
  induction s with
  | nil => rfl
  | cons c s ih =>
    simp only [runLen]
    split_ifs with hc
    · rw [List.take_succ_cons, byteLen_cons, ih, hp c hc]; omega
    · rfl

end MarkVeil.Text

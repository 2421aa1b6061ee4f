/-
Maximal runs of offsets.

`Runs P es` says that `es` are the maximal runs of the offsets that satisfy `P`: extents that are not empty, in
ascending order, that neither overlap nor touch and hold exactly those offsets. There is one such list at most
(`Runs.unique`), and `runsFrom` computes it for a decidable property of a stretch of offsets (`runs_runsFrom`).
-/
import Mathlib.Tactic
import MarkVeil.Text.Bytes

namespace MarkVeil.Text.Extent

/-- the offset lies in the stretch -/
def Has (e : Extent) (p : Nat) : Prop := e.start ≤ p ∧ p < e.stop

instance (e : Extent) (p : Nat) : Decidable (e.Has p) := inferInstanceAs (Decidable (_ ∧ _))

end MarkVeil.Text.Extent

namespace MarkVeil.Decoration

open MarkVeil.Text

/-- the maximal runs of the offsets that satisfy `P`, ascending -/
structure Runs (P : Nat → Prop) (es : List Extent) : Prop where
  nonempty : ∀ e ∈ es, e.start < e.stop
  /-- a run ends before the next begins, and they do not touch -/
  apart : es.Pairwise fun a b => a.stop < b.start
  has : ∀ p, P p ↔ ∃ e ∈ es, e.Has p

namespace Runs

variable {P Q : Nat → Prop} {e f : Extent} {es fs : List Extent}

theorem congr (h : Runs P es) (hpq : ∀ p, P p ↔ Q p) : Runs Q es :=
  ⟨h.nonempty, h.apart, fun p => (hpq p).symm.trans (h.has p)⟩

theorem nil (h : ∀ p, ¬ P p) : Runs P [] := ⟨by simp, List.Pairwise.nil, fun p => by simp [h p]⟩

theorem single (h : e.start < e.stop) : Runs e.Has [e] := ⟨by simpa using h, by simp, by simp⟩

/-- a run before all others -/
theorem cons (h : Runs P es) (he : e.start < e.stop) (hlt : ∀ p, P p → e.stop < p) :
    Runs (fun p => e.Has p ∨ P p) (e :: es) := by
  refine ⟨?_, List.pairwise_cons.2 ⟨?_, h.apart⟩, ?_⟩
  · intro f hf
    rcases List.mem_cons.1 hf with rfl | hf
    · exact he
    · exact h.nonempty f hf
  · intro f hf
    exact hlt _ ((h.has _).2 ⟨f, hf, le_rfl, h.nonempty f hf⟩)
  · intro p
    rw [h.has p]
    simp only [List.mem_cons, exists_eq_or_imp]

theorem start_sat (h : Runs P es) (he : e ∈ es) : P e.start := (h.has _).2 ⟨e, he, le_rfl, h.nonempty e he⟩

theorem last_sat (h : Runs P es) (he : e ∈ es) : P (e.stop - 1) := by
  have := h.nonempty e he
  exact (h.has _).2 ⟨e, he, by omega, by omega⟩

/-- two runs are the same or do not touch -/
theorem eq_or_apart (h : Runs P es) (he : e ∈ es) (hf : f ∈ es) :
    e = f ∨ e.stop < f.start ∨ f.stop < e.start := by
  refine List.Pairwise.forall_of_forall_of_flip (R := fun a b => a = b ∨ a.stop < b.start ∨ b.stop < a.start)
    (fun _ _ => Or.inl rfl) ?_ ?_ he hf
  · exact h.apart.imp fun hab => Or.inr (Or.inl hab)
  · exact h.apart.imp fun hab => Or.inr (Or.inr hab)

/-- runs are maximal: the offset after a run does not satisfy the property -/
theorem not_stop (h : Runs P es) (he : e ∈ es) : ¬ P e.stop := by
  intro hp
  obtain ⟨f, hf, h1, h2⟩ := (h.has _).1 hp
  have hne := h.nonempty e he
  rcases h.eq_or_apart he hf with rfl | hlt | hlt <;> omega

/-- runs are maximal: nor does the offset before it -/
theorem not_before (h : Runs P es) (he : e ∈ es) (hpos : 0 < e.start) : ¬ P (e.start - 1) := by
  intro hp
  obtain ⟨f, hf, h1, h2⟩ := (h.has _).1 hp
  have hne := h.nonempty e he
  rcases h.eq_or_apart he hf with rfl | hlt | hlt <;> omega

/-- every later run begins after the first one ends -/
theorem lt_start_of_mem (h : Runs P (e :: es)) (hf : f ∈ es) : e.stop < f.start :=
  (List.pairwise_cons.1 h.apart).1 f hf

theorem tail (h : Runs P (e :: es)) : Runs (fun p => P p ∧ e.stop < p) es := by
  refine ⟨fun f hf => h.nonempty f (List.mem_cons_of_mem _ hf), (List.pairwise_cons.1 h.apart).2, ?_⟩
  intro p
  constructor
  · rintro ⟨hp, hlt⟩
    obtain ⟨f, hf, hfp⟩ := (h.has p).1 hp
    rcases List.mem_cons.1 hf with rfl | hf
    · have := hfp.2; omega
    · exact ⟨f, hf, hfp⟩
  · rintro ⟨f, hf, hfp⟩
    have hlt := h.lt_start_of_mem hf
    exact ⟨(h.has p).2 ⟨f, List.mem_cons_of_mem _ hf, hfp⟩, by have := hfp.1; omega⟩

/-- an extent in place of the runs that start in it or up to `bound`: those before end before it, those it replaces
end in it, and those after `bound` start behind it -/
theorem splice (h : Runs P es) {j : Extent} {bound : Nat} (hj : j.start < j.stop) (hbound : j.start ≤ bound)
    (hleft : ∀ i ∈ es, i.start < j.start → i.stop < j.start)
    (hmid : ∀ i ∈ es, j.start ≤ i.start → i.start ≤ bound → i.stop ≤ j.stop)
    (hright : ∀ i ∈ es, bound < i.start → j.stop < i.start) :
    Runs (fun q => j.Has q ∨ P q)
      (es.filter (fun i => i.start < j.start) ++ j :: es.filter fun i => bound < i.start) := by
  have hmem : ∀ e, e ∈ es.filter (fun i => i.start < j.start) ++ j :: es.filter (fun i => bound < i.start) ↔
      (e ∈ es ∧ e.start < j.start) ∨ e = j ∨ e ∈ es ∧ bound < e.start := by
    intro e
    simp only [List.mem_append, List.mem_cons, List.mem_filter, decide_eq_true_eq]
  refine ⟨?_, ?_, ?_⟩
  · intro e he
    rcases (hmem e).1 he with ⟨he, -⟩ | rfl | ⟨he, -⟩
    · exact h.nonempty e he
    · exact hj
    · exact h.nonempty e he
  · refine List.pairwise_append.2 ⟨h.apart.filter _, List.pairwise_cons.2 ⟨?_, h.apart.filter _⟩, ?_⟩
    · intro b hb
      obtain ⟨hb, hlt⟩ := List.mem_filter.1 hb
      exact hright b hb (by simpa using hlt)
    · intro a ha b hb
      obtain ⟨ha, hlt⟩ := List.mem_filter.1 ha
      have hstop := hleft a ha (by simpa using hlt)
      rcases List.mem_cons.1 hb with rfl | hb
      · exact hstop
      · have hb := (List.mem_filter.1 hb).2
        simp only [decide_eq_true_eq] at hb
        omega
  · intro q
    constructor
    · rintro (hq | hq)
      · exact ⟨j, (hmem j).2 (Or.inr (Or.inl rfl)), hq⟩
      · obtain ⟨i, hi, hiq⟩ := (h.has q).1 hq
        by_cases h1 : i.start < j.start
        · exact ⟨i, (hmem i).2 (Or.inl ⟨hi, h1⟩), hiq⟩
        by_cases h2 : bound < i.start
        · exact ⟨i, (hmem i).2 (Or.inr (Or.inr ⟨hi, h2⟩)), hiq⟩
        have hstop := hmid i hi (by omega) (by omega)
        exact ⟨j, (hmem j).2 (Or.inr (Or.inl rfl)), by have := hiq.1; omega, by have := hiq.2; omega⟩
    · rintro ⟨e, he, heq⟩
      rcases (hmem e).1 he with ⟨he, -⟩ | rfl | ⟨he, -⟩
      · exact Or.inr ((h.has q).2 ⟨e, he, heq⟩)
      · exact Or.inl heq
      · exact Or.inr ((h.has q).2 ⟨e, he, heq⟩)

/-- the first run begins at the least offset that satisfies the property -/
theorem head_start_le (h : Runs P (e :: es)) {p : Nat} (hp : P p) : e.start ≤ p := by
  obtain ⟨f, hf, h1, _⟩ := (h.has p).1 hp
  have hne := h.nonempty e List.mem_cons_self
  rcases List.mem_cons.1 hf with rfl | hf
  · exact h1
  · have := h.lt_start_of_mem hf; omega

/-- a first run is no longer than any other first run -/
theorem head_stop_le (he : Runs P (e :: es)) (hf : Runs P (f :: fs)) (hs : e.start = f.start) : f.stop ≤ e.stop := by
  by_contra hlt
  have hne := he.nonempty e List.mem_cons_self
  exact he.not_stop List.mem_cons_self ((hf.has _).2 ⟨f, List.mem_cons_self, by omega, by omega⟩)

/-- **There is only one list of maximal runs.** -/
theorem unique (he : Runs P es) (hf : Runs P fs) : es = fs := by
  induction es generalizing P fs with
  | nil =>
    cases fs with
    | nil => rfl
    | cons f fs =>
      obtain ⟨e, hmem, _⟩ := (he.has _).1 (hf.start_sat List.mem_cons_self)
      simp at hmem
  | cons e es ih =>
    cases fs with
    | nil =>
      obtain ⟨f, hmem, _⟩ := (hf.has _).1 (he.start_sat List.mem_cons_self)
      simp at hmem
    | cons f fs =>
      have hstart : e.start = f.start :=
        le_antisymm (he.head_start_le (hf.start_sat List.mem_cons_self))
          (hf.head_start_le (he.start_sat List.mem_cons_self))
      have hstop : e.stop = f.stop := le_antisymm (hf.head_stop_le he hstart.symm) (he.head_stop_le hf hstart)
      obtain rfl : e = f := by cases e; cases f; simp_all
      rw [ih he.tail hf.tail]

end Runs

/-! ## Computed runs -/

/-- add an offset right before or well before all runs -/
def consOffset (pos : Nat) : List Extent → List Extent
  | [] => [⟨pos, pos + 1⟩]
  | e :: es => if e.start = pos + 1 then ⟨pos, e.stop⟩ :: es else ⟨pos, pos + 1⟩ :: e :: es

/-- the maximal runs among the `n` offsets from `pos` on -/
def runsFrom (p : Nat → Bool) : (pos n : Nat) → List Extent
  | _, 0 => []
  | pos, n + 1 => if p pos then consOffset pos (runsFrom p (pos + 1) n) else runsFrom p (pos + 1) n

theorem runs_consOffset {P : Nat → Prop} {es : List Extent} {pos : Nat} (h : Runs P es) (hlt : ∀ p, P p → pos < p) :
    Runs (fun p => p = pos ∨ P p) (consOffset pos es) := by
  cases es with
  | nil =>
    refine (Runs.single (e := ⟨pos, pos + 1⟩) (Nat.lt_succ_self _)).congr ?_
    intro p
    have : ¬ P p := fun hp => by simpa using (h.has p).1 hp
    simp only [Extent.Has, this, or_false]
    omega
  | cons e es =>
    have he := hlt _ (h.start_sat List.mem_cons_self)
    have hne := h.nonempty e List.mem_cons_self
    simp only [consOffset]
    split_ifs with hs
    · refine (h.tail.cons (e := ⟨pos, e.stop⟩) (by simp only; omega) fun p hp => hp.2).congr ?_
      intro p
      rw [h.has p]
      simp only [List.mem_cons, exists_eq_or_imp, Extent.Has]
      constructor
      · rintro (hp | ⟨hp, -⟩)
        · by_cases hpos : p = pos
          · exact Or.inl hpos
          · exact Or.inr (Or.inl ⟨by omega, hp.2⟩)
        · exact Or.inr hp
      · rintro (rfl | hp | ⟨f, hf, hp⟩)
        · exact Or.inl ⟨le_rfl, by omega⟩
        · exact Or.inl ⟨by omega, hp.2⟩
        · exact Or.inr ⟨Or.inr ⟨f, hf, hp⟩, by have := h.lt_start_of_mem hf; omega⟩
    · refine (h.cons (e := ⟨pos, pos + 1⟩) (Nat.lt_succ_self _) ?_).congr fun p => or_congr_left ?_
      · intro p hp
        have := h.head_start_le hp; simp only; omega
      · simp only [Extent.Has]; omega

theorem runs_runsFrom (p : Nat → Bool) (pos n : Nat) :
    Runs (fun q => pos ≤ q ∧ q < pos + n ∧ p q = true) (runsFrom p pos n) := by
  induction n generalizing pos with
  | zero => exact Runs.nil fun q => by omega
  | succ n ih =>
    simp only [runsFrom]
    split_ifs with hp
    · refine (runs_consOffset (ih (pos + 1)) fun q hq => by omega).congr ?_
      intro q
      constructor
      · rintro (rfl | hq)
        · exact ⟨le_rfl, by omega, hp⟩
        · exact ⟨by omega, by omega, hq.2.2⟩
      · rintro ⟨h1, h2, h3⟩
        by_cases hq : q = pos
        · exact Or.inl hq
        · exact Or.inr ⟨by omega, by omega, h3⟩
    · refine (ih (pos + 1)).congr ?_
      intro q
      constructor
      · rintro ⟨h1, h2, h3⟩
        exact ⟨by omega, by omega, h3⟩
      · rintro ⟨h1, h2, h3⟩
        have hq : q ≠ pos := by rintro rfl; exact hp h3
        exact ⟨by omega, by omega, h3⟩

end MarkVeil.Decoration

/-
Claimed bytes are kept as maximal runs.

A claim adds the bytes of its interval to the set and the intervals stay the maximal runs of the set (`runs_claim`), so
the order of claims leaves no trace. The free pieces of an interval are the maximal runs of its bytes outside the set
(`runs_free`).
Main result:
- `claims_canonical`: claims from the start, in any order, leave the maximal runs of all bytes claimed, and what is free
  of an interval are the maximal runs of its other bytes.
-/
import MarkVeil.Decoration.Claimed
import MarkVeil.Proofs.Decoration.Runs

namespace MarkVeil.Decoration

open MarkVeil.Text

/-! ## Sorted lists cut by a bound -/

section Cut

variable {α : Type} {p : α → Bool} {l : List α}

theorem takeWhile_eq_filter (h : l.Pairwise fun a b => p b = true → p a = true) : l.takeWhile p = l.filter p := by
  induction l with
  | nil => rfl
  | cons a l ih =>
    obtain ⟨ha, hl⟩ := List.pairwise_cons.1 h
    by_cases hp : p a = true
    · rw [List.takeWhile_cons_of_pos hp, List.filter_cons_of_pos hp, ih hl]
    · rw [List.takeWhile_cons_of_neg hp, eq_comm, List.filter_eq_nil_iff]
      intro b hb hpb
      rcases List.mem_cons.1 hb with rfl | hb
      · exact hp hpb
      · exact hp (ha b hb hpb)

theorem dropWhile_eq_filter (h : l.Pairwise fun a b => p b = true → p a = true) :
    l.dropWhile p = l.filter fun a => !p a := by
  induction l with
  | nil => rfl
  | cons a l ih =>
    obtain ⟨ha, hl⟩ := List.pairwise_cons.1 h
    by_cases hp : p a = true
    · rw [List.dropWhile_cons_of_pos hp, List.filter_cons_of_neg (by simpa using hp), ih hl]
    · rw [List.dropWhile_cons_of_neg hp, eq_comm, List.filter_eq_self]
      intro b hb
      rcases List.mem_cons.1 hb with rfl | hb
      · simpa using hp
      · simpa using fun hpb => hp (ha b hb hpb)

/-- in a list in strict order everything comes before its last member -/
theorem eq_or_rel_getLast {R : α → α → Prop} {a z : α} (h : l.Pairwise R) (hz : l.getLast? = some z) (ha : a ∈ l) :
    a = z ∨ R a z := by
  obtain ⟨l, rfl⟩ := List.getLast?_eq_some_iff.1 hz
  rcases List.mem_append.1 ha with ha | ha
  · exact Or.inr ((List.pairwise_append.1 h).2.2 a ha z (by simp))
  · exact Or.inl (by simpa using ha)

theorem le_foldl_max (f : α → Nat) (n : Nat) : n ≤ l.foldl (fun m a => max m (f a)) n := by
  induction l generalizing n with
  | nil => exact le_rfl
  | cons a l ih => exact le_trans (le_max_left _ _) (ih _)

theorem apply_le_foldl_max (f : α → Nat) (n : Nat) {a : α} (ha : a ∈ l) : f a ≤ l.foldl (fun m a => max m (f a)) n := by
  induction l generalizing n with
  | nil => simp at ha
  | cons b l ih =>
    rcases List.mem_cons.1 ha with rfl | ha
    · exact le_trans (le_max_right _ _) (le_foldl_max f _)
    · exact ih _ ha

theorem foldl_max_mem (f : α → Nat) (n : Nat) :
    l.foldl (fun m a => max m (f a)) n = n ∨ ∃ a ∈ l, l.foldl (fun m a => max m (f a)) n = f a := by
  induction l generalizing n with
  | nil => exact Or.inl rfl
  | cons b l ih =>
    rw [List.foldl_cons]
    rcases ih (max n (f b)) with h | ⟨a, ha, h⟩
    · rcases max_choice n (f b) with hm | hm
      · exact Or.inl (h.trans hm)
      · exact Or.inr ⟨b, List.mem_cons_self, h.trans hm⟩
    · exact Or.inr ⟨a, List.mem_cons_of_mem _ ha, h⟩

end Cut

namespace Claimed

variable {P : Nat → Prop} {c : Claimed} {is : List Extent} {r i j p : Extent}

/-- intervals start in strict order -/
theorem starts_sorted (h : Runs P is) : is.Pairwise fun a b => a.start < b.start := by
  refine h.apart.imp_of_mem fun {a b} ha _ hab => ?_
  have := h.nonempty a ha
  omega

theorem takeWhile_start (his : is.Pairwise fun a b => a.start < b.start) {f : Nat → Bool}
    (hf : ∀ m n, m < n → f n = true → f m = true) :
    is.takeWhile (fun i => f i.start) = is.filter fun i => f i.start :=
  takeWhile_eq_filter (his.imp fun hab => hf _ _ hab)

theorem dropWhile_start (his : is.Pairwise fun a b => a.start < b.start) {f : Nat → Bool}
    (hf : ∀ m n, m < n → f n = true → f m = true) :
    is.dropWhile (fun i => f i.start) = is.filter fun i => !f i.start :=
  dropWhile_eq_filter (his.imp fun hab => hf _ _ hab)

theorem decide_lt_of_lt (k m n : Nat) (h : m < n) (hn : decide (n < k) = true) : decide (m < k) = true := by
  simp only [decide_eq_true_eq] at hn ⊢
  omega

theorem decide_le_of_lt (k m n : Nat) (h : m < n) (hn : decide (n ≤ k) = true) : decide (m ≤ k) = true := by
  simp only [decide_eq_true_eq] at hn ⊢
  omega

/-! ## The interval before an offset -/

theorem before?_some (h : Runs P c.intervals) {n : Nat} (hb : c.before? n = some p) :
    p ∈ c.intervals ∧ p.start ≤ n ∧ ∀ i ∈ c.intervals, i.start ≤ n → i = p ∨ i.stop < p.start := by
  rw [before?, takeWhile_start (starts_sorted h) (decide_le_of_lt n)] at hb
  have hp := List.mem_filter.1 (List.mem_of_getLast? hb)
  refine ⟨hp.1, by simpa using hp.2, ?_⟩
  intro i hi hn
  exact eq_or_rel_getLast (h.apart.filter _) hb (List.mem_filter.2 ⟨hi, by simpa using hn⟩)

theorem before?_none (h : Runs P c.intervals) {n : Nat} (hb : c.before? n = none) (hi : i ∈ c.intervals) :
    n < i.start := by
  rw [before?, takeWhile_start (starts_sorted h) (decide_le_of_lt n), List.getLast?_eq_none_iff,
    List.filter_eq_nil_iff] at hb
  simpa using hb i hi

/-! ## Claims -/

/-- joined to the left, an interval holds its own bytes and claimed ones, and touches nothing that starts before it -/
theorem joinLeft_spec (h : Runs P c.intervals) (r : Extent) :
    (c.joinLeft r).start ≤ r.start ∧ r.stop ≤ (c.joinLeft r).stop ∧
      (∀ i ∈ c.intervals, i.start < (c.joinLeft r).start → i.stop < (c.joinLeft r).start) ∧
      ∀ q, (c.joinLeft r).Has q → r.Has q ∨ P q := by
  unfold joinLeft
  cases hb : c.before? r.start with
  | none =>
    refine ⟨le_rfl, le_rfl, ?_, fun q hq => Or.inl hq⟩
    intro i hi hlt
    have := before?_none h hb hi
    simp only at hlt; omega
  | some p =>
    obtain ⟨hp, hle, hlast⟩ := before?_some h hb
    simp only
    split_ifs with hm
    · refine ⟨hle, le_max_left _ _, ?_, ?_⟩
      · intro i hi hlt
        rcases hlast i hi (by simp only at hlt; omega) with rfl | hstop
        · simp at hlt
        · exact hstop
      · intro q hq
        by_cases hqp : q < p.stop
        · exact Or.inr ((h.has q).2 ⟨p, hp, hq.1, hqp⟩)
        · have := hq.2
          exact Or.inl ⟨by omega, by simp only at this; omega⟩
    · refine ⟨le_rfl, le_rfl, ?_, fun q hq => Or.inl hq⟩
      intro i hi hlt
      rcases hlast i hi (by omega) with rfl | hstop <;> omega

/-- how far an interval goes, joined with all that it meets on the right -/
def reach (c : Claimed) (j : Extent) : Nat :=
  (c.intervals.filter fun i => j.start ≤ i.start ∧ i.start ≤ j.stop).foldl (fun stop i => max stop i.stop) j.stop

/-- an interval meets what starts in it or right behind it, and reaches to the end of all that -/
theorem reach_spec (h : Runs P c.intervals) (j : Extent) :
    j.stop ≤ c.reach j ∧ (∀ i ∈ c.intervals, j.start ≤ i.start → i.start ≤ j.stop → i.stop ≤ c.reach j) ∧
      (∀ i ∈ c.intervals, j.stop < i.start → c.reach j < i.start) ∧
      ∀ q, j.stop ≤ q → q < c.reach j → P q := by
  have hmet : ∀ i, i ∈ c.intervals.filter (fun i => j.start ≤ i.start ∧ i.start ≤ j.stop) ↔
      i ∈ c.intervals ∧ j.start ≤ i.start ∧ i.start ≤ j.stop := by
    intro i
    simp only [List.mem_filter, decide_eq_true_eq]
  have hattained : c.reach j = j.stop ∨
      ∃ i ∈ c.intervals.filter (fun i => j.start ≤ i.start ∧ i.start ≤ j.stop), c.reach j = i.stop :=
    foldl_max_mem (fun i : Extent => i.stop) _
  refine ⟨le_foldl_max _ _, ?_, ?_, ?_⟩
  · intro i hi h1 h2
    exact apply_le_foldl_max (fun i : Extent => i.stop) _ ((hmet i).2 ⟨hi, h1, h2⟩)
  · intro i hi hlt
    rcases hattained with heq | ⟨m, hm, heq⟩
    · omega
    · obtain ⟨hm, -, hle⟩ := (hmet m).1 hm
      have := h.nonempty i hi
      rcases h.eq_or_apart hm hi with rfl | hlt' | hlt' <;> omega
  · intro q h1 h2
    rcases hattained with heq | ⟨m, hm, heq⟩
    · omega
    · obtain ⟨hm, -, hle⟩ := (hmet m).1 hm
      exact (h.has q).2 ⟨m, hm, by omega, by omega⟩

/-- a claim puts the joined interval in place of all that it meets -/
theorem claim_intervals (h : Runs P c.intervals) (hj : j.start ≤ j.stop) (hr : c.joinLeft r = j) :
    (c.claim r).intervals = c.intervals.filter (fun i => i.start < j.start) ++
      ⟨j.start, c.reach j⟩ :: c.intervals.filter fun i => j.stop < i.start := by
  have hsorted := starts_sorted h
  have hrest := hsorted.filter fun i => !decide (i.start < j.start)
  rw [claim, hr, reach]
  simp only [takeWhile_start hsorted (decide_lt_of_lt j.start), dropWhile_start hsorted (decide_lt_of_lt j.start),
    takeWhile_start hrest (decide_le_of_lt j.stop), dropWhile_start hrest (decide_le_of_lt j.stop), List.filter_filter]
  have hmet : ∀ i : Extent, (decide (i.start ≤ j.stop) && !decide (i.start < j.start)) =
      decide (j.start ≤ i.start ∧ i.start ≤ j.stop) := by
    intro i
    rw [Bool.eq_iff_iff]
    simp only [Bool.and_eq_true, Bool.not_eq_true', decide_eq_false_iff_not, decide_eq_true_eq]
    omega
  have hlate : ∀ i : Extent, (!decide (i.start ≤ j.stop) && !decide (i.start < j.start)) =
      decide (j.stop < i.start) := by
    intro i
    rw [Bool.eq_iff_iff]
    simp only [Bool.and_eq_true, Bool.not_eq_true', decide_eq_false_iff_not, decide_eq_true_eq]
    omega
  simp only [hmet, hlate]

/-- **A claim adds its bytes, and the intervals stay maximal runs.** -/
theorem runs_claim (h : Runs P c.intervals) (hr : r.start < r.stop) :
    Runs (fun q => P q ∨ r.Has q) (c.claim r).intervals := by
  obtain ⟨hstart, hstop, hleft, hhas⟩ := joinLeft_spec h r
  have hj : (c.joinLeft r).start ≤ (c.joinLeft r).stop := by omega
  obtain ⟨hle, hmid, hright, hfill⟩ := reach_spec h (c.joinLeft r)
  rw [claim_intervals h hj rfl]
  have hjoined : (⟨(c.joinLeft r).start, c.reach (c.joinLeft r)⟩ : Extent).start < c.reach (c.joinLeft r) := by
    simp only
    omega
  refine (h.splice hjoined hj hleft hmid hright).congr ?_
  intro q
  constructor
  · rintro (⟨h1, h2⟩ | hq)
    · by_cases hlt : q < (c.joinLeft r).stop
      · exact (hhas q ⟨h1, hlt⟩).symm
      · exact Or.inl (hfill q (by omega) h2)
    · exact Or.inl hq
  · rintro (hq | ⟨h1, h2⟩)
    · exact Or.inr hq
    · exact Or.inl ⟨by simp only; omega, by simp only; omega⟩

theorem runs_empty : Runs (fun _ => False) empty.intervals := Runs.nil fun _ => id

/-- claims one after the other add all their bytes -/
theorem runs_foldl_claim {es : List Extent} (h : Runs P c.intervals) (hes : ∀ e ∈ es, e.start < e.stop) :
    Runs (fun q => P q ∨ ∃ e ∈ es, e.Has q) (es.foldl claim c).intervals := by
  induction es generalizing c P with
  | nil => exact h.congr fun q => by simp
  | cons e es ih =>
    have hclaim := runs_claim h (hes e List.mem_cons_self)
    refine (ih hclaim fun f hf => hes f (List.mem_cons_of_mem _ hf)).congr ?_
    intro q
    simp only [List.mem_cons, exists_eq_or_imp, or_assoc]

/-! ## Free pieces -/

theorem runs_gaps {is : List Extent} (stop pos : Nat) (hne : ∀ i ∈ is, i.start < i.stop)
    (hap : is.Pairwise fun a b => a.stop < b.start) (hlt : ∀ i ∈ is, i.start < stop) :
    Runs (fun q => pos ≤ q ∧ q < stop ∧ ¬ ∃ i ∈ is, i.Has q) (gaps stop pos is) := by
  induction is generalizing pos with
  | nil =>
    simp only [gaps]
    split_ifs with hp
    · exact (Runs.single (e := ⟨pos, stop⟩) hp).congr fun q => by simp [Extent.Has]
    · exact Runs.nil fun q => by omega
  | cons i is ih =>
    obtain ⟨hfirst, hap⟩ := List.pairwise_cons.1 hap
    have hi := hne i List.mem_cons_self
    have histop := hlt i List.mem_cons_self
    have hrest : Runs (fun q => max pos i.stop ≤ q ∧ q < stop ∧ ¬ ∃ i ∈ is, i.Has q)
        (if stop ≤ max pos i.stop then [] else gaps stop (max pos i.stop) is) := by
      split_ifs with hs
      · exact Runs.nil fun q => by omega
      · exact ih _ (fun j hj => hne j (List.mem_cons_of_mem _ hj)) hap fun j hj => hlt j (List.mem_cons_of_mem _ hj)
    -- the later intervals hold nothing before the first one ends
    have hlate : ∀ q, q ≤ i.stop → ¬ ∃ j ∈ is, j.Has q := by
      rintro q hq ⟨j, hj, hjq, -⟩
      have := hfirst j hj; omega
    simp only [gaps]
    generalize (if stop ≤ max pos i.stop then [] else gaps stop (max pos i.stop) is) = rest at hrest ⊢
    split_ifs with hp
    · refine (hrest.cons (e := ⟨pos, i.start⟩) hp fun q hq => by simp only; omega).congr ?_
      intro q
      simp only [List.mem_cons, exists_eq_or_imp, not_or]
      constructor
      · rintro (⟨h1, h2⟩ | ⟨h1, h2, h3⟩)
        · simp only at h1 h2
          exact ⟨h1, by omega, fun h => by have := h.1; omega, hlate q (by omega)⟩
        · exact ⟨by omega, h2, fun h => by have := h.2; omega, h3⟩
      · rintro ⟨h1, h2, h3, h4⟩
        by_cases hq : q < i.start
        · exact Or.inl ⟨h1, hq⟩
        · have : ¬ q < i.stop := fun hlt => h3 ⟨by omega, hlt⟩
          exact Or.inr ⟨by omega, h2, h4⟩
    · refine hrest.congr ?_
      intro q
      simp only [List.mem_cons, exists_eq_or_imp, not_or]
      constructor
      · rintro ⟨h1, h2, h3⟩
        exact ⟨by omega, h2, fun h => by have := h.2; omega, h3⟩
      · rintro ⟨h1, h2, h3, h4⟩
        have : ¬ q < i.stop := fun hlt => h3 ⟨by omega, hlt⟩
        exact ⟨by omega, h2, h4⟩

/-- where the first free piece behind an offset can begin: behind the interval that covers the offset -/
def firstFree (c : Claimed) (offset : Nat) : Nat :=
  match c.before? offset with
  | some p => max offset p.stop
  | none => offset

/-- all bytes up to there are claimed, and no earlier interval goes further -/
theorem firstFree_spec (h : Runs P c.intervals) (n : Nat) :
    n ≤ c.firstFree n ∧ (∀ q, n ≤ q → q < c.firstFree n → P q) ∧
      ∀ i ∈ c.intervals, i.start ≤ n → i.stop ≤ c.firstFree n := by
  unfold firstFree
  cases hb : c.before? n with
  | none =>
    refine ⟨le_rfl, fun q h1 h2 => absurd h1 (Nat.not_le.2 h2), ?_⟩
    intro i hi hle
    have := before?_none h hb hi
    omega
  | some p =>
    obtain ⟨hp, hle, hlast⟩ := before?_some h hb
    simp only
    refine ⟨le_max_left _ _, ?_, ?_⟩
    · intro q h1 h2
      exact (h.has q).2 ⟨p, hp, by omega, by omega⟩
    · intro i hi hin
      have := h.nonempty p hp
      rcases hlast i hi hin with rfl | hlt
      · exact le_max_right _ _
      · omega

/-- the free pieces are the gaps between the intervals that start in the range -/
theorem free_eq (h : Runs P c.intervals) (r : Extent) :
    c.free r = gaps r.stop (c.firstFree r.start)
      (c.intervals.filter fun i => r.start ≤ i.start ∧ i.start < r.stop) := by
  have hwithin : ∀ i : Extent, (decide (i.start < r.stop) && !decide (i.start < r.start)) =
      decide (r.start ≤ i.start ∧ i.start < r.stop) := by
    intro i
    rw [Bool.eq_iff_iff]
    simp only [Bool.and_eq_true, Bool.not_eq_true', decide_eq_false_iff_not, decide_eq_true_eq]
    omega
  rw [free, dropWhile_start (starts_sorted h) (decide_lt_of_lt r.start),
    takeWhile_start ((starts_sorted h).filter _) (decide_lt_of_lt r.stop), List.filter_filter]
  simp only [hwithin]
  rfl

/-- **The free pieces are the maximal runs of the bytes that no claim covers.** -/
theorem runs_free (h : Runs P c.intervals) (r : Extent) : Runs (fun q => r.Has q ∧ ¬ P q) (c.free r) := by
  obtain ⟨hpos, hclaimed, hearlier⟩ := firstFree_spec h r.start
  have hwithin : ∀ i, i ∈ c.intervals.filter (fun i => r.start ≤ i.start ∧ i.start < r.stop) ↔
      i ∈ c.intervals ∧ r.start ≤ i.start ∧ i.start < r.stop := by
    intro i
    simp only [List.mem_filter, decide_eq_true_eq]
  rw [free_eq h]
  refine (runs_gaps r.stop _ (fun i hi => h.nonempty i ((hwithin i).1 hi).1) (h.apart.filter _) fun i hi =>
    ((hwithin i).1 hi).2.2).congr fun q => ?_
  constructor
  · rintro ⟨h1, h2, h3⟩
    refine ⟨⟨by omega, h2⟩, fun hq => h3 ?_⟩
    obtain ⟨i, hi, hiq⟩ := (h.has q).1 hq
    have hiq1 := hiq.1
    have hiq2 := hiq.2
    have hstart : r.start ≤ i.start := by
      by_contra hlt
      have := hearlier i hi (by omega)
      omega
    exact ⟨i, (hwithin i).2 ⟨hi, hstart, by omega⟩, hiq⟩
  · rintro ⟨⟨h1, h2⟩, h3⟩
    have hge : c.firstFree r.start ≤ q := by
      by_contra hlt
      exact h3 (hclaimed q h1 (by omega))
    exact ⟨hge, h2, fun ⟨i, hi, hiq⟩ => h3 ((h.has q).2 ⟨i, ((hwithin i).1 hi).1, hiq⟩)⟩

/-! ## Claims from the start -/

/-- some extent of a list has the offset -/
def Covered (es : List Extent) (p : Nat) : Prop := ∃ e ∈ es, e.Has p

variable {es fs : List Extent}

theorem runs_claims (hes : ∀ e ∈ es, e.start < e.stop) : Runs (Covered es) (es.foldl claim empty).intervals :=
  (runs_foldl_claim runs_empty hes).congr fun p => by rw [false_or, Covered]

/-- **Claims leave the same intervals exactly if they cover the same bytes**, in whatever order and pieces. -/
theorem claims_eq_iff (hes : ∀ e ∈ es, e.start < e.stop) (hfs : ∀ e ∈ fs, e.start < e.stop) :
    fs.foldl claim empty = es.foldl claim empty ↔ ∀ p, Covered fs p ↔ Covered es p := by
  have hruns := runs_claims hes
  have hruns' := runs_claims hfs
  constructor
  · intro h p
    rw [h] at hruns'
    exact (hruns'.has p).trans (hruns.has p).symm
  · intro h
    have hintervals : (fs.foldl claim empty).intervals = (es.foldl claim empty).intervals :=
      (hruns'.congr h).unique hruns
    exact congrArg Claimed.mk hintervals

/-- what claims of the extents in a list leave, one after the other from the start -/
structure Canonical (es : List Extent) : Prop where
  /-- the intervals are the maximal runs of the bytes claimed -/
  runs : Runs (Covered es) (es.foldl claim empty).intervals
  /-- another order of the claims leaves the same -/
  order : ∀ fs : List Extent, fs.Perm es → fs.foldl claim empty = es.foldl claim empty
  /-- what is free of an extent are the maximal runs of its bytes that no claim covers -/
  free : ∀ q : Extent, q.start ≤ q.stop → Runs (fun p => q.Has p ∧ ¬ Covered es p) ((es.foldl claim empty).free q)

/-- **Claims in any order leave the maximal runs of the bytes claimed**, and what is free of an extent are the maximal
runs of its other bytes. -/
theorem claims_canonical (hes : ∀ e ∈ es, e.start < e.stop) : Canonical es := by
  refine ⟨runs_claims hes, ?_, ?_⟩
  · intro fs hperm
    have hfs : ∀ e ∈ fs, e.start < e.stop := fun e he => hes e (hperm.mem_iff.1 he)
    rw [claims_eq_iff hes hfs]
    intro p
    simp only [Covered, hperm.mem_iff]
  · intro q _
    exact runs_free (runs_claims hes) q

/-- two claims that a third one bridges, one that touches another and one that lies in another -/
theorem claims_canonical_bridged :
    let es : List Extent := [⟨4, 6⟩, ⟨0, 2⟩, ⟨9, 11⟩, ⟨1, 5⟩, ⟨11, 12⟩, ⟨9, 10⟩]
    (∀ e ∈ es, e.start < e.stop) ∧ Canonical es ∧ es.foldl claim empty = ⟨[⟨0, 6⟩, ⟨9, 12⟩]⟩ ∧
      (es.foldl claim empty).free ⟨3, 15⟩ = [⟨6, 9⟩, ⟨12, 15⟩] := by
  intro es
  have hes : ∀ e ∈ es, e.start < e.stop := by decide
  exact ⟨hes, claims_canonical hes, by decide, by decide⟩

end Claimed

end MarkVeil.Decoration

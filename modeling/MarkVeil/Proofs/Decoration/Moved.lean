/-
Settled overlaps of moved ranges.

When every offset moves, in order, the bytes of a range stretch, but each byte of the text still comes from one byte
before (`exists_cell`). A byte goes to the range that got the byte it comes from, provided that ranges which
share a byte are in the same order of length as before, and so overlaps settle to the moved ranges (`resolve_move`).
-/
import MarkVeil.Proofs.Decoration.Carried
import MarkVeil.Proofs.Decoration.Overlap

namespace MarkVeil.Decoration

open MarkVeil.Text

/-! ## Moved runs -/

/-- an offset before one that has moved, up to where the next has -/
def InCell (m : Move) (q q' : Nat) : Prop := m.offset q ≤ q' ∧ q' < m.offset (q + 1)

variable {m : Move} {P : Nat → Prop} {e : Extent} {es : List Extent} {ranges : List Range} {r : Range}
  {i len len' q q' : Nat}

/-- an offset between two that have moved comes from one between them -/
theorem exists_cell (hm : StrictMono m.offset) {a b : Nat} (ha : m.offset a ≤ q') (hb : q' < m.offset b) :
    ∃ q, InCell m q q' := by
  induction b with
  | zero => exact absurd (hm.lt_iff_lt.1 (ha.trans_lt hb)) (Nat.not_lt_zero a)
  | succ b ih =>
    rcases Nat.lt_or_ge q' (m.offset b) with hlt | hge
    · exact ih hlt
    · exact ⟨b, hge, hb⟩

/-- a moved stretch holds what comes from its offsets -/
theorem has_move (hm : StrictMono m.offset) (hq : InCell m q q') : (m.extent e).Has q' ↔ e.Has q := by
  unfold Extent.Has Move.extent
  refine and_congr ⟨?_, ?_⟩ ⟨?_, ?_⟩
  · intro h
    have := hm.lt_iff_lt.1 (h.trans_lt hq.2)
    omega
  · exact fun h => (hm.monotone h).trans hq.1
  · exact fun h => hm.lt_iff_lt.1 (hq.1.trans_lt h)
  · exact fun h => hq.2.trans_le (hm.monotone h)

theorem Runs.move (hm : StrictMono m.offset) (h : Runs P es) :
    Runs (fun q' => ∃ q, P q ∧ InCell m q q') (es.map m.extent) := by
  refine ⟨?_, ?_, ?_⟩
  · intro e' he'
    obtain ⟨e, he, rfl⟩ := List.mem_map.1 he'
    exact hm (h.nonempty e he)
  · exact List.pairwise_map.2 (h.apart.imp fun hab => hm hab)
  · intro q'
    constructor
    · rintro ⟨q, hp, hq⟩
      obtain ⟨e, he, hhas⟩ := (h.has q).1 hp
      exact ⟨_, List.mem_map_of_mem he, (has_move hm hq).2 hhas⟩
    · rintro ⟨e', he', hhas⟩
      obtain ⟨e, he, rfl⟩ := List.mem_map.1 he'
      obtain ⟨q, hq⟩ := exists_cell hm hhas.1 hhas.2
      exact ⟨q, (h.has q).2 ⟨e, he, (has_move hm hq).1 hhas⟩, hq⟩

/-! ## Moved ranges -/

@[simp] theorem Range.kind_move : (r.move m).kind = r.kind := rfl

/-- styled ranges that share a byte keep their order of length -/
def KeepsOrder (m : Move) (ranges : List Range) : Prop :=
  ∀ a ∈ ranges, ∀ b ∈ ranges, a.kind ≠ .hide → b.kind ≠ .hide → ¬ a.Apart b →
    ((a.move m).len < (b.move m).len ↔ a.len < b.len)

section

variable (hm : StrictMono m.offset) (horder : KeepsOrder m ranges)
  (hfits : ∀ r ∈ ranges, (r.move m).fits len' = r.fits len)

include hm hfits

theorem repeatsHide_move :
    repeatsHide ((ranges.map (·.move m)).take i) len' (r.move m) = repeatsHide (ranges.take i) len r := by
  have hextent : ∀ h : Range, ((h.move m).extent == (r.move m).extent) = (h.extent == r.extent) := by
    intro h
    rw [Bool.eq_iff_iff, beq_iff_eq, beq_iff_eq]
    simp [Range.extent, Range.move, hm.injective.eq_iff]
  rw [repeatsHide, repeatsHide, ← List.map_take, List.any_map]
  rw [Bool.eq_iff_iff, List.any_eq_true, List.any_eq_true]
  refine exists_congr fun h => and_congr_right fun hh => ?_
  simp only [Function.comp_apply, hextent, hfits h (List.mem_of_mem_take hh), Range.kind_move]

include horder

/-- **A byte goes to the range that got the byte it comes from.** -/
theorem wins_move (hr : r ∈ ranges) (hk : r.kind ≠ .hide) (hq : InCell m q q') :
    Wins (ranges.map (·.move m)) len' i (r.move m) q' ↔ Wins ranges len i r q := by
  have hhas : ∀ x : Range, (x.move m).extent.Has q' ↔ x.extent.Has q := fun x => has_move (e := x.extent) hm hq
  unfold Wins
  rw [hhas]
  refine and_congr_right fun hrq => and_congr ?_ ?_
  · rw [List.forall_mem_map]
    refine forall₂_congr fun x hx => ?_
    rw [hfits x hx, Range.kind_move, hhas]
  · rw [List.zipIdx_map, List.forall_mem_map]
    refine forall₂_congr fun x hx => ?_
    have hmem := List.fst_mem_of_mem_zipIdx hx
    simp only [Prod.map_fst, Prod.map_snd, id, hfits _ hmem, Range.kind_move, hhas]
    refine forall₃_congr fun _ hxk hxq => ?_
    -- the byte is in both
    have hshare : ∀ {a b : Range}, a.extent.Has q → b.extent.Has q → ¬ a.Apart b := by
      intro a b ha hb
      simp only [Extent.Has, Range.extent] at ha hb
      unfold Range.Apart
      omega
    have h1 := horder r hr x.1 hmem hk hxk (hshare hrq hxq)
    have h2 := horder x.1 hmem r hr hxk hk (hshare hxq hrq)
    omega

theorem settledAt_move (hr : r ∈ ranges) :
    settledAt (ranges.map (·.move m)) len' i (r.move m) = (settledAt ranges len i r).map (·.move m) := by
  unfold settledAt
  rw [hfits r hr, Range.kind_move, repeatsHide_move hm hfits]
  split_ifs with hf hk hs
  · rfl
  · rfl
  · have hruns : wonRuns (ranges.map (·.move m)) len' i (r.move m) = (wonRuns ranges len i r).map m.extent := by
      refine (runs_wonRuns _ len' i _).unique (((runs_wonRuns ranges len i r).move hm).congr fun q' => ?_)
      constructor
      · rintro ⟨q, hw, hq⟩
        exact (wins_move hm horder hfits hr hk hq).2 hw
      · intro hw
        obtain ⟨q, hq⟩ := exists_cell hm hw.1.1 hw.1.2
        exact ⟨q, (wins_move hm horder hfits hr hk hq).1 hw, hq⟩
    rw [hruns, List.map_map, List.map_map]
    rfl
  · rfl

/-- **Overlaps of moved ranges settle to the moved ranges.** -/
theorem resolve_move : resolve (ranges.map (·.move m)) len' = (resolve ranges len).map (·.move m) := by
  rw [resolve_eq_pointwise, resolve_eq_pointwise, pointwise, pointwise, List.zipIdx_map, List.flatMap_map,
    List.map_flatMap]
  refine List.flatMap_congr fun x hx => ?_
  exact settledAt_move hm horder hfits (List.fst_mem_of_mem_zipIdx hx)

end

end MarkVeil.Decoration

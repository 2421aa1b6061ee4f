/-
Settled ranges stay as they are.

Ranges are `Settled` when they fit the text, no two hides have the same bytes and no styled range shares a byte with
another range. What comes out of `resolve` is settled (`resolve_settled`), and in settled ranges every styled range
gets all its bytes (`Settled.wins_iff`). Main result:
- `resolve_eq_self_iff`: `resolve` changes nothing exactly when the ranges are settled, so it is idempotent.
-/
import MarkVeil.Proofs.Decoration.Overlap

namespace MarkVeil.Decoration

open MarkVeil.Text

/-- no range has to give way to another one or to the end of the text -/
structure Settled (len : Nat) (ranges : List Range) : Prop where
  fits : ∀ r ∈ ranges, r.start < r.stop ∧ r.stop ≤ len
  /-- no two hides have the same bytes -/
  hidesDiffer : ranges.Pairwise fun a b => a.kind = .hide → b.kind = .hide → a.extent ≠ b.extent
  /-- a styled range shares no byte with a range before or after it -/
  styledApart : ranges.Pairwise fun a b => a.kind ≠ .hide ∨ b.kind ≠ .hide → a.Apart b

variable {ranges : List Range} {len i j q : Nat} {a b r : Range}

/-- **What comes out is settled.** -/
theorem resolve_settled (ranges : List Range) (len : Nat) : Settled len (resolve ranges len) where
  fits := by
    intro r hr
    have hbound := resolve_ends (E := (· ≤ len)) (fun x _ hf => by
      obtain ⟨hlt, hle⟩ := fits_iff.1 hf
      exact ⟨hlt.le.trans hle, hle⟩) hr
    exact ⟨(kind_of_mem_resolve hr).1, hbound.2⟩
  hidesDiffer := resolve_hides_differ ranges len
  styledApart := resolve_disjoint ranges len

theorem Range.Apart.symm (h : a.Apart b) : b.Apart a := Or.symm h

/-- ranges apart have no byte in common -/
theorem Range.Apart.not_has (h : a.Apart b) (ha : a.extent.Has q) : ¬ b.extent.Has q := by
  rintro ⟨h1, h2⟩
  obtain ⟨h3, h4⟩ := ha
  simp only [Range.extent] at h1 h2 h3 h4
  rcases h with h | h <;> omega

namespace Settled

/-- a styled range is apart from the range of any other number -/
theorem apart (h : Settled len ranges) (ha : ranges[i]? = some a) (hb : ranges[j]? = some b) (hij : i ≠ j)
    (hk : a.kind ≠ .hide) : a.Apart b := by
  obtain ⟨hi, rfl⟩ := List.getElem?_eq_some_iff.1 ha
  obtain ⟨hj, rfl⟩ := List.getElem?_eq_some_iff.1 hb
  have hpair := List.pairwise_iff_getElem.1 h.styledApart
  rcases Nat.lt_or_gt_of_ne hij with hlt | hlt
  · exact hpair i j hi hj hlt (Or.inl hk)
  · exact (hpair j i hj hi hlt (Or.inr hk)).symm

/-- a styled range gets all its bytes -/
theorem wins_iff (h : Settled len ranges) (hr : ranges[i]? = some r) (hk : r.kind ≠ .hide) (q : Nat) :
    Wins ranges len i r q ↔ r.extent.Has q := by
  refine ⟨fun hw => hw.1, fun hq => ⟨hq, ?_, ?_⟩⟩
  · intro x hx _ hxk
    obtain ⟨j, hj⟩ := List.mem_iff_getElem?.1 hx
    have hij : i ≠ j := by
      rintro rfl
      rw [hr, Option.some.injEq] at hj
      exact hk (hj ▸ hxk)
    exact (h.apart hr hj hij hk).not_has hq
  · rintro ⟨x, j⟩ hx _ _ hxq
    have hj := List.mk_mem_zipIdx_iff_getElem?.1 hx
    by_cases hij : i = j
    · subst hij
      rw [hr, Option.some.injEq] at hj
      subst hj
      exact Or.inr ⟨rfl, le_rfl⟩
    · exact absurd hxq ((h.apart hr hj hij hk).not_has hq)

/-- **Settled ranges stay as they are.** -/
theorem resolve_eq (h : Settled len ranges) : resolve ranges len = ranges := by
  have hmap : resolve ranges len = ranges.map id := by
    apply resolve_eq_map_of_settledAt
    intro i r hr
    obtain ⟨hlt, hle⟩ := h.fits r (List.mem_of_getElem? hr)
    have hfits : r.fits len = true := fits_iff.2 ⟨hlt, hle⟩
    by_cases hk : r.kind = .hide
    · apply settledAt_hide hfits hk
      intro x hx hxk
      exact pairwise_take h.hidesDiffer hr x hx hxk hk
    · exact settledAt_styled (e := r.extent) hfits hk hlt (h.wins_iff hr hk)
  rw [hmap, List.map_id]

end Settled

/-- **Settling overlaps changes nothing exactly when there are none to settle**, and so settling twice is settling
once. -/
theorem resolve_eq_self_iff (ranges : List Range) (len : Nat) :
    (resolve ranges len = ranges ↔ Settled len ranges) ∧ resolve (resolve ranges len) len = resolve ranges len := by
  refine ⟨⟨?_, Settled.resolve_eq⟩, (resolve_settled ranges len).resolve_eq⟩
  intro h
  have hsettled := resolve_settled ranges len
  rwa [h] at hsettled

/-- hides may overlap, and a styled range may touch them -/
example : resolve [.styled 5 9 .link, .hide 0 4, .hide 2 5] 9 = [.styled 5 9 .link, .hide 0 4, .hide 2 5] := by decide

end MarkVeil.Decoration

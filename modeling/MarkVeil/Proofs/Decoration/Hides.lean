/-
Only markup is hidden.

`IsMarker` lists the markers that may be hidden and `OnlyMarkup` says of a hide that it stays on one line and covers
such a marker, or an opening fence on the line where its token begins. It holds of every hide of a text's decorations,
whatever events a reader reports for the text (`extract_hides_markup`).
-/
import MarkVeil.Proofs.Decoration.Collect
import MarkVeil.Proofs.Token.Spelling

namespace MarkVeil.Decoration

open MarkVeil.Text
open MarkVeil.Markdown (Event)
open MarkVeil.Marker (Emphasis)
open MarkVeil.Token (IsDelimiter IsFenceRun Node Spelled)

/-- markers that may be hidden wherever they stand -/
inductive IsMarker : List Char → Prop
  | atx {level : Nat} (h : 1 ≤ level ∧ level ≤ 6) : IsMarker (List.replicate level '#')
  | underline {c : Char} {n : Nat} (hc : c = '=' ∨ c = '-') (hn : 0 < n) : IsMarker (List.replicate n c)
  /-- one or two asterisks, underscores or tildes -/
  | stress {m : List Char} (h : IsDelimiter m) : IsMarker m
  /-- a run of backticks or of tildes -/
  | run {m : List Char} (h : IsFenceRun m) : IsMarker m
  | bracket {m : List Char} (h : m ∈ [['['], [']'], ['('], [')'], ['!', '['], ['<'], ['>']]) : IsMarker m

/-- a hide of decorations by a tree: on one line, a marker or the opening fence of a token that begins on this line,
from its run to its info string -/
structure OnlyMarkup (s : List Char) (root : Node) (r : Extent) : Prop where
  online : ∃ i, OnLine s i r
  markup : ∃ m, slice? s r.start r.stop = some m ∧
    (IsMarker m ∨ ∃ n ∈ root.preorder, n.kind = .fence ∧ ∃ span, n.span? = some span ∧ OnLine s span.start r ∧
      ∃ run mid info, IsFenceRun run ∧ n.info? = some info ∧ m = run ++ mid ++ info.toList)

variable {s m : List Char} {root : Node} {r : Extent}

theorem IsMarker.ne_nil (h : IsMarker m) : m ≠ [] := by
  cases h with
  | atx h => simp; omega
  | underline hc hn => simp; omega
  | stress h =>
    obtain ⟨c, n, -, hn, rfl⟩ := h
    simp; omega
  | run h =>
    obtain ⟨c, n, -, hn, rfl⟩ := h
    simp; omega
  | bracket h => rintro rfl; simp at h

/-- a marker has no line end -/
theorem IsMarker.no_line_end (h : IsMarker m) : '\n' ∉ m ∧ '\r' ∉ m := by
  cases h with
  | atx h => simp [List.mem_replicate]
  | underline hc hn => rcases hc with rfl | rfl <;> simp [List.mem_replicate]
  | stress h =>
    obtain ⟨c, n, hc, -, rfl⟩ := h
    rcases hc with rfl | rfl | rfl <;> simp [List.mem_replicate]
  | run h =>
    obtain ⟨c, n, hc, -, rfl⟩ := h
    rcases hc with rfl | rfl <;> simp [List.mem_replicate]
  | bracket h =>
    simp only [List.mem_cons, List.not_mem_nil, or_false] at h
    rcases h with rfl | rfl | rfl | rfl | rfl | rfl | rfl <;> decide

theorem IsMarker.onlyMarkup (h : IsMarker m) (hs : slice? s r.start r.stop = some m) : OnlyMarkup s root r :=
  ⟨exists_onLine hs h.ne_nil h.no_line_end.1 h.no_line_end.2, m, hs, Or.inl h⟩

/-! ## Spelled trees -/

section Spelled

variable {nodes : List Node} (hspelled : ∀ n ∈ nodes, Spelled n)
include hspelled

theorem isDelimiter_of_isStress (h : IsStress nodes m) : IsDelimiter m := by
  rcases h with ⟨e, rfl⟩ | ⟨n, hn, hk, rfl⟩
  · cases e with
    | strong => exact ⟨'*', 2, by decide, by decide, rfl⟩
    | em => exact ⟨'*', 1, by decide, by decide, rfl⟩
    | strike => exact ⟨'~', 2, by decide, by decide, rfl⟩
  · exact (hspelled n hn).stress hk

theorem isFenceRun_fenceMarkerOf {n : Node} (hn : n ∈ nodes) (hk : n.kind = .fence) :
    IsFenceRun (fenceMarkerOf n) := by
  unfold fenceMarkerOf
  split_ifs with hempty
  · exact ⟨'`', 3, by decide, by decide, rfl⟩
  · exact ((hspelled n hn).fence hk).resolve_left fun h => hempty (by rw [h]; rfl)

theorem isMarker_of_markup (h : Markup nodes m) : IsMarker m := by
  cases h with
  | atx h => exact .atx h
  | underline hc hn => exact .underline hc hn
  | stress h => exact .stress (isDelimiter_of_isStress hspelled h)
  | ticks hn => exact .run ⟨'`', _, by decide, hn, rfl⟩
  | bracket h => exact .bracket h
  | @closeFence n c k hn hf hc hk =>
    obtain ⟨d, j, hd, -, hrun⟩ := isFenceRun_fenceMarkerOf hspelled hn hf
    have hcd : c = d := by
      rw [hrun] at hc
      exact List.eq_of_mem_replicate (List.mem_of_mem_head? hc)
    exact .run ⟨c, k, by rw [hcd]; exact hd, hk, rfl⟩

end Spelled

/-- a hide of decorations by a spelled tree covers only markup -/
theorem onlyMarkup_of_hide {x : Range} (hspelled : ∀ n ∈ root.preorder, Spelled n) (hx : x ∈ ofTree (.ofText s) root)
    (hk : x.kind = .hide) : OnlyMarkup s root x.extent := by
  obtain ⟨m, hs, hm | hm⟩ := markup_of_hide hx hk
  · exact (isMarker_of_markup hspelled hm).onlyMarkup hs
  obtain ⟨n, hn, hf, span, hspan, honline, hshape⟩ := hm
  have hrun := isFenceRun_fenceMarkerOf hspelled hn hf
  rcases hshape with rfl | ⟨info, mid, hinfo, rfl⟩
  · exact (IsMarker.run hrun).onlyMarkup hs
  · exact ⟨⟨_, honline⟩, _, hs, Or.inr ⟨n, hn, hf, span, hspan, honline, _, mid, info, hrun, hinfo, rfl⟩⟩

/-- **A text's decorations hide only markup**, whatever events a reader reports for the text. -/
theorem extract_hides_markup (text : List Char) :
    (∀ r ∈ extract text, r.kind = .hide → OnlyMarkup text (Token.parse text) r.extent) ∧
      ∀ es : List (Event × Extent), ∀ r ∈ ofTree (.ofText text) (Token.ofEvents (.ofText text) es),
        r.kind = .hide → OnlyMarkup text (Token.ofEvents (.ofText text) es) r.extent := by
  have hevents : ∀ es : List (Event × Extent), ∀ r ∈ ofTree (.ofText text) (Token.ofEvents (.ofText text) es),
      r.kind = .hide → OnlyMarkup text (Token.ofEvents (.ofText text) es) r.extent := fun es r hr hk =>
    onlyMarkup_of_hide (Token.ofEvents_spelled _ es) hr hk
  exact ⟨hevents (Markdown.Document.events text), hevents⟩

/-- an opening fence is hidden with its info string -/
theorem extract_hides_markup_fence :
    Range.hide 0 5 ∈ extract "```rs\nx\n```".toList ∧ (Range.hide 0 5).kind = .hide ∧
      OnlyMarkup "```rs\nx\n```".toList (Token.parse "```rs\nx\n```".toList) ⟨0, 5⟩ :=
  ⟨by decide +kernel, rfl, (extract_hides_markup "```rs\nx\n```".toList).1 (.hide 0 5) (by decide +kernel) rfl⟩

end MarkVeil.Decoration

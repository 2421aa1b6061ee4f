/-
Ranges of a whole tree.

All ranges of a tree are drawn (`collect_drawn`), whatever the tree: its lines may be outside the text, its markers
absent, its tokens unbalanced. Settling overlaps then leaves a list that is well formed. Main results:
- `ofTree_wellFormed`: what `ofTree` returns for a text and any tree is well formed;
- `markup_of_hide`: a hide of it hides a marker or an opening fence.
-/
import MarkVeil.Proofs.Decoration.Origin
import MarkVeil.Proofs.Decoration.Overlap
import MarkVeil.Proofs.Token.Preorder

namespace MarkVeil.Decoration

open MarkVeil.Text
open MarkVeil.Token (Node mem_preorderAll_of_mem mem_preorder_self)

variable {s : List Char} {nodes : List Node} {n : Node} {r : Range} {level line : Nat}

/-! ## Headings -/

theorem headingLevel?_bounds (h : n.headingLevel? = some level) : 1 ≤ level ∧ level ≤ 6 := by
  unfold Node.headingLevel? at h
  split at h
  · simpa using (Option.filter_eq_some_iff.1 h).2
  · simp at h

theorem atxHeading_drawn (hl : 1 ≤ level ∧ level ≤ 6) :
    ∀ r ∈ atxHeading (.ofText s) line level, Drawn s nodes r := by
  unfold atxHeading
  split
  next e text hextent htext =>
    split
    next parts hparts =>
      have hbase : (Source.ofText s).lines.start? line = some e.start := by
        rw [LineIndex.start?, hextent, Option.map_some]
      obtain ⟨-, hline⟩ := Source.extent?_of_lineText? hbase htext
      obtain ⟨hmarker, hcontent⟩ := Marker.Heading.atx?_sound hparts
      have hkind := leveled_heading (i := e.start + parts.contentStart) (j := e.stop) hl
      refine List.forall_mem_append.2 ⟨?_, ?_⟩
      · exact drawn_hide (slice?_slice? hline hmarker) (Or.inl (.atx hl))
      · exact drawn_style hkind.1 hkind.2 (hcontent.shift hline) (Source.isPlace_of_extent? hextent).2
    next => simp
  next => simp

theorem setextContent?_sound {first underline i j : Nat}
    (h : setextContent? (.ofText s) first underline = some (i, j)) : IsPlace s i ∧ IsPlace s j := by
  unfold setextContent? at h
  split at h
  next start text stop hstart htext hstop =>
    obtain ⟨rfl, rfl⟩ : start + Marker.Heading.contentStart text = i ∧ stop = j := by simpa using h
    obtain ⟨-, hline⟩ := Source.extent?_of_lineText? hstart htext
    obtain ⟨e, he, rfl⟩ := Option.map_eq_some_iff.1 hstop
    exact ⟨(Marker.Heading.isPlace_indentLen text).shift hline, (Source.isPlace_of_extent? he).2⟩
  next => simp at h

theorem setextHeading_drawn {span : LineSpan} (hl : 1 ≤ level ∧ level ≤ 6) :
    ∀ r ∈ setextHeading (.ofText s) span level, Drawn s nodes r := by
  unfold setextHeading
  simp only
  split_ifs
  · simp
  split
  next base marker hbase hmarker =>
    obtain ⟨text, htext, hmarker⟩ := Option.bind_eq_some_iff.1 hmarker
    obtain ⟨-, hline⟩ := Source.extent?_of_lineText? hbase htext
    obtain ⟨c, k, hc, hk, hslice⟩ := Marker.Heading.underline?_sound hmarker
    refine List.forall_mem_append.2 ⟨?_, ?_⟩
    · exact drawn_hide (slice?_slice? hline hslice) (Or.inl (.underline hc hk))
    · split
      next start stop hcontent =>
        obtain ⟨hi, hj⟩ := setextContent?_sound hcontent
        have hkind := leveled_heading (i := start) (j := stop) hl
        exact drawn_style hkind.1 hkind.2 hi hj
      next => simp
  next => simp

theorem heading_drawn : ∀ r ∈ heading (.ofText s) n, Drawn s nodes r := by
  unfold heading
  split
  next level span hlevel hspan =>
    have hl := headingLevel?_bounds hlevel
    split_ifs
    · simp
    · exact setextHeading_drawn hl
    · exact atxHeading_drawn hl
  next => simp

/-! ## Fences -/

theorem closingFence?_drawn {first : Nat} {rs : List Range} (hn : n ∈ nodes) (hk : n.kind = .fence)
    (h : closingFence? (.ofText s) first (fenceMarkerOf n) line = some rs) : ∀ r ∈ rs, Drawn s nodes r := by
  unfold closingFence? at h
  split_ifs at h
  split at h
  next base close hbase hclose =>
    obtain rfl := Option.some.inj h
    obtain ⟨text, htext, hclose⟩ := Option.bind_eq_some_iff.1 hclose
    obtain ⟨-, hline⟩ := Source.extent?_of_lineText? hbase htext
    obtain ⟨c, k, hc, hpos, hslice⟩ := Marker.Fence.closing?_sound hclose
    exact drawn_hide (slice?_slice? hline hslice) (Or.inl (.closeFence hn hk hc hpos))
  next => simp at h

theorem fence_drawn (hn : n ∈ nodes) (hk : n.kind = .fence) : ∀ r ∈ fence (.ofText s) n, Drawn s nodes r := by
  unfold fence
  split
  next => simp
  next span hspan =>
    simp only
    rw [← fenceMarkerOf]
    split
    next base first hbase hfirst =>
      obtain ⟨text, htext, hfirst⟩ := Option.bind_eq_some_iff.1 hfirst
      obtain ⟨hextent, hline⟩ := Source.extent?_of_lineText? hbase htext
      have hread := Marker.Fence.opening?_sound hfirst
      -- whatever was read, it is a slice of the fence's first line
      obtain ⟨m, hm, hshape⟩ : ∃ m, slice? text first.start first.stop = some m ∧
          (m = fenceMarkerOf n ∨
            ∃ info mid, n.info? = some info ∧ m = fenceMarkerOf n ++ mid ++ info.toList) := by
        rcases hread with hslice | ⟨info, mid, hinfo, hslice⟩
        · exact ⟨_, hslice, Or.inl rfl⟩
        · obtain ⟨info', hinfo', rfl⟩ := Option.map_eq_some_iff.1 hinfo
          exact ⟨_, hslice, Or.inr ⟨info', mid, hinfo', rfl⟩⟩
      have hstop := (IsPlace.of_slice hm).2.le
      have honline : OnLine s span.start ⟨base + first.start, base + first.stop⟩ :=
        ⟨_, hextent, by simp, by simpa using hstop⟩
      refine List.forall_mem_append.2 ⟨?_, ?_⟩
      · exact drawn_hide (slice?_slice? hline hm) (Or.inr ⟨n, hn, hk, span, hspan, honline, hshape⟩)
      · cases hclose : (closingFence? (.ofText s) span.start (fenceMarkerOf n) span.last).or
            (closingFence? (.ofText s) span.start (fenceMarkerOf n) span.stop) with
        | none => simp
        | some rs =>
          rcases Option.or_eq_some_iff.1 hclose with hlast | ⟨-, hnext⟩
          · exact closingFence?_drawn hn hk hlast
          · exact closingFence?_drawn hn hk hnext
    next => simp

/-! ## Trees -/

theorem bareRun_drawn {run : List Node} (hrun : ∀ n ∈ run, n ∈ nodes) :
    ∀ r ∈ bareRun (.ofText s) run, Drawn s nodes r := by
  cases run with
  | nil => simp [bareRun]
  | cons n run => exact Scan.run_drawn (Scan.start_sound _ _) hrun

mutual

theorem walk_drawn : ∀ n : Node, (∀ m ∈ n.preorder, m ∈ nodes) → ∀ r ∈ walk (.ofText s) n, Drawn s nodes r
  | ⟨kind, span?, markup, tag, info?, content?, children⟩, h => by
    obtain ⟨hself, hbelow⟩ := List.forall_mem_cons.1 h
    have hchildren : ∀ m ∈ children, m ∈ nodes := fun m hm => hbelow m (mem_preorderAll_of_mem hm)
    unfold walk
    split
    · exact heading_drawn
    · exact fence_drawn hself rfl
    · exact Scan.run_drawn (Scan.start_sound _ _) hchildren
    · exact walkAll_drawn children (by simp) hbelow

/-- ranges of tokens in order, after a run of tokens of the tree -/
theorem walkAll_drawn {run : List Node} : ∀ ns : List Node, (∀ m ∈ run, m ∈ nodes) →
    (∀ m ∈ Node.preorderAll ns, m ∈ nodes) → ∀ r ∈ walkAll (.ofText s) run ns, Drawn s nodes r
  | [], hrun, _ => bareRun_drawn fun m hm => hrun m (List.mem_reverse.1 hm)
  | n :: ns, hrun, h => by
    obtain ⟨hn, hns⟩ := List.forall_mem_append.1 h
    unfold walkAll
    split_ifs
    · exact walkAll_drawn ns (List.forall_mem_cons.2 ⟨hn n (mem_preorder_self n), hrun⟩) hns
    · refine List.forall_mem_append.2 ⟨bareRun_drawn fun m hm => hrun m (List.mem_reverse.1 hm), ?_⟩
      exact List.forall_mem_append.2 ⟨walk_drawn n hn, walkAll_drawn ns (by simp) hns⟩

end

/-- **All ranges of a tree are drawn**, whatever the tree. -/
theorem collect_drawn (s : List Char) (root : Node) : ∀ r ∈ collect (.ofText s) root, Drawn s root.preorder r :=
  walkAll_drawn [root] (by simp) fun m hm => by simpa [Node.preorderAll] using hm

/-! ## Well-formed decorations -/

/-- decorations that an editor can apply to a text -/
structure WellFormed (s : List Char) (rs : List Range) : Prop where
  nonempty : ∀ r ∈ rs, r.start < r.stop
  inside : ∀ r ∈ rs, r.stop ≤ byteLen s
  places : ∀ r ∈ rs, IsPlace s r.start ∧ IsPlace s r.stop
  /-- a styled range overlaps no other range -/
  styled_apart : rs.Pairwise fun a b => a.kind ≠ .hide ∨ b.kind ≠ .hide → a.Apart b
  /-- no two hides have the same bytes -/
  hides_differ : rs.Pairwise fun a b => a.kind = .hide → b.kind = .hide → a.extent ≠ b.extent
  leveled : ∀ r ∈ rs, r.Leveled

/-- **What `ofTree` returns for a text and any tree is well formed.** -/
theorem ofTree_wellFormed (text : List Char) (tree : Node) : WellFormed text (ofTree (.ofText text) tree) := by
  have hdrawn := collect_drawn text tree
  have hplaces : ∀ r ∈ ofTree (.ofText text) tree, IsPlace text r.start ∧ IsPlace text r.stop := fun r hr =>
    resolve_ends (fun x hx _ => ⟨(hdrawn x hx).start, (hdrawn x hx).stop⟩) hr
  refine ⟨?_, ?_, hplaces, resolve_disjoint _ _, resolve_hides_differ _ _, ?_⟩
  · intro r hr
    exact (kind_of_mem_resolve hr).1
  · intro r hr
    exact (hplaces r hr).2.le
  · intro r hr
    obtain ⟨-, x, hx, hk, hl, -⟩ := kind_of_mem_resolve hr
    exact (hdrawn x hx).leveled.of_eq hk hl

section OfTree

variable {root : Node}

/-- decorations by a tree begin and end at places -/
theorem ofTree_places (hr : r ∈ ofTree (.ofText s) root) : IsPlace s r.start ∧ IsPlace s r.stop :=
  resolve_ends (fun x hx _ => ⟨(collect_drawn s root x hx).start, (collect_drawn s root x hx).stop⟩) hr

theorem ofTree_nonempty {src : Source} (hr : r ∈ ofTree src root) : r.start < r.stop := (kind_of_mem_resolve hr).1

/-- **Every hide that is collected stays**, and no other hide is there. -/
theorem hide_mem_ofTree {i j : Nat} :
    Range.hide i j ∈ ofTree (.ofText s) root ↔ i < j ∧ Range.hide i j ∈ collect (.ofText s) root := by
  constructor
  · intro h
    obtain ⟨hlt, x, hx, -, -, heq⟩ := kind_of_mem_resolve h
    exact ⟨hlt, heq rfl ▸ hx⟩
  · rintro ⟨hlt, h⟩
    have hfits : (Range.hide i j).fits (byteLen s) = true := fits_iff.2 ⟨hlt, (collect_drawn s root _ h).stop.le⟩
    obtain ⟨x, hx, hk, he⟩ := exists_hide_mem_resolve h hfits rfl
    -- the hide that stays has no level either
    obtain ⟨-, y, hy, -, -, heq⟩ := kind_of_mem_resolve hx
    obtain rfl := heq hk
    have hlevel : x.level? = none := by
      have := (collect_drawn s root x hy).leveled.1
      simpa [hk] using this
    obtain ⟨start, stop, kind, level?⟩ := x
    obtain ⟨rfl, rfl⟩ : start = i ∧ stop = j := by simpa [Range.extent, Range.hide] using he
    obtain rfl : kind = .hide := hk
    obtain rfl : level? = none := hlevel
    exact hx

end OfTree

/-- **A hide hides a marker, or an opening fence on its line.** -/
theorem markup_of_hide {root : Node} (hr : r ∈ ofTree (.ofText s) root) (hk : r.kind = .hide) :
    ∃ m, slice? s r.start r.stop = some m ∧
      (Markup root.preorder m ∨ IsOpenFence s root.preorder r.extent m) := by
  obtain ⟨-, x, hx, -, -, heq⟩ := kind_of_mem_resolve hr
  obtain rfl := heq hk
  exact (collect_drawn s root r hx).markup hk

end MarkVeil.Decoration

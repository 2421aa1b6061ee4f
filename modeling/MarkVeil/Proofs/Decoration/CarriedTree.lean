/-
Trees over a text that another one carries.

A heading and a fence read whole lines, and everything else is left to the scans of `Carried`. So the walk of a tree
that stands as many lines further on collects the moved ranges (`collect_carried`).
-/
import MarkVeil.Proofs.Decoration.Carried

namespace MarkVeil.Decoration

open MarkVeil.Text
open MarkVeil.Token (Named Node mem_preorderAll_of_mem mem_preorder_self moveAll moveAll_eq)

variable {m : Move} {sc : Scope} {s t : List Char} {n : Node} {i j level : Nat}

section

variable (h : Carries m sc s t)
include h

/-! ## Headings -/

theorem atxHeading_carried (hi : sc.line (some i)) :
    atxHeading (.ofText t) (m.lines + i) level = (atxHeading (.ofText s) i level).map (·.move m) := by
  unfold atxHeading
  rw [h.extent hi, h.text hi]
  cases hextent : (Source.ofText s).lines.extent? i with
  | none => rfl
  | some e =>
    cases hline : (Source.ofText s).lineText? i with
    | none => rfl
    | some line =>
      have hbase : (Source.ofText s).lines.start? i = some e.start := by
        rw [LineIndex.start?, hextent, Option.map_some]
      simp only [Option.map_some]
      cases hatx : Marker.Heading.atx? line level with
      | none => rfl
      | some parts =>
        obtain ⟨hmarker, hcontent⟩ := Marker.Heading.atx?_sound hatx
        simp only [Move.extent, List.map_append]
        rw [hide_carried h hi hbase hline hmarker, ← h.offset_add hi hbase hline hcontent.le, ← style_move h.mono]
        rfl

theorem setextContent?_carried (hi : sc.line (some i)) (hj : sc.line (some j)) (hij : i < j) :
    setextContent? (.ofText t) (m.lines + i) (m.lines + j) =
      (setextContent? (.ofText s) i j).map fun p => (m.offset p.1, m.offset p.2) := by
  have hprev : sc.line (some (j - 1)) := h.earlier hj (Nat.sub_le _ _)
  have hsub : m.lines + j - 1 = m.lines + (j - 1) := by omega
  unfold setextContent?
  rw [h.start? hi, h.text hi, hsub, h.stop? hprev]
  cases hbase : (Source.ofText s).lines.start? i with
  | none => rfl
  | some base =>
    cases hline : (Source.ofText s).lineText? i with
    | none => rfl
    | some line =>
      cases (Source.ofText s).lines.stop? (j - 1) with
      | none => rfl
      | some stop =>
        have hplace := (Marker.Heading.isPlace_indentLen line).le
        simp only [Option.map_some, Marker.Heading.contentStart, h.offset_add hi hbase hline hplace]

theorem setextHeading_carried {span : LineSpan} (hfirst : sc.line (some span.start))
    (hlast : sc.line (some span.last)) :
    setextHeading (.ofText t) (m.span span) level = (setextHeading (.ofText s) span level).map (·.move m) := by
  have hstart : (m.span span).start = m.lines + span.start := rfl
  unfold setextHeading
  simp only [m.last_span, hstart, Nat.add_le_add_iff_left]
  split_ifs with hle
  · rfl
  rw [h.start? hlast, h.text hlast, setextContent?_carried h hfirst hlast (Nat.lt_of_not_le hle)]
  cases hbase : (Source.ofText s).lines.start? span.last with
  | none => rfl
  | some base =>
    cases hline : (Source.ofText s).lineText? span.last with
    | none => rfl
    | some line =>
      simp only [Option.map_some, Option.bind_some]
      cases hunder : Marker.Heading.underline? line with
      | none => rfl
      | some marker =>
        obtain ⟨c, k, -, -, hslice⟩ := Marker.Heading.underline?_sound hunder
        simp only [List.map_append, hide_carried h hlast hbase hline hslice]
        cases setextContent? (.ofText s) span.start span.last with
        | none => rfl
        | some p =>
          simp only [Option.map_some, ← style_move h.mono]
          rfl

theorem heading_carried (hn : Named sc n) :
    heading (.ofText t) (n.move m) = (heading (.ofText s) n).map (·.move m) := by
  have hlevel : (n.move m).headingLevel? = n.headingLevel? := by
    rw [Node.headingLevel?, Node.tag_move, Node.headingLevel?]
  have hfirst := hn.first
  have hlast := hn.last
  unfold heading
  rw [hlevel, Node.span?_move, Node.markup_move]
  cases n.headingLevel? with
  | none => rfl
  | some level =>
    cases hspan : n.span? with
    | none => rfl
    | some span =>
      rw [hspan] at hfirst hlast
      have hline : (Source.ofText t).hasLine (m.span span).start = (Source.ofText s).hasLine span.start :=
        h.hasLine hfirst
      simp only [Option.map_some, hline]
      split_ifs
      · rfl
      · exact setextHeading_carried h hfirst hlast
      · exact atxHeading_carried h hfirst

/-! ## Fences -/

theorem closingFence?_carried {marker : List Char} (hj : sc.line (some j)) :
    closingFence? (.ofText t) (m.lines + i) marker (m.lines + j) =
      (closingFence? (.ofText s) i marker j).map (List.map (·.move m)) := by
  unfold closingFence?
  rw [h.start? hj, h.text hj]
  simp only [Nat.add_le_add_iff_left]
  split_ifs
  · rfl
  cases hbase : (Source.ofText s).lines.start? j with
  | none => rfl
  | some base =>
    cases hline : (Source.ofText s).lineText? j with
    | none => rfl
    | some line =>
      simp only [Option.map_some, Option.bind_some]
      cases hclose : Marker.Fence.closing? line marker with
      | none => rfl
      | some close =>
        obtain ⟨c, k, -, -, hslice⟩ := Marker.Fence.closing?_sound hclose
        simp only [hide_carried h hj hbase hline hslice, Option.map_some]

theorem fence_carried (hn : Named sc n) (hk : n.kind = .fence) :
    fence (.ofText t) (n.move m) = (fence (.ofText s) n).map (·.move m) := by
  have hfirst := hn.first
  have hlast := hn.last
  have hbehind := hn.behind hk
  unfold fence
  rw [Node.span?_move, Node.markup_move, Node.info?_move]
  cases hspan : n.span? with
  | none => rfl
  | some span =>
    rw [hspan] at hfirst hlast hbehind
    have hstart : (m.span span).start = m.lines + span.start := rfl
    have hstop : (m.span span).stop = m.lines + span.stop := rfl
    simp only [Option.map_some, m.last_span, hstart, hstop]
    rw [h.start? hfirst, h.text hfirst, closingFence?_carried h hlast, closingFence?_carried h hbehind]
    cases hbase : (Source.ofText s).lines.start? span.start with
    | none => rfl
    | some base =>
      cases hline : (Source.ofText s).lineText? span.start with
      | none => rfl
      | some line =>
        simp only [Option.map_some, Option.bind_some]
        generalize (if n.markup.isEmpty = true then Marker.Fence.defaultMarker.toList else n.markup.toList) = marker
        cases hopening : Marker.Fence.opening? line marker (n.info?.map String.toList) with
        | none => rfl
        | some first =>
          obtain ⟨fenced, hslice⟩ := Marker.Fence.opening?_slice hopening
          simp only [List.map_append, hide_carried h hfirst hbase hline hslice]
          cases closingFence? (.ofText s) span.start marker span.last with
          | some rs => rfl
          | none => cases closingFence? (.ofText s) span.start marker span.stop <;> rfl

/-! ## Trees -/

theorem bareRun_carried (run : List Node) (hrun : ∀ x ∈ run, x.kind.isInline = true ∧ Named sc x) :
    bareRun (.ofText t) (run.map (·.move m)) = (bareRun (.ofText s) run).map (·.move m) := by
  cases run with
  | nil => rfl
  | cons n run =>
    obtain ⟨hstart, hnamed⟩ := Scan.start_carried h (hrun n List.mem_cons_self).2.first
    have hscan := Scan.run_carried h (n :: run) (fun x hx _ => (hrun x hx).2) hnamed
    rw [← hstart] at hscan
    rw [List.map_cons, bareRun, Node.span?_move]
    exact hscan

end

mutual

theorem walk_carried (h : Carries m sc s t) : ∀ n : Node, n.kind.isInline = false →
    (∀ x ∈ n.preorder, x.kind.isPlaced = true → Named sc x) →
    walk (.ofText t) (n.move m) = (walk (.ofText s) n).map (·.move m)
  | ⟨kind, span?, markup, tag, info?, content?, children⟩, _, hn => by
    obtain ⟨hself, hbelow⟩ := List.forall_mem_cons.1 hn
    have hchildren : ∀ x ∈ children, x.kind.isInline = true → Named sc x := by
      intro x hx hk
      refine hbelow x (mem_preorderAll_of_mem hx) ?_
      rw [Token.Kind.isPlaced, hk]
      rfl
    have hall := walkAll_carried h [] children (by simp) hbelow
    cases kind with
    | headingOpen => exact heading_carried h (hself rfl)
    | fence => exact fence_carried h (hself rfl) rfl
    | inline =>
      obtain ⟨hstart, hnamed⟩ := Scan.start_carried h (hself rfl).first
      have hscan := Scan.run_carried h children hchildren hnamed
      rw [← hstart, ← moveAll_eq] at hscan
      exact hscan
    | _ => exact hall

/-- ranges of tokens in order, after a run of inline tokens -/
theorem walkAll_carried (h : Carries m sc s t) (run : List Node) : ∀ ns : List Node,
    (∀ x ∈ run, x.kind.isInline = true ∧ Named sc x) →
    (∀ x ∈ Node.preorderAll ns, x.kind.isPlaced = true → Named sc x) →
    walkAll (.ofText t) (run.map (·.move m)) (moveAll m ns) = (walkAll (.ofText s) run ns).map (·.move m)
  | [], hrun, _ => by
    have hbare := bareRun_carried h run.reverse fun x hx => hrun x (List.mem_reverse.1 hx)
    rw [List.map_reverse] at hbare
    exact hbare
  | n :: ns, hrun, hn => by
    obtain ⟨hnode, hns⟩ := List.forall_mem_append.1 hn
    rw [moveAll, walkAll, walkAll, Node.kind_move]
    cases hk : n.kind.isInline with
    | true =>
      have hself : Named sc n := hnode n (mem_preorder_self n) (by rw [Token.Kind.isPlaced, hk]; rfl)
      rw [if_pos rfl, if_pos rfl]
      exact walkAll_carried h (n :: run) ns (List.forall_mem_cons.2 ⟨⟨hk, hself⟩, hrun⟩) hns
    | false =>
      have hbare := bareRun_carried h run.reverse fun x hx => hrun x (List.mem_reverse.1 hx)
      rw [List.map_reverse] at hbare
      have hrest := walkAll_carried h [] ns (by simp) hns
      rw [if_neg Bool.false_ne_true, if_neg Bool.false_ne_true, List.map_append, List.map_append, hbare,
        walk_carried h n hk hnode]
      exact congrArg _ (congrArg _ hrest)

end

/-- **A tree that stands as many lines further on collects the moved ranges.** -/
theorem collect_carried (h : Carries m sc s t) (root : Node)
    (hroot : ∀ x ∈ root.preorder, x.kind.isPlaced = true → Named sc x) :
    collect (.ofText t) (root.move m) = (collect (.ofText s) root).map (·.move m) :=
  walkAll_carried h [] [root] (by simp) fun x hx => hroot x (by simpa [Node.preorderAll] using hx)

end MarkVeil.Decoration

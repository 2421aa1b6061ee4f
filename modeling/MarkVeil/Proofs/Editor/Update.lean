/-
What an update tells an editor.

`Shown` says which ranges of a document an editor decorates: those of an enabled kind whose lines no selection reaches
while selected lines are revealed. Main results:
- `decorations_get`: the groups hold exactly these, kind by kind and in order;
- `not_selected`: no byte that an editor decorates is on a selected line;
- `update_exact`: an update of an allowed language makes one call for each kind, with exactly these ranges.
-/
import MarkVeil.Editor.Decorator
import MarkVeil.Proofs.Decoration.Collect

namespace MarkVeil.Editor

open MarkVeil.Text
open MarkVeil.Decoration (Kind Range Reader extract ofTree_nonempty ofTree_places resolve_disjoint resolve_hides_differ)

variable {read : Reader} {o : Options} {h : Host} {g : Groups} {f : Kind → List Extent} {k : Kind} {r : Range}
  {s : List Char}

/-! ## Groups -/

namespace Groups

theorem lookup_filterMap (f : Kind → List Extent) (ks : List Kind) (k : Kind) :
    (ks.filterMap fun k => if (f k).isEmpty then none else some (k, f k)).lookup k =
      if k ∈ ks ∧ f k ≠ [] then some (f k) else none := by
  induction ks with
  | nil => simp
  | cons j ks ih =>
    by_cases hj : f j = []
    · have hk : k = j → f k = [] := fun hkj => hkj ▸ hj
      rw [List.filterMap_cons_none (by simp [hj]), ih]
      grind
    · rw [List.filterMap_cons_some (by rw [if_neg (by simpa using hj)]), List.lookup_cons, ih]
      by_cases hk : k = j
      · subst hk
        simp [hj]
      · simp [hk, beq_eq_false_iff_ne.2 hk]

/-- groups given kind by kind hold what is given -/
@[simp] theorem get_ofFun (f : Kind → List Extent) (k : Kind) : (ofFun f).get k = f k := by
  rw [get, ofFun, lookup_filterMap]
  by_cases hk : f k = []
  · simp [hk]
  · simp [hk, Kind.mem_all]

/-- they list the kinds that have a stretch, in order -/
theorem entries_ofFun (f : Kind → List Extent) :
    (ofFun f).entries = (Kind.all.filter fun k => f k ≠ []).map fun k => (k, f k) := by
  simp only [ofFun]
  induction Kind.all with
  | nil => rfl
  | cons k ks ih =>
    by_cases hk : f k = []
    · rw [List.filterMap_cons_none (by simp [hk]), ih, List.filter_cons_of_neg (by simp [hk])]
    · rw [List.filterMap_cons_some (by rw [if_neg (by simpa using hk)]), ih, List.filter_cons_of_pos (by simpa using hk),
        List.map_cons]

@[simp] theorem get_restrict (p : Kind → Bool) (g : Groups) (k : Kind) :
    (g.restrict p).get k = if p k then g.get k else [] := by
  rw [restrict, get_ofFun]

theorem ofFun_get_restrict (p : Kind → Bool) (g : Groups) : ofFun (g.restrict p).get = g.restrict p := by
  rw [restrict]
  exact congrArg ofFun (funext (get_ofFun _))

@[simp] theorem get_set (g : Groups) (j : Kind) (es : List Extent) (k : Kind) :
    (g.set j es).get k = if k = j then es else g.get k := by
  rw [set, get_ofFun]

end Groups

/-! ## Ranges that are shown -/

/-- the selection reaches none of the lines from that of `start` to that of `stop`: it ends before or begins after -/
def Selection.Misses (s : List Char) (sel : Selection) (start stop : Nat) : Prop :=
  sel.last < (LineIndex.ofText s).lineOf start ∨ (LineIndex.ofText s).lineOf stop < sel.first

instance (s : List Char) (sel : Selection) (start stop : Nat) : Decidable (sel.Misses s start stop) :=
  inferInstanceAs (Decidable (_ ∨ _))

/-- an editor decorates the range: its kind is enabled, and no selection reaches its lines if these are revealed -/
def Shown (o : Options) (h : Host) (r : Range) : Prop :=
  r.kind ∉ o.disabledKinds ∧
    (o.revealSelectedLines = true → ∀ sel ∈ h.selections, sel.Misses h.text r.start r.stop)

instance (o : Options) (h : Host) (r : Range) : Decidable (Shown o h r) := inferInstanceAs (Decidable (_ ∧ _))

/-- stretches of a kind that an editor decorates, in the order of the document's ranges -/
def shown (o : Options) (h : Host) (k : Kind) (read : Reader := Token.parse) : List Extent :=
  ((extract h.text read).filter fun r => r.kind = k ∧ Shown o h r).map Range.extent

theorem mem_shown {e : Extent} :
    e ∈ shown o h k read ↔ ∃ r ∈ extract h.text read, r.kind = k ∧ Shown o h r ∧ r.extent = e := by
  simp [shown, and_assoc]

/-- a selection in order misses the lines of a stretch exactly if it has none of them -/
theorem Selection.misses_iff {sel : Selection} (hsel : sel.first ≤ sel.last) {start stop : Nat} (h : start ≤ stop) :
    sel.Misses s start stop ↔ ∀ i, (LineIndex.ofText s).lineOf start ≤ i → i ≤ (LineIndex.ofText s).lineOf stop →
      ¬ (sel.first ≤ i ∧ i ≤ sel.last) := by
  have hmono := LineIndex.lineOf_mono (LineIndex.ofText s) h
  unfold Selection.Misses
  constructor
  · intro hmiss i h1 h2 h3
    omega
  · intro hnone
    by_contra hmeets
    exact hnone (max sel.first ((LineIndex.ofText s).lineOf start)) (by omega) (by omega) (by omega)

/-- no range is applied twice -/
theorem nodup_shown (read : Reader) (o : Options) (h : Host) (k : Kind) : (shown o h k read).Nodup := by
  refine List.pairwise_map.2 ?_
  -- two ranges of one kind are two hides, or they are styled and share no byte
  have hpair : (extract h.text read).Pairwise fun a b => (a.kind ≠ .hide ∨ b.kind ≠ .hide → a.Apart b) ∧
      (a.kind = .hide → b.kind = .hide → a.extent ≠ b.extent) :=
    (resolve_disjoint _ _).and (resolve_hides_differ _ _)
  refine (hpair.filter _).imp_of_mem ?_
  rintro a b ha hb ⟨happart, hdiffer⟩ heq
  obtain ⟨ha, hak⟩ := List.mem_filter.1 ha
  obtain ⟨hb, hbk⟩ := List.mem_filter.1 hb
  replace hak : a.kind = k := (of_decide_eq_true hak).1
  replace hbk : b.kind = k := (of_decide_eq_true hbk).1
  by_cases hk : k = .hide
  · exact hdiffer (hak.trans hk) (hbk.trans hk) heq
  · have hlt := ofTree_nonempty ha
    have hstart : a.start = b.start := congrArg Extent.start heq
    have hstop : a.stop = b.stop := congrArg Extent.stop heq
    rcases happart (Or.inl (hak ▸ hk)) with hle | hle <;> omega

/-- **No byte that an editor decorates is on a selected line** while selected lines are revealed. -/
theorem not_selected (hreveal : o.revealSelectedLines = true) {e : Extent} (he : e ∈ shown o h k read) {p : Nat}
    (hp : e.Has p) {sel : Selection} (hsel : sel ∈ h.selections) :
    ¬ (sel.first ≤ (LineIndex.ofText h.text).lineOf p ∧ (LineIndex.ofText h.text).lineOf p ≤ sel.last) := by
  obtain ⟨r, -, -, hshown, rfl⟩ := mem_shown.1 he
  have hstart := LineIndex.lineOf_mono (LineIndex.ofText h.text) hp.1
  have hstop := LineIndex.lineOf_mono (LineIndex.ofText h.text) hp.2.le
  have hmiss := hshown.2 hreveal sel hsel
  unfold Selection.Misses at hmiss
  simp only [Range.extent] at hstart hstop
  omega

/-- what is shown of a kind does not depend on whether another kind is disabled -/
theorem shown_disable {j : Kind} (hk : k ≠ j) :
    shown { o with disabledKinds := j :: o.disabledKinds } h k read = shown o h k read := by
  refine congrArg (List.map Range.extent) (List.filter_congr ?_)
  intro r _
  rw [decide_eq_decide]
  refine and_congr_right ?_
  rintro rfl
  simp [Shown, hk]

/-! ## Updates -/

/-- a position of an offset in the text is on the offset's line -/
theorem position_line {p : Nat} (hp : p ≤ byteLen s) :
    ((LineIndex.ofText s).position p).line = (LineIndex.ofText s).lineOf p := by
  rw [LineIndex.position, LineIndex.ofText, Nat.min_eq_left hp]

section Positions

variable (hpos : h.position = (LineIndex.ofText h.text).position)
include hpos

/-- the ranges that an update keeps are those that are shown -/
theorem isRevealed_iff (hr : r ∈ extract h.text read) (hk : r.kind ∉ o.disabledKinds) :
    Groups.isRevealed (if o.revealSelectedLines then h.selections else [])
      (fun offset => (h.position offset).line) r = false ↔ Shown o h r := by
  have hle := (ofTree_places hr).2.le
  have hlt := ofTree_nonempty hr
  have hstart : (h.position r.start).line = (LineIndex.ofText h.text).lineOf r.start := by
    rw [hpos]
    exact position_line (by omega)
  have hstop : (h.position r.stop).line = (LineIndex.ofText h.text).lineOf r.stop := by
    rw [hpos]
    exact position_line hle
  cases hreveal : o.revealSelectedLines with
  | false => simp [Groups.isRevealed, Shown, hk, hreveal]
  | true =>
    simp only [Groups.isRevealed, Selection.meets, Shown, hk, hreveal, hstart, hstop, Selection.Misses, if_true,
      not_false_eq_true, true_and, forall_const, List.any_eq_false, Bool.and_eq_true, decide_eq_true_eq]
    refine forall₂_congr fun sel _ => ?_
    omega

/-- **The groups hold exactly the ranges that are shown**, kind by kind and in order. -/
theorem decorations_get (k : Kind) : (decorations o h read).get k = shown o h k read := by
  simp only [decorations, Groups.ofRanges, Groups.get_restrict, Groups.get_ofFun, List.filter_filter]
  by_cases hk : k ∈ o.disabledKinds
  · have henabled : o.isEnabled k = false := by simp [Options.isEnabled, hk]
    rw [henabled, if_neg Bool.false_ne_true, eq_comm, shown, List.map_eq_nil_iff, List.filter_eq_nil_iff]
    intro r _ hr
    obtain ⟨rfl, hshown⟩ := of_decide_eq_true hr
    exact hshown.1 hk
  · have henabled : o.isEnabled k = true := by simp [Options.isEnabled, hk]
    rw [if_pos henabled]
    refine congrArg (List.map Range.extent) (List.filter_congr ?_)
    intro r hr
    rw [Bool.eq_iff_iff, Bool.and_eq_true, decide_eq_true_eq, decide_eq_true_eq]
    refine and_congr_right ?_
    intro hrk
    rw [Bool.not_eq_true']
    exact isRevealed_iff hpos hr (hrk ▸ hk)

theorem decorations_eq : decorations o h read = Groups.ofFun (shown o h · read) := by
  have hget : (decorations o h read).get = (shown o h · read) := funext (decorations_get hpos)
  rw [← hget, decorations, Groups.ofFun_get_restrict]

theorem update_allowed (hlang : o.appliesTo h.language = true) :
    update o h read = (some (Groups.ofFun (shown o h · read)), Kind.all.map fun k => (k, shown o h k read)) := by
  rw [update, if_pos hlang, calls, decorations_eq hpos]
  simp only [Groups.get_ofFun]

end Positions

theorem update_other (hlang : o.appliesTo h.language = false) : update o h read = (none, []) := by
  rw [update, if_neg (by simp [hlang])]

/-- what an editor is told when a document is decorated -/
structure Told (o : Options) (h : Host) (g : Groups) (cs : List Call) (read : Reader := Token.parse) : Prop where
  /-- one call for each kind, in order, with the ranges that are shown -/
  called : cs = Kind.all.map fun k => (k, shown o h k read)
  returned : ∀ k, g.get k = shown o h k read
  /-- only kinds with a range are listed -/
  listed : g.entries = (Kind.all.filter fun k => shown o h k read ≠ []).map fun k => (k, shown o h k read)
  /-- every range that is shown is told once -/
  once : ∀ r ∈ extract h.text read, Shown o h r → (g.get r.kind).count r.extent = 1
  /-- nothing else is told -/
  only : ∀ k, ∀ e ∈ g.get k, ∃ r ∈ extract h.text read, r.kind = k ∧ Shown o h r ∧ r.extent = e
  /-- selected lines stay as they are written -/
  revealed : o.revealSelectedLines = true → ∀ k, ∀ e ∈ g.get k, ∀ p, e.Has p → ∀ sel ∈ h.selections,
    ¬ (sel.first ≤ (LineIndex.ofText h.text).lineOf p ∧ (LineIndex.ofText h.text).lineOf p ≤ sel.last)
  /-- to disable a kind takes its ranges away and no others -/
  disabled : ∀ j k, (decorations { o with disabledKinds := j :: o.disabledKinds } h read).get k =
    if k = j then [] else g.get k

/-- **An update leaves documents of other languages alone, and tells of an allowed one exactly what is shown**: the
ranges whose kind is enabled and whose lines have no line of a selection. Nothing is asked of the reader of tokens. -/
theorem update_exact (read : Reader) (o : Options) (h : Host) (hpos : h.position = (LineIndex.ofText h.text).position) :
    (update o h read = (none, []) ↔ o.appliesTo h.language = false) ∧
      (o.appliesTo h.language = true → ∃ g cs, update o h read = (some g, cs) ∧ Told o h g cs read) ∧
      ∀ sel ∈ h.selections, sel.first ≤ sel.last → ∀ r ∈ extract h.text read, sel.Misses h.text r.start r.stop ↔
        ∀ i, (LineIndex.ofText h.text).lineOf r.start ≤ i → i ≤ (LineIndex.ofText h.text).lineOf r.stop →
          ¬ (sel.first ≤ i ∧ i ≤ sel.last) := by
  refine ⟨?_, ?_, ?_⟩
  · cases hlang : o.appliesTo h.language with
    | false => simp [update_other hlang]
    | true => simp [update_allowed hpos hlang]
  · intro hlang
    refine ⟨_, _, update_allowed hpos hlang, ?_⟩
    refine ⟨rfl, Groups.get_ofFun _, Groups.entries_ofFun _, ?_, ?_, ?_, ?_⟩
    · intro r hr hshown
      rw [Groups.get_ofFun]
      exact List.count_eq_one_of_mem (nodup_shown read o h r.kind) (mem_shown.2 ⟨r, hr, rfl, hshown, rfl⟩)
    · intro k e he
      rw [Groups.get_ofFun] at he
      exact mem_shown.1 he
    · intro hreveal k e he p hp sel hsel
      rw [Groups.get_ofFun] at he
      exact not_selected hreveal he hp hsel
    · intro j k
      rw [Groups.get_ofFun, decorations_get hpos]
      split_ifs with hk
      · rw [List.eq_nil_iff_forall_not_mem]
        intro e he
        obtain ⟨r, -, rfl, hshown, -⟩ := mem_shown.1 he
        exact hshown.1 (by simp [hk])
      · exact shown_disable hk
  · intro sel _ hle r hr
    exact Selection.misses_iff hle (ofTree_nonempty hr).le

/-- with the first line selected and code disabled, the markers of the second line and its bold text are told -/
theorem update_exact_second_line :
    let o : Options := { Options.default with disabledKinds := [.code] }
    let s := "# T\n**b** `c`".toList
    let h : Host := ⟨"MD", s, (LineIndex.ofText s).position, [.line 0]⟩
    h.position = (LineIndex.ofText h.text).position ∧ o.appliesTo h.language = true ∧
      Selection.line 0 ∈ h.selections ∧ (Selection.line 0).first ≤ (Selection.line 0).last ∧
      shown o h .hide = [⟨4, 6⟩, ⟨7, 9⟩, ⟨10, 11⟩, ⟨12, 13⟩] ∧ shown o h .bold = [⟨6, 7⟩] ∧
      shown o h .heading1 = [] ∧ shown o h .code = [] ∧
      ∃ g cs, update o h = (some g, cs) ∧ Told o h g cs := by
  intro o s h
  have hlang : o.appliesTo h.language = true := by decide +kernel
  refine ⟨rfl, hlang, List.mem_singleton.2 rfl, le_rfl, by decide +kernel, by decide +kernel, by decide +kernel,
    by decide +kernel, ?_⟩
  exact (update_exact Token.parse o h rfl).2.1 hlang

end MarkVeil.Editor

/-
What the table of a document holds.

Every statement of a document begins with a name, which may be the first of a path (`Document.names`). It adds a value
of that name or adds to it, leaves the values of all other names as they are, and adds to no value that is closed
(`Adds`). Main results:
- `Document.lookup_eq_none`: the table has a value for exactly the names that a statement begins with;
- `lookup_of_ofText?`: a value that the text of a document assigns to a name is that name's in the table.
-/
import MarkVeil.Proofs.Toml.Document

namespace MarkVeil.Toml

/-- nothing can be added to the value -/
def Value.IsClosed : Value → Prop
  | .table form _ => form = .inline
  | .tables _ => False
  | _ => True

/-- from a table to one with a value more below a name -/
structure Adds (k : Key) (es es' : Entries) : Prop where
  here : (es'.lookup k).isSome = true
  elsewhere : ∀ j, j ≠ k → es'.lookup j = es.lookup j
  /-- what was there before was no closed value -/
  unclosed : ∀ v, es.lookup k = some v → ¬ v.IsClosed

/-- statements that begin with the names in the list make one table of another -/
inductive Grows : List Key → Entries → Entries → Prop
  | nil (es : Entries) : Grows [] es es
  | cons {k : Key} {ks : List Key} {es es' es'' : Entries} (h : Adds k es es') (hs : Grows ks es' es'') :
    Grows (k :: ks) es es''

variable {es es' es'' : Entries} {k j : Key} {ks js : List Key} {u v : Value} {as bs : List Assignment} {a : Assignment}
  {path : Path} {making form : Form} {change : Form → Entries → Option Entries} {d : Document} {s rest : List Char}

/-! ## Entries -/

namespace Entries

theorem lookup_cons_ne (h : j ≠ k) (v : Value) (es : Entries) : List.lookup j ((k, v) :: es) = es.lookup j := by
  rw [List.lookup_cons, beq_eq_false_iff_ne.2 h]

theorem lookup_replace_ne (h : j ≠ k) (v : Value) (es : Entries) : (replace k v es).lookup j = es.lookup j := by
  induction es with
  | nil => rfl
  | cons e es ih =>
    obtain ⟨i, u⟩ := e
    rw [replace]
    split_ifs with hi
    · obtain rfl : i = k := hi
      rw [lookup_cons_ne h, lookup_cons_ne h]
    · rw [List.lookup_cons, List.lookup_cons, ih]

theorem lookup_replace_self (h : es.lookup k = some u) (v : Value) : (replace k v es).lookup k = some v := by
  induction es with
  | nil => cases h
  | cons e es ih =>
    obtain ⟨i, w⟩ := e
    rw [replace]
    split_ifs with hi
    · exact List.lookup_cons_self
    · have hki : (k == i) = false := by simpa using Ne.symm hi
      rw [List.lookup_cons, hki] at h ⊢
      exact ih h

theorem adds_append (h : es.lookup k = none) (v : Value) : Adds k es (es ++ [(k, v)]) where
  here := by simp [List.lookup_append, h]
  elsewhere j hj := by rw [List.lookup_append, lookup_cons_ne hj, List.lookup_nil, Option.or_none]
  unclosed u hu := by rw [h] at hu; cases hu

theorem adds_replace (h : es.lookup k = some u) (hu : ¬ u.IsClosed) (v : Value) : Adds k es (replace k v es) where
  here := by rw [lookup_replace_self h, Option.isSome_some]
  elsewhere j hj := lookup_replace_ne hj v es
  unclosed w hw := by rw [h] at hw; exact Option.some.inj hw ▸ hu

/-! ## Statements -/

/-- a change at the end of a path adds below the path's first name -/
theorem adds_within? (h : within? making change (k :: path) form es = some es') : Adds k es es' := by
  rw [within?] at h
  split at h
  next hnone =>
    obtain ⟨t, -, rfl⟩ := Option.map_eq_some_iff.1 h
    exact adds_append hnone _
  next form' t hsome =>
    split_ifs at h with hform
    obtain ⟨t', -, rfl⟩ := Option.map_eq_some_iff.1 h
    exact adds_replace hsome (fun hclosed => hform (Or.inl hclosed)) _
  next rows hsome =>
    split at h
    · obtain ⟨t', -, rfl⟩ := Option.map_eq_some_iff.1 h
      exact adds_replace hsome id _
    · cases h
  next => cases h

def first (path : Path) : Key := path.headD []

/-- a path of two names or more ends in a name, and what is above that begins with the first -/
theorem exists_reverse (k j : Key) (path : Path) : ∃ l above, (k :: j :: path).reverse = l :: (above ++ [k]) := by
  obtain ⟨l, above, hrest⟩ := List.exists_cons_of_ne_nil (List.reverse_ne_nil_iff.2 (List.cons_ne_nil j path))
  exact ⟨l, above, by rw [List.reverse_cons, hrest, List.cons_append]⟩

theorem insert?_eq_some : insert? k v es = some es' ↔ es.lookup k = none ∧ es' = es ++ [(k, v)] := by
  rw [insert?]
  cases es.lookup k <;> simp [eq_comm]

theorem assign?_single (k : Key) (v : Value) (es : Entries) : assign? es ⟨[k], v⟩ = insert? k v es := by
  simp [assign?, within?]

theorem adds_assign? (h : assign? es a = some es') : Adds (first a.path) es es' := by
  obtain ⟨path, v⟩ := a
  match path with
  | [] => cases h
  | [k] =>
    rw [assign?_single, insert?_eq_some] at h
    obtain ⟨hnone, rfl⟩ := h
    exact adds_append hnone v
  | k :: j :: path =>
    obtain ⟨l, above, hreverse⟩ := exists_reverse k j path
    rw [assign?, hreverse] at h
    simp only [List.reverse_append, List.reverse_singleton, List.singleton_append] at h
    exact adds_within? h

theorem adds_open? (h : open? k as es = some es') : Adds k es es' := by
  unfold open? at h
  split at h
  next hnone =>
    obtain ⟨t, -, rfl⟩ := Option.map_eq_some_iff.1 h
    exact adds_append hnone _
  next t hsome =>
    obtain ⟨t', -, rfl⟩ := Option.map_eq_some_iff.1 h
    exact adds_replace hsome (fun hclosed => by cases hclosed) _
  next => cases h

theorem adds_push? (h : push? k as es = some es') : Adds k es es' := by
  unfold push? at h
  split at h
  next hnone =>
    obtain ⟨t, -, rfl⟩ := Option.map_eq_some_iff.1 h
    exact adds_append hnone _
  next rows hsome =>
    obtain ⟨t', -, rfl⟩ := Option.map_eq_some_iff.1 h
    exact adds_replace hsome id _
  next => cases h

theorem adds_extend? {c : Section} (h : extend? es c = some es') : Adds (first c.path) es es' := by
  obtain ⟨repeated, path, as⟩ := c
  match path with
  | [] => cases h
  | [k] =>
    simp only [extend?, List.reverse_singleton, List.reverse_nil, within?] at h
    split_ifs at h
    · exact adds_push? h
    · exact adds_open? h
  | k :: j :: path =>
    obtain ⟨l, above, hreverse⟩ := exists_reverse k j path
    rw [extend?, hreverse] at h
    simp only [List.reverse_append, List.reverse_singleton, List.singleton_append] at h
    exact adds_within? h

theorem grows_append (h : Grows ks es es') (h' : Grows js es' es'') : Grows (ks ++ js) es es'' := by
  induction h with
  | nil => exact h'
  | cons hadds _ ih => exact .cons hadds (ih h')

theorem lookup_isSome_of_grows (h : Grows ks es es') :
    (es'.lookup k).isSome = true ↔ (es.lookup k).isSome = true ∨ k ∈ ks := by
  induction h with
  | nil => simp
  | @cons j ks es es₁ es' hadds _ ih =>
    rw [ih, List.mem_cons]
    by_cases hk : k = j
    · subst hk
      simp [hadds.here]
    · rw [hadds.elsewhere k hk]
      simp [hk]

/-- closed values stay -/
theorem lookup_of_grows (h : Grows ks es es') (hv : es.lookup k = some v) (hclosed : v.IsClosed) :
    es'.lookup k = some v := by
  induction h with
  | nil => exact hv
  | @cons j ks es es₁ es' hadds _ ih =>
    have hk : k ≠ j := by
      rintro rfl
      exact hadds.unclosed v hv hclosed
    exact ih ((hadds.elsewhere k hk).trans hv)

theorem grows_fill? (h : fill? es as = some es') : Grows (as.map fun a => first a.path) es es' := by
  induction as generalizing es with
  | nil => exact Option.some.inj h ▸ .nil es
  | cons a as ih =>
    obtain ⟨es₁, hassign, hfill⟩ := Option.bind_eq_some_iff.1 h
    exact .cons (adds_assign? hassign) (ih hfill)

theorem grows_extendAll? {cs : List Section} (h : extendAll? es cs = some es') :
    Grows (cs.map fun c => first c.path) es es' := by
  induction cs generalizing es with
  | nil => exact Option.some.inj h ▸ .nil es
  | cons c cs ih =>
    obtain ⟨es₁, hextend, hall⟩ := Option.bind_eq_some_iff.1 h
    exact .cons (adds_extend? hextend) (ih hall)

theorem fill?_append (es : Entries) (as bs : List Assignment) :
    fill? es (as ++ bs) = (fill? es as).bind (fill? · bs) := by
  induction as generalizing es with
  | nil => rfl
  | cons a as ih =>
    rw [List.cons_append, fill?, fill?, Option.bind_assoc]
    exact Option.bind_congr fun es₁ _ => ih es₁

end Entries

/-! ## Documents -/

namespace Document

open Entries

/-- the names that the statements of a document begin with -/
def names (d : Document) : List Key := (d.top.map fun a => first a.path) ++ d.sections.map fun c => first c.path

/-- **The table of a document has a value for exactly the names that a statement begins with.** -/
theorem lookup_eq_none (h : d.table? = some es) (k : Key) : es.lookup k = none ↔ k ∉ d.names := by
  obtain ⟨t, hfill, hextend⟩ := Option.bind_eq_some_iff.1 h
  have hgrows : Grows d.names [] es := grows_append (grows_fill? hfill) (grows_extendAll? hextend)
  rw [← not_iff_not, not_not, ← ne_eq, Option.ne_none_iff_isSome, lookup_isSome_of_grows hgrows]
  simp

/-- **A value that a document assigns to a name is that name's in the table.** -/
theorem lookup_assigned (h : d.table? = some es) (ha : ⟨[k], v⟩ ∈ d.top) (hclosed : v.IsClosed) :
    es.lookup k = some v := by
  obtain ⟨t, hfill, hextend⟩ := Option.bind_eq_some_iff.1 h
  obtain ⟨before, after, htop⟩ := List.append_of_mem ha
  rw [htop, fill?_append] at hfill
  obtain ⟨t₁, -, hrest⟩ := Option.bind_eq_some_iff.1 hfill
  obtain ⟨t₂, hassign, hafter⟩ := Option.bind_eq_some_iff.1 hrest
  rw [assign?_single, insert?_eq_some] at hassign
  obtain ⟨hnone, rfl⟩ := hassign
  have hhere : List.lookup k (t₁ ++ [(k, v)]) = some v := by
    rw [List.lookup_append, hnone, Option.none_or, List.lookup_cons_self]
  exact lookup_of_grows (grows_append (grows_fill? hafter) (grows_extendAll? hextend)) hhere hclosed

end Document

/-! ## Values that are read -/

theorem isClosed_of_ofWord? (h : ofWord? s = some v) : v.IsClosed := by
  have hclosed : ∀ u : Value, u.IsClosed → some u = some v → v.IsClosed := fun u hu hsame => Option.some.inj hsame ▸ hu
  unfold ofWord? at h
  split at h
  · exact hclosed (.boolean true) trivial h
  split at h
  · exact hclosed (.boolean false) trivial h
  split at h
  · exact hclosed (.integer _) trivial h
  split_ifs at h
  · exact hclosed (.float s) trivial h
  · exact hclosed (.moment s) trivial h

theorem isClosed_of_readSimple? (h : readSimple? s = some (v, rest)) : v.IsClosed := by
  unfold readSimple? at h
  split_ifs at h
  · obtain ⟨⟨t, u⟩, -, hr⟩ := Option.map_eq_some_iff.1 h
    obtain ⟨rfl, -⟩ := Prod.mk.inj hr
    trivial
  · obtain ⟨w, hw, hr⟩ := Option.map_eq_some_iff.1 h
    obtain ⟨rfl, -⟩ := Prod.mk.inj hr
    exact isClosed_of_ofWord? hw

/-- **Nothing can be added to a value that was read.** -/
theorem isClosed_of_readValue? {depth : Nat} (h : readValue? depth s = some (v, rest)) : v.IsClosed := by
  cases depth with
  | zero => exact isClosed_of_readSimple? h
  | succ depth =>
    unfold readValue? at h
    split at h
    · obtain ⟨⟨vs, u⟩, -, hr⟩ := Option.map_eq_some_iff.1 h
      obtain ⟨rfl, -⟩ := Prod.mk.inj hr
      trivial
    · obtain ⟨⟨as, u⟩, -, hmap⟩ := Option.bind_eq_some_iff.1 h
      obtain ⟨w, hw, hr⟩ := Option.map_eq_some_iff.1 hmap
      obtain ⟨rfl, -⟩ := Prod.mk.inj hr
      obtain ⟨t, -, rfl⟩ := Option.map_eq_some_iff.1 hw
      rfl
    · exact isClosed_of_readSimple? h

theorem isClosed_of_readStatement? (h : readStatement? s = some (.assignment a, rest)) : a.value.IsClosed := by
  have hheader : ∀ repeated s, readHeader? repeated s ≠ some (.assignment a, rest) := by
    intro repeated s h
    obtain ⟨⟨path, u⟩, -, hbracket⟩ := Option.bind_eq_some_iff.1 h
    obtain ⟨u', -, hmap⟩ := Option.bind_eq_some_iff.1 hbracket
    obtain ⟨u'', -, hr⟩ := Option.map_eq_some_iff.1 hmap
    cases (Prod.mk.inj hr).1
  unfold readStatement? at h
  split at h
  · exact absurd h (hheader true _)
  · exact absurd h (hheader false _)
  · obtain ⟨⟨a', u⟩, hassign, hr⟩ := Option.map_eq_some_iff.1 h
    obtain ⟨hsame, -⟩ := Prod.mk.inj hr
    obtain rfl : a' = a := Statement.assignment.inj hsame
    obtain ⟨⟨path, u'⟩, -, hvalue⟩ := Option.bind_eq_some_iff.1 hassign
    obtain ⟨u'', -, hmap⟩ := Option.bind_eq_some_iff.1 hvalue
    obtain ⟨⟨v, u'''⟩, hread, hr'⟩ := Option.map_eq_some_iff.1 hmap
    obtain ⟨rfl, -⟩ := Prod.mk.inj hr'
    exact isClosed_of_readValue? hread

theorem isClosed_of_readStatements? {fuel : Nat} {ss : List Statement} (h : readStatements? fuel s = some ss)
    (ha : .assignment a ∈ ss) : a.value.IsClosed := by
  induction fuel generalizing s ss with
  | zero => cases h
  | succ fuel ih =>
    obtain ⟨u, -, hstatement⟩ := Option.bind_eq_some_iff.1 h
    split_ifs at hstatement with hempty
    · obtain rfl := Option.some.inj hstatement
      cases ha
    · obtain ⟨⟨b, u'⟩, hread, hend⟩ := Option.bind_eq_some_iff.1 hstatement
      obtain ⟨u'', -, hmap⟩ := Option.bind_eq_some_iff.1 hend
      obtain ⟨bs, hrest, rfl⟩ := Option.map_eq_some_iff.1 hmap
      rcases List.mem_cons.1 ha with rfl | hmem
      · exact isClosed_of_readStatement? hread
      · exact ih hrest hmem

theorem mem_of_mem_top {ss : List Statement} (ha : a ∈ (Document.ofStatements ss).top) : .assignment a ∈ ss := by
  induction ss with
  | nil => cases ha
  | cons b ss ih =>
    cases b with
    | assignment b =>
      rcases List.mem_cons.1 ha with rfl | hmem
      · exact List.mem_cons_self
      · exact List.mem_cons_of_mem _ (ih hmem)
    | header repeated path => cases ha

/-- **In the table of a text, a name that the text assigns a value to has that value.** -/
theorem lookup_of_ofText? (hread : Document.ofText? s = some d) (h : d.table? = some es) (ha : ⟨[k], v⟩ ∈ d.top) :
    es.lookup k = some v := by
  obtain ⟨ss, hss, rfl⟩ := Option.map_eq_some_iff.1 hread
  exact Document.lookup_assigned h ha (isClosed_of_readStatements? hss (mem_of_mem_top ha))

end MarkVeil.Toml

/-
Which arguments are accepted.

Arguments are accepted if they fall into parts that go together (`Together`) and of which one names a document or asks
for the settings to be saved (`Enough`). They then ask for what these parts ask for (`Arguments.ofParts`), in whatever
order they come. Other arguments have a first word that is out of place (`OutOfPlace`), which decides the error. Main
results:
- `together_unique`: arguments fall into such parts in one way;
- `parse_together`: what becomes of arguments that do;
- `parse_exact`: what becomes of all arguments.
-/
import MarkVeil.Proofs.Command.Arguments

namespace MarkVeil.Command

open MarkVeil.Decoration (Kind UnknownKind)

def Part.file? : Part → Option String
  | file arg => some arg
  | _ => none

def filesOf (ps : List Part) : List String := ps.filterMap Part.file?

/-- parts that go together -/
structure Together (ps : List Part) : Prop where
  /-- no path looks like an option -/
  paths : ∀ arg, .file arg ∈ ps → Arguments.isOption arg = false
  once : (filesOf ps).length ≤ 1

/-- a document is named, or the settings are to be saved -/
def Enough (ps : List Part) : Prop := filesOf ps ≠ [] ∨ .writeConfig ∈ ps

instance (ps : List Part) : Decidable (Enough ps) := inferInstanceAs (Decidable (_ ∨ _))

def Arguments.ofParts (expand : String → String) (ps : List Part) : Arguments where
  path? := (filesOf ps).head?.map expand
  dump := .dump ∈ ps
  writeConfig := .writeConfig ∈ ps
  disabled := ps.filterMap Part.kind?

/-- words of which the first is out of place, and what is wrong with it; `named` if a document has been named before -/
inductive OutOfPlace (named : Prop) : List String → ArgumentError → Prop
  | missingKind : OutOfPlace named ["--disable"] .missingKind
  | unknownKind (name : String) (rest : List String) (h : ∀ k : Kind, k.name ≠ name) :
    OutOfPlace named ("--disable" :: name :: rest) (.unknownKind ⟨name⟩)
  | unknownOption (arg : String) (rest : List String) (h : Arguments.isOption arg = true)
    (hnone : arg ∉ ["--dump", "--write-config", "--disable"]) : OutOfPlace named (arg :: rest) (.unknownOption arg)
  | secondFile (arg : String) (rest : List String) (h : Arguments.isOption arg = false) (hnamed : named) :
    OutOfPlace named (arg :: rest) .secondFile

variable {expand : String → String} {a b : Arguments} {p q : Part} {ps qs : List Part}
  {args bad rest rest' : List String} {e : ArgumentError}

/-! ## Parts that go together -/

theorem filesOf_cons (p : Part) (ps : List Part) : filesOf (p :: ps) = p.file?.toList ++ filesOf ps := by
  cases p <;> rfl

/-- parts fit behind others exactly if they go together and no second document is named -/
theorem allFit_iff : Part.AllFit expand a ps ↔
    (∀ arg, .file arg ∈ ps → Arguments.isOption arg = false) ∧ a.path?.toList.length + (filesOf ps).length ≤ 1 := by
  induction ps generalizing a with
  | nil => cases a.path? <;> simp [Part.AllFit, filesOf]
  | cons p ps ih =>
    rw [Part.AllFit, ih, filesOf_cons]
    cases p with
    | file arg => cases hpath : a.path? <;> simp [Part.Fits, Part.add, Part.file?, hpath, and_assoc]
    | _ => simp [Part.Fits, Part.add, Part.file?]

theorem together_iff (expand : String → String) : Together ps ↔ Part.AllFit expand .empty ps := by
  rw [allFit_iff]
  exact ⟨fun h => ⟨h.paths, by simpa [Arguments.empty] using h.once⟩,
    fun h => ⟨h.1, by simpa [Arguments.empty] using h.2⟩⟩

theorem path?_foldl (h : Part.AllFit expand a ps) :
    (ps.foldl (Part.add expand) a).path? = a.path?.or ((filesOf ps).head?.map expand) := by
  induction ps generalizing a with
  | nil => simp [filesOf]
  | cons p ps ih =>
    rw [List.foldl_cons, ih h.2, filesOf_cons]
    cases p with
    | file arg =>
      have hnone : a.path? = none := h.1.2
      simp [Part.add, Part.file?, hnone]
    | _ => simp [Part.add, Part.file?]

theorem dump_foldl (a : Arguments) (ps : List Part) :
    (ps.foldl (Part.add expand) a).dump = true ↔ a.dump = true ∨ .dump ∈ ps := by
  induction ps generalizing a with
  | nil => simp
  | cons p ps ih =>
    rw [List.foldl_cons, ih, List.mem_cons]
    cases p <;> simp [Part.add]

/-- parts that go together are gathered into what they ask for -/
theorem foldl_add (h : Together ps) : ps.foldl (Part.add expand) .empty = .ofParts expand ps := by
  have hpath := path?_foldl ((together_iff expand).1 h)
  have hdump : (ps.foldl (Part.add expand) .empty).dump = true ↔ _ := dump_foldl _ ps
  have hwrite : (ps.foldl (Part.add expand) .empty).writeConfig = true ↔ _ := Arguments.writeConfig_foldl _ ps
  have hdisabled : (ps.foldl (Part.add expand) .empty).disabled = _ := Arguments.disabled_foldl _ ps
  generalize ps.foldl (Part.add expand) .empty = b at hpath hdump hwrite hdisabled
  obtain ⟨path?, dump, writeConfig, disabled⟩ := b
  simp only [Arguments.empty, Option.none_or, Bool.false_eq_true, false_or, List.nil_append]
    at hpath hdump hwrite hdisabled
  rw [Arguments.ofParts, ← hpath, ← hdisabled]
  simp only [Arguments.mk.injEq, true_and, and_true]
  exact ⟨by simpa using Bool.eq_iff_iff.2 (hdump.trans (decide_eq_true_iff).symm),
    by simpa using Bool.eq_iff_iff.2 (hwrite.trans (decide_eq_true_iff).symm)⟩

/-- **What becomes of parts that go together.** -/
theorem parse_together (expand : String → String) (h : Together ps) :
    Arguments.parse expand (ps.flatMap Part.words) =
      if Enough ps then .ok (.ofParts expand ps) else .error .noFile := by
  have hscan := Arguments.scan_parts ((together_iff expand).1 h) []
  rw [List.append_nil, Arguments.scan, foldl_add h] at hscan
  rw [Arguments.parse, hscan]
  have hneed : (Arguments.ofParts expand ps).path?.isNone ∧ ¬ (Arguments.ofParts expand ps).writeConfig ↔
      ¬ Enough ps := by
    simp [Arguments.ofParts, Enough]
  simp only [hneed, ite_not]

/-! ## One way to fall into parts -/

/-- a path does not look like an option -/
def Part.IsPath (p : Part) : Prop := ∀ arg, p = .file arg → Arguments.isOption arg = false

theorem words_append_inj (hp : p.IsPath) (hq : q.IsPath) (h : p.words ++ rest = q.words ++ rest') :
    p = q ∧ rest = rest' := by
  have hoption : ∀ arg option : String, (Part.file arg).IsPath → Arguments.isOption option = true → arg ≠ option :=
    fun arg option hpath => Arguments.ne_of_isOption (hpath arg rfl)
  cases p with
  | file arg =>
    cases q with
    | file arg' => simpa [Part.words] using h
    | _ => exact absurd (List.cons.inj h).1 (hoption _ _ hp (by decide))
  | disable k =>
    cases q with
    | file arg => exact absurd (List.cons.inj h).1.symm (hoption _ _ hq (by decide))
    | disable k' =>
      simp only [Part.words, List.cons_append, List.nil_append, List.cons.injEq, true_and] at h
      exact ⟨congrArg Part.disable (name_injective h.1), h.2⟩
    | _ => simp [Part.words] at h
  | _ =>
    cases q with
    | file arg => exact absurd (List.cons.inj h).1.symm (hoption _ _ hq (by decide))
    | _ => simp_all [Part.words]

theorem words_ne_nil (p : Part) : p.words ≠ [] := by cases p <;> exact List.cons_ne_nil _ _

theorem flatMap_words_inj (hp : ∀ p ∈ ps, p.IsPath) (hq : ∀ q ∈ qs, q.IsPath)
    (h : ps.flatMap Part.words = qs.flatMap Part.words) : ps = qs := by
  induction ps generalizing qs with
  | nil =>
    cases qs with
    | nil => rfl
    | cons q qs => exact absurd (List.append_eq_nil_iff.1 h.symm).1 (words_ne_nil q)
  | cons p ps ih =>
    cases qs with
    | nil => exact absurd (List.append_eq_nil_iff.1 h).1 (words_ne_nil p)
    | cons q qs =>
      obtain ⟨hpath, hps⟩ := List.forall_mem_cons.1 hp
      obtain ⟨hpath', hqs⟩ := List.forall_mem_cons.1 hq
      rw [List.flatMap_cons, List.flatMap_cons] at h
      obtain ⟨heq, hrest⟩ := words_append_inj hpath hpath' h
      rw [heq, ih hps hqs hrest]

theorem Together.isPath (h : Together ps) : ∀ p ∈ ps, p.IsPath := by
  rintro p hp arg rfl
  exact h.paths arg hp

/-- **Arguments fall into parts that go together in one way.** -/
theorem together_unique (hp : Together ps) (hq : Together qs) (h : ps.flatMap Part.words = qs.flatMap Part.words) :
    ps = qs :=
  flatMap_words_inj hp.isPath hq.isPath h

/-! ## Another order -/

/-- in another order, parts still go together and name the same document -/
theorem Together.perm (h : Together ps) (hperm : ps.Perm qs) : Together qs ∧ filesOf qs = filesOf ps := by
  have hfiles : (filesOf ps).Perm (filesOf qs) := hperm.filterMap _
  have hlength : (filesOf qs).length ≤ 1 := hfiles.length_eq ▸ h.once
  refine ⟨⟨fun arg harg => h.paths arg (hperm.mem_iff.2 harg), hlength⟩, ?_⟩
  match hone : filesOf ps with
  | [] => exact (hone ▸ hfiles).nil_eq.symm
  | [arg] => exact ((hone ▸ hfiles).singleton_eq).symm
  | _ :: _ :: _ =>
    have honce := h.once
    rw [hone] at honce
    simp at honce

/-- **The order of parts makes no difference**, except among the kinds to disable. -/
theorem parse_perm (expand : String → String) (h : Together ps) (hperm : ps.Perm qs)
    (hkinds : ps.filterMap Part.kind? = qs.filterMap Part.kind?) :
    Arguments.parse expand (qs.flatMap Part.words) = Arguments.parse expand (ps.flatMap Part.words) := by
  obtain ⟨hqs, hfiles⟩ := h.perm hperm
  have hsame : Arguments.ofParts expand qs = .ofParts expand ps := by
    simp only [Arguments.ofParts, hfiles, hkinds, hperm.mem_iff]
  have henough : Enough qs ↔ Enough ps := by rw [Enough, Enough, hfiles, hperm.mem_iff]
  rw [parse_together expand hqs, parse_together expand h, hsame]
  simp only [henough]

/-! ## Words that are out of place -/

/-- words that are out of place are refused -/
theorem scan_outOfPlace (h : OutOfPlace (a.path?.isSome = true) bad e) : Arguments.scan expand a bad = .error e := by
  cases h with
  | missingKind => rfl
  | unknownKind name rest h =>
    have hparse : Kind.parse name = .error ⟨name⟩ := parse_kind_eq_error.2 ⟨rfl, h⟩
    rw [Arguments.scan, hparse]
  | unknownOption arg rest h hnone =>
    simp only [List.mem_cons, List.not_mem_nil, or_false, not_or] at hnone
    obtain ⟨hdump, hwrite, hdisable⟩ := hnone
    rw [Arguments.scan]
    · rw [if_neg hdump, if_neg hwrite, if_pos h]
    · exact hdisable
  | secondFile arg rest h hnamed =>
    rw [Arguments.scan]
    · rw [if_neg (Arguments.ne_of_isOption h (by decide)), if_neg (Arguments.ne_of_isOption h (by decide)), h,
        if_neg Bool.false_ne_true, if_pos hnamed]
    · exact Arguments.ne_of_isOption h (by decide)

/-- a part in front of words that are refused -/
theorem exists_behind (hp : p.Fits a)
    (h : ∃ ps bad, Part.AllFit expand (p.add expand a) ps ∧ rest = ps.flatMap Part.words ++ bad ∧
      OutOfPlace ((ps.foldl (Part.add expand) (p.add expand a)).path?.isSome = true) bad e) :
    ∃ ps bad, Part.AllFit expand a ps ∧ p.words ++ rest = ps.flatMap Part.words ++ bad ∧
      OutOfPlace ((ps.foldl (Part.add expand) a).path?.isSome = true) bad e := by
  obtain ⟨ps, bad, hfit, rfl, hbad⟩ := h
  refine ⟨p :: ps, bad, ⟨hp, hfit⟩, ?_, hbad⟩
  rw [List.flatMap_cons, List.append_assoc]

/-- **Reading stops at the first word that is out of place**, and at no other. -/
theorem scan_eq_error : Arguments.scan expand a args = .error e ↔
    ∃ ps bad, Part.AllFit expand a ps ∧ args = ps.flatMap Part.words ++ bad ∧
      OutOfPlace ((ps.foldl (Part.add expand) a).path?.isSome = true) bad e := by
  constructor
  · intro h
    fun_induction Arguments.scan expand a args with
    | case1 a => cases h
    | case2 => exact ⟨[], _, trivial, rfl, Except.error.inj h ▸ .missingKind⟩
    | case3 a name rest k hk ih =>
      rw [parse_kind_eq_ok.1 hk]
      exact exists_behind (p := .disable k) trivial (ih h)
    | case4 a name rest e' he =>
      obtain ⟨rfl, hnone⟩ := parse_kind_eq_error.1 he
      exact ⟨[], _, trivial, rfl, Except.error.inj h ▸ .unknownKind name rest hnone⟩
    | case5 a rest _ ih => exact exists_behind (p := .dump) trivial (ih h)
    | case6 a rest _ _ ih => exact exists_behind (p := .writeConfig) trivial (ih h)
    | case7 a arg rest hdisable hdump hwrite hoption =>
      exact ⟨[], _, trivial, rfl, Except.error.inj h ▸ .unknownOption arg rest hoption (by simp_all)⟩
    | case8 a arg rest _ _ _ hoption hpath =>
      exact ⟨[], _, trivial, rfl, Except.error.inj h ▸ .secondFile arg rest (by simpa using hoption) hpath⟩
    | case9 a arg rest _ _ _ hoption hpath ih =>
      have hfits : (Part.file arg).Fits a := ⟨by simpa using hoption, by simpa using hpath⟩
      exact exists_behind hfits (ih h)
  · rintro ⟨ps, bad, hfit, rfl, hbad⟩
    rw [Arguments.scan_parts hfit, scan_outOfPlace hbad]

/-! ## All arguments -/

/-- the words behind parts that go together are out of place if they are not the first of a part, or name a second
document -/
theorem scan_empty_eq_error (expand : String → String) : Arguments.scan expand .empty args = .error e ↔
    ∃ ps bad, Together ps ∧ args = ps.flatMap Part.words ++ bad ∧ OutOfPlace (filesOf ps ≠ []) bad e := by
  have hnamed : ∀ ps, Together ps → ((ps.foldl (Part.add expand) .empty).path?.isSome = true) = (filesOf ps ≠ []) := by
    intro ps h
    rw [foldl_add h, Arguments.ofParts]
    cases filesOf ps <;> simp
  rw [scan_eq_error]
  refine exists₂_congr fun ps bad => ?_
  rw [← together_iff expand]
  refine and_congr_right fun h => ?_
  rw [hnamed ps h]

/-- what becomes of arguments -/
structure ReadAs (expand : String → String) (args : List String) : Prop where
  /-- they are accepted exactly if they fall into parts that go together and are enough, and ask for what these do -/
  accepted : ∀ a, Arguments.parse expand args = .ok a ↔
    ∃ ps, Together ps ∧ Enough ps ∧ args = ps.flatMap Part.words ∧ a = .ofParts expand ps
  /-- the first word that is out of place decides the error; if none is, there is no document -/
  refused : ∀ e, Arguments.parse expand args = .error e ↔
    (∃ ps bad, Together ps ∧ args = ps.flatMap Part.words ++ bad ∧ OutOfPlace (filesOf ps ≠ []) bad e) ∨
      e = .noFile ∧ ∃ ps, Together ps ∧ ¬ Enough ps ∧ args = ps.flatMap Part.words
  /-- there is one way to fall into parts -/
  once : ∀ ps qs, Together ps → Together qs → args = ps.flatMap Part.words → args = qs.flatMap Part.words → ps = qs
  /-- parts in another order ask for the same if the kinds to disable keep theirs -/
  reordered : ∀ ps qs, Together ps → args = ps.flatMap Part.words → ps.Perm qs →
    ps.filterMap Part.kind? = qs.filterMap Part.kind? →
    Together qs ∧ Arguments.parse expand (qs.flatMap Part.words) = Arguments.parse expand args

theorem parse_eq_ok : Arguments.parse expand args = .ok a ↔
    ∃ ps, Together ps ∧ Enough ps ∧ args = ps.flatMap Part.words ∧ a = .ofParts expand ps := by
  constructor
  · intro h
    obtain ⟨ps, hfit, rfl, -⟩ := Arguments.exists_parts (Arguments.scan_of_parse h)
    have htogether := (together_iff expand).2 hfit
    rw [parse_together expand htogether] at h
    split_ifs at h with henough
    exact ⟨ps, htogether, henough, rfl, (Except.ok.inj h).symm⟩
  · rintro ⟨ps, htogether, henough, rfl, rfl⟩
    rw [parse_together expand htogether, if_pos henough]

theorem parse_eq_error : Arguments.parse expand args = .error e ↔
    (∃ ps bad, Together ps ∧ args = ps.flatMap Part.words ++ bad ∧ OutOfPlace (filesOf ps ≠ []) bad e) ∨
      e = .noFile ∧ ∃ ps, Together ps ∧ ¬ Enough ps ∧ args = ps.flatMap Part.words := by
  rw [← scan_empty_eq_error expand]
  constructor
  · intro h
    cases hscan : Arguments.scan expand .empty args with
    | error e' =>
      rw [Arguments.parse, hscan] at h
      exact Or.inl (congrArg Except.error (Except.error.inj h))
    | ok b =>
      obtain ⟨ps, hfit, rfl, -⟩ := Arguments.exists_parts hscan
      have htogether := (together_iff expand).2 hfit
      rw [parse_together expand htogether] at h
      split_ifs at h with henough
      exact Or.inr ⟨(Except.error.inj h).symm, ps, htogether, henough, rfl⟩
  · rintro (hscan | ⟨rfl, ps, htogether, henough, rfl⟩)
    · rw [Arguments.parse, hscan]
    · rw [parse_together expand htogether, if_neg henough]

/-- **Arguments are accepted exactly if they fall into parts that go together and are enough**, whatever the order of
the parts, and else the first word that is out of place decides the error. -/
theorem parse_exact (expand : String → String) (args : List String) : ReadAs expand args where
  accepted _ := parse_eq_ok
  refused _ := parse_eq_error
  once _ _ hps hqs h h' := together_unique hps hqs (h.symm.trans h')
  reordered _ _ hps h hperm hkinds := ⟨(hps.perm hperm).1, h ▸ parse_perm expand hps hperm hkinds⟩

/-- flags come anywhere, and the word behind `--disable` is no option of its own -/
theorem parse_exact_reordered :
    let ps := [Part.disable .bold, .dump, .file "a.md", .disable .hide, .dump]
    let qs := [Part.dump, .dump, .disable .bold, .disable .hide, .file "a.md"]
    Together ps ∧ ps.Perm qs ∧ ps.filterMap Part.kind? = qs.filterMap Part.kind? ∧
      Arguments.parse id (qs.flatMap Part.words) = .ok ⟨some "a.md", true, false, [.bold, .hide]⟩ ∧
      Arguments.parse id ["--dump", "--disable", "--dump", "a.md"] = .error (.unknownKind ⟨"--dump"⟩) := by
  intro ps qs
  have htogether : Together ps := ⟨by simp [ps]; decide, by decide⟩
  have hperm : ps.Perm qs := by decide
  have hkinds : ps.filterMap Part.kind? = qs.filterMap Part.kind? := rfl
  have hread := parse_exact id (ps.flatMap Part.words)
  refine ⟨htogether, hperm, hkinds, ?_, ?_⟩
  · rw [(hread.reordered ps qs htogether rfl hperm hkinds).2, hread.accepted]
    exact ⟨ps, htogether, by decide, rfl, by decide⟩
  · refine ((parse_exact id _).refused _).2 (Or.inl ⟨[.dump], _, ⟨by simp, by decide⟩, rfl, ?_⟩)
    exact .unknownKind "--dump" ["a.md"] (by intro k; cases k <;> decide)

end MarkVeil.Command

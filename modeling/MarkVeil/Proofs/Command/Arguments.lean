/-
How arguments are read.

Arguments that fit fall into parts (`Part`): a flag, a kind to disable with the option in front of it, or the path of a
document. Each part adds to what is asked for. Main results:
- `scan_parts`: parts that fit are read one after the other, whatever follows;
- `exists_parts`: arguments that are read are such parts;
- `writeConfig_iff`, `disabledNames_eq`: which settings are asked for can be seen from the words alone.
-/
import Mathlib.Tactic
import MarkVeil.Command.Arguments

namespace MarkVeil.Command

open MarkVeil.Decoration (Kind UnknownKind)

/-- a part of the arguments that stands on its own -/
inductive Part where
  | dump
  | writeConfig
  | disable (k : Kind)
  | file (arg : String)
  deriving DecidableEq

namespace Part

def words : Part → List String
  | dump => ["--dump"]
  | writeConfig => ["--write-config"]
  | disable k => ["--disable", k.name]
  | file arg => [arg]

def add (expand : String → String) (a : Arguments) : Part → Arguments
  | dump => { a with dump := true }
  | writeConfig => { a with writeConfig := true }
  | disable k => { a with disabled := a.disabled ++ [k] }
  | file arg => { a with path? := some (expand arg) }

/-- a path does not look like an option, and there is none before it -/
def Fits (a : Arguments) : Part → Prop
  | file arg => Arguments.isOption arg = false ∧ a.path? = none
  | _ => True

/-- each part fits after those before it -/
def AllFit (expand : String → String) : Arguments → List Part → Prop
  | _, [] => True
  | a, p :: ps => p.Fits a ∧ AllFit expand (p.add expand a) ps

def kind? : Part → Option Kind
  | disable k => some k
  | _ => none

end Part

theorem name_injective : Function.Injective Kind.name := by
  intro j k h
  have hj := Kind.ofName?_name j
  rw [h, Kind.ofName?_name] at hj
  exact (Option.some.inj hj).symm

theorem parse_kind_eq_ok {name : String} {k : Kind} : Kind.parse name = .ok k ↔ name = k.name := by
  rw [← Kind.ofName?_eq_some, Kind.parse]
  cases Kind.ofName? name <;> simp

theorem parse_kind_eq_error {name : String} {e : UnknownKind} :
    Kind.parse name = .error e ↔ e = ⟨name⟩ ∧ ∀ k : Kind, k.name ≠ name := by
  have hnone : Kind.ofName? name = none ↔ ∀ k : Kind, k.name ≠ name := by
    simp [Kind.ofName?, Kind.mem_all]
  rw [← hnone, Kind.parse]
  cases Kind.ofName? name <;> simp [eq_comm]

/-- the names of kinds to disable among arguments -/
def disabledNames : List String → List String
  | [] => []
  | [_] => []
  | word :: name :: rest => if word = "--disable" then name :: disabledNames rest else disabledNames (name :: rest)

namespace Arguments

variable {expand : String → String} {a b : Arguments} {p : Part} {ps : List Part} {args rest : List String}

/-- a path is none of the options -/
theorem ne_of_isOption {arg option : String} (h : isOption arg = false) (hoption : isOption option = true) :
    arg ≠ option := by
  rintro rfl
  rw [h] at hoption
  exact Bool.false_ne_true hoption

/-! ## Reading parts -/

/-- a part that fits is read, and then what follows -/
theorem scan_words (h : p.Fits a) (rest : List String) :
    scan expand a (p.words ++ rest) = scan expand (p.add expand a) rest := by
  cases p with
  | dump => rfl
  | writeConfig => rfl
  | disable k => simp [Part.words, Part.add, scan, parse_kind_eq_ok.2 rfl]
  | file arg =>
    obtain ⟨hoption, hpath⟩ := h
    rw [Part.words, List.singleton_append, scan]
    · rw [if_neg (ne_of_isOption hoption (by decide)), if_neg (ne_of_isOption hoption (by decide)), hoption, hpath]
      rfl
    · exact ne_of_isOption hoption (by decide)

/-- **Parts that fit are read one after the other**, whatever follows. -/
theorem scan_parts (h : Part.AllFit expand a ps) (rest : List String) :
    scan expand a (ps.flatMap Part.words ++ rest) = scan expand (ps.foldl (Part.add expand) a) rest := by
  induction ps generalizing a with
  | nil => rfl
  | cons p ps ih => rw [List.flatMap_cons, List.append_assoc, scan_words h.1, ih h.2, List.foldl_cons]

/-- a part in front of others -/
theorem exists_parts_cons (hp : p.Fits a)
    (h : ∃ ps, Part.AllFit expand (p.add expand a) ps ∧ rest = ps.flatMap Part.words ∧
      b = ps.foldl (Part.add expand) (p.add expand a)) :
    ∃ ps, Part.AllFit expand a ps ∧ p.words ++ rest = ps.flatMap Part.words ∧ b = ps.foldl (Part.add expand) a := by
  obtain ⟨ps, hfit, rfl, rfl⟩ := h
  exact ⟨p :: ps, ⟨hp, hfit⟩, rfl, rfl⟩

/-- **Arguments that are read are parts that fit.** -/
theorem exists_parts (h : scan expand a args = .ok b) :
    ∃ ps, Part.AllFit expand a ps ∧ args = ps.flatMap Part.words ∧ b = ps.foldl (Part.add expand) a := by
  fun_induction scan expand a args with
  | case1 a => exact ⟨[], trivial, rfl, (Except.ok.inj h).symm⟩
  | case2 => cases h
  | case3 a name rest k hk ih =>
    rw [parse_kind_eq_ok.1 hk]
    exact exists_parts_cons (p := .disable k) trivial (ih h)
  | case4 => cases h
  | case5 a rest _ ih => exact exists_parts_cons (p := .dump) trivial (ih h)
  | case6 a rest _ _ ih => exact exists_parts_cons (p := .writeConfig) trivial (ih h)
  | case7 => cases h
  | case8 => cases h
  | case9 a arg rest _ _ _ hoption hpath ih =>
    have hfits : (Part.file arg).Fits a := ⟨by simpa using hoption, by simpa using hpath⟩
    exact exists_parts_cons hfits (ih h)

/-! ## What parts ask for -/

theorem writeConfig_foldl (a : Arguments) (ps : List Part) :
    (ps.foldl (Part.add expand) a).writeConfig = true ↔ a.writeConfig = true ∨ .writeConfig ∈ ps := by
  induction ps generalizing a with
  | nil => simp
  | cons p ps ih =>
    rw [List.foldl_cons, ih, List.mem_cons]
    cases p <;> simp [Part.add]

theorem disabled_foldl (a : Arguments) (ps : List Part) :
    (ps.foldl (Part.add expand) a).disabled = a.disabled ++ ps.filterMap Part.kind? := by
  induction ps generalizing a with
  | nil => simp
  | cons p ps ih =>
    rw [List.foldl_cons, ih, List.filterMap_cons]
    cases p <;> simp [Part.add, Part.kind?]

theorem mem_words_iff (h : Part.AllFit expand a ps) :
    "--write-config" ∈ ps.flatMap Part.words ↔ .writeConfig ∈ ps := by
  induction ps generalizing a with
  | nil => simp
  | cons p ps ih =>
    rw [List.flatMap_cons, List.mem_append, ih h.2, List.mem_cons]
    refine or_congr_left ?_
    cases p with
    | dump => decide
    | writeConfig => decide
    | disable k => cases k <;> decide
    | file arg =>
      have hne : arg ≠ "--write-config" := ne_of_isOption h.1.1 (by decide)
      simp [Part.words, hne.symm]

theorem disabledNames_words (h : Part.AllFit expand a ps) :
    disabledNames (ps.flatMap Part.words) = (ps.filterMap Part.kind?).map Kind.name := by
  have hskip : ∀ word rest, word ≠ "--disable" → disabledNames (word :: rest) = disabledNames rest := by
    intro word rest hword
    cases rest with
    | nil => rfl
    | cons name rest => rw [disabledNames, if_neg hword]
  induction ps generalizing a with
  | nil => rfl
  | cons p ps ih =>
    rw [List.flatMap_cons, List.filterMap_cons]
    cases p with
    | dump => exact (hskip _ _ (by decide)).trans (ih h.2)
    | writeConfig => exact (hskip _ _ (by decide)).trans (ih h.2)
    | disable k => exact congrArg (k.name :: ·) (ih h.2)
    | file arg =>
      exact (hskip _ _ (ne_of_isOption h.1.1 (by decide))).trans (ih h.2)

/-! ## Whole arguments -/

theorem scan_of_parse (h : parse expand args = .ok a) : scan expand empty args = .ok a := by
  unfold parse at h
  split at h
  · split_ifs at h
    rwa [← Except.ok.inj h]
  · cases h

/-- **Settings are to be saved exactly if the flag is among the arguments.** -/
theorem writeConfig_iff (h : parse expand args = .ok a) : a.writeConfig = true ↔ "--write-config" ∈ args := by
  obtain ⟨ps, hfit, rfl, rfl⟩ := exists_parts (scan_of_parse h)
  rw [writeConfig_foldl, mem_words_iff hfit]
  simp [empty]

/-- **The kinds to disable are those named behind their option**, in order. -/
theorem disabledNames_eq (h : parse expand args = .ok a) : a.disabled.map Kind.name = disabledNames args := by
  obtain ⟨ps, hfit, rfl, rfl⟩ := exists_parts (scan_of_parse h)
  rw [disabled_foldl, disabledNames_words hfit]
  rfl

/-- parts that fit are what arguments ask for, if there is a document or settings to write among them -/
theorem parse_parts (h : Part.AllFit expand empty ps)
    (hneed : (ps.foldl (Part.add expand) empty).path?.isSome = true ∨ .writeConfig ∈ ps) :
    parse expand (ps.flatMap Part.words) = .ok (ps.foldl (Part.add expand) empty) := by
  have hscan := scan_parts h []
  rw [List.append_nil, scan] at hscan
  rw [parse, hscan]
  simp only
  rw [if_neg]
  rintro ⟨hpath, hwrite⟩
  rcases hneed with hneed | hneed
  · rw [Option.isNone_iff_eq_none.1 hpath] at hneed
    cases hneed
  · exact hwrite ((writeConfig_foldl empty ps).2 (Or.inr hneed))

end Arguments

/-! ## Arguments that disable kinds -/

def disabling (ks : List Kind) : List String := (ks.map Part.disable).flatMap Part.words

namespace Arguments

variable {expand : String → String} {a b : Arguments} {file : String}

theorem foldl_disable (expand : String → String) (a : Arguments) (ks : List Kind) :
    (ks.map Part.disable).foldl (Part.add expand) a = { a with disabled := a.disabled ++ ks } := by
  induction ks generalizing a with
  | nil => simp
  | cons k ks ih => simp [ih, Part.add]

/-- kinds to disable fit anywhere -/
theorem allFit_disable_append (ks : List Kind) {ps : List Part}
    (h : Part.AllFit expand ((ks.map Part.disable).foldl (Part.add expand) a) ps) :
    Part.AllFit expand a (ks.map Part.disable ++ ps) := by
  induction ks generalizing a with
  | nil => exact h
  | cons k ks ih => exact ⟨trivial, ih h⟩

/-- kinds to disable between other parts -/
theorem parse_disabling (expand : String → String) (ks : List Kind) (p : Part) (ps : List Part) (hp : p.Fits empty)
    (hb : { p.add expand empty with disabled := (p.add expand empty).disabled ++ ks } = b)
    (hfit : Part.AllFit expand b ps)
    (hneed : (ps.foldl (Part.add expand) b).path?.isSome = true ∨ .writeConfig ∈ p :: ps) :
    parse expand (p.words ++ disabling ks ++ ps.flatMap Part.words) = .ok (ps.foldl (Part.add expand) b) := by
  rw [← foldl_disable expand] at hb
  have hfold : (p :: (ks.map Part.disable ++ ps)).foldl (Part.add expand) empty = ps.foldl (Part.add expand) b := by
    rw [List.foldl_cons, List.foldl_append, hb]
  have hall : Part.AllFit expand empty (p :: (ks.map Part.disable ++ ps)) :=
    ⟨hp, allFit_disable_append ks (hb ▸ hfit)⟩
  have hasked : (ps.foldl (Part.add expand) b).path?.isSome = true ∨
      .writeConfig ∈ p :: (ks.map Part.disable ++ ps) := by
    refine hneed.imp_right fun hmem => ?_
    rw [List.mem_cons, List.mem_append]
    exact (List.mem_cons.1 hmem).imp_right Or.inr
  have hparse := parse_parts hall (hfold ▸ hasked)
  rwa [hfold, List.flatMap_cons, List.flatMap_append, ← List.append_assoc, ← disabling] at hparse

theorem parse_writing (expand : String → String) (ks : List Kind) :
    parse expand ("--write-config" :: disabling ks) = .ok ⟨none, false, true, ks⟩ := by
  have hparse := parse_disabling expand ks .writeConfig [] trivial rfl trivial (Or.inr (List.mem_singleton.2 rfl))
  rwa [List.flatMap_nil, List.append_nil] at hparse

theorem parse_listing (expand : String → String) (ks : List Kind) (h : isOption file = false) :
    parse expand ("--dump" :: disabling ks ++ [file]) = .ok ⟨some (expand file), true, false, ks⟩ :=
  parse_disabling expand ks .dump [.file file] trivial rfl ⟨⟨h, rfl⟩, trivial⟩ (Or.inl rfl)

/-- in the place of a document, the flag asks for settings to be written -/
theorem parse_listing_flag (expand : String → String) (ks : List Kind) :
    parse expand ("--dump" :: disabling ks ++ ["--write-config"]) = .ok ⟨none, true, true, ks⟩ :=
  parse_disabling expand ks .dump [.writeConfig] trivial rfl ⟨trivial, trivial⟩
    (Or.inr (List.mem_cons_of_mem _ (List.mem_singleton.2 rfl)))

/-- in the place of a document, no other option fits -/
theorem parse_listing_option (expand : String → String) (ks : List Kind) (h : isOption file = true)
    (hflag : file ≠ "--write-config") : ∃ e, parse expand ("--dump" :: disabling ks ++ [file]) = .error e := by
  have hfit : Part.AllFit expand empty (.dump :: (ks.map Part.disable ++ [])) :=
    ⟨trivial, allFit_disable_append ks trivial⟩
  have hscan := scan_parts hfit [file]
  rw [List.append_nil, List.flatMap_cons, List.foldl_cons, foldl_disable, ← disabling] at hscan
  rw [parse, show "--dump" :: disabling ks ++ [file] = Part.dump.words ++ disabling ks ++ [file] from rfl, hscan]
  by_cases hdisable : file = "--disable"
  · exact ⟨.missingKind, by rw [hdisable]; rfl⟩
  by_cases hdump : file = "--dump"
  · exact ⟨.noFile, by rw [hdump]; rfl⟩
  refine ⟨.unknownOption file, ?_⟩
  rw [scan]
  · rw [if_neg hdump, if_neg hflag, if_pos h]
  · exact hdisable

end Arguments

end MarkVeil.Command

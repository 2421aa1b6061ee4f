/-
What is saved is loaded again.

A path can be written when it ends in a name, no file stands on the way and no directory at its end (`Disk.Writable`).
Then writing makes the directories on the way (`makeDirectories_ok`) and changes nothing else but the file at the path's
place (`Disk.Stored`). Following the path leads through these directories (`follow_append`), the text at its end is the
one written (`read_write`), and every other text is read as before (`Stored.read_other`). With the settings' text this
gives back the saved options (`loadSettings_write`).
-/
import MarkVeil.Command.Run
import MarkVeil.Proofs.Settings.File

namespace MarkVeil.Command

open MarkVeil.Editor (Options)

namespace Disk

/-- every directory stands in one -/
def Rooted (d : Disk) : Prop := ∀ p, d.isDirectory p = true → d.isDirectory p.dropLast = true

/-- the places that names lead to, one after the other -/
def way (p : Place) : List String → List Place
  | [] => []
  | name :: rest =>
    if name = "" ∨ name = "." then way p rest
    else if name = ".." then way p.dropLast rest
    else (p ++ [name]) :: way (p ++ [name]) rest

def walk (p : Place) : List String → Place
  | [] => p
  | name :: rest =>
    if name = "" ∨ name = "." then walk p rest
    else if name = ".." then walk p.dropLast rest
    else walk (p ++ [name]) rest

/-- a text can be written at the path -/
structure Writable (d : Disk) (cwd : Place) (path : String) : Prop where
  /-- the path ends in a name -/
  named : ∃ name ∈ (splitPath [] path.toList).getLast?, name ≠ "" ∧ name ≠ "." ∧ name ≠ ".."
  /-- no file is on the way -/
  clear : ∀ p ∈ way (startOf cwd path) (splitPath [] path.toList).dropLast, d.files.lookup p = none
  /-- nor is a directory at the end, or made there on the way -/
  free : d.isDirectory (walk (startOf cwd path) (splitPath [] path.toList)) = false ∧
    walk (startOf cwd path) (splitPath [] path.toList) ∉ way (startOf cwd path) (splitPath [] path.toList).dropLast

variable {d : Disk} {p q : Place} {names : List String} {name path : String} {cwd : Place} {text : List Char}

theorem isDirectory_iff : d.isDirectory p = true ↔ p = [] ∨ p ∈ d.directories := by simp [isDirectory]

/-! ## Making directories -/

/-- a directory more, in one there is -/
theorem Rooted.add (hd : d.Rooted) (hp : d.isDirectory p = true) :
    Rooted { d with directories := d.directories ++ [p ++ [name]] } := by
  intro q hq
  rw [isDirectory_iff, List.mem_append, List.mem_singleton, ← or_assoc] at hq ⊢
  rcases hq with hq | rfl
  · exact Or.inl (isDirectory_iff.1 (hd q (isDirectory_iff.2 hq)))
  · rw [List.dropLast_concat]
    exact Or.inl (isDirectory_iff.1 hp)

/-- **Where no file is on the way, all directories on it are made**, and nothing else. -/
theorem makeDirectories_ok (hd : d.Rooted) (hp : d.isDirectory p = true)
    (hclear : ∀ q ∈ way p names, d.files.lookup q = none) :
    ∃ d', d.makeDirectories p names = .ok (d', walk p names) ∧ d'.Rooted ∧ d'.files = d.files ∧
      ∀ q, d'.isDirectory q = true ↔ d.isDirectory q = true ∨ q ∈ way p names := by
  induction names generalizing d p with
  | nil => exact ⟨d, rfl, hd, rfl, by simp [way]⟩
  | cons name names ih =>
    simp only [makeDirectories, walk, way] at hclear ⊢
    by_cases hstay : name = "" ∨ name = "."
    · simp only [if_pos hstay] at hclear ⊢
      exact ih hd hp hclear
    by_cases hup : name = ".."
    · simp only [if_neg hstay, if_pos hup] at hclear ⊢
      exact ih hd (hd p hp) hclear
    simp only [if_neg hstay, if_neg hup] at hclear ⊢
    obtain ⟨hfile, hclear⟩ := List.forall_mem_cons.1 hclear
    rw [hfile, Option.isSome_none, if_neg Bool.false_ne_true]
    split_ifs with hthere
    · obtain ⟨d', hmake, hrooted, hfiles, hdirs⟩ := ih hd hthere hclear
      refine ⟨d', hmake, hrooted, hfiles, fun q => ?_⟩
      rw [hdirs, List.mem_cons]
      constructor
      · exact Or.imp_right Or.inr
      · rintro (hq | rfl | hq)
        · exact Or.inl hq
        · exact Or.inl hthere
        · exact Or.inr hq
    · have hnew : isDirectory { d with directories := d.directories ++ [p ++ [name]] } (p ++ [name]) = true :=
        isDirectory_iff.2 (Or.inr (by simp))
      obtain ⟨d', hmake, hrooted, hfiles, hdirs⟩ := ih (hd.add hp) hnew hclear
      refine ⟨d', hmake, hrooted, hfiles, fun q => ?_⟩
      rw [hdirs, isDirectory_iff, isDirectory_iff, List.mem_append, List.mem_singleton, List.mem_cons]
      tauto

/-! ## Following a path -/

/-- where all places on the way are directories, names lead through them -/
theorem follow_append (hd : d.Rooted) (hp : d.isDirectory p = true)
    (hway : ∀ q ∈ way p names, d.isDirectory q = true) (rest : List String) :
    d.follow p (names ++ rest) = d.follow (walk p names) rest ∧ d.isDirectory (walk p names) = true := by
  induction names generalizing p with
  | nil => exact ⟨rfl, hp⟩
  | cons name names ih =>
    rw [way] at hway
    rw [List.cons_append, follow, walk, if_pos hp]
    split_ifs at hway ⊢ with hstay hup
    · exact ih hp hway
    · exact ih (hd p hp) hway
    · obtain ⟨hthere, hway⟩ := List.forall_mem_cons.1 hway
      exact ih hthere hway

theorem walk_append (p : Place) (names : List String) (h : name ≠ "" ∧ name ≠ "." ∧ name ≠ "..") :
    walk p (names ++ [name]) = walk p names ++ [name] := by
  induction names generalizing p with
  | nil => simp [walk, h]
  | cons n names ih =>
    rw [List.cons_append, walk, walk]
    split_ifs
    · exact ih p
    · exact ih p.dropLast
    · exact ih (p ++ [n])

/-! ## Reading what was written -/

@[simp] theorem decode_encode (text : List Char) : decode (encode text) = .ok text := by
  have hread : String.fromUTF8? (String.ofList text).toByteArray = some (String.ofList text) :=
    dif_pos (String.ofList text).isValidUTF8
  rw [decode, encode, hread]
  simp

/-- the text put at a place is there -/
theorem lookup_put (d : Disk) (p : Place) (text : List Char) :
    (d.put p text).files.lookup p = some (encode text) := by
  unfold put
  split_ifs with hthere
  · simp only
    generalize d.files = files at hthere ⊢
    induction files with
    | nil => simp at hthere
    | cons f files ih =>
      by_cases hf : f.1 = p
      · simp [hf]
      · have hne : (p == f.1) = false := by simpa using Ne.symm hf
        have hcons : ∀ f' : Place × ByteArray, f'.1 = f.1 → ∀ fs, (f' :: fs).lookup p = fs.lookup p := by
          rintro ⟨q, u⟩ rfl fs
          rw [List.lookup_cons, hne]
        rw [hcons f rfl] at hthere
        rw [List.map_cons, if_neg hf, hcons f rfl]
        exact ih hthere
  · rw [Bool.not_eq_true, Option.isSome_eq_false_iff, Option.isNone_iff_eq_none] at hthere
    simp [List.lookup_append, hthere]

/-- a text put at a place changes no other file -/
theorem lookup_put_ne (d : Disk) (text : List Char) (h : q ≠ p) :
    (d.put p text).files.lookup q = d.files.lookup q := by
  have hne : (q == p) = false := by simpa using h
  unfold put
  split_ifs
  · simp only
    induction d.files with
    | nil => rfl
    | cons f files ih =>
      rw [List.map_cons, List.lookup_cons, List.lookup_cons, ih]
      split_ifs with hf
      · rw [hf, hne]
      · rfl
  · simp [List.lookup_append, List.lookup_cons, hne]

theorem isDirectory_put (d : Disk) (p q : Place) (text : List Char) :
    (d.put p text).isDirectory q = d.isDirectory q := by
  unfold put
  split_ifs <;> rfl

/-- a text stored at the place that a path leads to is read -/
theorem read_of_lookup (hresolve : d.resolve cwd path = .ok p) (hdir : d.isDirectory p = false)
    (hfile : d.files.lookup p = some (encode text)) : d.read cwd path = .ok text := by
  rw [read, hresolve]
  simp only [textAt, hdir, hfile, decode_encode]
  rfl

def placeOf (cwd : Place) (path : String) : Place := walk (startOf cwd path) (splitPath [] path.toList)

/-- a disk after a text was written at a path -/
structure Stored (d d' : Disk) (cwd : Place) (path : String) (text : List Char) : Prop where
  rooted : d'.Rooted
  /-- the directories on the way are made, and no others -/
  directories : ∀ q, d'.isDirectory q = true ↔
    d.isDirectory q = true ∨ q ∈ way (startOf cwd path) (splitPath [] path.toList).dropLast
  here : d'.files.lookup (placeOf cwd path) = some (encode text)
  elsewhere : ∀ q, q ≠ placeOf cwd path → d'.files.lookup q = d.files.lookup q

theorem isDirectory_startOf (hcwd : d.isDirectory cwd = true) : d.isDirectory (startOf cwd path) = true := by
  unfold startOf
  split_ifs
  · rfl
  · exact hcwd

namespace Writable

variable (hw : d.Writable cwd path)
include hw

/-- a path to write at is a way and a name -/
theorem exists_name : ∃ name, splitPath [] path.toList = (splitPath [] path.toList).dropLast ++ [name] ∧
    (name ≠ "" ∧ name ≠ "." ∧ name ≠ "..") ∧
    placeOf cwd path = walk (startOf cwd path) (splitPath [] path.toList).dropLast ++ [name] := by
  obtain ⟨name, hlast, hname⟩ := hw.named
  have hsplit := (List.dropLast_append_getLast? name hlast).symm
  refine ⟨name, hsplit, hname, ?_⟩
  rw [placeOf, ← walk_append _ _ hname, ← hsplit]

/-- **A text is written where it can be.** -/
theorem write_ok (hd : d.Rooted) (hcwd : d.isDirectory cwd = true) (text : List Char) :
    ∃ d', d.write cwd path text = .ok d' ∧ Stored d d' cwd path text := by
  obtain ⟨name, hsplit, hname, hplace⟩ := hw.exists_name
  obtain ⟨d₁, hmake, hrooted, hfiles, hdirs⟩ := makeDirectories_ok hd (isDirectory_startOf hcwd) hw.clear
  have htaken : d₁.isDirectory (placeOf cwd path) = false := by
    have hfree := hw.free
    rw [← Bool.not_eq_true, hdirs, placeOf, hfree.1]
    simpa using hfree.2
  refine ⟨d₁.put (placeOf cwd path) text, ?_, ?_, ?_, lookup_put _ _ _, ?_⟩
  · have hend : walk (startOf cwd path) (splitPath [] path.toList).dropLast ++
        (splitPath [] path.toList).getLast?.toList = placeOf cwd path := by
      rw [hplace, hsplit, List.getLast?_concat, List.dropLast_concat]
      rfl
    rw [write, hmake]
    simp only [hend, htaken]
    rfl
  · intro q hq
    rw [isDirectory_put] at hq ⊢
    exact hrooted q hq
  · intro q
    rw [isDirectory_put]
    exact hdirs q
  · intro q hq
    rw [lookup_put_ne _ _ hq, hfiles]

end Writable

namespace Stored

variable {d' : Disk} (h : Stored d d' cwd path text)
include h

theorem isDirectory (hq : d.isDirectory q = true) : d'.isDirectory q = true := (h.directories q).2 (Or.inl hq)

/-- the place written at is no directory -/
theorem isDirectory_place (hw : d.Writable cwd path) : d'.isDirectory (placeOf cwd path) = false := by
  have hfree := hw.free
  rw [← Bool.not_eq_true, h.directories, placeOf, hfree.1]
  simpa using hfree.2

/-- the text written is read -/
theorem read (hcwd : d.isDirectory cwd = true) (hw : d.Writable cwd path) : d'.read cwd path = .ok text := by
  obtain ⟨name, hsplit, hname, hplace⟩ := hw.exists_name
  have hne : path.isEmpty = false := by
    rw [← Bool.not_eq_true, String.isEmpty_iff]
    rintro rfl
    have hempty : splitPath [] "".toList = [""] := rfl
    rw [hempty] at hsplit
    exact hname.1 (List.cons.inj hsplit).1.symm
  -- all directories on the way are there
  obtain ⟨hfollow, hparent⟩ := follow_append h.rooted (h.isDirectory (isDirectory_startOf hcwd))
    (fun q hq => (h.directories q).2 (Or.inr hq)) [name]
  have hresolve : d'.resolve cwd path = .ok (placeOf cwd path) := by
    rw [resolve, hne, if_neg Bool.false_ne_true, hsplit, hfollow, follow, if_pos hparent,
      if_neg (by simpa using ⟨hname.1, hname.2.1⟩), if_neg hname.2.2, follow, hplace]
  exact read_of_lookup hresolve (h.isDirectory_place hw) h.here

/-- a text can be written there again -/
theorem writable (hw : d.Writable cwd path) : d'.Writable cwd path where
  named := hw.named
  clear q hq := by
    have hne : q ≠ placeOf cwd path := by
      rintro rfl
      exact hw.free.2 hq
    rw [h.elsewhere q hne]
    exact hw.clear q hq
  free := ⟨h.isDirectory_place hw, hw.free.2⟩

/-- names that led to a place lead there still -/
theorem follow (hfollow : d.follow p names = .ok q) : d'.follow p names = .ok q := by
  induction names generalizing p with
  | nil => exact hfollow
  | cons name names ih =>
    rw [Disk.follow] at hfollow ⊢
    by_cases hp : d.isDirectory p = true
    · rw [if_pos hp] at hfollow
      rw [if_pos (h.isDirectory hp)]
      split_ifs at hfollow ⊢
      · exact ih hfollow
      · exact ih hfollow
      · exact ih hfollow
    · rw [if_neg hp] at hfollow
      split_ifs at hfollow

/-- **Every other text is read as before.** -/
theorem read_other (hw : d.Writable cwd path) {other : String} {t : List Char}
    (hother : d.resolve cwd other ≠ .ok (placeOf cwd path)) (hread : d.read cwd other = .ok t) :
    d'.read cwd other = .ok t := by
  rw [Disk.read] at hread
  cases hresolve : d.resolve cwd other with
  | error e => simp [hresolve] at hread
  | ok p =>
    simp only [hresolve] at hread
    have hresolve' : d'.resolve cwd other = .ok p := by
      rw [resolve] at hresolve ⊢
      split_ifs at hresolve ⊢
      exact h.follow hresolve
    have hne : p ≠ placeOf cwd path := fun hp => hother (hp ▸ hresolve)
    have hdir : d.isDirectory p = false := by
      cases hp : d.isDirectory p with
      | false => rfl
      | true => simp [textAt, hp] at hread
    -- a file is there, so the place is not on the way
    have hdir' : d'.isDirectory p = false := by
      rw [← Bool.not_eq_true, h.directories, hdir]
      rintro (hp | hp)
      · exact Bool.false_ne_true hp
      · simp [textAt, hdir, hw.clear p hp] at hread
    rw [Disk.read, hresolve']
    simp only [textAt, hdir', h.elsewhere p hne]
    simpa only [textAt, hdir] using hread

end Stored

/-- **A text is written where it can be, and read back.** -/
theorem read_write (hd : d.Rooted) (hcwd : d.isDirectory cwd = true) (hw : d.Writable cwd path) (text : List Char) :
    ∃ d', d.write cwd path text = .ok d' ∧ d'.read cwd path = .ok text := by
  obtain ⟨d', hwrite, hstored⟩ := hw.write_ok hd hcwd text
  exact ⟨d', hwrite, hstored.read hcwd hw⟩

end Disk

/-- **Saved options are loaded again**, whatever they are, and whether or not their directory was there before. -/
theorem loadSettings_write (o : Options) {d : Disk} {cwd : Place} {path : String} (hd : d.Rooted)
    (hcwd : d.isDirectory cwd = true) (hw : d.Writable cwd path) :
    ∃ d', d.write cwd path (Settings.toText o) = .ok d' ∧ loadSettings (d'.read cwd path) = .ok (some o) := by
  obtain ⟨d', hwrite, hread⟩ := Disk.read_write hd hcwd hw (Settings.toText o)
  refine ⟨d', hwrite, ?_⟩
  rw [hread, loadSettings, Settings.ofText?_toText]

theorem loadSettings_write_nested :
    Disk.empty.Rooted ∧ Disk.empty.isDirectory [] = true ∧ Disk.empty.Writable [] "nested/config.toml" ∧
      ∃ d', Disk.empty.write [] "nested/config.toml"
          (Settings.toText ⟨["a\"'b", "\n\\\x07"], false, [.link, .link]⟩) = .ok d' ∧
        loadSettings (d'.read [] "nested/config.toml") = .ok (some ⟨["a\"'b", "\n\\\x07"], false, [.link, .link]⟩) := by
  have hrooted : Disk.empty.Rooted := by
    intro p hp
    obtain rfl : p = [] := by simpa [Disk.isDirectory, Disk.empty] using hp
    rfl
  have hwritable : Disk.empty.Writable [] "nested/config.toml" :=
    ⟨⟨"config.toml", by decide⟩, by decide, by decide⟩
  exact ⟨hrooted, rfl, hwritable, loadSettings_write _ hrooted rfl hwritable⟩

end MarkVeil.Command

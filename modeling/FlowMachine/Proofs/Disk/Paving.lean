import FlowMachine.Proofs.Disk.Acts

/-!
# Paths that can be written

A path passes a place for each of its names. It can be followed when all of these are directories,
and it can be paved when none of them is a file: the directories that are missing are then made, and
nothing else changes. From this it is known beforehand whether a file can be written. Once a file is
there on a disk that came out of this one, it could have been written here already.
-/
namespace FlowMachine

open FlowMachine.Disk

/-! ## Places on the way -/

/-- The places that names pass from a start on, without the one they lead to. -/
def Location.stops (start : Location) : List String → List Location
  | [] => []
  | name :: names => start :: Location.stops (start.stride name) names

theorem Location.stops_concat (start : Location) (names : List String) (name : String) :
    start.stops (names ++ [name]) = start.stops names ++ [names.foldl stride start] := by
  induction names generalizing start with
  | nil => rfl
  | cons first names ih =>
    rw [List.cons_append, stops, stops, ih]
    rfl

namespace Path

def stops (home : Location) (p : Path) : List Location := (p.start home).stops p.parts

theorem stops_concat (home : Location) (root : Nat) (names : List String) (name : String) :
    (⟨root, names ++ [name]⟩ : Path).stops home =
      (⟨root, names⟩ : Path).stops home ++ [(⟨root, names⟩ : Path).aim home] :=
  Location.stops_concat _ _ _

/-- The text of a path can be followed as far as its characters and its length go. -/
structure Sound (p : Path) : Prop where
  visible : p.parts.any (·.toList.contains (Char.ofNat 0)) = false
  size : p.toText.utf8ByteSize ≤ maxPath
  names : ∀ name ∈ p.parts, name = ".." ∨ name.utf8ByteSize ≤ maxName

theorem utf8ByteSize_intercalate_concat (names : List String) (name : String) :
    ("/".intercalate names).utf8ByteSize ≤ ("/".intercalate (names ++ [name])).utf8ByteSize := by
  induction names with
  | nil => simp
  | cons first names ih =>
    cases names with
    | nil =>
      simp only [List.cons_append, List.nil_append, String.intercalate_cons_cons,
        String.intercalate_singleton, String.utf8ByteSize_append]
      omega
    | cons second names =>
      simp only [List.cons_append, String.intercalate_cons_cons, String.utf8ByteSize_append] at ih ⊢
      omega

/-- What stands in front of the last name is sound too. -/
theorem Sound.init {root : Nat} {names : List String} {name : String}
    (h : (⟨root, names ++ [name]⟩ : Path).Sound) : (⟨root, names⟩ : Path).Sound where
  visible := by
    have hvisible := h.visible
    rw [List.any_append, Bool.or_eq_false_iff] at hvisible
    exact hvisible.1
  size := by
    have hsize := h.size
    have hgrows := utf8ByteSize_intercalate_concat names name
    have hnot : (root == 0 && (names ++ [name]).isEmpty) = false := by simp
    unfold toText at hsize ⊢
    dsimp only at hsize ⊢
    rw [hnot, if_neg (by simp), String.utf8ByteSize_append] at hsize
    split_ifs
    · decide
    · rw [String.utf8ByteSize_append]
      omega
  names := fun other hother => h.names other (List.mem_append_left _ hother)

end Path

namespace Disk

variable {d d₁ d' : Disk} {place : Location} {p : Path}

theorem step_eq_ok_iff {name : String} {next : Location} : d.step place name = .ok next ↔
    d.get? place = some .directory ∧ (name = ".." ∨ name.utf8ByteSize ≤ maxName) ∧
      next = place.stride name := by
  unfold step Location.stride
  split
  · rename_i hget
    simp [hget]
  · rename_i hget
    simp [hget]
  · rename_i hget
    by_cases hdots : name = ".."
    · simp only [hdots, beq_self_eq_true, if_true, hget, true_or, true_and, Except.ok.injEq]
      exact eq_comm
    · have hname : (name == "..") = false := by simpa using hdots
      simp only [hname, Bool.false_eq_true, if_false, hget, hdots, false_or, true_and]
      by_cases hlong : name.utf8ByteSize > maxName
      · simp [hlong, Nat.not_le_of_lt hlong]
      · simp only [hlong, if_false, Nat.le_of_not_lt hlong, true_and, Except.ok.injEq]
        exact eq_comm

theorem foldlM_step_eq_ok_iff {start : Location} {names : List String} :
    names.foldlM d.step start = .ok place ↔
      (∀ stop ∈ start.stops names, d.get? stop = some .directory) ∧
        (∀ name ∈ names, name = ".." ∨ name.utf8ByteSize ≤ maxName) ∧
        place = names.foldl Location.stride start := by
  induction names generalizing start with
  | nil =>
    rw [List.foldlM_nil, pure_eq_ok]
    simp [Location.stops, eq_comm]
  | cons name names ih =>
    simp only [List.foldlM_cons, bind_eq_ok, step_eq_ok_iff, ih, Location.stops,
      List.forall_mem_cons, List.foldl_cons]
    constructor
    · rintro ⟨_, ⟨hdir, hname, rfl⟩, hstops, hnames, hplace⟩
      exact ⟨⟨hdir, hstops⟩, ⟨hname, hnames⟩, hplace⟩
    · rintro ⟨⟨hdir, hstops⟩, ⟨hname, hnames⟩, hplace⟩
      exact ⟨_, ⟨hdir, hname, rfl⟩, hstops, hnames, hplace⟩

/-- A path leads somewhere exactly when it is sound and passes directories only. -/
theorem find_eq_ok_iff_stops : d.find p = .ok place ↔
    p.Sound ∧ (∀ stop ∈ p.stops d.home, d.get? stop = some .directory) ∧ place = p.aim d.home := by
  rw [find_eq_ok_iff, foldlM_step_eq_ok_iff]
  constructor
  · rintro ⟨⟨hvisible, hsize⟩, hstops, hnames, hplace⟩
    exact ⟨⟨hvisible, hsize, hnames⟩, hstops, hplace⟩
  · rintro ⟨hsound, hstops, hplace⟩
    exact ⟨⟨hsound.visible, hsound.size⟩, hstops, hsound.names, hplace⟩

/-- No file is at a place. -/
def Free (d : Disk) (place : Location) : Prop :=
  ∀ content time, d.get? place ≠ some (.file content time)

theorem free_of_directory (h : d.get? place = some .directory) : d.Free place := by
  intro content time hfile
  rw [h] at hfile
  cases hfile

theorem foldlM_step_eq_missing {start : Location} {names : List String}
    (hnames : ∀ name ∈ names, name = ".." ∨ name.utf8ByteSize ≤ maxName)
    (hfree : ∀ stop ∈ start.stops names, d.Free stop)
    (hnot : ¬ ∀ stop ∈ start.stops names, d.get? stop = some .directory) :
    names.foldlM d.step start = .error .missing := by
  induction names generalizing start with
  | nil => simp [Location.stops] at hnot
  | cons name names ih =>
    simp only [Location.stops, List.forall_mem_cons] at hnames hfree hnot
    rw [List.foldlM_cons, bind_eq_error]
    rcases hget : d.get? start with _ | (_ | ⟨content, time⟩)
    · exact .inl (by simp [step, hget])
    · refine .inr ⟨start.stride name, step_eq_ok_iff.mpr ⟨hget, hnames.1, rfl⟩, ?_⟩
      exact ih hnames.2 hfree.2 fun hall => hnot ⟨hget, hall⟩
    · exact absurd hget (hfree.1 content time)

/-- A sound path that passes no file is followed up to where something is missing. -/
theorem find_eq_missing (hsound : p.Sound) (hfree : ∀ stop ∈ p.stops d.home, d.Free stop)
    (hnot : ¬ ∀ stop ∈ p.stops d.home, d.get? stop = some .directory) :
    d.find p = .error (.file .missing p.toText) := by
  have hlocate : d.locate p = .error .missing := by
    unfold locate
    rw [if_neg (Nat.not_lt_of_le hsound.size)]
    exact foldlM_step_eq_missing hsound.names hfree hnot
  unfold find
  rw [hsound.visible, hlocate]
  rfl

/-! ## Making directories -/

/-- The second disk has directories at some places and is else the first one. -/
structure Paves (places : List Location) (d d' : Disk) : Prop where
  home_eq : d'.home = d.home
  made : ∀ place ∈ places, d'.get? place = some .directory
  kept : ∀ place, place ∉ places → d'.get? place = d.get? place

variable {places more : List Location}

theorem paves_self (h : ∀ place ∈ places, d.get? place = some .directory) : Paves places d d :=
  ⟨rfl, h, fun _ _ => rfl⟩

theorem Paves.trans (h : Paves places d d₁) (h' : Paves more d₁ d') :
    Paves (places ++ more) d d' where
  home_eq := h'.home_eq.trans h.home_eq
  made := by
    intro place hplace
    by_cases hmore : place ∈ more
    · exact h'.made place hmore
    · rw [h'.kept place hmore]
      exact h.made place ((List.mem_append.mp hplace).resolve_right hmore)
  kept := by
    intro place hplace
    rw [List.mem_append, not_or] at hplace
    rw [h'.kept place hplace.2, h.kept place hplace.1]

theorem Paves.free (h : Paves places d d') (hfree : d.Free place) : d'.Free place := by
  by_cases hplace : place ∈ places
  · exact free_of_directory (h.made place hplace)
  · unfold Free
    rw [h.kept place hplace]
    exact hfree

end Disk

namespace Act

variable {d : Disk} {p : Path}

/-- Where the way is made of directories, a directory is made, or one is there. -/
theorem run_admitDirectory (hsound : p.Sound)
    (hstops : ∀ stop ∈ p.stops d.home, d.get? stop = some .directory)
    (hfree : d.Free (p.aim d.home)) :
    ∃ d', (admitDirectory p).run.run d = (.ok (), d') ∧ Paves [p.aim d.home] d d' := by
  have hfind : d.find p = .ok (p.aim d.home) := find_eq_ok_iff_stops.mpr ⟨hsound, hstops, rfl⟩
  unfold admitDirectory
  rw [run_bind, run_attempt, run_change]
  rcases hget : d.get? (p.aim d.home) with _ | (_ | ⟨content, time⟩)
  · have hmake : d.makeDirectory p = .ok (d.set (p.aim d.home) .directory) := by
      refine bind_eq_ok.mpr ⟨_, hfind, ?_⟩
      rw [hget]
      rfl
    have hne : p.aim d.home ≠ [] := ne_nil_of_get? (d := d) (by simp [hget])
    rw [hmake]
    refine ⟨_, rfl, rfl, ?_, fun other hother => get?_set_of_ne d (by simpa using hother) _⟩
    simpa using get?_set_self d hne .directory
  · have hmake : d.makeDirectory p = .error (.file .present p.toText) := by
      refine bind_eq_error.mpr (.inr ⟨_, hfind, ?_⟩)
      rw [hget]
      rfl
    have hdirectory : d.isDirectory p = .ok true := by
      unfold isDirectory
      rw [peek_eq_some_iff.mpr ⟨hfind, hget⟩]
      rfl
    rw [hmake]
    refine ⟨d, ?_, paves_self (by simpa using hget)⟩
    show (do
      if (Fault.file .present p.toText) ==
        .file .missing p.toText then throw (.file .present p.toText)
      else if !(← look (·.isDirectory p)) then
      throw (.file .present p.toText) : Act Unit).run.run d = _
    rw [if_neg (by simp), run_bind, run_look, hdirectory]
    rfl
  · exact absurd hget (hfree content time)

/-- Where something on the way is missing, nothing is made. -/
theorem run_admitDirectory_missing (hsound : p.Sound) (hfree : ∀ stop ∈ p.stops d.home, d.Free stop)
    (hnot : ¬ ∀ stop ∈ p.stops d.home, d.get? stop = some .directory) :
    (admitDirectory p).run.run d = (.error (.file .missing p.toText), d) := by
  have hmake : d.makeDirectory p = .error (.file .missing p.toText) := by
    unfold makeDirectory
    rw [find_eq_missing hsound hfree hnot]
    rfl
  unfold admitDirectory
  rw [run_bind, run_attempt, run_change, hmake]
  show (do
    if (Fault.file .missing p.toText) ==
      .file .missing p.toText then throw (.file .missing p.toText)
    else if !(← look (·.isDirectory p)) then throw (.file .missing p.toText) : Act Unit).run.run d =
    _
  rw [if_pos (by simp)]
  rfl

/-- A sound path that no file stands in the way of is paved: there are directories at all its
places, and elsewhere nothing has changed. -/
theorem run_makeDirectories (root : Nat) (names : List String)
    (hsound : (⟨root, names.reverse⟩ : Path).Sound)
    (hfree : ∀ place ∈ (⟨root, names.reverse⟩ : Path).stops d.home ++
      [(⟨root, names.reverse⟩ : Path).aim d.home], d.Free place) :
    ∃ d', (makeDirectories root names).run.run d = (.ok (), d') ∧
      Paves ((⟨root, names.reverse⟩ : Path).stops d.home ++
        [(⟨root, names.reverse⟩ : Path).aim d.home]) d d' := by
  induction names with
  | nil =>
    exact run_admitDirectory hsound (by simp [Path.stops, Location.stops]) (hfree _ (by simp))
  | cons name above ih =>
    generalize hp : (⟨root, (name :: above).reverse⟩ : Path) = p at hsound hfree ⊢
    have hsplit : p.stops d.home = (⟨root, above.reverse⟩ : Path).stops d.home ++
        [(⟨root, above.reverse⟩ : Path).aim d.home] := by
      rw [← hp, List.reverse_cons]
      exact Path.stops_concat _ _ _ _
    have habove : (⟨root, above.reverse⟩ : Path).Sound := by
      rw [← hp, List.reverse_cons] at hsound
      exact hsound.init
    simp only [List.forall_mem_append, List.forall_mem_singleton] at hfree
    unfold makeDirectories
    rw [hp]
    dsimp only
    rw [run_bind, run_attempt]
    by_cases hall : ∀ stop ∈ p.stops d.home, d.get? stop = some .directory
    · obtain ⟨d', hrun, hpaves⟩ := run_admitDirectory hsound hall hfree.2
      rw [hrun]
      exact ⟨d', rfl, (paves_self hall).trans hpaves⟩
    · rw [run_admitDirectory_missing hsound hfree.1 hall]
      -- the directories above come first, and the last one is made in them
      obtain ⟨d₁, hrun₁, hpaves₁⟩ := ih habove (by rw [← hsplit]; exact hfree.1)
      rw [← hsplit] at hpaves₁
      obtain ⟨d₂, hrun₂, hpaves₂⟩ := run_admitDirectory (d := d₁) hsound
        (by rw [hpaves₁.home_eq]; exact hpaves₁.made)
        (by rw [hpaves₁.home_eq]; exact hpaves₁.free hfree.2)
      rw [hpaves₁.home_eq] at hpaves₂
      refine ⟨d₂, ?_, hpaves₁.trans hpaves₂⟩
      show (do
        if (Fault.file .missing p.toText) == .file .missing p.toText then
          makeDirectories root above
          admitDirectory p
        else throw (.file .missing p.toText) : Act Unit).run.run d = _
      rw [if_pos (by simp), run_bind, hrun₁]
      exact hrun₂

end Act

/-! ## Writing files -/

/-- A file can be written at a path: the path is sound, no file stands in its way, and where it
leads there is no directory, nor would one be made on the way. -/
structure Disk.Admits (d : Disk) (p : Path) : Prop where
  sound : p.Sound
  named : p.parts ≠ []
  free : ∀ stop ∈ p.stops d.home, d.Free stop
  vacant : d.get? (p.aim d.home) ≠ some .directory
  apart : p.aim d.home ∉ p.stops d.home

namespace Disk

variable {W : Location → ByteArray → Prop} {d d' : Disk} {place : Location} {p : Path}

/-- Where a file is in the end, one can be written from the beginning. -/
theorem Evolves.admits (h : d.Evolves W d') (hnamed : p.parts ≠ []) {content : ByteArray}
    {time : Int}
    (hpeek : d'.peek p = .ok (some (.file content time))) : d.Admits p := by
  obtain ⟨hfind, hget⟩ := peek_eq_some_iff.mp hpeek
  obtain ⟨hsound, hstops, -⟩ := find_eq_ok_iff_stops.mp hfind
  rw [h.home_eq] at hstops hget
  refine ⟨hsound, hnamed, fun stop hstop content' time' hfile => ?_, fun hdirectory => ?_,
    fun hon => ?_⟩
  · obtain ⟨_, _, hnow⟩ := h.exists_file hfile
    rw [hstops stop hstop] at hnow
    cases hnow
  · rw [h.directory hdirectory] at hget
    cases hget
  · rw [hstops _ hon] at hget
    cases hget

/-- What a path leads to that admits a file: nothing or a file. -/
theorem Admits.exists_peek (h : d.Admits p) :
    ∃ there, d.peek p = .ok there ∧ there ≠ some .directory := by
  by_cases hall : ∀ stop ∈ p.stops d.home, d.get? stop = some .directory
  · have hfind := find_eq_ok_iff_stops.mpr ⟨h.sound, hall, rfl⟩
    refine ⟨d.get? (p.aim d.home), ?_, h.vacant⟩
    cases hget : d.get? (p.aim d.home) with
    | some e => exact peek_eq_some_iff.mpr ⟨hfind, hget⟩
    | none =>
      have hstatus : d.status p = .error (.file .missing p.toText) := by
        refine bind_eq_error.mpr (.inr ⟨_, hfind, ?_⟩)
        rw [hget]
        rfl
      unfold peek
      rw [hstatus]
  · refine ⟨none, ?_, by simp⟩
    unfold peek status
    rw [find_eq_missing h.sound h.free hall]
    rfl

theorem write_of_find {content : ByteArray} (hfind : d.find p = .ok (p.aim d.home))
    (hget : d.get? (p.aim d.home) ≠ some .directory) :
    d.write p content = .ok (d.set (p.aim d.home) (.file content d.clock)) := by
  refine bind_eq_ok.mpr ⟨_, hfind, ?_⟩
  split
  · rename_i hdirectory
    exact absurd hdirectory hget
  · rfl

/-- Where a path admits a file, its directories are made and the file is put in them. -/
theorem Admits.exists_write (h : d.Admits p) (content : ByteArray) :
    ∃ d₁ d₂, (Act.ensureDirectory p.parent).run.run d = (.ok (), d₁) ∧
      d₁.write p content = .ok d₂ := by
  obtain ⟨front, name, hparts⟩ : ∃ front name, p.parts = front ++ [name] :=
    ⟨_, _, (List.dropLast_append_getLast h.named).symm⟩
  have hp : p = ⟨p.root, front ++ [name]⟩ := by rw [← hparts]
  have hparent : p.parent = ⟨p.root, front⟩ := by simp [Path.parent, hparts]
  have hsplit : p.stops d.home = (⟨p.root, front⟩ : Path).stops d.home ++
      [(⟨p.root, front⟩ : Path).aim d.home] := by
    rw [hp]
    exact Path.stops_concat _ _ _ _
  have hsound : (⟨p.root, front⟩ : Path).Sound := by
    have hsound := h.sound
    rw [hp] at hsound
    exact hsound.init
  have hfree := h.free
  rw [hsplit] at hfree
  obtain ⟨d₁, hrun, hpaves⟩ := Act.run_makeDirectories (d := d) p.root front.reverse
    (by rw [List.reverse_reverse]; exact hsound) (by rw [List.reverse_reverse]; exact hfree)
  rw [List.reverse_reverse, ← hsplit] at hpaves
  have hfind : d₁.find p = .ok (p.aim d₁.home) := by
    refine find_eq_ok_iff_stops.mpr ⟨h.sound, ?_, rfl⟩
    rw [hpaves.home_eq]
    exact hpaves.made
  have hget : d₁.get? (p.aim d₁.home) ≠ some .directory := by
    rw [hpaves.home_eq, hpaves.kept _ h.apart]
    exact h.vacant
  refine ⟨d₁, _, ?_, write_of_find hfind hget⟩
  rw [hparent]
  exact hrun

/-- The bytes of the file at a place, if there is one. -/
def bytesAt? (d : Disk) (place : Location) : Option ByteArray :=
  match d.get? place with
  | some (.file content _) => some content
  | _ => none

theorem bytesAt?_eq_some_iff {content : ByteArray} :
    d.bytesAt? place = some content ↔ ∃ time, d.get? place = some (.file content time) := by
  unfold bytesAt?
  rcases d.get? place with _ | (_ | ⟨content', time⟩) <;> simp

theorem Evolves.bytesAt?_eq (h : d.Evolves W d') (hw : ∀ content, ¬ W place content) :
    d'.bytesAt? place = d.bytesAt? place := by
  refine Option.ext fun content => ?_
  simp only [bytesAt?_eq_some_iff, h.file_iff hw]

end Disk

namespace OutputFile

variable {f : OutputFile} {p : Path} {there overwrite : Bool} {d d' : Disk} {r : WriteResult}

/-- A file is put in place after what is there is copied and its directories are made. -/
theorem run_place (f : OutputFile) (p : Path) (there overwrite backup : Bool) (d : Disk) :
    (f.place p there overwrite backup).run.run d =
      if there && !overwrite then (.ok .kept, d)
      else match (FileWriter.keepCopy p there backup).run.run d with
        | (.error fault, d₀) => (.error fault, d₀)
        | (.ok kept, d₀) =>
          match (Act.ensureDirectory p.parent).run.run d₀ with
          | (.error fault, d₁) => (.error fault, d₁)
          | (.ok (), d₁) =>
            match d₁.write p f.content.toUTF8 with
            | .error fault => (.error fault, d₁)
            | .ok d₂ => (.ok (.written f.size kept), d₂) := by
  rw [place_eq]
  split_ifs
  · rfl
  · rw [Act.run_bind]
    rcases (FileWriter.keepCopy p there backup).run.run d with ⟨fault | kept, d₀⟩
    · rfl
    · dsimp only
      rw [Act.run_bind]
      rcases (Act.ensureDirectory p.parent).run.run d₀ with ⟨fault | _, d₁⟩
      · rfl
      · dsimp only
        rw [Act.run_bind, Act.run_change]
        cases d₁.write p f.content.toUTF8 <;> rfl

/-- Without kept copies, only the directories are made first. -/
theorem run_place_plain (f : OutputFile) (p : Path) (there overwrite : Bool) (d : Disk) :
    (f.place p there overwrite false).run.run d =
      if there && !overwrite then (.ok .kept, d)
      else match (Act.ensureDirectory p.parent).run.run d with
        | (.error fault, d₁) => (.error fault, d₁)
        | (.ok (), d₁) =>
          match d₁.write p f.content.toUTF8 with
          | .error fault => (.error fault, d₁)
          | .ok d₂ => (.ok (.written f.size none), d₂) := by
  rw [run_place, FileWriter.run_keepCopy, Bool.and_false]
  rfl

theorem run_settle_of_peek {f : OutputFile} {backup : Bool} {found : Option Entry}
    (hpeek : d.peek p = .ok found) (hfile : found ≠ some .directory) :
    (f.settle p overwrite backup).run.run d = (f.place p found.isSome overwrite backup).run.run d :=
  FileWriter.run_settle_of_peek {} f.textFile overwrite backup hpeek hfile

/-- What is there is kept, or nothing is put anywhere, or the file is put in place. -/
theorem place_cases_plain {result : Except Fault WriteOutcome}
    (h : (f.place p there overwrite false).run.run d = (result, d')) :
    (result = .ok .kept ∧ overwrite = false ∧ d' = d) ∨
      ((∃ fault, result = .error fault) ∧ d.Evolves (fun _ _ => False) d') ∨
      (result = .ok (.written f.size none) ∧ (overwrite = true ∨ there = false)) := by
  rw [run_place_plain] at h
  split_ifs at h with hkept
  · cases h
    exact .inl ⟨rfl, by simpa using (Bool.and_eq_true_iff.mp hkept).2, rfl⟩
  · have hmade := Act.confined_ensureDirectory (W := fun _ _ => False) p.parent d rfl
    rcases hdirs : (Act.ensureDirectory p.parent).run.run d with ⟨fault | _, d₁⟩
    · rw [hdirs] at h hmade
      cases h
      exact .inr (.inl ⟨⟨fault, rfl⟩, hmade⟩)
    · rw [hdirs] at h hmade
      dsimp only at h
      cases hwrite : d₁.write p f.content.toUTF8 with
      | error fault =>
        rw [hwrite] at h
        cases h
        exact .inr (.inl ⟨⟨fault, rfl⟩, hmade⟩)
      | ok d₂ =>
        rw [hwrite] at h
        cases h
        refine .inr (.inr ⟨rfl, ?_⟩)
        cases overwrite with
        | true => exact .inl rfl
        | false => exact .inr (by simpa using hkept)

/-- What writing a file comes to without kept copies. -/
theorem write_cases_plain (h : (f.write overwrite false).run.run d = (.ok r, d')) :
    (r.outcome = .kept ∧ overwrite = false ∧ d' = d) ∨
      (r.success = false ∧ r.written = false ∧ d.Evolves (fun _ _ => False) d') ∨
      (r.success = true ∧ r.written = true ∧
        (overwrite = true ∨ d.peek (.ofText f.path) = .ok none)) := by
  rw [run_write, run_settle] at h
  split at h
  · rename_i outcome d₁ hsettle
    cases h
    split at hsettle
    · cases hsettle
    · cases hsettle
      exact .inr (.inl ⟨rfl, rfl, .refl _ _⟩)
    · rename_i there _ hpeek
      obtain ⟨hresult, hkept⟩ | ⟨⟨fault, hresult⟩, -⟩ | ⟨hresult, hnew⟩ := place_cases_plain hsettle
      · obtain rfl := Except.ok.inj hresult
        exact .inl ⟨rfl, hkept⟩
      · cases hresult
      · obtain rfl := Except.ok.inj hresult
        refine .inr (.inr ⟨rfl, rfl, hnew.imp_right fun hnone => ?_⟩)
        rw [hpeek, Option.isNone_iff_eq_none.mp (Option.isSome_eq_false_iff.mp hnone)]
  · rename_i hsettle
    cases h
    refine .inr (.inl ⟨rfl, rfl, ?_⟩)
    split at hsettle
    · cases hsettle
      exact .refl _ _
    · cases hsettle
    · obtain ⟨hresult, -⟩ | ⟨-, hstill⟩ | ⟨hresult, -⟩ := place_cases_plain hsettle
      · cases hresult
      · exact hstill
      · cases hresult
  · cases h

/-- Nothing stands in the way of a file at a path that admits one. -/
theorem success_of_admits (hadmits : d.Admits (.ofText f.path))
    (h : (f.write overwrite false).run.run d = (.ok r, d')) : r.success = true := by
  obtain ⟨there, hpeek, hthere⟩ := hadmits.exists_peek
  obtain ⟨d₁, d₂, hdirs, hwrite⟩ := hadmits.exists_write f.content.toUTF8
  rw [run_write, run_settle_of_peek hpeek hthere, run_place_plain, hdirs] at h
  dsimp only at h
  rw [hwrite] at h
  split_ifs at h <;> cases h <;> rfl

/-- Writing a file changes bytes at its place alone, and only when it is written. -/
theorem bytesAt?_of_write (h : (f.write overwrite false).run.run d = (.ok r, d'))
    (place : Location) :
    d'.bytesAt? place = (if r.written ∧ place = (Path.ofText f.path).aim d.home then
      some f.content.toUTF8 else none).or (d.bytesAt? place) := by
  have hevolves := f.confined_write d.home overwrite false d rfl
  rw [h] at hevolves
  split_ifs with hput
  · obtain ⟨hwritten, rfl⟩ := hput
    obtain ⟨time, hpeek⟩ := content_of_write h hwritten
    have hget := (peek_eq_some_iff.mp hpeek).2
    rw [hevolves.home_eq] at hget
    exact bytesAt?_eq_some_iff.mpr ⟨time, hget⟩
  · rw [Option.none_or]
    obtain ⟨-, -, rfl⟩ | ⟨-, -, hstill⟩ | ⟨-, hwritten, -⟩ := write_cases_plain h
    · rfl
    · exact hstill.bytesAt?_eq (by simp)
    · refine hevolves.bytesAt?_eq fun content => ?_
      rintro (⟨rfl, -⟩ | ⟨hbackup, -⟩)
      · exact hput ⟨hwritten, rfl⟩
      · cases hbackup

end OutputFile

end FlowMachine

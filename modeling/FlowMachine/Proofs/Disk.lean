import FlowMachine.Output
import FlowMachine.Proofs.Success

/-!
# What acts do to a disk

A path that leads anywhere leads to a place that depends on its names alone, so what acts do is said
place by place: a directory stays, a file stays a file, a new directory is made only where nothing
was, and bytes are put only where the act says so. Every act that writes keeps to this.
-/
namespace FlowMachine

/-- One name further, whatever stands there. -/
def Location.stride (place : Location) (name : String) : Location :=
  if name == ".." then place.dropLast else place ++ [name]

/-- Where a path starts: at the root, or in the working directory. -/
def Path.start (home : Location) (p : Path) : Location := if p.root == 0 then home else []

/-- Where the names of a path lead from a working directory. -/
def Path.aim (home : Location) (p : Path) : Location :=
  p.parts.foldl Location.stride (p.start home)

namespace Disk

variable {d d' : Disk} {place : Location} {p : Path}

theorem step_eq_stride {next : Location} {name : String} (h : d.step place name = .ok next) :
    next = place.stride name := by
  unfold step at h
  unfold Location.stride
  split at h
  · cases h
  · cases h
  · split at h
    · cases h
      simp_all
    · split at h
      · cases h
      · cases h
        simp_all

theorem foldlM_step_eq {names : List String} {next : Location}
    (h : names.foldlM d.step place = .ok next) : next = names.foldl Location.stride place := by
  induction names generalizing place with
  | nil =>
    cases h
    rfl
  | cons name names ih =>
    rw [List.foldlM_cons, bind_eq_ok] at h
    obtain ⟨there, hstep, hrest⟩ := h
    rw [List.foldl_cons, ← step_eq_stride hstep]
    exact ih hrest

theorem find_eq_ok_iff : d.find p = .ok place ↔
    (p.parts.any (·.toList.contains (Char.ofNat 0)) = false ∧ p.toText.utf8ByteSize ≤ maxPath) ∧
      p.parts.foldlM d.step (p.start d.home) = .ok place := by
  have hlocate : d.locate p = .ok place ↔ p.toText.utf8ByteSize ≤ maxPath ∧
      p.parts.foldlM d.step (p.start d.home) = .ok place := by
    by_cases hlong : p.toText.utf8ByteSize > maxPath
    · simp [locate, hlong, Nat.not_le_of_lt hlong]
    · simp [locate, hlong, Path.start, Nat.le_of_not_lt hlong]
  rw [and_assoc, ← hlocate]
  cases hnul : p.parts.any (·.toList.contains (Char.ofNat 0)) with
  | true =>
    rw [find, hnul]
    simp
  | false =>
    rw [find, hnul]
    cases d.locate p <;> simp

/-- Whatever is on the disk, a path that leads anywhere leads to the place its names spell. -/
theorem eq_aim_of_find (h : d.find p = .ok place) : place = p.aim d.home :=
  foldlM_step_eq (find_eq_ok_iff.mp h).2

theorem status_eq_ok_iff {e : Entry} :
    d.status p = .ok e ↔ d.find p = .ok (p.aim d.home) ∧ d.get? (p.aim d.home) = some e := by
  have hopen : d.status p = .ok e ↔ ∃ place, d.find p = .ok place ∧ d.get? place = some e := by
    unfold status
    rw [bind_eq_ok]
    refine exists_congr fun place => and_congr_right fun _ => ?_
    cases d.get? place <;> simp [pure_eq_ok, throw, throwThe, MonadExceptOf.throw]
  rw [hopen]
  constructor
  · rintro ⟨place, hfind, hget⟩
    rw [← eq_aim_of_find hfind]
    exact ⟨hfind, hget⟩
  · exact fun h => ⟨_, h⟩

theorem peek_eq_some_iff {e : Entry} :
    d.peek p = .ok (some e) ↔ d.find p = .ok (p.aim d.home) ∧ d.get? (p.aim d.home) = some e := by
  rw [← status_eq_ok_iff]
  unfold peek
  split <;> simp_all

theorem bytes_eq_ok_iff {content : ByteArray} : d.bytes p = .ok content ↔
    ∃ time, d.peek p = .ok (some (.file content time)) := by
  simp only [peek_eq_some_iff, ← status_eq_ok_iff]
  unfold bytes
  rw [bind_eq_ok]
  constructor
  · rintro ⟨e, hstatus, he⟩
    cases e with
    | directory => cases he
    | file content' time =>
      cases he
      exact ⟨time, hstatus⟩
  · rintro ⟨time, hstatus⟩
    exact ⟨_, hstatus, rfl⟩

end Disk

/-- The disk comes out of another one by making directories where nothing was and by putting bytes
where `W` lets them be. -/
structure Disk.Evolves (W : Location → ByteArray → Prop) (d d' : Disk) : Prop where
  home_eq : d'.home = d.home
  clock_eq : d'.clock = d.clock
  entry : ∀ place, d'.get? place = d.get? place ∨
    (d.get? place = none ∧ d'.get? place = some .directory) ∨
    ∃ content time, d'.get? place = some (.file content time) ∧ W place content ∧
      d.get? place ≠ some .directory

namespace Disk

variable {W V : Location → ByteArray → Prop} {d d₁ d' : Disk} {place : Location} {p : Path}

namespace Evolves

theorem refl (W : Location → ByteArray → Prop) (d : Disk) : d.Evolves W d :=
  ⟨rfl, rfl, fun _ => .inl rfl⟩

theorem trans (h : d.Evolves W d₁) (h' : d₁.Evolves W d') : d.Evolves W d' where
  home_eq := h'.home_eq.trans h.home_eq
  clock_eq := h'.clock_eq.trans h.clock_eq
  entry := by
    intro place
    obtain hsame | ⟨hnone, hnew⟩ | ⟨content, time, hput, hw, hnot⟩ := h'.entry place
    · rw [hsame]
      exact h.entry place
    · obtain hsame | ⟨-, hdir⟩ | ⟨content, time, hput, -⟩ := h.entry place
      · exact .inr (.inl ⟨hsame ▸ hnone, hnew⟩)
      · simp [hdir] at hnone
      · simp [hput] at hnone
    · refine .inr (.inr ⟨content, time, hput, hw, ?_⟩)
      obtain hsame | ⟨hnone, -⟩ | ⟨-, -, -, -, hnot'⟩ := h.entry place
      · exact hsame ▸ hnot
      · simp [hnone]
      · exact hnot'

theorem mono (hWV : ∀ place content, W place content → V place content) (h : d.Evolves W d') :
    d.Evolves V d' where
  home_eq := h.home_eq
  clock_eq := h.clock_eq
  entry := by
    intro place
    obtain hsame | hnew | ⟨content, time, hput, hw, hnot⟩ := h.entry place
    · exact .inl hsame
    · exact .inr (.inl hnew)
    · exact .inr (.inr ⟨content, time, hput, hWV place content hw, hnot⟩)

theorem directory (h : d.Evolves W d') (hd : d.get? place = some .directory) :
    d'.get? place = some .directory := by
  obtain hsame | ⟨hnone, -⟩ | ⟨-, -, -, -, hnot⟩ := h.entry place
  · exact hsame.trans hd
  · simp [hd] at hnone
  · exact absurd hd hnot

/-- Bytes that may not be put somewhere are there only if they were there before. -/
theorem file_of_not (h : d.Evolves W d') {content : ByteArray} {time : Int}
    (hd : d'.get? place = some (.file content time)) (hw : ¬ W place content) :
    d.get? place = some (.file content time) := by
  obtain hsame | ⟨-, hdir⟩ | ⟨content', time', hput, hw', -⟩ := h.entry place
  · exact hsame ▸ hd
  · simp [hdir] at hd
  · rw [hput] at hd
    cases hd
    exact absurd hw' hw

theorem exists_file (h : d.Evolves W d') {content : ByteArray} {time : Int}
    (hd : d.get? place = some (.file content time)) :
    ∃ content' time', d'.get? place = some (.file content' time') := by
  obtain hsame | ⟨hnone, -⟩ | ⟨content', time', hput, -⟩ := h.entry place
  · exact ⟨content, time, hsame.trans hd⟩
  · simp [hd] at hnone
  · exact ⟨content', time', hput⟩

/-- Where no bytes may be put, the files are the same. -/
theorem file_iff (h : d.Evolves W d') (hw : ∀ content, ¬ W place content) (content : ByteArray)
    (time : Int) :
    d'.get? place = some (.file content time) ↔ d.get? place = some (.file content time) := by
  constructor
  · exact fun hnow => h.file_of_not hnow (hw content)
  · intro hbefore
    obtain ⟨content', time', hnow⟩ := h.exists_file hbefore
    have hsame := h.file_of_not hnow (hw content')
    rw [hbefore] at hsame
    cases hsame
    exact hnow

/-- Where nothing else may be put, a file keeps its bytes. -/
theorem file_of_forall (h : d.Evolves W d') {content : ByteArray}
    (hd : ∃ time, d.get? place = some (.file content time))
    (hw : ∀ bytes, W place bytes → bytes = content) :
    ∃ time, d'.get? place = some (.file content time) := by
  obtain ⟨time, hd⟩ := hd
  obtain hsame | ⟨hnone, -⟩ | ⟨content', time', hput, hbytes, -⟩ := h.entry place
  · exact ⟨time, hsame.trans hd⟩
  · simp [hd] at hnone
  · exact ⟨time', hw content' hbytes ▸ hput⟩

/-- Directories stay, so a path that led somewhere still does. -/
theorem step_eq_ok (h : d.Evolves W d') {next : Location} {name : String}
    (hd : d.step place name = .ok next) : d'.step place name = .ok next := by
  unfold step at hd ⊢
  split at hd
  · cases hd
  · cases hd
  · rename_i hdir
    rw [h.directory hdir]
    exact hd

theorem foldlM_step_eq_ok (h : d.Evolves W d') {names : List String} {start : Location}
    (hd : names.foldlM d.step start = .ok place) : names.foldlM d'.step start = .ok place := by
  induction names generalizing start with
  | nil => exact hd
  | cons name names ih =>
    rw [List.foldlM_cons, bind_eq_ok] at hd ⊢
    obtain ⟨there, hstep, hrest⟩ := hd
    exact ⟨there, h.step_eq_ok hstep, ih hrest⟩

theorem find_eq_ok (h : d.Evolves W d') (hd : d.find p = .ok place) : d'.find p = .ok place := by
  rw [find_eq_ok_iff] at hd ⊢
  rw [h.home_eq]
  exact ⟨hd.1, h.foldlM_step_eq_ok hd.2⟩

theorem exists_peek (h : d.Evolves W d') {content : ByteArray} {time : Int}
    (hd : d.peek p = .ok (some (.file content time))) :
    ∃ content' time', d'.peek p = .ok (some (.file content' time')) := by
  rw [peek_eq_some_iff] at hd
  obtain ⟨content', time', hget⟩ := h.exists_file hd.2
  refine ⟨content', time', peek_eq_some_iff.mpr ?_⟩
  rw [h.home_eq]
  exact ⟨h.find_eq_ok hd.1, hget⟩

end Evolves

theorem evolves_set (hne : place ≠ []) {content : ByteArray} {time : Int} (hw : W place content)
    (hd : d.get? place ≠ some .directory) : d.Evolves W (d.set place (.file content time)) where
  home_eq := rfl
  clock_eq := rfl
  entry := by
    intro other
    by_cases h : other = place
    · subst h
      exact .inr (.inr ⟨content, time, get?_set_self d hne _, hw, hd⟩)
    · exact .inl (get?_set_of_ne d h _)

theorem evolves_set_directory (hd : d.get? place = none) :
    d.Evolves W (d.set place .directory) where
  home_eq := rfl
  clock_eq := rfl
  entry := by
    intro other
    by_cases h : other = place
    · subst h
      have hne : other ≠ [] := by
        rintro rfl
        simp [get?] at hd
      exact .inr (.inl ⟨hd, get?_set_self d hne _⟩)
    · exact .inl (get?_set_of_ne d h _)

end Disk

end FlowMachine

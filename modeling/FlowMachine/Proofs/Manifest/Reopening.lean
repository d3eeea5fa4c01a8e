import FlowMachine.Proofs.Build.Run

/-!
# Opening what was saved

Builds are put on record and forgotten in any order, on disks that may be anything in between.
Through all of it no path is on record twice and every number on record is short enough to be read,
so a tracker that is opened on the saved manifest is the tracker that saved it, with its entries in
the same order.
-/
namespace FlowMachine

open FlowMachine.Disk FlowMachine.Json

/-! ## Short numbers -/

/-- The number has few enough digits to be read back. -/
def IsShort (n : Int) : Prop := (digitsOf n).length ≤ maxDigits

instance : DecidablePred IsShort := fun _ => inferInstanceAs (Decidable (_ ≤ _))

theorem fits_int_iff {n : Int} : fits (.int n) = true ↔ IsShort n := by
  rw [fits, decide_eq_true_eq, IsShort]

/-- The clock is short, and so are the size and the time of every file. The numbers of a system are:
they have at most some twenty digits, where thousands are read. -/
structure Disk.Legible (d : Disk) : Prop where
  clock : IsShort d.clock
  file : ∀ place content time, d.get? place = some (.file content time) →
    IsShort time ∧ IsShort content.size

theorem Disk.Legible.fits_of_fingerprint? {d : Disk} (h : d.Legible) {path : String}
    {r : Fingerprint}
    (hr : d.fingerprint? path = some r) : fits r.toDatum = true := by
  obtain ⟨content, time, hpeek, rfl⟩ := fingerprint?_eq_some_iff.mp hr
  obtain ⟨htime, hsize⟩ := h.file _ _ _ (peek_eq_some_iff.mp hpeek).2
  rw [Manifest.fits_fingerprint, Bool.and_eq_true]
  exact ⟨fits_int_iff.mpr htime, fits_int_iff.mpr hsize⟩

/-! ## Records that can be read back -/

/-- No path is recorded twice, and the numbers of every record are short. -/
structure Records.Legible (rs : Records) : Prop where
  nodup : (rs.map Prod.fst).Nodup
  fits : ∀ entry ∈ rs, fits entry.2.toDatum = true

namespace Records

variable {rs : Records}

theorem legible_nil : Legible [] := ⟨List.nodup_nil, by simp⟩

theorem Legible.insert (h : rs.Legible) (path : String) {r : Fingerprint}
    (hr : Json.fits r.toDatum = true) :
    (rs.insert path r).Legible := by
  refine ⟨nodup_insert h.nodup, fun entry hentry => ?_⟩
  by_cases hpath : path ∈ rs.map Prod.fst
  · rw [insert_of_mem hpath] at hentry
    obtain ⟨old, hold, rfl⟩ := List.mem_map.mp hentry
    split_ifs
    · exact hr
    · exact h.fits old hold
  · rw [insert_of_not_mem hpath] at hentry
    rcases List.mem_append.mp hentry with hold | hnew
    · exact h.fits entry hold
    · obtain rfl := List.mem_singleton.mp hnew
      exact hr

end Records

namespace Tracker

variable {d : Disk} {rs rs' : Records} {paths : List String}

theorem legible_record (hd : d.Legible) (h : record d rs paths = .ok rs') (hrs : rs.Legible) :
    rs'.Legible := by
  induction paths generalizing rs with
  | nil =>
    cases h
    exact hrs
  | cons path paths ih =>
    refine ih (record_cons path h) ?_
    cases hr : d.fingerprint? path with
    | none => exact hrs
    | some r => exact hrs.insert path (hd.fits_of_fingerprint? hr)

/-- What was recorded before a fault can be read back too. -/
theorem legible_recordEach (hd : d.Legible) (paths : List String) (hrs : rs.Legible) :
    (recordEach d rs paths).1.Legible := by
  induction paths generalizing rs with
  | nil => exact hrs
  | cons path paths ih =>
    rw [recordEach]
    split
    · rename_i rs₁ hrecord
      exact ih (legible_record hd hrecord hrs)
    · exact hrs

end Tracker

/-! ## Manifests -/

/-- Both sections can be read back, and so can the time of the last build. -/
structure Manifest.Legible (m : Manifest) : Prop where
  lastUpdate : IsShort m.lastUpdate
  sources : m.sources.Legible
  generated : m.generated.Legible

namespace Manifest

variable {m : Manifest}

theorem legible_empty : Legible {} :=
  ⟨by decide, Records.legible_nil, Records.legible_nil⟩

theorem Legible.distinct (h : m.Legible) : m.Distinct := ⟨h.sources.nodup, h.generated.nodup⟩

theorem Legible.fits (h : m.Legible) : Json.fits m.toDatum = true := by
  rw [fits_toDatum, Bool.and_eq_true, Bool.and_eq_true, List.all_eq_true, List.all_eq_true]
  exact ⟨⟨fits_int_iff.mpr h.lastUpdate, h.sources.fits⟩, h.generated.fits⟩

/-- Putting a build on record keeps a manifest legible, also when a fault stops it on the way. -/
theorem Legible.recorded {d : Disk} (hd : d.Legible) (h : m.Legible)
    (sources generated : List String) :
    (Tracker.recorded d m sources generated).1.Legible := by
  unfold Tracker.recorded
  split
  · exact h
  · rename_i rs hrs
    have hsources := Tracker.legible_record hd hrs Records.legible_nil
    have hgenerated := Tracker.legible_recordEach hd generated h.generated
    dsimp only
    split
    · exact ⟨h.lastUpdate, hsources, hgenerated⟩
    · exact ⟨hd.clock, hsources, hgenerated⟩

theorem Legible.read_render (h : m.Legible) : read m.render = .ok m := by
  rw [Manifest.read_render h.distinct, h.fits, if_pos rfl]

theorem Legible.load (h : m.Legible) {d : Disk} {p : Path}
    (hsaved : d.bytes p = .ok m.render.toUTF8) :
    load d p = .ok m := by
  rw [load_of_saved h.distinct hsaved, h.fits, if_pos rfl]

end Manifest

/-! ## Trackers -/

namespace Tracker

/-- The trackers that come from the one with the empty manifest by commits and resets. Every step is
taken on a disk of its own, and a commit that a fault stops is a step too. -/
inductive Reached (path : Path) : Tracker → Prop where
  | empty : Reached path ⟨path, {}⟩
  | commit {t : Tracker} (h : Reached path t) {d : Disk} (hd : d.Legible)
    (sources generated : List String) : Reached path ((t.commit sources generated).run d).1.1
  | reset {t : Tracker} (h : Reached path t) (d : Disk) : Reached path (t.reset.run d).1.1

variable {path : Path} {t : Tracker}

theorem commit_tracker (t : Tracker) (d : Disk) (sources generated : List String) :
    ((t.commit sources generated).run d).1.1 =
      ⟨t.path, (recorded d t.manifest sources generated).1⟩ := by
  rw [run_commit]
  rcases recorded d t.manifest sources generated with ⟨m, fault | _⟩ <;> rfl

theorem Reached.path_eq (h : t.Reached path) : t.path = path := by
  induction h with
  | empty => rfl
  | @commit t _ d _ sources generated ih => rw [commit_tracker, ih]
  | reset _ d ih => exact ih

theorem Reached.legible (h : t.Reached path) : t.manifest.Legible := by
  induction h with
  | empty => exact Manifest.legible_empty
  | @commit t _ d hd sources generated ih =>
    rw [commit_tracker]
    exact ih.recorded hd sources generated
  | reset => exact Manifest.legible_empty

/-- When its directory is there and the file can be written, the manifest is saved. -/
theorem run_save_of_write {d d₁ d₂ : Disk}
    (hdirectory : (Act.ensureDirectory t.path.parent).run.run d = (.ok (), d₁))
    (hwrite : d₁.write t.path t.manifest.render.toUTF8 = .ok d₂) : (t.save.run.run d).2 = d₂ := by
  unfold save
  rw [Act.run_bind, Act.run_attempt, Act.run_bind, hdirectory]
  dsimp only
  rw [Act.run_change, hwrite]
  rfl

theorem bytes_of_write {d d' : Disk} {p : Path} {content : ByteArray}
    (h : d.write p content = .ok d') : d'.bytes p = .ok content :=
  bytes_eq_ok_iff.mpr ⟨_, peek_of_write h⟩

/-- A tracker that commits and resets can make is not lost when it is saved. The text of its
manifest is read as the manifest that it was written for; where that text stands at the tracker's
path, opening the path gives the tracker, which then answers every question in the same way; and the
text does stand there as soon as the disk lets it be written. -/
theorem load_of_reached (h : t.Reached path) :
    Manifest.read t.manifest.render = .ok t.manifest ∧
    (∀ d, d.bytes path = .ok t.manifest.render.toUTF8 →
      load d path = .ok t ∧ ∀ now paths,
        (load d path >>= fun u => changes now u.manifest paths) = changes now t.manifest paths ∧
        (load d path >>= fun u => upToDate now u.manifest paths) = upToDate now t.manifest paths ∧
        (load d path >>= fun u => return u.manifest.toDatum) = .ok t.manifest.toDatum) ∧
    ∀ d d₁ d₂, (Act.ensureDirectory path.parent).run.run d = (.ok (), d₁) →
      d₁.write path t.manifest.render.toUTF8 = .ok d₂ →
      (t.save.run.run d).2 = d₂ ∧ d₂.bytes path = .ok t.manifest.render.toUTF8 := by
  have hpath := h.path_eq
  have hload (d : Disk) (hsaved : d.bytes path = .ok t.manifest.render.toUTF8) :
      load d path = .ok t := by
    rw [load, h.legible.load hsaved, ← hpath]
    rfl
  refine ⟨h.legible.read_render, fun d hsaved => ⟨hload d hsaved, fun now paths => ?_⟩,
    fun d d₁ d₂ hdirectory hwrite => ⟨?_, bytes_of_write hwrite⟩⟩
  · rw [hload d hsaved]
    exact ⟨rfl, rfl, rfl⟩
  · rw [← hpath] at hdirectory hwrite
    exact run_save_of_write hdirectory hwrite

/-- A disk with one file, whose name takes escapes of every kind. -/
def oddDisk : Disk :=
  (Disk.empty 1700000000000).set ["work", "\"\\\té😀.md"] (.file "graph TD".toUTF8 1600000000000)

theorem legible_oddDisk : oddDisk.Legible := by
  refine ⟨by decide, fun place content time hget => ?_⟩
  by_cases hplace : place = ["work", "\"\\\té😀.md"]
  · subst hplace
    rw [oddDisk, get?_set_self _ (by decide)] at hget
    cases hget
    decide
  · rw [oddDisk, get?_set_of_ne _ hplace] at hget
    unfold Disk.get? Disk.empty at hget
    split_ifs at hget
    · cases hget
    · rw [List.lookup_cons] at hget
      split at hget <;> cases hget

/-- The tracker that puts this file on record, after a reset. -/
def oddTracker : Tracker :=
  ((((⟨.ofText "m.json", {}⟩ : Tracker).reset.run oddDisk).1.1.commit ["\"\\\té😀.md"] []).run
    oddDisk).1.1

/-- Where the manifest of this tracker is put. -/
def savedDisk : Disk :=
  oddDisk.set ["work", "m.json"] (.file oddTracker.manifest.render.toUTF8 1700000000000)

theorem load_of_reached_odd :
    oddTracker.manifest.sources.map Prod.fst = ["\"\\\té😀.md"] ∧
    (oddTracker.save.run.run oddDisk).2 = savedDisk ∧
    load savedDisk (.ofText "m.json") = .ok oddTracker := by
  have hreached : oddTracker.Reached (.ofText "m.json") :=
    .commit (.reset .empty oddDisk) legible_oddDisk _ _
  obtain ⟨-, hload, hsave⟩ := load_of_reached hreached
  obtain ⟨hsaved, hbytes⟩ := hsave oddDisk oddDisk savedDisk rfl rfl
  exact ⟨by decide +kernel, hsaved, (hload savedDisk hbytes).1⟩

end Tracker

end FlowMachine

import FlowMachine.Proofs.Manifest

/-!
# What changed

A path that is compared with the records stands in one of four ways, which its file and its record
decide. The lists of changes are cut out of the given paths by this: each path goes to the list of
its standing, as often as it is given, and to the list of all changes beside it. The records whose
paths are not given are found from the other side.
-/
namespace FlowMachine

/-- How a path stands by its file and its record. -/
inductive Stands (d : Disk) (m : Manifest) (path : String) : Standing → Prop where
  | unreadable (hpeek : ∀ content time, d.peek (.ofText path) ≠ .ok (some (.file content time))) :
    Stands d m path .unreadable
  | added {content : ByteArray} {time : Int}
    (hpeek : d.peek (.ofText path) = .ok (some (.file content time)))
    (hrecord : m.sources.get? path = none) : Stands d m path .added
  | modified {content : ByteArray} {time : Int} {r : Fingerprint}
    (hpeek : d.peek (.ofText path) = .ok (some (.file content time)))
    (hrecord : m.sources.get? path = some r)
    (hdiffers : Digest.ofBytes content ≠ r.digest ∨ r.modified < time) : Stands d m path .modified
  | unchanged {content : ByteArray} {time : Int} {r : Fingerprint}
    (hpeek : d.peek (.ofText path) = .ok (some (.file content time)))
    (hrecord : m.sources.get? path = some r)
    (hsame : Digest.ofBytes content = r.digest ∧ time ≤ r.modified) : Stands d m path .unchanged

/-- The lists sort the paths by what their files and records say. -/
structure Changes.Sorts (c : Changes) (d : Disk) (m : Manifest) (paths : List String) : Prop where
  /-- A path that is given is in the list of its standing, and in no other. -/
  entry : ∀ path ∈ paths, ∃ s, Stands d m path s ∧ (path ∈ c.added ↔ s = .added) ∧
    (path ∈ c.modified ↔ s = .modified) ∧ (path ∈ c.unreadable ↔ s = .unreadable)
  /-- Each list has its paths as they are given. -/
  added : c.added = paths.filter (· ∈ c.added)
  modified : c.modified = paths.filter (· ∈ c.modified)
  unreadable : c.unreadable = paths.filter (· ∈ c.unreadable)
  changed : c.changed = paths.filter fun path =>
    path ∈ c.added ∨ path ∈ c.modified ∨ path ∈ c.unreadable
  deleted : c.deleted = (m.sources.map Prod.fst).filter (· ∉ paths)
  /-- A file on record is in none of the lists when its bytes are those on record and it is not
  later. -/
  kept : ∀ path ∈ paths, ∀ content time r, d.peek (.ofText path) = .ok (some (.file content time)) →
    m.sources.get? path = some r → ((path ∉ c.added ∧ path ∉ c.modified ∧ path ∉ c.unreadable) ↔
      Digest.ofBytes content = r.digest ∧ time ≤ r.modified)
  /-- Nothing has changed when this is so of all given paths, and all paths on record are given. -/
  any_iff : c.any = false ↔
    (∀ path ∈ paths, ∃ content time r, d.peek (.ofText path) = .ok (some (.file content time)) ∧
      m.sources.get? path = some r ∧ Digest.ofBytes content = r.digest ∧ time ≤ r.modified) ∧
    ∀ path ∈ m.sources.map Prod.fst, path ∈ paths

variable {d : Disk} {m : Manifest} {paths : List String} {path : String}

/-- A file on record stands unchanged when its bytes are those on record and it is not later. -/
theorem Stands.eq_unchanged_iff {s : Standing} {content : ByteArray} {time : Int} {r : Fingerprint}
    (h : Stands d m path s) (hpeek : d.peek (.ofText path) = .ok (some (.file content time)))
    (hrecord : m.sources.get? path = some r) :
    s = .unchanged ↔ Digest.ofBytes content = r.digest ∧ time ≤ r.modified := by
  cases h with
  | unreadable hnone => exact absurd hpeek (hnone content time)
  | added _ hnone =>
    rw [hrecord] at hnone
    cases hnone
  | modified hpeek' hrecord' hdiffers =>
    rw [hpeek] at hpeek'
    rw [hrecord] at hrecord'
    cases hpeek'
    cases hrecord'
    simp only [reduceCtorEq, false_iff, not_and, Int.not_le]
    exact hdiffers.resolve_left ∘ not_not_intro
  | unchanged hpeek' hrecord' hsame =>
    rw [hpeek] at hpeek'
    rw [hrecord] at hrecord'
    cases hpeek'
    cases hrecord'
    exact iff_of_true rfl hsame

namespace Tracker

/-! ## One path -/

theorem stands_compare {content : ByteArray} {time : Int}
    (hpeek : d.peek (.ofText path) = .ok (some (.file content time))) :
    Stands d m path (compare (m.sources.get? path) content time) := by
  unfold compare
  split
  · rename_i hrecord
    exact .added hpeek hrecord
  · rename_i r hrecord
    split_ifs with hdiffers
    · simp only [Bool.or_eq_true, bne_iff_ne, decide_eq_true_eq] at hdiffers
      exact .modified hpeek hrecord hdiffers
    · simp only [Bool.or_eq_true, bne_iff_ne, ne_eq, decide_eq_true_eq, not_or, not_not,
        Int.not_lt] at hdiffers
      exact .unchanged hpeek hrecord hdiffers

theorem stands_of_standing {s : Standing} (h : standing d m path = .ok s) : Stands d m path s := by
  unfold standing at h
  rw [bind_eq_ok] at h
  obtain ⟨found, hpeek, h⟩ := h
  split at h
  · obtain rfl := pure_eq_ok.mp h
    exact stands_compare hpeek
  · rename_i hnot
    obtain rfl := pure_eq_ok.mp h
    refine .unreadable fun content time hfile => hnot content time ?_
    exact Except.ok.inj (hpeek.symm.trans hfile)

/-! ## The given paths -/

/-- The paths have one standing each. -/
theorem exists_standings {standings : List (String × Standing)}
    (h : (paths.mapM fun path => return (path, ← standing d m path)) = .ok standings) :
    ∃ stand : String → Standing, (∀ path ∈ paths, standing d m path = .ok (stand path)) ∧
      standings = paths.map fun path => (path, stand path) := by
  refine ⟨fun path => (standing d m path).toOption.getD .unchanged, ?_⟩
  rw [mapM_eq_ok] at h
  induction h with
  | nil => simp
  | @cons path entry paths standings hentry _ ih =>
    obtain ⟨hpaths, rfl⟩ := ih
    obtain ⟨s, hs, hpair⟩ := bind_eq_ok.mp hentry
    obtain rfl := pure_eq_ok.mp hpair
    have hfirst : (standing d m path).toOption.getD .unchanged = s := by rw [hs]; rfl
    refine ⟨List.forall_mem_cons.mpr ⟨?_, hpaths⟩, ?_⟩
    · dsimp only
      rw [hfirst, hs]
    · dsimp only
      rw [List.map_cons, hfirst]

theorem pathsWith_map (stand : String → Standing) (s : Standing) (paths : List String) :
    pathsWith s (paths.map fun path => (path, stand path)) = paths.filter (stand · == s) := by
  simp [pathsWith, List.filter_map, Function.comp_def]

theorem filter_mem_filter (pick : String → Bool) (paths : List String) :
    paths.filter (· ∈ paths.filter pick) = paths.filter pick := by
  refine List.filter_congr fun path hpath => ?_
  simp [hpath]

/-- All lists but that of the deleted paths are cut out of the given paths by their standings. -/
theorem exists_stand_of_changes {c : Changes} (h : changes d m paths = .ok c) :
    ∃ stand : String → Standing, (∀ path ∈ paths, standing d m path = .ok (stand path)) ∧
      c.changed = paths.filter (stand · != .unchanged) ∧
      c.added = paths.filter (stand · == .added) ∧
      c.modified = paths.filter (stand · == .modified) ∧
      c.unreadable = paths.filter (stand · == .unreadable) ∧
      c.deleted = (m.sources.map Prod.fst).filter (· ∉ paths) := by
  unfold changes at h
  rw [bind_eq_ok] at h
  obtain ⟨standings, hstandings, hc⟩ := h
  obtain ⟨stand, hstand, rfl⟩ := exists_standings hstandings
  obtain rfl := pure_eq_ok.mp hc
  refine ⟨stand, hstand, ?_, pathsWith_map stand _ paths, pathsWith_map stand _ paths,
    pathsWith_map stand _ paths, ?_⟩
  · simp [List.filter_map, Function.comp_def]
  · simp

/-- Changes that are found sort the given paths. -/
theorem sorts_of_changes {c : Changes} (h : changes d m paths = .ok c) : c.Sorts d m paths := by
  obtain ⟨stand, hstand, hchanged, hadded, hmodified, hunreadable, hdeleted⟩ :=
    exists_stand_of_changes h
  have hstands : ∀ path ∈ paths, Stands d m path (stand path) := fun path hpath =>
    stands_of_standing (hstand path hpath)
  constructor
  case entry =>
    intro path hpath
    refine ⟨stand path, hstands path hpath, ?_⟩
    simp [hadded, hmodified, hunreadable, hpath]
  case added => rw [hadded, filter_mem_filter]
  case modified => rw [hmodified, filter_mem_filter]
  case unreadable => rw [hunreadable, filter_mem_filter]
  case changed =>
    rw [hchanged, hadded, hmodified, hunreadable]
    refine List.filter_congr fun path hpath => ?_
    simp only [List.mem_filter, hpath, true_and, beq_iff_eq]
    cases stand path <;> rfl
  case deleted => exact hdeleted
  case kept =>
    intro path hpath content time r hpeek hrecord
    rw [← (hstands path hpath).eq_unchanged_iff hpeek hrecord]
    simp only [hadded, hmodified, hunreadable, List.mem_filter, hpath, true_and, beq_iff_eq]
    cases stand path <;> simp
  case any_iff =>
    simp only [← standing_eq_unchanged_iff]
    rw [← changes_iff, h]
    simp

/-- A disk with a file that is as it was, one that was written later, one that is new, and a
directory. -/
def mixedDisk : Disk :=
  ((((Disk.empty 500).set ["work", "a.md"] (.file "a".toUTF8 100)).set ["work", "b.md"]
    (.file "b".toUTF8 300)).set ["work", "c.md"] (.file "c".toUTF8 300)).set
    ["work", "d.md"] .directory

def mixedManifest : Manifest where
  sources := [("gone.md", ⟨"gone.md", "", 100, 0⟩), ("a.md", .ofFile "a.md" "a".toUTF8 100),
    ("b.md", .ofFile "b.md" "b".toUTF8 200)]

def mixedChanges : Changes where
  changed := ["c.md", "b.md", "d.md", "b.md"]
  added := ["c.md"]
  modified := ["b.md", "b.md"]
  deleted := ["gone.md"]
  unreadable := ["d.md"]

theorem sorts_of_changes_mixed :
    changes mixedDisk mixedManifest ["c.md", "a.md", "b.md", "d.md", "b.md"] = .ok mixedChanges ∧
      mixedChanges.Sorts mixedDisk mixedManifest ["c.md", "a.md", "b.md", "d.md", "b.md"] := by
  have hchanges : changes mixedDisk mixedManifest ["c.md", "a.md", "b.md", "d.md", "b.md"] =
      .ok mixedChanges := eq_ok_of_toOption (by decide +kernel)
  exact ⟨hchanges, sorts_of_changes hchanges⟩

end Tracker

end FlowMachine

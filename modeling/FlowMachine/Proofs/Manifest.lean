import FlowMachine.Manifest.Tracker
import FlowMachine.Proofs.Datum.Json
import FlowMachine.Proofs.Disk

/-!
# Manifests and the disk

A manifest that was saved is loaded as it was, so the records of a build outlive it. What the
records say of a disk is one property: a manifest describes the disk when its sources are unchanged
and all that was made is there. Recording paths on a disk gives the manifest that describes it.
-/
namespace FlowMachine

open FlowMachine.Json

/-! ## Records -/

namespace Records

variable {rs : Records} {path other : String} {r : Fingerprint}

/-- The records with the record of a path replaced. -/
theorem insert_of_mem (h : path ∈ rs.map Prod.fst) :
    rs.insert path r = rs.map fun entry => if entry.1 == path then (path, r) else entry := by
  obtain ⟨entry, hentry, rfl⟩ := List.mem_map.mp h
  exact if_pos (List.any_eq_true.mpr ⟨entry, hentry, beq_self_eq_true entry.1⟩)

theorem insert_of_not_mem (h : path ∉ rs.map Prod.fst) : rs.insert path r = rs ++ [(path, r)] := by
  refine if_neg fun hany => h ?_
  obtain ⟨entry, hentry, hkey⟩ := List.any_eq_true.mp hany
  exact List.mem_map.mpr ⟨entry, hentry, eq_of_beq hkey⟩

theorem keys_replaced (rs : Records) :
    (rs.map fun entry => if entry.1 == path then (path, r) else entry).map Prod.fst =
      rs.map Prod.fst := by
  rw [List.map_map]
  refine List.map_congr_left fun entry _ => ?_
  by_cases h : entry.1 = path <;> simp [h]

theorem mem_keys_insert :
    other ∈ (rs.insert path r).map Prod.fst ↔ other = path ∨ other ∈ rs.map Prod.fst := by
  by_cases h : path ∈ rs.map Prod.fst
  · rw [insert_of_mem h, keys_replaced]
    exact ⟨.inr, fun hor => hor.elim (fun heq => heq ▸ h) id⟩
  · rw [insert_of_not_mem h, List.map_append, List.mem_append, or_comm]
    simp

theorem nodup_insert (h : (rs.map Prod.fst).Nodup) : ((rs.insert path r).map Prod.fst).Nodup := by
  by_cases hmem : path ∈ rs.map Prod.fst
  · rw [insert_of_mem hmem, keys_replaced]
    exact h
  · rw [insert_of_not_mem hmem, List.map_append]
    refine List.nodup_append.mpr ⟨h, by simp, fun key hkey last hlast => ?_⟩
    obtain rfl : last = path := by simpa using hlast
    rintro rfl
    exact hmem hkey

theorem lookup_cons_of_ne {key : String} (h : other ≠ key) :
    ((key, r) :: rs).lookup other = rs.lookup other := by
  have hne : (other == key) = false := beq_eq_false_iff_ne.mpr h
  rw [List.lookup_cons, hne]

theorem lookup_replaced (rs : Records) (path other : String) (r : Fingerprint) :
    (rs.map fun entry => if entry.1 == path then (path, r) else entry).lookup other =
      if other = path then (rs.lookup path).map fun _ => r else rs.lookup other := by
  induction rs with
  | nil => simp
  | cons entry rs ih =>
    obtain ⟨key, old⟩ := entry
    rw [List.map_cons]
    by_cases hkey : key = path
    · subst hkey
      by_cases hother : other = key
      · simp [hother]
      · simp only [beq_self_eq_true, if_true, if_neg hother] at ih ⊢
        rw [lookup_cons_of_ne hother, lookup_cons_of_ne hother, ih]
    · rw [if_neg (by simpa using hkey), lookup_cons_of_ne (Ne.symm hkey)]
      by_cases hother : other = key
      · rw [if_neg (hother ▸ hkey), hother]
        simp
      · rw [lookup_cons_of_ne hother, lookup_cons_of_ne hother, ih]

theorem get?_insert (rs : Records) (path other : String) (r : Fingerprint) :
    (rs.insert path r).get? other = if other = path then some r else rs.get? other := by
  unfold get?
  by_cases hmem : path ∈ rs.map Prod.fst
  · have hsome : ∃ old, rs.lookup path = some old := by
      rw [← Option.isSome_iff_exists, List.lookup_isSome_iff]
      simpa using hmem
    obtain ⟨old, hold⟩ := hsome
    rw [insert_of_mem hmem, lookup_replaced, hold, Option.map_some]
  · have hnone : rs.lookup path = none := by
      rw [List.lookup_eq_none_iff]
      intro entry hentry
      rw [bne_iff_ne]
      rintro rfl
      exact hmem (List.mem_map_of_mem hentry)
    rw [insert_of_not_mem hmem, List.lookup_append]
    by_cases hother : other = path
    · simp [hother, hnone]
    · rw [lookup_cons_of_ne hother, if_neg hother, List.lookup_nil, Option.or_none]

theorem mem_keys_of_get? {path : String} (h : rs.get? path = some r) : path ∈ rs.map Prod.fst := by
  obtain ⟨front, back, rfl, -⟩ := List.lookup_eq_some_iff.mp h
  simp

end Records

/-! ## Manifests on the disk -/

theorem unifyBreaks_of_not_mem {cs : List Char} (h : '\r' ∉ cs) : Text.unifyBreaks cs = cs := by
  induction cs with
  | nil => rfl
  | cons c cs ih =>
    rw [List.mem_cons, not_or] at h
    rw [Text.unifyBreaks, ih h.2]
    · intro _ hc
      exact absurd hc.symm h.1
    · intro hc
      exact absurd hc.symm h.1

namespace Manifest

/-- No path is recorded twice. -/
structure Distinct (m : Manifest) : Prop where
  sources : (m.sources.map Prod.fst).Nodup
  generated : (m.generated.map Prod.fst).Nodup

theorem distinct_empty : Distinct {} := ⟨List.nodup_nil, List.nodup_nil⟩

theorem readsBack_fingerprint (r : Fingerprint) : ReadsBack r.toDatum := by
  refine readsBack_ofFields (by simp) ?_
  simp only [List.forall_mem_cons, List.not_mem_nil, false_implies, implies_true, and_true]
  exact ⟨readsBack_text _, readsBack_text _, readsBack_int _, readsBack_int _⟩

theorem readsBack_records {rs : Records} (h : (rs.map Prod.fst).Nodup) : ReadsBack rs.toDatum := by
  refine readsBack_ofFields (by simpa [List.map_map, Function.comp_def] using h) ?_
  intro field hfield
  obtain ⟨entry, -, rfl⟩ := List.mem_map.mp hfield
  exact readsBack_fingerprint entry.2

theorem readsBack_toDatum {m : Manifest} (h : m.Distinct) : ReadsBack m.toDatum := by
  refine readsBack_ofFields (by simp) ?_
  simp only [List.forall_mem_cons, List.not_mem_nil, false_implies, implies_true, and_true]
  exact ⟨readsBack_text _, readsBack_int _, readsBack_records h.sources,
    readsBack_records h.generated⟩

theorem fits_fingerprint (r : Fingerprint) :
    fits r.toDatum = (fits (.int r.modified) && fits (.int r.size)) := by
  simp [Fingerprint.toDatum, fits_ofFields, fits]

/-- A manifest can be read back when the time of the build and the numbers on record are short
enough. -/
theorem fits_toDatum (m : Manifest) : fits m.toDatum =
    (fits (.int m.lastUpdate) && m.sources.all (fits ·.2.toDatum) &&
      m.generated.all (fits ·.2.toDatum)) := by
  have hsection (rs : Records) : fits rs.toDatum = rs.all (fits ·.2.toDatum) := by
    rw [Records.toDatum, fits_ofFields, List.all_map]
    rfl
  simp [toDatum, fits_ofFields, hsection, fits, Bool.and_assoc]

theorem recordsOf_toDatum (rs : Records) :
    recordsOf ((rs.map fun entry => (entry.1, entry.2.toDatum)).map
      fun field => (Key.text field.1, field.2)) = .ok rs := by
  induction rs with
  | nil => rfl
  | cons entry rs ih =>
    obtain ⟨path, r⟩ := entry
    simp only [List.map_cons, recordsOf, ih]
    rfl

theorem ofDatum_toDatum (m : Manifest) : ofDatum m.toDatum = .ok m := by
  have hsection (rs : Records) : sectionOf (some rs.toDatum) = .ok rs := recordsOf_toDatum rs
  show (do
    let sources ← sectionOf (some m.sources.toDatum)
    let generated ← sectionOf (some m.generated.toDatum)
    return ({ version := m.version, lastUpdate := m.lastUpdate, sources, generated } : Manifest)) =
    .ok m
  rw [hsection, hsection]
  rfl

/-- A manifest is read back as it was, unless a number in it has too many digits. -/
theorem read_render {m : Manifest} (h : m.Distinct) :
    read m.render = if fits m.toDatum then .ok m else .error .malformed := by
  rw [read, render, read?_pretty (readsBack_toDatum h)]
  cases fits m.toDatum
  · rfl
  · exact ofDatum_toDatum m

theorem keys_recordsOf {fields : List (String × Datum)} {rs : Records}
    (h : recordsOf (fields.map fun field => (Key.text field.1, field.2)) = .ok rs) :
    rs.map Prod.fst = fields.map Prod.fst := by
  induction fields generalizing rs with
  | nil =>
    cases h
    rfl
  | cons field fields ih =>
    simp only [List.map_cons, recordsOf, bind_eq_ok, pure_eq_ok] at h
    obtain ⟨r, -, rest, hrest, rfl⟩ := h
    rw [List.map_cons, List.map_cons, ih hrest]
    rfl

theorem nodup_keys_sectionOf {d : Option Datum} (h : ∀ datum ∈ d, Tidy datum) {rs : Records}
    (hrs : sectionOf d = .ok rs) : (rs.map Prod.fst).Nodup := by
  unfold sectionOf at hrs
  split at hrs
  · cases hrs
    exact List.nodup_nil
  · rename_i entries
    cases h _ rfl with
    | other hother => exact absurd rfl (hother entries)
    | map keys =>
      rw [keys_recordsOf hrs]
      exact keys
  · split_ifs at hrs
    cases hrs
    exact List.nodup_nil

theorem distinct_of_read {s : String} {m : Manifest} (h : read s = .ok m) : m.Distinct := by
  unfold read at h
  split at h
  swap
  · cases h
  rename_i d hread
  unfold ofDatum at h
  split at h
  swap
  · cases h
  rename_i entries
  have hvalues (name : String) : ∀ datum ∈ Datum.lookup entries name, Tidy datum := by
    intro datum hdatum
    cases tidy_of_read? hread with
    | other hother => exact absurd rfl (hother entries)
    | @map fields keys values =>
      obtain ⟨front, back, hentries, -⟩ := List.lookup_eq_some_iff.mp hdatum
      have hmem : (Key.text name, datum) ∈ fields.map fun field => (Key.text field.1, field.2) := by
        rw [hentries]
        simp
      obtain ⟨field, hfield, heq⟩ := List.mem_map.mp hmem
      cases heq
      exact values field hfield
  simp only [bind_eq_ok, pure_eq_ok] at h
  obtain ⟨time, -, sources, hsources, generated, hgenerated, rfl⟩ := h
  exact ⟨nodup_keys_sectionOf (hvalues _) hsources, nodup_keys_sectionOf (hvalues _) hgenerated⟩

/-- The text that bytes are read as: line feeds stand for all line ends. -/
def textOf? (content : ByteArray) : Option String :=
  match Text.decode content with
  | .ok s => some (String.ofList (Text.unifyBreaks s.toList))
  | .error _ => none

theorem textOf?_render {m : Manifest} (h : m.Distinct) :
    textOf? m.render.toUTF8 = some m.render := by
  have hreturn := (readsBack_toDatum h).no_return 0
  have hbreaks : Text.unifyBreaks m.render.toList = m.render.toList :=
    unifyBreaks_of_not_mem hreturn
  rw [textOf?, Text.decode_toUTF8]
  simp only [hbreaks, String.ofList_toList]

theorem text_eq_ok_iff {d : Disk} {p : Path} {s : String} : d.text p = .ok s ↔
    ∃ content time, d.peek p = .ok (some (.file content time)) ∧ textOf? content = some s := by
  have hdecode (content : ByteArray) : (match Text.decode content with
      | .ok s => pure (String.ofList (Text.unifyBreaks s.toList))
      | .error flaw => throw (.undecodable flaw) : Except Fault String) = .ok s ↔
        textOf? content = some s := by
    unfold textOf?
    cases Text.decode content with
    | ok raw => simp [pure_eq_ok]
    | error flaw => simp [throw, throwThe, MonadExceptOf.throw]
  unfold Disk.text
  rw [bind_eq_ok]
  refine exists_congr fun content => ?_
  rw [Disk.bytes_eq_ok_iff, exists_and_right]
  exact and_congr_right fun _ => hdecode content

theorem load_of_text {d : Disk} {p : Path} {s : String} (h : d.text p = .ok s) :
    load d p = match read s with
      | .ok m => .ok m
      | .error .malformed => .ok {}
      | .error .infinite => .error .infiniteNumber := by
  obtain ⟨content, time, hpeek, -⟩ := text_eq_ok_iff.mp h
  have hholds : d.holds p = .ok true := by
    unfold Disk.holds
    rw [hpeek]
    rfl
  unfold load
  rw [hholds, h]
  show (match read s with
    | .ok m => pure m
    | .error .malformed => pure {}
    | .error .infinite => throw .infiniteNumber : Except Fault Manifest) = _
  rcases read s with (_ | _) | m <;> rfl

/-- A manifest that is loaded is empty or read from the text at its path. -/
theorem load_eq_ok {d : Disk} {p : Path} {m : Manifest} (h : load d p = .ok m) :
    m = {} ∨ ∃ s, d.text p = .ok s ∧ read s = .ok m := by
  cases htext : d.text p with
  | ok s =>
    rw [load_of_text htext] at h
    rcases hread : read s with (_ | _) | m'
    · rw [hread] at h
      cases h
      exact .inl rfl
    · rw [hread] at h
      cases h
    · rw [hread] at h
      cases h
      exact .inr ⟨s, rfl, hread⟩
  | error fault =>
    unfold load at h
    rw [bind_eq_ok, htext] at h
    obtain ⟨there, -, h⟩ := h
    split_ifs at h <;> exact .inl (pure_eq_ok.mp h).symm

theorem distinct_of_load {d : Disk} {p : Path} {m : Manifest} (h : load d p = .ok m) :
    m.Distinct := by
  rcases load_eq_ok h with rfl | ⟨s, -, hread⟩
  · exact distinct_empty
  · exact distinct_of_read hread

/-- A manifest that was saved is loaded, unless a number in it has too many digits: then it is
lost. -/
theorem load_of_saved {d : Disk} {p : Path} {m : Manifest} (h : m.Distinct)
    (hsaved : d.bytes p = .ok m.render.toUTF8) :
    load d p = .ok (if fits m.toDatum then m else {}) := by
  obtain ⟨time, hpeek⟩ := Disk.bytes_eq_ok_iff.mp hsaved
  have htext : d.text p = .ok m.render := text_eq_ok_iff.mpr ⟨_, time, hpeek, textOf?_render h⟩
  rw [load_of_text htext, read_render h]
  cases fits m.toDatum <;> rfl

end Manifest

/-- A manifest describes the disk: the sources are the recorded ones, each a file with the recorded
bytes that is later neither than its record nor than the last build, and all that was made is
there. -/
structure Manifest.Describes (m : Manifest) (d : Disk) (paths : List String) : Prop where
  source : ∀ path ∈ paths, ∃ content time r,
    d.peek (.ofText path) = .ok (some (.file content time)) ∧
    m.sources.get? path = some r ∧ Digest.ofBytes content = r.digest ∧ time ≤ r.modified ∧
    time ≤ m.lastUpdate
  known : ∀ path ∈ m.sources.map Prod.fst, path ∈ paths
  there : ∀ path ∈ m.generated.map Prod.fst, d.holds (.ofText path) = .ok true

namespace Tracker

variable {d : Disk} {m : Manifest} {paths : List String} {path : String}

theorem standing_eq_unchanged_iff : standing d m path = .ok .unchanged ↔
    ∃ content time r, d.peek (.ofText path) = .ok (some (.file content time)) ∧
      m.sources.get? path = some r ∧ Digest.ofBytes content = r.digest ∧ time ≤ r.modified := by
  unfold standing
  rw [bind_eq_ok]
  constructor
  · rintro ⟨found, hpeek, h⟩
    split at h
    · rename_i content time
      refine ⟨content, time, ?_⟩
      have hcompare := pure_eq_ok.mp h
      unfold compare at hcompare
      split at hcompare
      · cases hcompare
      · rename_i r hr
        split_ifs at hcompare with hmodified
        simp only [Bool.or_eq_true, bne_iff_ne, ne_eq, decide_eq_true_eq, not_or, not_not,
          Int.not_lt] at hmodified
        exact ⟨r, hpeek, hr, hmodified⟩
    · cases h
  · rintro ⟨content, time, r, hpeek, hr, hdigest, htime⟩
    refine ⟨_, hpeek, pure_eq_ok.mpr ?_⟩
    simp [compare, hr, hdigest, htime]

theorem noLater_eq_true_iff {time : Int} : noLater d time paths = .ok true ↔
    ∀ path ∈ paths, ∃ content modified,
      d.peek (.ofText path) = .ok (some (.file content modified)) ∧ modified ≤ time := by
  induction paths with
  | nil => simp [noLater]
  | cons path paths ih =>
    rw [noLater, bind_eq_ok, List.forall_mem_cons, ← ih]
    constructor
    · rintro ⟨found, hpeek, h⟩
      split at h
      · rename_i content modified
        split_ifs at h with hlate
        · cases h
        · exact ⟨⟨content, modified, hpeek, Int.not_lt.mp hlate⟩, h⟩
      · cases h
    · rintro ⟨⟨content, modified, hpeek, hle⟩, h⟩
      exact ⟨_, hpeek, (if_neg (Int.not_lt.mpr hle)).trans h⟩

theorem allThere_eq_true_iff : allThere d paths = .ok true ↔
    ∀ path ∈ paths, d.holds (.ofText path) = .ok true := by
  induction paths with
  | nil => simp [allThere]
  | cons path paths ih =>
    rw [allThere, bind_eq_ok, List.forall_mem_cons, ← ih]
    constructor
    · rintro ⟨there, hholds, h⟩
      split_ifs at h with hthere
      · exact ⟨hthere ▸ hholds, h⟩
      · cases h
    · rintro ⟨hholds, h⟩
      exact ⟨true, hholds, h⟩

theorem standings_iff :
    (∃ standings, (paths.mapM fun path => return (path, ← standing d m path)) = .ok standings ∧
      ∀ s ∈ standings, s.2 = .unchanged) ↔
    ∀ path ∈ paths, standing d m path = .ok .unchanged := by
  induction paths with
  | nil => exact ⟨fun _ => by simp, fun _ => ⟨[], rfl, by simp⟩⟩
  | cons path paths ih =>
    rw [List.forall_mem_cons, ← ih]
    simp only [List.mapM_cons, bind_eq_ok, pure_eq_ok]
    constructor
    · rintro ⟨_, ⟨_, ⟨s, hs, rfl⟩, rest, hrest, rfl⟩, hall⟩
      rw [List.forall_mem_cons] at hall
      obtain ⟨rfl, hall⟩ := hall
      exact ⟨hs, rest, hrest, hall⟩
    · rintro ⟨hs, rest, hrest, hall⟩
      exact ⟨_, ⟨_, ⟨_, hs, rfl⟩, rest, hrest, rfl⟩, List.forall_mem_cons.mpr ⟨rfl, hall⟩⟩

/-- Nothing differs from the records exactly when every path stands unchanged and every record has
its path. -/
theorem changes_iff : (∃ c, changes d m paths = .ok c ∧ c.any = false) ↔
    (∀ path ∈ paths, standing d m path = .ok .unchanged) ∧
      ∀ path ∈ m.sources.map Prod.fst, path ∈ paths := by
  rw [← standings_iff]
  unfold changes
  simp only [bind_eq_ok, pure_eq_ok, Changes.any]
  constructor
  · rintro ⟨_, ⟨standings, hstandings, rfl⟩, hnone⟩
    simp only [Bool.or_eq_false_iff, Bool.not_eq_false', List.isEmpty_iff, List.map_eq_nil_iff,
      List.filter_eq_nil_iff] at hnone
    exact ⟨⟨standings, hstandings, by simpa using hnone.1⟩, by simpa using hnone.2⟩
  · rintro ⟨⟨standings, hstandings, hall⟩, hknown⟩
    refine ⟨_, ⟨standings, hstandings, rfl⟩, ?_⟩
    simp only [Bool.or_eq_false_iff, Bool.not_eq_false', List.isEmpty_iff, List.map_eq_nil_iff,
      List.filter_eq_nil_iff]
    exact ⟨by simpa using hall, by simpa using hknown⟩

theorem upToDate_eq_true_iff : upToDate d m paths = .ok true ↔
    noLater d m.lastUpdate paths = .ok true ∧ allThere d (m.generated.map Prod.fst) = .ok true := by
  unfold upToDate
  rw [bind_eq_ok]
  constructor
  · rintro ⟨timely, hnoLater, h⟩
    split_ifs at h with htimely
    · exact ⟨htimely ▸ hnoLater, h⟩
    · cases h
  · rintro ⟨hnoLater, hthere⟩
    exact ⟨true, hnoLater, hthere⟩

end Tracker


/-! ## Putting on record -/

/-- The record of a path, if it leads to a file. -/
def Disk.fingerprint? (d : Disk) (path : String) : Option Fingerprint :=
  match d.peek (.ofText path) with
  | .ok (some (.file content modified)) => some (.ofFile path content modified)
  | _ => none

theorem Disk.fingerprint?_eq_some_iff {d : Disk} {path : String} {r : Fingerprint} :
    d.fingerprint? path = some r ↔ ∃ content time,
      d.peek (.ofText path) = .ok (some (.file content time)) ∧ r = .ofFile path content time := by
  unfold fingerprint?
  split
  · rename_i content time hpeek
    simp [hpeek, eq_comm]
  · rename_i hnot
    simp only [reduceCtorEq, false_iff, not_exists, not_and]
    exact fun content time hpeek => absurd hpeek (hnot content time)

theorem Disk.isSome_fingerprint?_iff {d : Disk} {path : String} : (d.fingerprint? path).isSome ↔
    ∃ content time, d.peek (.ofText path) = .ok (some (.file content time)) := by
  rw [Option.isSome_iff_exists]
  constructor
  · rintro ⟨r, hr⟩
    obtain ⟨content, time, hpeek, -⟩ := fingerprint?_eq_some_iff.mp hr
    exact ⟨content, time, hpeek⟩
  · rintro ⟨content, time, hpeek⟩
    exact ⟨_, fingerprint?_eq_some_iff.mpr ⟨content, time, hpeek, rfl⟩⟩

namespace Tracker

variable {d : Disk} {paths : List String} {rs rs' : Records}

theorem record_cons (path : String) (h : record d rs (path :: paths) = .ok rs') :
    record d ((d.fingerprint? path).elim rs (rs.insert path)) paths = .ok rs' := by
  rw [record, bind_eq_ok] at h
  obtain ⟨found, hpeek, h⟩ := h
  unfold Disk.fingerprint?
  rw [hpeek]
  match found, h with
  | some (.file _ _), h => exact h
  | some .directory, h => exact h
  | none, h => exact h

theorem exists_record (h : ∀ path ∈ paths, ∃ found, d.peek (.ofText path) = .ok found)
    (rs : Records) :
    ∃ rs', record d rs paths = .ok rs' := by
  induction paths generalizing rs with
  | nil => exact ⟨rs, rfl⟩
  | cons path paths ih =>
    obtain ⟨⟨found, hpeek⟩, hrest⟩ := List.forall_mem_cons.mp h
    simp only [record, bind_eq_ok, hpeek, Except.ok.injEq, exists_eq_left']
    match found with
    | some (.file _ _) => exact ih hrest _
    | some .directory => exact ih hrest _
    | none => exact ih hrest _

theorem get?_record (h : record d rs paths = .ok rs') (path : String) :
    rs'.get? path =
      if path ∈ paths then (d.fingerprint? path).or (rs.get? path) else rs.get? path := by
  induction paths generalizing rs with
  | nil =>
    cases h
    simp
  | cons first paths ih =>
    have hinsert : Records.get? ((d.fingerprint? first).elim rs (rs.insert first)) path =
        if path = first then (d.fingerprint? path).or (rs.get? path) else rs.get? path := by
      cases hfirst : d.fingerprint? first with
      | none =>
        split_ifs with heq
        · rw [heq, hfirst]
          rfl
        · rfl
      | some r =>
        show Records.get? (rs.insert first r) path = _
        rw [Records.get?_insert]
        split_ifs with heq
        · rw [heq, hfirst]
          rfl
        · rfl
    rw [ih (record_cons first h), hinsert]
    by_cases heq : path = first
    · subst heq
      rw [if_pos rfl, if_pos List.mem_cons_self]
      split_ifs
      · cases d.fingerprint? path <;> rfl
      · rfl
    · simp [heq]

theorem mem_keys_record (h : record d rs paths = .ok rs') (path : String) :
    path ∈ rs'.map Prod.fst ↔
      path ∈ rs.map Prod.fst ∨ path ∈ paths ∧ (d.fingerprint? path).isSome := by
  induction paths generalizing rs with
  | nil =>
    cases h
    simp
  | cons first paths ih =>
    rw [ih (record_cons first h)]
    cases hfirst : d.fingerprint? first with
    | none =>
      show path ∈ rs.map Prod.fst ∨ _ ↔ _
      have hne : (d.fingerprint? path).isSome → path ≠ first := by
        rintro hsome rfl
        simp [hfirst] at hsome
      grind
    | some r =>
      show path ∈ (rs.insert first r).map Prod.fst ∨ _ ↔ _
      have hsome : path = first → (d.fingerprint? path).isSome := by
        rintro rfl
        simp [hfirst]
      rw [Records.mem_keys_insert]
      grind

theorem nodup_record (h : record d rs paths = .ok rs') (hrs : (rs.map Prod.fst).Nodup) :
    (rs'.map Prod.fst).Nodup := by
  induction paths generalizing rs with
  | nil =>
    cases h
    exact hrs
  | cons path paths ih =>
    refine ih (record_cons path h) ?_
    cases d.fingerprint? path with
    | none => exact hrs
    | some r => exact Records.nodup_insert hrs

/-- Recording one by one without a fault is recording at once. -/
theorem record_of_recordEach (h : recordEach d rs paths = (rs', .ok ())) :
    record d rs paths = .ok rs' := by
  induction paths generalizing rs with
  | nil =>
    cases h
    rfl
  | cons path paths ih =>
    have hfirst : record d rs (path :: paths) = (record d rs [path] >>= (record d · paths)) := by
      rw [record, record]
      cases d.peek (.ofText path) with
      | error fault => rfl
      | ok found =>
        match found with
        | some (.file _ _) => rfl
        | some .directory => rfl
        | none => rfl
    rw [recordEach] at h
    split at h
    · rename_i rs₁ hrecord
      rw [hfirst, hrecord]
      exact ih h
    · cases h

theorem exists_recordEach (h : ∀ path ∈ paths, ∃ found, d.peek (.ofText path) = .ok found)
    (rs : Records) : ∃ rs', recordEach d rs paths = (rs', .ok ()) := by
  induction paths generalizing rs with
  | nil => exact ⟨rs, rfl⟩
  | cons path paths ih =>
    obtain ⟨hpath, hrest⟩ := List.forall_mem_cons.mp h
    have hone : ∀ path' ∈ [path], ∃ found, d.peek (.ofText path') = .ok found := by
      simpa using hpath
    obtain ⟨rs₁, hrecord⟩ := exists_record hone rs
    obtain ⟨rs', hrest⟩ := ih hrest rs₁
    exact ⟨rs', by rw [recordEach, hrecord]; exact hrest⟩

/-- A build on record: the sources that are files now, the files made beside those made before, and
the present time. -/
theorem recorded_eq_ok_iff {m m' : Manifest} {sources generated : List String} :
    recorded d m sources generated = (m', .ok ()) ↔
      ∃ rs made, record d [] sources = .ok rs ∧
      recordEach d m.generated generated = (made, .ok ()) ∧
        m' = { m with sources := rs, generated := made, lastUpdate := d.clock } := by
  unfold recorded
  constructor
  · intro h
    split at h
    · cases h
    · rename_i rs hrs
      rcases hmade : recordEach d m.generated generated with ⟨made, fault | _⟩
      · simp [hmade] at h
      · simp only [hmade] at h
        cases h
        exact ⟨rs, made, hrs, rfl, rfl⟩
  · rintro ⟨rs, made, hrs, hmade, rfl⟩
    rw [hrs, hmade]

/-- Recording cannot fail where every path leads somewhere. -/
theorem exists_recorded {sources generated : List String}
    (hsources : ∀ path ∈ sources, ∃ found, d.peek (.ofText path) = .ok found)
    (hgenerated : ∀ path ∈ generated, ∃ found, d.peek (.ofText path) = .ok found) (m : Manifest) :
    ∃ m', recorded d m sources generated = (m', .ok ()) := by
  obtain ⟨rs, hrs⟩ := exists_record hsources []
  obtain ⟨made, hmade⟩ := exists_recordEach hgenerated m.generated
  exact ⟨_, recorded_eq_ok_iff.mpr ⟨rs, made, hrs, hmade, rfl⟩⟩

theorem distinct_of_recorded {m m' : Manifest} {sources generated : List String}
    (h : recorded d m sources generated = (m', .ok ())) (hm : m.Distinct) : m'.Distinct := by
  obtain ⟨rs, made, hrs, hmade, rfl⟩ := recorded_eq_ok_iff.mp h
  exact ⟨nodup_record hrs List.nodup_nil, nodup_record (record_of_recordEach hmade) hm.generated⟩

end Tracker

namespace Manifest

variable {m old : Manifest} {d₀ d : Disk} {paths now made : List String} {path : String}

/-- A file that is still as it was when it was put on record stands unchanged. -/
theorem standing_of_recorded (h : Tracker.recorded d₀ old paths made = (m, .ok ()))
    (hpath : path ∈ paths) {content : ByteArray} {time : Int}
    (hpeek₀ : d₀.peek (.ofText path) = .ok (some (.file content time)))
    (hpeek : d.peek (.ofText path) = .ok (some (.file content time))) :
    Tracker.standing d m path = .ok .unchanged := by
  obtain ⟨rs, files, hrs, -, rfl⟩ := Tracker.recorded_eq_ok_iff.mp h
  have hrecord := Tracker.get?_record hrs path
  rw [if_pos hpath, Disk.fingerprint?_eq_some_iff.mpr ⟨content, time, hpeek₀, rfl⟩] at hrecord
  exact Tracker.standing_eq_unchanged_iff.mpr ⟨content, time, _, hpeek, hrecord, rfl, Int.le_refl _⟩

/-- What was put on record describes a later disk exactly when the sources are the same paths, none
of them was changed, and all that was ever made is there. -/
theorem describes_recorded_iff (h : Tracker.recorded d₀ old paths made = (m, .ok ()))
    (hfiles₀ : ∀ path ∈ paths, ∃ content time,
      d₀.peek (.ofText path) = .ok (some (.file content time)))
    (hfiles : ∀ path ∈ paths, ∃ content time,
      d.peek (.ofText path) = .ok (some (.file content time)) ∧ time ≤ d₀.clock) :
    m.Describes d now ↔ (∀ path, path ∈ now ↔ path ∈ paths) ∧
      (∀ path ∈ paths, Tracker.standing d m path = .ok .unchanged) ∧
      ∀ path ∈ m.generated.map Prod.fst, d.holds (.ofText path) = .ok true := by
  obtain ⟨rs, files, hrs, -, rfl⟩ := Tracker.recorded_eq_ok_iff.mp h
  have hkeys (path : String) : path ∈ rs.map Prod.fst ↔ path ∈ paths := by
    have hkey := Tracker.mem_keys_record hrs path
    have hsome : path ∈ paths → (d₀.fingerprint? path).isSome := fun hpath =>
      Disk.isSome_fingerprint?_iff.mpr (hfiles₀ path hpath)
    rw [hkey]
    simpa using hsome
  constructor
  · intro hdescribes
    have hnow : ∀ path ∈ now, path ∈ paths := by
      intro path hpath
      obtain ⟨content, time, r, -, hr, -⟩ := hdescribes.source path hpath
      by_contra hnot
      have hrecord := Tracker.get?_record hrs path
      rw [if_neg hnot, hr] at hrecord
      cases hrecord
    have hsame (path : String) : path ∈ now ↔ path ∈ paths :=
      ⟨hnow path, fun hpath => hdescribes.known path ((hkeys path).mpr hpath)⟩
    refine ⟨hsame, fun path hpath => ?_, hdescribes.there⟩
    obtain ⟨content, time, r, hpeek, hr, hdigest, htime, -⟩ :=
      hdescribes.source path ((hsame path).mpr hpath)
    exact Tracker.standing_eq_unchanged_iff.mpr ⟨content, time, r, hpeek, hr, hdigest, htime⟩
  · rintro ⟨hsame, hstanding, hthere⟩
    refine ⟨fun path hpath => ?_, fun path hpath => (hsame path).mpr ((hkeys path).mp hpath),
      hthere⟩
    obtain ⟨content, time, r, hpeek, hr, hdigest, htime⟩ :=
      Tracker.standing_eq_unchanged_iff.mp (hstanding path ((hsame path).mp hpath))
    obtain ⟨content', time', hpeek', hclock⟩ := hfiles path ((hsame path).mp hpath)
    rw [hpeek] at hpeek'
    cases hpeek'
    exact ⟨content, time, r, hpeek, hr, hdigest, htime, hclock⟩

/-- A manifest describes a disk for one set of paths only. -/
theorem Describes.describes_iff (h : m.Describes d paths) :
    m.Describes d now ↔ ∀ path, path ∈ now ↔ path ∈ paths := by
  have hkeys {paths : List String} (h : m.Describes d paths) (path : String) :
      path ∈ m.sources.map Prod.fst ↔ path ∈ paths := by
    refine ⟨h.known path, fun hpath => ?_⟩
    obtain ⟨-, -, r, -, hr, -⟩ := h.source path hpath
    exact Records.mem_keys_of_get? hr
  constructor
  · exact fun hnow path => (hkeys hnow path).symm.trans (hkeys h path)
  · intro hsame
    exact ⟨fun path hpath => h.source path ((hsame path).mp hpath),
      fun path hpath => (hsame path).mpr (h.known path hpath), h.there⟩

/-- A manifest that describes a disk was put on record on one where the same paths were files, and
with the same digests. -/
theorem Describes.sources_eq (h : m.Describes d now)
    (hrs : Tracker.record d₀ [] paths = .ok m.sources) :
    (∀ path, path ∈ now ↔ path ∈ paths ∧
        ∃ content time, d₀.peek (.ofText path) = .ok (some (.file content time))) ∧
      ∀ path ∈ now, ∃ content time content₀ time₀,
        d.peek (.ofText path) = .ok (some (.file content time)) ∧
        d₀.peek (.ofText path) = .ok (some (.file content₀ time₀)) ∧
        Digest.ofBytes content = Digest.ofBytes content₀ := by
  have hkeys (path : String) :
      path ∈ m.sources.map Prod.fst ↔ path ∈ paths ∧
        ∃ content time, d₀.peek (.ofText path) = .ok (some (.file content time)) := by
    rw [← Disk.isSome_fingerprint?_iff]
    simpa using Tracker.mem_keys_record hrs path
  have hrecorded : ∀ path ∈ now, ∃ content time content₀ time₀,
      path ∈ paths ∧ d.peek (.ofText path) = .ok (some (.file content time)) ∧
      d₀.peek (.ofText path) = .ok (some (.file content₀ time₀)) ∧
      Digest.ofBytes content = Digest.ofBytes content₀ := by
    intro path hpath
    obtain ⟨content, time, r, hpeek, hr, hdigest, -⟩ := h.source path hpath
    rw [Tracker.get?_record hrs path] at hr
    split_ifs at hr with hmem
    · have hr₀ : d₀.fingerprint? path = some r := by
        simpa [Records.get?] using hr
      obtain ⟨content₀, time₀, hpeek₀, rfl⟩ := Disk.fingerprint?_eq_some_iff.mp hr₀
      exact ⟨content, time, content₀, time₀, hmem, hpeek, hpeek₀, hdigest⟩
    · cases hr
  refine ⟨fun path => ⟨fun hpath => ?_, fun hpath => h.known path ((hkeys path).mpr hpath)⟩, ?_⟩
  · obtain ⟨content, time, content₀, time₀, hmem, -, hpeek₀, -⟩ := hrecorded path hpath
    exact ⟨hmem, content₀, time₀, hpeek₀⟩
  · intro path hpath
    obtain ⟨content, time, content₀, time₀, -, hrest⟩ := hrecorded path hpath
    exact ⟨content, time, content₀, time₀, hrest⟩

end Manifest

end FlowMachine

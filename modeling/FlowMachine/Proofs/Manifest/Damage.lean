import FlowMachine.Proofs.Manifest

/-!
# Damaged manifests

What a manifest file holds is said here without the reader: which integer a datum spells, which
record a mapping encodes, which manifest some bytes encode. A file that encodes a manifest opens as
that manifest, and a file that encodes none opens as the empty one. The one exception is a number
that is infinite where an integer is needed: when it is the first thing that stands in the way,
opening the file is a fault.
-/
namespace FlowMachine

/-! ## Integers -/

namespace Datum

variable {d : Datum} {n : Int}

/-- The integer that a datum spells: numbers lose their fractions, and texts are numerals. -/
inductive Spells : Datum → Int → Prop where
  | bool (b : Bool) : Spells (.bool b) (if b then 1 else 0)
  | int (n : Int) : Spells (.int n) n
  | real {x : Binary64} {n : Int} (h : x.truncate? = some n) : Spells (.real x) n
  | text {s : String} {n : Int} (h : Numeral.integer? s.toList = some n) : Spells (.text s) n

def IsInfinite (d : Datum) : Prop := ∃ negative, d = .real (.infinity negative)

theorem integer_eq_ok_iff : d.integer = .ok n ↔ d.Spells n := by
  constructor
  · intro h
    unfold integer at h
    split at h
    · cases h
      exact .bool _
    · cases h
      exact .int _
    · cases h
    · split at h
      · rename_i htruncate
        cases h
        exact .real htruncate
      · cases h
    · split at h
      · rename_i hnumeral
        cases h
        exact .text hnumeral
      · cases h
    · cases h
  · intro h
    cases h with
    | bool b => rfl
    | int n => rfl
    | @real x n h =>
      cases x with
      | finite negative mantissa exponent => simp only [integer, h]
      | infinity negative => cases h
      | nan => cases h
    | text h => simp only [integer, h]

theorem integer_eq_infinite_iff : d.integer = .error .infinite ↔ d.IsInfinite := by
  constructor
  · intro h
    unfold integer at h
    split at h
    · cases h
    · cases h
    · exact ⟨_, rfl⟩
    · split at h <;> cases h
    · split at h <;> cases h
    · cases h
  · rintro ⟨negative, rfl⟩
    rfl

end Datum

/-! ## Records -/

/-- The fields of a mapping give a record. What is not given is empty or zero. -/
structure Fingerprint.Encoded (fields : List (Key × Datum)) (r : Fingerprint) : Prop where
  path : ((Datum.lookup fields "path").getD (.text "")).shown = r.path
  digest : ((Datum.lookup fields "hash").getD (.text "")).shown = r.digest
  modified : ((Datum.lookup fields "mtime").getD (.int 0)).Spells r.modified
  size : ((Datum.lookup fields "size").getD (.int 0)).Spells r.size

/-- Of the numbers of a record, the first that is no integer is infinite. -/
def Fingerprint.Overflows (fields : List (Key × Datum)) : Prop :=
  ((Datum.lookup fields "mtime").getD (.int 0)).IsInfinite ∨
    (∃ n, ((Datum.lookup fields "mtime").getD (.int 0)).Spells n) ∧
      ((Datum.lookup fields "size").getD (.int 0)).IsInfinite

namespace Fingerprint

variable {d : Datum} {r : Fingerprint}

theorem ofDatum_eq_ok_iff : ofDatum d = .ok r ↔ ∃ fields, d = .map fields ∧ Encoded fields r := by
  cases d with
  | map fields =>
    simp only [ofDatum, bind_eq_ok, pure_eq_ok, Datum.integer_eq_ok_iff]
    constructor
    · rintro ⟨modified, hmodified, size, hsize, rfl⟩
      exact ⟨fields, rfl, rfl, rfl, hmodified, hsize⟩
    · rintro ⟨_, ⟨rfl⟩, h⟩
      refine ⟨r.modified, h.modified, r.size, h.size, ?_⟩
      rw [h.path, h.digest]
  | _ => simp [ofDatum]

theorem ofDatum_eq_infinite_iff :
    ofDatum d = .error .infinite ↔ ∃ fields, d = .map fields ∧ Overflows fields := by
  cases d with
  | map fields =>
    simp only [ofDatum, bind_eq_error, Datum.integer_eq_ok_iff, Datum.integer_eq_infinite_iff,
      Datum.map.injEq, exists_eq_left', Overflows]
    simp [pure, Except.pure]
  | _ => simp [ofDatum]

end Fingerprint

namespace Manifest

variable {entries : List (Key × Datum)} {rs : Records}

/-- An entry of a section gives the record of a path. -/
def EncodedEntry (entry : Key × Datum) (record : String × Fingerprint) : Prop :=
  entry.1.toDatum.shown = record.1 ∧ ∃ fields, entry.2 = .map fields ∧
    Fingerprint.Encoded fields record.2

theorem recordsOf_eq_ok_iff : recordsOf entries = .ok rs ↔
    List.Forall₂ EncodedEntry entries rs := by
  induction entries generalizing rs with
  | nil =>
    rw [recordsOf, List.forall₂_nil_left_iff, Except.ok.injEq]
    exact eq_comm
  | cons entry entries ih =>
    obtain ⟨key, d⟩ := entry
    simp only [recordsOf, bind_eq_ok, pure_eq_ok, ih, List.forall₂_cons_left_iff,
      Fingerprint.ofDatum_eq_ok_iff]
    constructor
    · rintro ⟨r, hr, rest, hrest, rfl⟩
      exact ⟨_, rest, ⟨rfl, hr⟩, hrest, rfl⟩
    · rintro ⟨⟨path, r⟩, rest, ⟨hpath, hr⟩, hrest, rfl⟩
      exact ⟨r, hr, rest, hrest, by rw [hpath]⟩

/-- Some record overflows, and all records before it can be read. -/
theorem recordsOf_eq_infinite_iff : recordsOf entries = .error .infinite ↔
    ∃ front key fields back, entries = front ++ (key, .map fields) :: back ∧
      (∃ rs, List.Forall₂ EncodedEntry front rs) ∧ Fingerprint.Overflows fields := by
  induction entries with
  | nil => simp [recordsOf]
  | cons entry entries ih =>
    obtain ⟨key, d⟩ := entry
    simp only [recordsOf, bind_eq_error, ih, Fingerprint.ofDatum_eq_ok_iff,
      Fingerprint.ofDatum_eq_infinite_iff]
    constructor
    · rintro (⟨fields, rfl, hover⟩ |
        ⟨r, hr, ⟨front, key', fields, back, rfl, ⟨rs, hrs⟩, hover⟩ | ⟨_, _, h⟩⟩)
      · exact ⟨[], key, fields, entries, rfl, ⟨[], .nil⟩, hover⟩
      · exact ⟨(key, d) :: front, key', fields, back, rfl,
          ⟨(_, r) :: rs, .cons ⟨rfl, hr⟩ hrs⟩, hover⟩
      · cases h
    · rintro ⟨front, key', fields, back, heq, ⟨rs, hrs⟩, hover⟩
      cases front with
      | nil =>
        cases heq
        exact .inl ⟨fields, rfl, hover⟩
      | cons entry front =>
        obtain ⟨rfl, rfl⟩ := List.cons.inj heq
        obtain ⟨⟨_, r⟩, rest, ⟨-, hr⟩, hrest, -⟩ := List.forall₂_cons_left_iff.mp hrs
        exact .inr ⟨r, hr, .inl ⟨front, key', fields, back, rfl, ⟨rest, hrest⟩, hover⟩⟩

/-! ## Sections -/

/-- A section gives records. One that is missing, or counts as false, gives none. -/
inductive EncodedSection : Option Datum → Records → Prop where
  | missing : EncodedSection none []
  | void {d : Datum} (h : d.truthy = false) : EncodedSection (some d) []
  | map {entries : List (Key × Datum)} {rs : Records} (h : List.Forall₂ EncodedEntry entries rs) :
    EncodedSection (some (.map entries)) rs

/-- The first record of a section that cannot be read overflows. -/
def SectionOverflows (given : Option Datum) : Prop :=
  ∃ front key fields back, given = some (.map (front ++ (key, .map fields) :: back)) ∧
    (∃ rs, List.Forall₂ EncodedEntry front rs) ∧ Fingerprint.Overflows fields

variable {given : Option Datum}

theorem sectionOf_eq_ok_iff : sectionOf given = .ok rs ↔ EncodedSection given rs := by
  constructor
  · intro h
    unfold sectionOf at h
    split at h
    · cases h
      exact .missing
    · exact .map (recordsOf_eq_ok_iff.mp h)
    · split_ifs at h with htrue
      cases h
      exact .void (by simpa using htrue)
  · intro h
    cases h with
    | missing => rfl
    | @void d hfalse =>
      cases d with
      | map entries =>
        cases entries with
        | nil => rfl
        | cons entry entries => simp [Datum.truthy] at hfalse
      | _ => simp [sectionOf, hfalse]
    | map h => exact recordsOf_eq_ok_iff.mpr h

theorem sectionOf_eq_infinite_iff :
    sectionOf given = .error .infinite ↔ SectionOverflows given := by
  unfold SectionOverflows
  constructor
  · intro h
    unfold sectionOf at h
    split at h
    · cases h
    · obtain ⟨front, key, fields, back, rfl, hrest⟩ := recordsOf_eq_infinite_iff.mp h
      exact ⟨front, key, fields, back, rfl, hrest⟩
    · split_ifs at h
      cases h
  · rintro ⟨front, key, fields, back, rfl, hrest⟩
    exact recordsOf_eq_infinite_iff.mpr ⟨front, key, fields, back, rfl, hrest⟩

/-! ## Manifests -/

/-- The members of a mapping give a manifest. What is not given is as in an empty one. -/
structure Encoded (members : List (Key × Datum)) (m : Manifest) : Prop where
  version : ((Datum.lookup members "version").getD (.text formatVersion)).shown = m.version
  lastUpdate : ((Datum.lookup members "lastUpdate").getD (.int 0)).Spells m.lastUpdate
  sources : EncodedSection (Datum.lookup members "sourceFiles") m.sources
  generated : EncodedSection (Datum.lookup members "generatedFiles") m.generated

/-- Of all that is needed in the members of a mapping, the first that cannot be read is an infinite
number. -/
def Overflows (members : List (Key × Datum)) : Prop :=
  ((Datum.lookup members "lastUpdate").getD (.int 0)).IsInfinite ∨
    (∃ n, ((Datum.lookup members "lastUpdate").getD (.int 0)).Spells n) ∧
      (SectionOverflows (Datum.lookup members "sourceFiles") ∨
        (∃ rs, EncodedSection (Datum.lookup members "sourceFiles") rs) ∧
          SectionOverflows (Datum.lookup members "generatedFiles"))

variable {datum : Datum} {m : Manifest} {s : String}

theorem ofDatum_eq_ok_iff :
    ofDatum datum = .ok m ↔ ∃ members, datum = .map members ∧ Encoded members m := by
  cases datum with
  | map members =>
    simp only [ofDatum, bind_eq_ok, pure_eq_ok, Datum.integer_eq_ok_iff, sectionOf_eq_ok_iff]
    constructor
    · rintro ⟨time, htime, sources, hsources, generated, hgenerated, rfl⟩
      exact ⟨members, rfl, rfl, htime, hsources, hgenerated⟩
    · rintro ⟨_, ⟨rfl⟩, h⟩
      refine ⟨m.lastUpdate, h.lastUpdate, m.sources, h.sources, m.generated, h.generated, ?_⟩
      rw [h.version]
  | _ => simp [ofDatum]

theorem ofDatum_eq_infinite_iff :
    ofDatum datum = .error .infinite ↔ ∃ members, datum = .map members ∧ Overflows members := by
  cases datum with
  | map members =>
    simp only [ofDatum, bind_eq_error, Datum.integer_eq_ok_iff, Datum.integer_eq_infinite_iff,
      sectionOf_eq_ok_iff, sectionOf_eq_infinite_iff, Datum.map.injEq, exists_eq_left', Overflows]
    simp [pure, Except.pure]
  | _ => simp [ofDatum]

/-- The bytes are the text of a mapping. -/
def Holds (content : ByteArray) (members : List (Key × Datum)) : Prop :=
  ∃ s, textOf? content = some s ∧ Json.read? s.toList = some (.map members)

theorem read_eq_ok_iff :
    read s = .ok m ↔ ∃ members, Json.read? s.toList = some (.map members) ∧ Encoded members m := by
  unfold read
  cases Json.read? s.toList with
  | none => simp
  | some datum => simp [ofDatum_eq_ok_iff]

theorem read_eq_infinite_iff : read s = .error .infinite ↔
    ∃ members, Json.read? s.toList = some (.map members) ∧ Overflows members := by
  unfold read
  cases Json.read? s.toList with
  | none => simp
  | some datum => simp [ofDatum_eq_infinite_iff]

variable {d : Disk} {p : Path} {content : ByteArray} {time : Int}

/-- Bytes that are no text make an empty manifest. -/
theorem load_of_textOf?_eq_none (h : d.peek p = .ok (some (.file content time)))
    (hnone : textOf? content = none) : load d p = .ok {} := by
  have hholds : d.holds p = .ok true := by
    unfold Disk.holds
    rw [h]
    rfl
  cases htext : d.text p with
  | ok s =>
    obtain ⟨content', time', hpeek, hs⟩ := text_eq_ok_iff.mp htext
    rw [h] at hpeek
    cases hpeek
    rw [hnone] at hs
    cases hs
  | error fault =>
    unfold load
    rw [hholds, htext]
    rfl

theorem holds_iff (hs : textOf? content = some s) {members : List (Key × Datum)} :
    Holds content members ↔ Json.read? s.toList = some (.map members) := by
  simp [Holds, hs]

theorem load_eq_error_iff (h : d.peek p = .ok (some (.file content time))) {fault : Fault} :
    load d p = .error fault ↔
      fault = .infiniteNumber ∧ ∃ members, Holds content members ∧ Overflows members := by
  cases hs : textOf? content with
  | none => simp [load_of_textOf?_eq_none h hs, Holds, hs]
  | some s =>
    simp only [holds_iff hs, ← read_eq_infinite_iff,
      load_of_text (text_eq_ok_iff.mpr ⟨content, time, h, hs⟩)]
    rcases read s with (_ | _) | m
    · simp
    · simp [eq_comm]
    · simp

theorem load_eq_ok_iff (h : d.peek p = .ok (some (.file content time))) :
    load d p = .ok m ↔ (∃ members, Holds content members ∧ Encoded members m) ∨
      m = {} ∧ ¬ (∃ members, Holds content members ∧ Overflows members) ∧
        ∀ m', ¬ ∃ members, Holds content members ∧ Encoded members m' := by
  cases hs : textOf? content with
  | none => simp [load_of_textOf?_eq_none h hs, Holds, hs, eq_comm]
  | some s =>
    simp only [holds_iff hs, ← read_eq_infinite_iff, ← read_eq_ok_iff,
      load_of_text (text_eq_ok_iff.mpr ⟨content, time, h, hs⟩)]
    rcases read s with (_ | _) | m'
    · simp [eq_comm]
    · simp
    · simp

end Manifest

namespace Tracker

variable {d : Disk} {p : Path} {content : ByteArray} {time : Int}

/-- Opening a manifest file, whatever its bytes are. It is a fault exactly when an infinite number
is the first thing in it that cannot be read. Otherwise the tracker holds the manifest that the
bytes encode, or the empty one when they encode none. -/
theorem load_file (h : d.peek p = .ok (some (.file content time))) :
    (∀ fault, load d p = .error fault ↔ fault = .infiniteNumber ∧
      ∃ members, Manifest.Holds content members ∧ Manifest.Overflows members) ∧
    ∀ t, load d p = .ok t ↔ t.path = p ∧
      ((∃ members, Manifest.Holds content members ∧ Manifest.Encoded members t.manifest) ∨
        t.manifest = ⟨"1.0.0", 0, [], []⟩ ∧
          ¬ (∃ members, Manifest.Holds content members ∧ Manifest.Overflows members) ∧
          ∀ m, ¬ ∃ members, Manifest.Holds content members ∧ Manifest.Encoded members m) := by
  refine ⟨fun fault => ?_, fun t => ?_⟩
  · rw [← Manifest.load_eq_error_iff h, load, bind_eq_error]
    simp [pure, Except.pure]
  · have hempty : (⟨"1.0.0", 0, [], []⟩ : Manifest) = {} := rfl
    rw [hempty, ← Manifest.load_eq_ok_iff h, load, bind_eq_ok]
    simp only [pure_eq_ok]
    constructor
    · rintro ⟨m, hm, rfl⟩
      exact ⟨rfl, hm⟩
    · rintro ⟨rfl, hm⟩
      exact ⟨t.manifest, hm, rfl⟩

/-- A disk with a manifest file. -/
def manifestDisk (text : String) : Disk :=
  (Disk.empty 0).set ["work", "m.json"] (.file text.toUTF8 0)

theorem peek_manifestDisk (text : String) :
    (manifestDisk text).peek (.ofText "m.json") = .ok (some (.file text.toUTF8 0)) :=
  Disk.peek_eq_some_iff.mpr ⟨rfl, rfl⟩

/-- A manifest with a numeral for a time, a number for a digest, a fraction and an empty section. -/
def looseManifest : String :=
  "\x7b\"lastUpdate\": \" 12 \", \"generatedFiles\": null, " ++
    "\"sourceFiles\": \x7b\"a.md\": \x7b\"mtime\": 1.9, \"hash\": 5\x7d\x7d\x7d"

theorem load_file_loose :
    load (manifestDisk looseManifest) (.ofText "m.json") =
      .ok ⟨.ofText "m.json", ⟨"1.0.0", 12, [("a.md", ⟨"", "5", 1, 0⟩)], []⟩⟩ ∧
    ∃ members, Manifest.Holds looseManifest.toUTF8 members ∧
      Manifest.Encoded members ⟨"1.0.0", 12, [("a.md", ⟨"", "5", 1, 0⟩)], []⟩ := by
  have hload : load (manifestDisk looseManifest) (.ofText "m.json") =
      .ok ⟨.ofText "m.json", ⟨"1.0.0", 12, [("a.md", ⟨"", "5", 1, 0⟩)], []⟩⟩ :=
    eq_ok_of_toOption (by decide +kernel)
  obtain ⟨-, hencoded | ⟨hempty, -⟩⟩ := ((load_file (peek_manifestDisk looseManifest)).2 _).mp hload
  · exact ⟨hload, hencoded⟩
  · cases hempty

/-- A manifest with an infinite time cannot be opened. -/
theorem exists_fault_of_infinity : ∃ content time,
    (manifestDisk "\x7b\"lastUpdate\": Infinity\x7d").peek (.ofText "m.json") =
      .ok (some (.file content time)) ∧
    load (manifestDisk "\x7b\"lastUpdate\": Infinity\x7d") (.ofText "m.json") =
      .error .infiniteNumber := by
  have hfault :
    (match load (manifestDisk "\x7b\"lastUpdate\": Infinity\x7d") (.ofText "m.json") with
      | .error fault => fault == .infiniteNumber
      | .ok _ => false) = true := by
    decide +kernel
  refine ⟨_, _, peek_manifestDisk _, ?_⟩
  split at hfault
  · rename_i hload
    rw [hload, beq_iff_eq.mp hfault]
  · cases hfault

end Tracker

end FlowMachine

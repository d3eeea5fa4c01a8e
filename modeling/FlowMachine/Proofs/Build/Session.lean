import FlowMachine.Proofs.Build.Skip

/-!
# Whole sessions

A session is any sequence of changes from outside, resets of the manifest and builds, each by a
fresh builder that keeps its manifest at one path. Only builds and resets write the manifest, so
whatever text is found at its place holds no sources or was saved by an earlier build of the
session. A build that is left out therefore rests on an earlier one, whose sources it has byte for
byte.
-/
namespace FlowMachine

open FlowMachine.Disk
open FlowMachine.Builder

/-- A build by a fresh builder. -/
structure Call where
  settings : BuildSettings := {}
  unavailable : Document → Option String := fun _ => none
  sources : Option (List String) := none
  force : Bool := false

namespace Call

def builder (c : Call) : Builder where
  settings := c.settings
  unavailable := c.unavailable

def run (c : Call) (d : Disk) : (Except Fault Outcome × Builder) × Disk :=
  (c.builder.generate c.sources c.force).run d

/-- The call, made on a disk, puts its sources on record and saves the manifest. -/
structure Commits (c : Call) (d : Disk) (paths : List String) (d₁ : Disk) (t : Tracker) : Prop where
  recorded : c.builder.Commits c.sources c.force d paths d₁ t
  saved : ∃ time, (c.run d).2.get? (t.path.aim d.home) = some (.file t.manifest.render.toUTF8 time)

/-- No copy that the call keeps of a replaced file lands on a place. -/
def Spares (c : Call) (d : Disk) (place : Location) : Prop :=
  c.settings.backup.truthy = true → ∀ paths o, c.builder.resolve d c.sources = .ok paths →
    c.builder.propose d paths = .ok (o, true) →
    ∀ f ∈ o.files, place ∉ Path.copyAims d.home (.ofText f.path) (backupPath (.ofText f.path))

end Call

/-- The disks that a session can reach, with the calls made so far and the disks they were made on,
the last one first. -/
inductive Session (manifest : Path) : List (Call × Disk) → Disk → Prop where
  /-- At first there is no manifest. -/
  | start {d : Disk}
    (hnone : ∀ content time, d.get? (manifest.aim d.home) ≠ some (.file content time)) :
    Session manifest [] d
  /-- Files are written, touched and removed from outside, but nobody else writes the manifest. -/
  | edit {history : List (Call × Disk)} {d d' : Disk} (h : Session manifest history d)
    (hhome : d'.home = d.home)
    (hkept : ∀ content time, d'.get? (manifest.aim d.home) = some (.file content time) →
      ∃ time, d.get? (manifest.aim d.home) = some (.file content time)) :
    Session manifest history d'
  | reset {history : List (Call × Disk)} {d : Disk} {t : Tracker} (h : Session manifest history d)
    (hload : Tracker.load d manifest = .ok t) : Session manifest history (t.reset.run d).2
  /-- A call keeps copies of replaced files that hold whatever was there, so none of them may land
  on the manifest. -/
  | call {history : List (Call × Disk)} {d : Disk} (h : Session manifest history d) (c : Call)
    (hmanifest : c.settings.manifest = .ok manifest) (hspares : c.Spares d (manifest.aim d.home)) :
    Session manifest ((c, d) :: history) (c.run d).2

namespace Session

/-- Bytes that are no manifest with sources. -/
def Blank (content : ByteArray) : Prop :=
  ∀ s m, Manifest.textOf? content = some s → Manifest.read s = .ok m → m.sources = []

theorem blank_empty : Blank (Manifest.render {}).toUTF8 := by
  intro s m hs hm
  rw [Manifest.textOf?_render Manifest.distinct_empty] at hs
  cases hs
  rw [Manifest.read_render Manifest.distinct_empty] at hm
  split_ifs at hm
  cases hm
  rfl

/-- A text that JSON does not start like is no manifest. -/
theorem blank_of_read? {s : String} (h : Json.read? (Text.unifyBreaks s.toList) = none) :
    Blank s.toUTF8 := by
  intro text m htext hm
  unfold Manifest.textOf? at htext
  rw [Text.decode_toUTF8] at htext
  cases htext
  rw [Manifest.read, String.toList_ofList, h] at hm
  cases hm

theorem toList_document (line : String) (lines : List String) :
    (Emit.document (line :: lines)).toList = line.toList ++ '\n' ::
      (Emit.document lines).toList := by
  simp [Emit.document, String.toList_join]

theorem read?_quotes (cs : List Char) : Json.read? ('"' :: '"' :: '"' :: cs) = none := by
  have hskip (cs : List Char) : Json.skipSpace ('"' :: cs) = '"' :: cs := rfl
  rw [Json.read?, hskip, Json.readDatum, Json.readString]
  rfl

theorem read?_hash (cs : List Char) : Json.read? ('#' :: cs) = none := by
  have hskip : Json.skipSpace ('#' :: cs) = '#' :: cs := rfl
  rw [Json.read?, hskip, Json.readDatum]
  · rfl
  all_goals simp

/-- Every document starts with a docstring or with a shebang. -/
theorem document_text (o : EmitOptions) (m : Machine) (document : Document) :
    ∃ lines, document.text o m = Emit.document ("\"\"\"" :: lines) ∨
      document.text o m = Emit.document ("#!/usr/bin/env python3" :: lines) := by
  cases document with
  | machine => exact ⟨_, .inl rfl⟩
  | smokeTests => exact ⟨_, .inl rfl⟩
  | transitionTests => exact ⟨_, .inl rfl⟩
  | errorTests => exact ⟨_, .inl rfl⟩
  | demo => exact ⟨_, .inr rfl⟩
  | service => exact ⟨_, .inl rfl⟩

/-- No document of a machine is a manifest. -/
theorem blank_document (o : EmitOptions) (m : Machine) (document : Document) :
    Blank (document.text o m).toUTF8 := by
  refine blank_of_read? ?_
  obtain ⟨lines, htext | htext⟩ := document_text o m document
  · rw [htext, toList_document]
    exact read?_quotes (Text.unifyBreaks ('\n' :: _))
  · rw [htext, toList_document]
    exact read?_hash (Text.unifyBreaks ("!/usr/bin/env python3".toList ++ '\n' :: _))

/-- Whatever is at the manifest's place has no sources or was saved by an earlier call. -/
def Trusted (manifest : Path) (history : List (Call × Disk)) (d : Disk) : Prop :=
  ∀ content time, d.get? (manifest.aim d.home) = some (.file content time) →
    Blank content ∨ ∃ e ∈ history, ∃ paths d₁ t, e.1.Commits e.2 paths d₁ t ∧ t.manifest.Distinct ∧
      content = t.manifest.render.toUTF8

variable {manifest : Path} {history : List (Call × Disk)} {d d' : Disk}

theorem Trusted.cons (h : Trusted manifest history d) (e : Call × Disk) :
    Trusted manifest (e :: history) d := by
  intro content time hget
  rcases h content time hget with hblank | ⟨e', he', hcommits⟩
  · exact .inl hblank
  · exact .inr ⟨e', List.mem_cons_of_mem _ he', hcommits⟩

/-- Bytes that were there before, or that have no sources, keep the manifest's place trusted. -/
theorem Trusted.evolves {W : Location → ByteArray → Prop} (h : Trusted manifest history d)
    (hevolves : d.Evolves W d')
    (hblank : ∀ content, W (manifest.aim d.home) content → Blank content) :
    Trusted manifest history d' := by
  intro content time hget
  rw [hevolves.home_eq] at hget
  by_cases hput : W (manifest.aim d.home) content
  · exact .inl (hblank content hput)
  · exact h content time (hevolves.file_of_not hget hput)

theorem trusted_reset (h : Trusted manifest history d) (t : Tracker) :
    Trusted manifest history (t.reset.run d).2 := by
  have hrun : (t.reset.run d).2 = (({ t with manifest := {} } : Tracker).save.run.run d).2 := rfl
  rw [hrun]
  refine h.evolves (Tracker.confined_save d.home _ d rfl) ?_
  rintro content ⟨-, rfl⟩
  exact blank_empty

/-- A call leaves at the manifest's place what was there, a document, or the manifest that it
commits. -/
theorem trusted_call (h : Trusted manifest history d) (c : Call)
    (hmanifest : c.settings.manifest = .ok manifest) (hspares : c.Spares d (manifest.aim d.home)) :
    Trusted manifest ((c, d) :: history) (c.run d).2 := by
  have hnew := h.cons (c, d)
  rcases hrun : c.run d with ⟨⟨result, b'⟩, d'⟩
  show Trusted manifest ((c, d) :: history) d'
  obtain rfl | ⟨paths, o, d₁, hresolve, hproposed, hevolves, hend⟩ := Builder.disk_of_generate hrun
  · exact hnew
  have hwritten : Trusted manifest ((c, d) :: history) d₁ := by
    refine hnew.evolves hevolves ?_
    rintro content ⟨f, hf, ⟨-, rfl⟩ | ⟨hbackup, hcopy⟩⟩
    · obtain ⟨document, x, directory, -, rfl⟩ := Builder.file_of_propose hproposed hf
      exact blank_document _ _ document
    · exact absurd hcopy (hspares hbackup paths o hresolve hproposed f hf)
  obtain rfl | ⟨t, hcommits, rfl⟩ := hend
  · exact hwritten
  -- the manifest that the call saves is the one it put on record
  obtain ⟨hdistinct, hpath⟩ := Builder.distinct_of_commits hcommits rfl
  obtain rfl : t.path = manifest := Except.ok.inj (hpath.symm.trans hmanifest)
  have hsave := t.confined_save d₁.home d₁ rfl
  intro content time hget
  rw [hsave.home_eq] at hget
  by_cases hrender : content = t.manifest.render.toUTF8
  · refine .inr ⟨(c, d), List.mem_cons_self, paths, d₁, t, ⟨hcommits, time, ?_⟩, hdistinct, hrender⟩
    rw [hrun, ← hrender, ← hevolves.home_eq]
    exact hget
  · exact hwritten content time (hsave.file_of_not hget fun hput => hrender hput.2)

/-- Along a session the manifest's place stays trusted. -/
theorem trusted (h : Session manifest history d) : Trusted manifest history d := by
  induction h with
  | start hnone => exact fun content time hget => absurd hget (hnone content time)
  | edit _ hhome hkept ih =>
    intro content time hget
    rw [hhome] at hget
    obtain ⟨time', hbefore⟩ := hkept content time hget
    exact ih content time' hbefore
  | @reset _ _ t _ _ ih => exact trusted_reset ih t
  | call _ c hmanifest hspares ih => exact trusted_call ih c hmanifest hspares

/-- A manifest with sources that is loaded in a session was committed by an earlier call. -/
theorem commits_of_load (h : Session manifest history d) {m : Manifest}
    (hload : Manifest.load d manifest = .ok m) (hsome : m.sources ≠ []) :
    ∃ e ∈ history, ∃ paths d₁ t, e.1.Commits e.2 paths d₁ t ∧ t.manifest = m := by
  rcases Manifest.load_eq_ok hload with rfl | ⟨s, htext, hread⟩
  · exact absurd rfl hsome
  obtain ⟨content, time, hpeek, hs⟩ := Manifest.text_eq_ok_iff.mp htext
  rcases h.trusted content time (peek_eq_some_iff.mp hpeek).2 with
    hblank | ⟨e, he, paths, d₁, t, hcommits, hdistinct, rfl⟩
  · exact absurd (hblank s m hs hread) hsome
  refine ⟨e, he, paths, d₁, t, hcommits, ?_⟩
  rw [Manifest.textOf?_render hdistinct] at hs
  cases hs
  rw [Manifest.read_render hdistinct] at hread
  split_ifs at hread
  exact Except.ok.inj hread

/-- The digest tells apart what a source held at the commits of a session and what it holds now. -/
def Discerning (history : List (Call × Disk)) (d : Disk) : Prop :=
  ∀ e ∈ history, ∀ paths d₁ t, e.1.Commits e.2 paths d₁ t → ∀ path ∈ paths,
    ∀ content₁ time₁ content time, d₁.peek (.ofText path) = .ok (some (.file content₁ time₁)) →
      d.peek (.ofText path) = .ok (some (.file content time)) →
      Digest.ofBytes content = Digest.ofBytes content₁ → content = content₁

/-- Right after a call there is nothing to tell apart: when no source is at the manifest's place,
each of them is as it was put on record. -/
theorem discerning_of_call (c : Call) {paths : List String}
    (hresolve : c.builder.resolve d c.sources = .ok paths)
    (hmanifest : c.settings.manifest = .ok manifest)
    (happart : ∀ path ∈ paths, (Path.ofText path).aim d.home ≠ manifest.aim d.home) :
    Discerning [(c, d)] (c.run d).2 := by
  intro e he committed d₁ t hcommits path hpath content₁ time₁ content time hpeek₁ hpeek _
  obtain rfl := List.mem_singleton.mp he
  have hrecorded : c.builder.Commits c.sources c.force d committed d₁ t := hcommits.recorded
  obtain rfl := Except.ok.inj (hrecorded.resolve_eq.symm.trans hresolve)
  obtain ⟨-, hpath'⟩ := distinct_of_commits hrecorded rfl
  obtain rfl : t.path = manifest := Except.ok.inj (hpath'.symm.trans hmanifest)
  have hdisk : (c.run d).2 = (t.save.run.run d₁).2 :=
    disk_of_commits hrecorded (List.ne_nil_of_mem hpath)
  have hsave := t.confined_save d₁.home d₁ rfl
  rw [← hdisk] at hsave
  rw [peek_eq_some_iff] at hpeek hpeek₁
  rw [hsave.home_eq] at hpeek
  have hbefore := hsave.file_of_not hpeek.2 fun hput => by
    rw [hrecorded.home_eq] at hput
    exact happart path hpath hput.1
  rw [hpeek₁.2] at hbefore
  cases hbefore
  rfl

/-- A call that is left out rests on an earlier one of the session that committed the manifest: the
paths are those that were files then, each with the bytes it had then, all that the manifest names
as made is there, and nothing on the disk changes. -/
theorem sound_of_skip (h : Session manifest history d) (c : Call)
    (hmanifest : c.settings.manifest = .ok manifest) (hdiscerning : Discerning history d)
    {o : Outcome}
    {b' : Builder} (hrun : c.run d = ((.ok o, b'), d')) (hskipped : o.skipped = true) :
    d' = d ∧ ∃ paths m, c.builder.resolve d c.sources = .ok paths ∧
      Manifest.load d manifest = .ok m ∧
      (∀ path ∈ m.generated.map Prod.fst, d.holds (.ofText path) = .ok true) ∧
      ∃ e ∈ history, ∃ committed d₁ t, e.1.Commits e.2 committed d₁ t ∧ t.manifest = m ∧
        (∀ path, path ∈ paths ↔ path ∈ committed ∧
          ∃ content time, d₁.peek (.ofText path) = .ok (some (.file content time))) ∧
        ∀ path ∈ paths, ∃ content time time₁,
          d₁.peek (.ofText path) = .ok (some (.file content time₁)) ∧
          d.peek (.ofText path) = .ok (some (.file content time)) := by
  obtain ⟨rfl, -, paths, hresolve, hsome, hsettled⟩ := Builder.skipped_of_generate hrun hskipped
  obtain ⟨-, t, hopen, hdescribes⟩ := Builder.isSettled_eq_true_iff.mp hsettled
  obtain ⟨-, hmemory | ⟨-, hpath, hload⟩⟩ := Builder.withTracker_eq_ok hopen
  · cases hmemory
  rw [Except.ok.inj (hpath.symm.trans hmanifest)] at hload
  have hsources : t.manifest.sources ≠ [] := by
    obtain ⟨path, hmem⟩ := List.exists_mem_of_ne_nil _ hsome
    obtain ⟨-, -, r, -, hr, -⟩ := hdescribes.source path hmem
    intro hnil
    rw [hnil] at hr
    cases hr
  obtain ⟨e, he, committed, d₁, t₁, hcommits, hsame⟩ := h.commits_of_load hload hsources
  obtain ⟨b₁, proposal, results, old, b₂, -, -, -, -, -, -, -, hrecorded⟩ := hcommits.recorded
  obtain ⟨rs, made, hrs, -, hmade⟩ := Tracker.recorded_eq_ok_iff.mp hrecorded
  have hrecord : Tracker.record d₁ [] committed = .ok t.manifest.sources := by
    rw [← hsame, hmade]
    exact hrs
  obtain ⟨hpaths, hcontents⟩ := hdescribes.sources_eq hrecord
  refine ⟨rfl, paths, t.manifest, hresolve, hload, hdescribes.there, e, he, committed, d₁,
    t₁, hcommits, hsame, hpaths, fun path hpath => ?_⟩
  obtain ⟨content, time, content₁, time₁, hpeek, hpeek₁, hdigest⟩ := hcontents path hpath
  obtain rfl := hdiscerning e he committed d₁ t₁ hcommits path
    ((hpaths path).mp hpath).1 content₁ time₁
    content time hpeek₁ hpeek hdigest
  exact ⟨content, time, time₁, hpeek₁, hpeek⟩

/-- A call that makes one module and keeps the one that is there. -/
def keepingCall : Call where
  settings := { modulesOnly.settings with overwrite := .bool false }
  sources := some ["a.md"]

/-- A disk with a source and a module of its machine. -/
def keepingDisk : Disk :=
  (((Disk.withSource "a.md" "graph TD\nA-->B").set ["work", "generated"] .directory).set
    ["work", "generated", "user-services"] .directory).set
    ["work", "generated", "user-services", "a_machine.py"] (.file "x".toUTF8 400)

/-- A first build. -/
def keepingRun : (Except Fault Outcome × Builder) × Disk := keepingCall.run keepingDisk

theorem keepingRun_facts : (keepingRun.1.1.toOption.any (fun o => o.success &&
      o.writes.all WriteResult.success && !o.skipped &&
      o.files.map (·.path) == ["generated/user-services/a_machine.py"]) &&
    keepingRun.1.2.tracker.any (fun t => t.path == .ofText sampleManifest &&
      Json.fits t.manifest.toDatum &&
      (Tracker.allThere keepingRun.2 (t.manifest.generated.map Prod.fst)).toOption == some true) &&
    timeOf? keepingRun.2 "a.md" == some 500 && timeOf? keepingRun.2 sampleManifest == some 1000 &&
    keepingRun.2.clock == 1000 && keepingRun.2.home == ["work"] &&
    (keepingCall.builder.resolve keepingRun.2 (some ["a.md"])).toOption ==
    some ["a.md"]) = true := by
  decide +kernel

theorem keepingDisk_manifest :
    keepingDisk.get? ((Path.ofText sampleManifest).aim ["work"]) = none := by
  rw [← Option.isNone_iff_eq_none]
  decide

theorem manifest_keepingCall : keepingCall.settings.manifest = .ok (.ofText sampleManifest) := rfl

theorem resolve_keepingDisk :
    keepingCall.builder.resolve keepingDisk keepingCall.sources = .ok ["a.md"] := by
  decide

/-- The first call keeps the module that is there, and the second is left out. -/
theorem keepingRun_again :
    keepingCall.builder.resolve keepingRun.2 keepingCall.sources = .ok ["a.md"] ∧
      ∃ b', keepingCall.run keepingRun.2 = ((.ok { skipped := true }, b'), keepingRun.2) := by
  have hfacts := keepingRun_facts
  simp only [Bool.and_assoc, Bool.and_eq_true, beq_iff_eq] at hfacts
  obtain ⟨hrun, htracker, hsource, hmanifest, hclock, hhome, hresolve⟩ := hfacts
  obtain ⟨o, hrun, ho⟩ := exists_outcome hrun
  simp only [Bool.and_eq_true, Bool.not_eq_true', beq_iff_eq] at ho
  obtain ⟨hsuccess, hwrites, hskipped, hfiles⟩ := ho
  obtain ⟨t, htracker, ht⟩ := (Option.any_eq_true _ _).mp htracker
  simp only [Bool.and_eq_true, beq_iff_eq] at ht
  obtain ⟨hpath, hfits, hthere⟩ := ht
  obtain ⟨content, hpeek⟩ := exists_peek_of_timeOf? hsource
  have hbytes : keepingRun.2.bytes t.path = .ok t.manifest.render.toUTF8 :=
    bytes_of_sample hrun hsuccess hwrites rfl hskipped hfiles htracker hpath rfl hmanifest
      (by simp [keepingDisk_manifest]) (by decide)
  obtain ⟨⟨b₂, hload⟩, -⟩ := withTracker_of_generate hrun hsuccess hwrites rfl htracker hbytes
    (.inr ⟨rfl, hfits, rfl⟩)
  refine ⟨eq_ok_of_toOption hresolve,
    (skip_iff_describes hload rfl rfl).mpr ⟨["a.md"], eq_ok_of_toOption hresolve, by simp, ?_⟩⟩
  refine (describes_of_generate ["a.md"] hrun hsuccess hwrites rfl resolve_keepingDisk ?_
    htracker).mpr
    ⟨fun _ => Iff.rfl, ?_, Tracker.allThere_eq_true_iff.mp (eq_ok_of_toOption hthere)⟩
  · rw [List.forall_mem_singleton, hclock]
    exact ⟨content, 500, hpeek, by decide⟩
  · rw [List.forall_mem_singleton, hpath, hhome]
    exact fun hplace => absurd hplace (by decide)

theorem sound_of_skip_keeping : ∃ b' committed d₁ t content time time₁,
    keepingCall.run keepingRun.2 = ((.ok { skipped := true }, b'), keepingRun.2) ∧
    keepingCall.Commits keepingDisk committed d₁ t ∧
    d₁.peek (.ofText "a.md") = .ok (some (.file content time₁)) ∧
    keepingRun.2.peek (.ofText "a.md") = .ok (some (.file content time)) := by
  obtain ⟨hnow, b', hagain⟩ := keepingRun_again
  have hsession : Session (.ofText sampleManifest) [(keepingCall, keepingDisk)] keepingRun.2 := by
    refine .call (.start ?_) keepingCall manifest_keepingCall (by rintro ⟨⟩)
    intro content time
    show keepingDisk.get? ((Path.ofText sampleManifest).aim ["work"]) ≠ _
    simp [keepingDisk_manifest]
  have hdiscerning : Discerning [(keepingCall, keepingDisk)] keepingRun.2 :=
    discerning_of_call keepingCall resolve_keepingDisk manifest_keepingCall (by decide)
  obtain ⟨-, paths, m, hresolve, -, -, e, he, committed, d₁, t, hcommits, -, -, hcontents⟩ :=
    sound_of_skip hsession keepingCall manifest_keepingCall hdiscerning hagain rfl
  obtain rfl := List.mem_singleton.mp he
  obtain rfl := Except.ok.inj (hresolve.symm.trans hnow)
  obtain ⟨content, time, time₁, hpeek₁, hpeek⟩ := hcontents "a.md" List.mem_cons_self
  exact ⟨b', committed, d₁, t, content, time, time₁, hagain, hcommits, hpeek₁, hpeek⟩

end Session

end FlowMachine

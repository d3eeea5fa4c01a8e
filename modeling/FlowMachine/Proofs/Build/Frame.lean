import FlowMachine.Proofs.Build.Overlap
import FlowMachine.Proofs.Build.Skip

/-!
# What a builder leaves alone

A request that is quiet (a text, a dry run, a build that is left out, one that finds nothing to do
and one that the audit holds back) changes nothing at all, on the disk or in memory. Any other build
puts bytes where its documents and kept copies go. Beside these places it touches one file, its
manifest, and that one only when nothing stood in the way of any document.
-/
namespace FlowMachine

open FlowMachine.Disk

/-! ## Saving a manifest -/

/-- Saving that is a fault puts no bytes anywhere. -/
theorem Tracker.evolves_of_save_error {t : Tracker} {d d' : Disk} {fault : Fault}
    (h : t.save.run.run d = (.error fault, d')) : d.Evolves (fun _ _ => False) d' := by
  unfold save at h
  rw [Act.run_bind, Act.run_attempt, Act.run_bind] at h
  have hmade := Act.confined_ensureDirectory (W := fun _ _ => False) t.path.parent d rfl
  rcases hrun : (Act.ensureDirectory t.path.parent).run.run d with ⟨fault' | _, d₁⟩
  · rw [hrun] at h hmade
    cases fault' <;> cases h <;> exact hmade
  · rw [hrun] at h hmade
    dsimp only at h
    rw [Act.run_change] at h
    cases hwrite : d₁.write t.path t.manifest.render.toUTF8 with
    | error fault' =>
      rw [hwrite] at h
      cases fault' <;> cases h <;> exact hmade
    | ok d₂ =>
      rw [hwrite] at h
      cases h

namespace Builder

/-! ## Requests -/

/-- What a builder is asked for: a build, or the files of a text. -/
inductive Request where
  | build (sources : Option (List String)) (force : Bool)
  | text (text : String) (name : Option String)

/-- Does what is asked. The builder that it leaves takes the next request. -/
def serve (b : Builder) : Request → StateM Disk (Except Fault Outcome × Builder)
  | .build sources force => b.generate sources force
  | .text text name => return (b.renderText text name, b)

/-- The tracker in memory, or the one that would be opened. -/
def tracked (b : Builder) (d : Disk) : Except Fault Tracker := (b.withTracker d).map Prod.fst

/-- Where the manifest is kept. -/
def manifestPath (b : Builder) : Except Fault Path :=
  match b.tracker with
  | some t => .ok t.path
  | none => b.settings.manifest

/-- The manifest is kept at a place. -/
def KeepsAt (b : Builder) (home place : Location) : Prop :=
  ∃ p, b.manifestPath = .ok p ∧ place = p.aim home

/-- The requests that ask for no change, or find none to make. -/
inductive Quiet (b : Builder) (d : Disk) : Request → Prop where
  | text (text : String) (name : Option String) : Quiet b d (.text text name)
  | dry {sources : Option (List String)} {force : Bool} (h : b.settings.dryRun.truthy = true) :
    Quiet b d (.build sources force)
  | skipped {sources : Option (List String)} {force : Bool} {o : Outcome}
    (h : ((b.generate sources force).run d).1.1 = .ok o) (hskipped : o.skipped = true) :
    Quiet b d (.build sources force)
  | noSource {sources : Option (List String)} {force : Bool} (h : b.resolve d sources = .ok []) :
    Quiet b d (.build sources force)
  | noMachine {sources : Option (List String)} {force : Bool} {paths : List String}
    {findings : List Finding} (hresolve : b.resolve d sources = .ok paths)
    (hread : b.readPaths d paths = .ok ([], findings)) : Quiet b d (.build sources force)
  | blocked {sources : Option (List String)} {force : Bool} {paths : List String}
    {read : List Diagram × List Finding} {audited : Report}
    (hresolve : b.resolve d sources = .ok paths) (hread : b.readPaths d paths = .ok read)
    (haudit : b.audit read.1 = .ok audited) (herrors : audited.errors ≠ [])
    (hblock : b.settings.blockOnErrors.truthy = true) : Quiet b d (.build sources force)

/-- No document that the request writes goes to the place, and no copy that it keeps. -/
def Spares (b : Builder) (d : Disk) (place : Location) : Request → Prop
  | .build sources _ => ∀ paths o, b.resolve d sources = .ok paths →
      b.propose d paths = .ok (o, true) → ∀ f ∈ o.files, place ≠ (Path.ofText f.path).aim d.home ∧
        (b.settings.backup.truthy = true →
          place ∉ Path.copyAims d.home (.ofText f.path) (backupPath (.ofText f.path)))
  | .text _ _ => True

variable {b b' b₁ : Builder} {d d' : Disk} {paths : List String} {o : Outcome}
  {sources : Option (List String)} {force : Bool} {result : Except Fault Outcome}

/-! ## Trackers in memory -/

theorem tracked_of_withTracker {t : Tracker} (h : b.withTracker d = .ok (t, b')) :
    b'.tracked d = b.tracked d := by
  obtain ⟨rfl, -⟩ := withTracker_eq_ok h
  have hkept : ({ b with tracker := some t } : Builder).withTracker d = .ok (t, _) :=
    withTracker_of_some rfl
  rw [tracked, tracked, h, hkept]

theorem manifestPath_of_withTracker {t : Tracker} (h : b.withTracker d = .ok (t, b')) :
    b.manifestPath = .ok t.path := by
  obtain ⟨-, hsome | ⟨hnone, hpath, -⟩⟩ := withTracker_eq_ok h
  · rw [manifestPath, hsome]
  · rw [manifestPath, hnone]
    exact hpath

theorem tracked_of_isSettled {answer : Except Fault Bool}
    (h : b.isSettled d paths force = (answer, b')) : b'.tracked d = b.tracked d := by
  obtain rfl | ⟨t, htracker⟩ := isSettled_builder h
  · rfl
  · exact tracked_of_withTracker htracker

theorem manifestPath_of_isSettled {answer : Except Fault Bool}
    (h : b.isSettled d paths force = (answer, b')) : b'.manifestPath = b.manifestPath := by
  obtain rfl | ⟨t, htracker⟩ := isSettled_builder h
  · rfl
  · obtain ⟨rfl, -⟩ := withTracker_eq_ok htracker
    exact (manifestPath_of_withTracker htracker).symm

/-! ## Builds -/

/-- A build changes nothing, or it goes on to the disk with a proposal. -/
theorem still_or_finish (h : (b.generate sources force).run d = ((result, b'), d')) :
    (d' = d ∧ b'.tracked d = b.tracked d) ∨
      ∃ paths b₁ o, b.resolve d sources = .ok paths ∧ paths ≠ [] ∧
        b.isSettled d paths force = (.ok false, b₁) ∧ b.propose d paths = .ok (o, true) ∧
        (b₁.finish o paths).run d = ((result, b'), d') := by
  rw [run_generate] at h
  split at h
  · cases h
    exact .inl ⟨rfl, rfl⟩
  · cases h
    exact .inl ⟨rfl, rfl⟩
  · rename_i paths hsome hresolve
    split at h
    · rename_i hsettled
      cases h
      exact .inl ⟨rfl, tracked_of_isSettled hsettled⟩
    · rename_i hsettled
      cases h
      exact .inl ⟨rfl, tracked_of_isSettled hsettled⟩
    · rename_i b₁ hsettled
      split at h
      · cases h
        exact .inl ⟨rfl, tracked_of_isSettled hsettled⟩
      · cases h
        exact .inl ⟨rfl, tracked_of_isSettled hsettled⟩
      · rename_i o hproposed
        rw [propose_of_isSettled hsettled] at hproposed
        exact .inr ⟨paths, b₁, o, hresolve, fun hnil => hsome (hnil ▸ rfl), hsettled, hproposed, h⟩

/-- A quiet request has no proposal that goes on to the disk, unless it is left out before. -/
theorem Quiet.still (hquiet : b.Quiet d (.build sources force))
    (h : (b.generate sources force).run d = ((result, b'), d')) :
    d' = d ∧ b'.tracked d = b.tracked d := by
  obtain hstill | ⟨paths, b₁, o, hresolve, hsome, -, hproposed, hfinish⟩ := still_or_finish h
  · exact hstill
  exfalso
  obtain ⟨read, hread, ⟨-, hgo, -⟩ |
      ⟨hmachines, audited, haudit, ⟨-, -, hgo, -⟩ | ⟨hfree, hgo, -⟩⟩⟩ :=
    propose_cases hproposed
  · cases hgo
  · cases hgo
  -- what is left is a build with machines that the audit lets through
  cases hquiet with
  | dry hdry => simp [hdry] at hgo
  | skipped hok hskipped =>
    rw [h] at hok
    obtain rfl : result = .ok _ := hok
    obtain ⟨-, -, -, -, -, hsame⟩ := outcome_of_finish hfinish
    rw [hsame, not_skipped_of_propose hproposed] at hskipped
    cases hskipped
  | noSource hnone => exact hsome (Except.ok.inj (hresolve.symm.trans hnone))
  | noMachine hresolve' hread' =>
    obtain rfl := Except.ok.inj (hresolve'.symm.trans hresolve)
    obtain rfl := Except.ok.inj (hread'.symm.trans hread)
    exact hmachines rfl
  | blocked hresolve' hread' haudit' herrors hblock =>
    obtain rfl := Except.ok.inj (hresolve'.symm.trans hresolve)
    obtain rfl := Except.ok.inj (hread'.symm.trans hread)
    obtain rfl := Except.ok.inj (haudit'.symm.trans haudit)
    obtain hnone | hopen := hfree
    · exact herrors hnone
    · simp [hopen] at hblock

/-- After the documents are written, bytes are put at the manifest's place or nowhere. They are put
only when nothing stood in the way of any document, and the build then comes to an outcome. -/
theorem finish_cases (h : (b.finish o paths).run d = ((result, b'), d')) :
    ∃ written d₁, (b.writeFiles o.files).run.run d = (written, d₁) ∧
      (∀ fault, written = .error fault → result = .error fault) ∧
      (d₁.Evolves (fun _ _ => False) d' ∨
        d₁.Evolves (fun place _ => b.KeepsAt d.home place) d' ∧
          ∃ done, result = .ok done ∧ done.writes.all WriteResult.success = true) := by
  rw [run_finish] at h
  rcases hrun : (b.writeFiles o.files).run.run d with ⟨fault | results, d₁⟩
  · rw [hrun] at h
    cases h
    exact ⟨_, _, rfl, fun _ hfault => congrArg _ (Except.error.inj hfault), .inl (.refl _ _)⟩
  · rw [hrun] at h
    refine ⟨_, _, rfl, nofun, ?_⟩
    dsimp only at h
    split_ifs at h with hall
    swap
    · cases h
      exact .inl (.refl _ _)
    rw [run_commit] at h
    cases htracker : b.withTracker d₁ with
    | error fault =>
      rw [htracker] at h
      cases h
      exact .inl (.refl _ _)
    | ok found =>
      obtain ⟨t, b₂⟩ := found
      rw [htracker] at h
      dsimp only at h
      rw [Tracker.run_commit] at h
      rcases hrecorded : Tracker.recorded d₁ t.manifest paths
          ((withWrites o results).files.map OutputFile.path) with ⟨m, fault | _⟩
      · rw [hrecorded] at h
        cases h
        exact .inl (.refl _ _)
      · rw [hrecorded] at h
        dsimp only at h
        have hhome := b.confined_writeFiles d.home o.files d rfl
        have hsave := ({ t with manifest := m } : Tracker).confined_save d₁.home d₁ rfl
        rcases hsaved : ({ t with manifest := m } : Tracker).save.run.run d₁ with ⟨fault | _, d₂⟩
        · rw [hsaved] at h
          cases h
          exact .inl (Tracker.evolves_of_save_error hsaved)
        · rw [hsaved] at h hsave
          rw [hrun] at hhome
          cases h
          refine .inr ⟨hsave.mono ?_, _, rfl, hall⟩
          rintro place content ⟨rfl, -⟩
          exact ⟨t.path, manifestPath_of_withTracker htracker, by rw [hhome.home_eq]⟩

/-- A quiet request changes neither the disk nor the tracker. Any request leaves alone every file
that is no document and no kept copy of its own, with one exception: the manifest's, when it comes
to an outcome and nothing stood in the way of any document. -/
theorem frame_of_serve {r : Request} (h : (b.serve r).run d = ((result, b'), d')) :
    (b.Quiet d r → d' = d ∧ b'.tracked d = b.tracked d) ∧
    ∀ place, b.Spares d place r →
      (∀ content time, d'.get? place = some (.file content time) ↔
        d.get? place = some (.file content time)) ∨
      b.KeepsAt d.home place ∧ ∃ o, result = .ok o ∧ o.writes.all WriteResult.success = true := by
  cases r with
  | text text name =>
    cases h
    exact ⟨fun _ => ⟨rfl, rfl⟩, fun _ _ => .inl fun _ _ => Iff.rfl⟩
  | build sources force =>
    refine ⟨fun hquiet => hquiet.still h, fun place hspares => ?_⟩
    obtain ⟨rfl, -⟩ | ⟨paths, b₁, o, hresolve, -, hsettled, hproposed, hfinish⟩ := still_or_finish h
    · exact .inl fun _ _ => Iff.rfl
    obtain ⟨written, d₁, hwrite, -, hend⟩ := finish_cases hfinish
    have hwritten := b₁.confined_writeFiles d.home o.files d rfl
    rw [hwrite, settings_of_isSettled hsettled] at hwritten
    have hfree : ∀ content, ¬ ∃ f ∈ o.files,
        f.Puts d.home b.settings.backup.truthy place content := by
      rintro content ⟨f, hf, ⟨hplace, -⟩ | ⟨hbackup, hcopy⟩⟩
      · exact (hspares paths o hresolve hproposed f hf).1 hplace
      · exact (hspares paths o hresolve hproposed f hf).2 hbackup hcopy
    have hbefore := hwritten.file_iff hfree
    obtain hafter | ⟨hafter, hdone⟩ := hend
    · exact .inl fun content time =>
        (hafter.file_iff (by simp) content time).trans (hbefore content time)
    · by_cases hplace : b₁.KeepsAt d.home place
      · obtain ⟨p, hp, haim⟩ := hplace
        exact .inr ⟨⟨p, (manifestPath_of_isSettled hsettled).symm.trans hp, haim⟩, hdone⟩
      · exact .inl fun content time =>
          (hafter.file_iff (fun _ => hplace) content time).trans (hbefore content time)

/-- A disk with two sources, a manifest, and a directory in the place of the second module. -/
def blockedDisk : Disk :=
  ((((twoSources "a.md" "b.md").set ["work", "generated"] .directory).set
    ["work", "generated", "user-services"] .directory).set
    ["work", "generated", "user-services", "b_machine.py"] .directory).set
    ((Path.ofText sampleManifest).aim ["work"]) (.file "\x7b\x7d".toUTF8 400)

/-- The first module is written and the second is not, so the manifest stays as it is. -/
theorem frame_of_serve_blocked : ∃ o b' d',
    (modulesOnly.serve (.build (some ["a.md", "b.md"]) false)).run blockedDisk = ((.ok o, b'), d') ∧
    o.writes.map WriteResult.success = [true, false] ∧
    modulesOnly.manifestPath = .ok (.ofText sampleManifest) ∧
    d'.get? ((Path.ofText sampleManifest).aim ["work"]) = some (.file "\x7b\x7d".toUTF8 400) := by
  have hfacts : ((modulesOnly.serve (.build (some ["a.md", "b.md"]) false)).run
      blockedDisk).1.1.toOption.any (fun o => o.writes.map WriteResult.success == [true, false]) =
      true := by
    decide +kernel
  have hproposal : (modulesOnly.propose blockedDisk ["a.md", "b.md"]).toOption.any (fun p =>
      p.1.files.all fun f => (Path.ofText sampleManifest).aim ["work"] !=
        (Path.ofText f.path).aim ["work"]) = true := by
    decide +kernel
  obtain ⟨o, hrun, ho⟩ := exists_outcome hfacts
  have hwrites := beq_iff_eq.mp ho
  have hspares : modulesOnly.Spares blockedDisk ((Path.ofText sampleManifest).aim ["work"])
      (.build (some ["a.md", "b.md"]) false) := by
    intro paths o hresolve hproposed f hf
    have hpaths : modulesOnly.resolve blockedDisk (some ["a.md", "b.md"]) = .ok ["a.md", "b.md"] :=
      eq_ok_of_toOption (by decide)
    obtain rfl := Except.ok.inj (hresolve.symm.trans hpaths)
    rw [hproposed] at hproposal
    refine ⟨?_, fun hbackup => by cases hbackup⟩
    exact bne_iff_ne.mp (List.all_eq_true.mp hproposal f hf)
  refine ⟨o, _, _, hrun, hwrites, rfl, ?_⟩
  obtain hsame | ⟨-, done, hdone, hall⟩ := (frame_of_serve hrun).2 _ hspares
  · exact (hsame _ _).mpr rfl
  · obtain rfl := Except.ok.inj hdone
    have hnot : (o.writes.map WriteResult.success).all id = true := by simpa using hall
    rw [hwrites] at hnot
    cases hnot

end Builder

end FlowMachine

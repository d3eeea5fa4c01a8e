import FlowMachine.Proofs.Build.Run

/-!
# Builds that are left out

A build that is left out comes right after one that is not, or after a chain of such builds. What
the first of the two leaves behind decides: one that stays off the disk is never followed by a build
that is left out, and after one that is committed the next is left out exactly when everything is
there that was ever made.
-/
namespace FlowMachine

open FlowMachine.Disk

namespace Builder

variable {b b' next : Builder} {d d' : Disk} {sources : Option (List String)} {force : Bool}
  {paths : List String} {o : Outcome} {t : Tracker}

/-- The builder of the next call: the same one, or a fresh one with the same settings. -/
def Follows (b b' next : Builder) : Prop := next = b' ∨ b.tracker = none ∧ next = b

theorem resolve_of_settings (h : next.settings = b.settings) :
    next.resolve d sources = b.resolve d sources := by
  unfold resolve
  rw [h]

/-- Asking again gives the same answer: the tracker that was opened is the one that is there. -/
theorem isSettled_again {answer : Except Fault Bool} {b₂ : Builder}
    (h : b.isSettled d paths force = (answer, b')) (hnext : b.Follows b' next)
    (hagain : next.isSettled d paths force = (.ok true, b₂)) : answer = .ok true := by
  obtain rfl | ⟨-, rfl⟩ := hnext
  · obtain rfl | ⟨t, htracker⟩ := isSettled_builder h
    · rw [h] at hagain
      exact (Prod.mk.inj hagain).1
    · obtain ⟨hmode, t', htracker', hdescribes⟩ := isSettled_eq_true_iff.mp hagain
      obtain ⟨hnext, -⟩ := withTracker_eq_ok htracker
      have hsome : next.tracker = some t := by rw [hnext]
      rw [withTracker_of_some hsome] at htracker'
      cases htracker'
      rw [settings_of_isSettled h] at hmode
      have htrue := isSettled_eq_true_iff.mpr ⟨hmode, t, htracker, hdescribes⟩
      rw [h] at htrue
      exact (Prod.mk.inj htrue).1
  · rw [h] at hagain
    exact (Prod.mk.inj hagain).1

/-- A build that had errors and stayed off the disk is not followed by one that is left out, and no
build is left out over a source that is no file. -/
theorem success_or_machines_of_skip_next {o₂ : Outcome} {b₂ : Builder} {d₂ : Disk}
    (hfirst : (b.generate sources false).run d = ((.ok o, b'), d')) (hnext : b.Follows b' next)
    (hsecond : (next.generate sources false).run d' = ((.ok o₂, b₂), d₂))
    (hskipped : o₂.skipped = true) :
    (o.success = true ∨ 0 < o.machines) ∧
      ∃ paths, next.resolve d' sources = .ok paths ∧ paths ≠ [] ∧
        ∀ path ∈ paths, ∃ content time, d'.peek (.ofText path) =
          .ok (some (.file content time)) := by
  obtain ⟨-, -, now, hnow, hsome, hsettled⟩ := skipped_of_generate hsecond hskipped
  constructor
  · cases ends_of_generate hfirst with
    | idle hresolve =>
      have hsame : next = b := hnext.elim id And.right
      rw [hsame, hresolve] at hnow
      cases hnow
      exact absurd rfl hsome
    | skipped => exact .inl rfl
    | @proposed paths _ _ hresolve _ hanswer hproposed =>
      have hsettings : next.settings = b.settings := by
        obtain rfl | ⟨-, rfl⟩ := hnext
        · exact settings_of_isSettled hanswer
        · rfl
      rw [resolve_of_settings hsettings, hresolve] at hnow
      cases hnow
      cases isSettled_again hanswer hnext hsettled
    | finished _ _ _ hproposed hfinished =>
      obtain ⟨-, -, -, -, hmachines, -⟩ := outcome_of_finish hfinished
      exact .inr (hmachines ▸ machines_of_propose hproposed)
  · obtain ⟨-, t, -, hdescribes⟩ := isSettled_eq_true_iff.mp hsettled
    refine ⟨now, hnow, hsome, fun path hpath => ?_⟩
    obtain ⟨content, time, -, hpeek, -⟩ := hdescribes.source path hpath
    exact ⟨content, time, hpeek⟩

/-- A first build. -/
def firstRun : (Except Fault Outcome × Builder) × Disk :=
  (modulesOnly.generate (some ["a.md"]) false).run (.withSource "a.md" "graph TD\nA-->B")

/-- The build after it, which is left out. -/
def idleRun : (Except Fault Outcome × Builder) × Disk :=
  (firstRun.1.2.generate (some ["a.md"]) false).run firstRun.2

theorem idleRun_again : (idleRun.1.1.toOption.any (·.machines == 0) &&
    ((idleRun.1.2.generate (some ["a.md"]) false).run idleRun.2).1.1.toOption.any (·.skipped) &&
    (idleRun.1.2.resolve idleRun.2 (some ["a.md"])).toOption == some ["a.md"]) = true := by
  decide +kernel

/-- The build that was left out had no errors, and its source is still a file. -/
theorem success_or_machines_idle : ∃ o b' d',
    (firstRun.1.2.generate (some ["a.md"]) false).run firstRun.2 = ((.ok o, b'), d') ∧
      o.success = true ∧
      ∃ content time, d'.peek (.ofText "a.md") = .ok (some (.file content time)) := by
  have hfacts := idleRun_again
  simp only [Bool.and_assoc, Bool.and_eq_true, beq_iff_eq] at hfacts
  obtain ⟨hfirst, hsecond, hresolve⟩ := hfacts
  obtain ⟨o, hrun, hmachines⟩ := exists_outcome hfirst
  obtain ⟨o₂, hagain, hskipped⟩ := exists_outcome hsecond
  obtain ⟨hgood, paths, hpaths, -, hfiles⟩ :=
    success_or_machines_of_skip_next hrun (.inl rfl) hagain hskipped
  rw [eq_ok_of_toOption hresolve] at hpaths
  cases hpaths
  have hnone : o.machines = 0 := by simpa using hmachines
  exact ⟨o, _, _, hrun, hgood.resolve_right (by omega), hfiles "a.md" List.mem_cons_self⟩

/-- A build of a machine whose final state has a way out, which is an error. -/
def reopenedRun : (Except Fault Outcome × Builder) × Disk :=
  (modulesOnly.generate (some ["a.md"]) false).run
    (.withSource "a.md" "graph TD\nA-->B((B))\nB-->|x|A")

theorem reopenedRun_again : (reopenedRun.1.1.toOption.any (!·.success) &&
    ((reopenedRun.1.2.generate (some ["a.md"]) false).run reopenedRun.2).1.1.toOption.any
      (·.skipped)) = true := by
  decide +kernel

/-- The build had an error, and the next one is left out all the same. -/
theorem exists_skip_after_errors :
    ∃ o b' d', (modulesOnly.generate (some ["a.md"]) false).run
        (.withSource "a.md" "graph TD\nA-->B((B))\nB-->|x|A") = ((.ok o, b'), d') ∧
      o.success = false ∧
      ∃ b₂, (b'.generate (some ["a.md"]) false).run d' = ((.ok { skipped := true }, b₂), d') := by
  obtain ⟨hfirst, hsecond⟩ := Bool.and_eq_true_iff.mp reopenedRun_again
  obtain ⟨o, hrun, hsuccess⟩ := exists_outcome hfirst
  obtain ⟨o₂, hagain, hskipped⟩ := exists_outcome hsecond
  obtain ⟨hdisk, rfl, -⟩ := skipped_of_generate hagain hskipped
  rw [hdisk] at hagain
  exact ⟨o, _, _, hrun, by simpa using hsuccess, _, hagain⟩

/-- What was saved is what a fresh builder loads. -/
theorem withTracker_of_saved (hnone : next.tracker = none)
    (hpath : next.settings.manifest = .ok t.path)
    (hdistinct : t.manifest.Distinct) (hsaved : d.bytes t.path = .ok t.manifest.render.toUTF8)
    (hfits : Json.fits t.manifest.toDatum = true) :
    next.withTracker d = .ok (t, { next with tracker := some t }) := by
  have hload := Manifest.load_of_saved hdistinct hsaved
  rw [if_pos hfits] at hload
  exact withTracker_of_load hnone hpath hload

/-- Files that are all written are put on record. -/
theorem commit_of_finish {proposal : Outcome}
    (h : (b.finish proposal paths).run d = ((.ok o, b'), d'))
    (hwrites : o.writes.all WriteResult.success = true) :
    ∃ d₁, (b.writeFiles proposal.files).run.run d = (.ok o.writes, d₁) ∧
      (b.commit (withWrites proposal o.writes) paths).run d₁ = ((.ok o, b'), d') := by
  rw [run_finish] at h
  rcases hwritten : (b.writeFiles proposal.files).run.run d with ⟨fault | results, d₁⟩
  · rw [hwritten] at h
    cases h
  · rw [hwritten] at h
    dsimp only at h
    split_ifs at h with hall
    · obtain ⟨-, -, -, hsame, -⟩ := outcome_of_commit h
      have hresults : o.writes = results := hsame
      rw [hresults]
      exact ⟨d₁, rfl, h⟩
    · cases h
      exact absurd hwrites hall

/-- A build without sources has an error. -/
theorem ne_nil_of_success (h : (b.generate sources force).run d = ((.ok o, b'), d'))
    (hsuccess : o.success = true) (hresolve : b.resolve d sources = .ok paths) : paths ≠ [] := by
  rintro rfl
  cases ends_of_generate h with
  | idle => simp [Outcome.success, Outcome.report, errorsOf, failure, Finding.error] at hsuccess
  | skipped hsome hne => exact hne (Except.ok.inj (hsome.symm.trans hresolve))
  | proposed hsome hne => exact hne (Except.ok.inj (hsome.symm.trans hresolve))
  | finished hsome hne => exact hne (Except.ok.inj (hsome.symm.trans hresolve))

/-- When every path leads somewhere, a build that has its tracker saves what it puts on record. -/
theorem save_of_commit {o' : Outcome} (h : (b.commit o paths).run d = ((.ok o', b'), d'))
    (htracker : b'.tracker = some t)
    (hsources : ∀ path ∈ paths, ∃ found, d.peek (.ofText path) = .ok found)
    (hmade : ∀ path ∈ o.files.map (·.path), ∃ found, d.peek (.ofText path) = .ok found) :
    ∃ old b₂, b.withTracker d = .ok (old, b₂) ∧ t.path = old.path ∧
      Tracker.recorded d old.manifest paths (o.files.map (·.path)) = (t.manifest, .ok ()) ∧
      d' = (t.save.run.run d).2 ∧ b'.settings = b.settings := by
  rw [run_commit] at h
  cases hload : b.withTracker d with
  | error fault =>
    rw [hload] at h
    obtain ⟨-, rfl⟩ := Prod.mk.inj (Prod.mk.inj h).1
    rw [withTracker_of_some htracker] at hload
    cases hload
  | ok found =>
    obtain ⟨old, b₂⟩ := found
    obtain ⟨m, hrecorded⟩ := Tracker.exists_recorded hsources hmade old.manifest
    rw [hload] at h
    dsimp only at h
    rw [Tracker.run_commit, hrecorded] at h
    obtain ⟨hend, rfl⟩ := Prod.mk.inj h
    obtain ⟨-, rfl⟩ := Prod.mk.inj hend
    cases htracker
    refine ⟨old, b₂, rfl, rfl, hrecorded, rfl, ?_⟩
    rw [(withTracker_eq_ok hload).1]

/-- A build without errors that has its tracker was left out, or it was committed. -/
theorem commits_of_generate (h : (b.generate sources force).run d = ((.ok o, b'), d'))
    (herrors : o.errors = []) (hwrites : o.writes.all WriteResult.success = true)
    (hdry : b.settings.dryRun.truthy = false) (hskipped : o.skipped = false)
    (htracker : b'.tracker = some t) :
    ∃ paths d₁, b.Commits sources force d paths d₁ t ∧ paths ≠ [] ∧ d' = (t.save.run.run d₁).2 ∧
      d.Evolves (fun place content => ∃ f ∈ o.files,
        f.Puts d.home b.settings.backup.truthy place content) d₁ ∧
      b'.settings = b.settings ∧
      ∀ path ∈ paths, ∃ content time, d.peek (.ofText path) = .ok (some (.file content time)) := by
  cases ends_of_generate h with
  | idle => simp [Outcome.report, errorsOf, failure, Finding.error] at herrors
  | skipped => cases hskipped
  | @proposed paths _ _ hresolve hsome hanswer hproposed =>
    obtain ⟨-, -, -, -, -, -, -, -, -, -, -, -, -, hgo⟩ :=
      propose_of_errors_eq_nil hproposed herrors
    rw [settings_of_isSettled hanswer, hdry] at hgo
    cases hgo
  | @finished paths b₁ _ proposal _ _ hresolve hsome hanswer hproposed hfinished =>
    obtain ⟨results, rfl, hfiles, hall, -⟩ := outcome_of_finish hfinished
    rw [herrors] at hall
    obtain ⟨hnone, -⟩ := List.append_eq_nil_iff.mp hall.symm
    obtain ⟨read, -, -, -, hread, hreading, -⟩ := propose_of_errors_eq_nil hproposed hnone
    have hsources := file_of_readPaths hread hreading
    have hevolves := b₁.confined_writeFiles d.home proposal.files d rfl
    rw [settings_of_isSettled hanswer] at hevolves
    obtain ⟨d₁, hwritten, hcommit⟩ := commit_of_finish hfinished hwrites
    rw [hwritten, ← hfiles] at hevolves
    have hpeek : ∀ path ∈ paths, ∃ found, d₁.peek (.ofText path) = .ok found := by
      intro path hpath
      obtain ⟨content, time, hpeek⟩ := hsources path hpath
      obtain ⟨content', time', hpeek'⟩ := hevolves.exists_peek hpeek
      exact ⟨_, hpeek'⟩
    have hmade : ∀ path ∈ proposal.files.map (·.path), ∃ found,
        d₁.peek (.ofText path) = .ok found := by
      intro path hpath
      obtain ⟨f, hf, rfl⟩ := List.mem_map.mp hpath
      obtain ⟨content, time, hpeek⟩ := peek_of_writeFiles hwritten hwrites f hf
      exact ⟨_, hpeek⟩
    obtain ⟨old, b₂, hload, hpath, hrecorded, hdisk, hsettings⟩ :=
      save_of_commit hcommit htracker hpeek hmade
    exact ⟨paths, d₁,
      ⟨b₁, proposal, _, old, b₂, hresolve, hanswer, hproposed, hwritten, hwrites, hload,
      hpath, hrecorded⟩, hsome, hdisk, hevolves, hsettings.trans (settings_of_isSettled hanswer),
      hsources⟩

/-- A file at the manifest's place that is new after a build, and none of its documents or kept
copies, is the manifest that it saved. -/
theorem bytes_of_generate (h : (b.generate sources force).run d = ((.ok o, b'), d'))
    (hsuccess : o.success = true) (hwrites : o.writes.all WriteResult.success = true)
    (hdry : b.settings.dryRun.truthy = false) (hskipped : o.skipped = false)
    (htracker : b'.tracker = some t) {content : ByteArray} {time : Int}
    (hpeek : d'.peek t.path = .ok (some (.file content time)))
    (hnew : d.get? (t.path.aim d.home) ≠ some (.file content time))
    (hclear : ∀ f ∈ o.files, ¬ f.Puts d.home b.settings.backup.truthy (t.path.aim d.home) content) :
    d'.bytes t.path = .ok t.manifest.render.toUTF8 := by
  obtain ⟨-, d₁, -, -, hdisk, hevolves, -⟩ :=
    commits_of_generate h (List.isEmpty_iff.mp hsuccess) hwrites hdry hskipped htracker
  have hsave := t.confined_save d₁.home d₁ rfl
  rw [← hdisk] at hsave
  have hget := (peek_eq_some_iff.mp hpeek).2
  rw [hsave.home_eq, hevolves.home_eq] at hget
  by_cases hrender : content = t.manifest.render.toUTF8
  · exact bytes_eq_ok_iff.mpr ⟨time, hrender ▸ hpeek⟩
  · have hbefore := hsave.file_of_not hget fun hput => hrender hput.2
    refine absurd (hevolves.file_of_not hbefore ?_) hnew
    rintro ⟨f, hf, hputs⟩
    exact hclear f hf hputs

/-- What a committed build put on record describes the disk it ended on exactly when the sources are
the same paths, saving the manifest replaced none of them, and all that was ever made is there. -/
theorem describes_of_commits {d₁ : Disk} {now : List String} {W : Location → ByteArray → Prop}
    (hcommits : b.Commits sources force d paths d₁ t) (hdisk : d' = (t.save.run.run d₁).2)
    (hevolves : d.Evolves W d₁)
    (hsources : ∀ path ∈ paths, ∃ content time,
      d.peek (.ofText path) = .ok (some (.file content time)))
    (hfiles : ∀ path ∈ paths, ∃ content time,
      d'.peek (.ofText path) = .ok (some (.file content time)) ∧ time ≤ d'.clock) :
    t.manifest.Describes d' now ↔ (∀ path, path ∈ now ↔ path ∈ paths) ∧
      (∀ path ∈ paths, (Path.ofText path).aim d'.home = t.path.aim d'.home →
        Tracker.standing d' t.manifest path = .ok .unchanged) ∧
      ∀ path ∈ t.manifest.generated.map Prod.fst, d'.holds (.ofText path) = .ok true := by
  obtain ⟨b₁, proposal, results, old, b₂, -, -, -, -, -, -, -, hrecorded⟩ := hcommits
  have hsave := t.confined_save d₁.home d₁ rfl
  rw [← hdisk] at hsave
  have hfiles₁ : ∀ path ∈ paths, ∃ content time,
      d₁.peek (.ofText path) = .ok (some (.file content time)) := by
    intro path hpath
    obtain ⟨content, time, hpeek⟩ := hsources path hpath
    exact hevolves.exists_peek hpeek
  rw [Manifest.describes_recorded_iff hrecorded hfiles₁ (hsave.clock_eq ▸ hfiles)]
  refine and_congr_right fun _ => and_congr_left fun _ => ?_
  refine ⟨fun hstanding path hpath _ => hstanding path hpath, fun hstanding path hpath => ?_⟩
  by_cases hplace : (Path.ofText path).aim d'.home = t.path.aim d'.home
  · exact hstanding path hpath hplace
  · -- away from the manifest, saving it leaves the file as it was put on record
    obtain ⟨content, time, hpeek, -⟩ := hfiles path hpath
    obtain ⟨content₁, time₁, hpeek₁⟩ := hfiles₁ path hpath
    refine Manifest.standing_of_recorded hrecorded hpath ?_ hpeek
    rw [peek_eq_some_iff] at hpeek hpeek₁ ⊢
    rw [hsave.home_eq] at hpeek hplace
    exact ⟨hpeek₁.1, hsave.file_of_not hpeek.2 fun hput => hplace hput.1⟩

theorem distinct_of_commits {d₁ : Disk} (hcommits : b.Commits sources force d paths d₁ t)
    (hnone : b.tracker = none) : t.manifest.Distinct ∧ b.settings.manifest = .ok t.path := by
  obtain ⟨b₁, proposal, results, old, b₂, -, hanswer, -, -, -, hload, hpath, hrecorded⟩ := hcommits
  obtain ⟨-, hmemory | ⟨-, hmanifest, hloaded⟩⟩ := withTracker_eq_ok hload
  · obtain rfl | ⟨t', hopened⟩ := isSettled_builder hanswer
    · rw [hnone] at hmemory
      cases hmemory
    · obtain ⟨rfl, hmemory' | ⟨-, hmanifest, hloaded⟩⟩ := withTracker_eq_ok hopened
      · rw [hnone] at hmemory'
        cases hmemory'
      · cases hmemory
        rw [hpath]
        exact ⟨Tracker.distinct_of_recorded hrecorded (Manifest.distinct_of_load hloaded),
          hmanifest⟩
  · rw [settings_of_isSettled hanswer, ← hpath] at hmanifest
    exact ⟨Tracker.distinct_of_recorded hrecorded (Manifest.distinct_of_load hloaded), hmanifest⟩

/-- A build with a tracker is left out exactly when there are sources and its manifest describes the
disk. -/
theorem skip_iff_describes {b₁ : Builder} (hload : next.withTracker d = .ok (t, b₁))
    (hincremental : next.settings.incremental.truthy = true)
    (hdry : next.settings.dryRun.truthy = false) :
    (∃ b₂, (next.generate sources false).run d = ((.ok { skipped := true }, b₂), d)) ↔
      ∃ paths, next.resolve d sources = .ok paths ∧ paths ≠ [] ∧ t.manifest.Describes d paths := by
  constructor
  · rintro ⟨b₂, hskip⟩
    obtain ⟨-, -, paths, hresolve, hsome, hsettled⟩ := skipped_of_generate hskip rfl
    obtain ⟨-, t', hload', hdescribes⟩ := isSettled_eq_true_iff.mp hsettled
    rw [hload] at hload'
    cases hload'
    exact ⟨paths, hresolve, hsome, hdescribes⟩
  · rintro ⟨paths, hresolve, hsome, hdescribes⟩
    exact ⟨b₁, generate_of_isSettled hresolve hsome
      (isSettled_eq_true_iff.mpr ⟨⟨rfl, hdry, hincremental⟩, t, hload, hdescribes⟩)⟩

/-- After a build without errors, its manifest describes the disk exactly when the sources are the
same paths, saving the manifest replaced none of them, and all that was ever made is there. -/
theorem describes_of_generate (now : List String)
    (h : (b.generate sources force).run d = ((.ok o, b'), d')) (hsuccess : o.success = true)
    (hwrites : o.writes.all WriteResult.success = true) (hdry : b.settings.dryRun.truthy = false)
    (hresolve : b.resolve d sources = .ok paths)
    (hfiles : ∀ path ∈ paths, ∃ content time,
      d'.peek (.ofText path) = .ok (some (.file content time)) ∧ time ≤ d'.clock)
    (htracker : b'.tracker = some t) :
    t.manifest.Describes d' now ↔ (∀ path, path ∈ now ↔ path ∈ paths) ∧
      (∀ path ∈ paths, (Path.ofText path).aim d'.home = t.path.aim d'.home →
        Tracker.standing d' t.manifest path = .ok .unchanged) ∧
      ∀ path ∈ t.manifest.generated.map Prod.fst, d'.holds (.ofText path) = .ok true := by
  cases hskipped : o.skipped with
  | true =>
    -- a build that was left out is one already, and its manifest describes the disk
    obtain ⟨rfl, -, committed, hcommitted, -, hsettled⟩ := skipped_of_generate h hskipped
    obtain rfl := Except.ok.inj (hcommitted.symm.trans hresolve)
    obtain ⟨-, t₀, hload, hdescribes⟩ := isSettled_eq_true_iff.mp hsettled
    obtain ⟨hb', -⟩ := withTracker_eq_ok hload
    obtain rfl : t₀ = t := by simpa [hb'] using htracker
    rw [hdescribes.describes_iff]
    refine ⟨fun hsame => ⟨hsame, fun path hpath _ => ?_, hdescribes.there⟩, And.left⟩
    obtain ⟨content, time, r, hpeek, hr, hdigest, htime, -⟩ := hdescribes.source path hpath
    exact Tracker.standing_eq_unchanged_iff.mpr ⟨content, time, r, hpeek, hr, hdigest, htime⟩
  | false =>
    obtain ⟨committed, d₁, hcommits, -, hdisk, hevolves, -, hsources⟩ :=
      commits_of_generate h (List.isEmpty_iff.mp hsuccess) hwrites hdry hskipped htracker
    obtain rfl := Except.ok.inj (hcommits.resolve_eq.symm.trans hresolve)
    exact describes_of_commits hcommits hdisk hevolves hsources hfiles

/-- The builder of the next call has the same manifest: in memory, or loaded from where it was
saved. -/
theorem withTracker_of_generate (h : (b.generate sources force).run d = ((.ok o, b'), d'))
    (hsuccess : o.success = true) (hwrites : o.writes.all WriteResult.success = true)
    (hdry : b.settings.dryRun.truthy = false) (htracker : b'.tracker = some t)
    (hsaved : d'.bytes t.path = .ok t.manifest.render.toUTF8)
    (hnext : next = b' ∨ b.tracker = none ∧ Json.fits t.manifest.toDatum = true ∧ next = b) :
    (∃ b₂, next.withTracker d' = .ok (t, b₂)) ∧ next.settings = b.settings := by
  have hsettings : b'.settings = b.settings := by
    cases hskipped : o.skipped with
    | true =>
      obtain ⟨-, -, now, -, -, hsettled⟩ := skipped_of_generate h hskipped
      exact settings_of_isSettled hsettled
    | false =>
      obtain ⟨-, -, -, -, -, -, hsettings, -⟩ :=
        commits_of_generate h (List.isEmpty_iff.mp hsuccess) hwrites hdry hskipped htracker
      exact hsettings
  obtain rfl | ⟨hnone, hfits, rfl⟩ := hnext
  · exact ⟨⟨next, withTracker_of_some htracker⟩, hsettings⟩
  refine ⟨?_, rfl⟩
  cases hskipped : o.skipped with
  | true =>
    obtain ⟨rfl, -, now, -, -, hsettled⟩ := skipped_of_generate h hskipped
    obtain ⟨-, t₀, hload, -⟩ := isSettled_eq_true_iff.mp hsettled
    obtain ⟨hb', -⟩ := withTracker_eq_ok hload
    obtain rfl : t₀ = t := by simpa [hb'] using htracker
    exact ⟨b', hload⟩
  | false =>
    obtain ⟨now, d₁, hcommits, -⟩ :=
      commits_of_generate h (List.isEmpty_iff.mp hsuccess) hwrites hdry hskipped htracker
    obtain ⟨hdistinct, hpath⟩ := distinct_of_commits hcommits hnone
    exact ⟨_, withTracker_of_saved hnone hpath hdistinct hsaved hfits⟩

/-- After a build without errors that could save its manifest, the next one is left out exactly when
the sources still are the same paths, saving the manifest replaced none of them, and all that the
manifest names as made is there. -/
theorem skip_next_iff (hfirst : (b.generate sources force).run d = ((.ok o, b'), d'))
    (hsuccess : o.success = true) (hwrites : o.writes.all WriteResult.success = true)
    (hincremental : b.settings.incremental.truthy = true) (hdry : b.settings.dryRun.truthy = false)
    (hresolve : b.resolve d sources = .ok paths)
    (hfiles : ∀ path ∈ paths, ∃ content time,
      d'.peek (.ofText path) = .ok (some (.file content time)) ∧ time ≤ d'.clock)
    (htracker : b'.tracker = some t) (hsaved : d'.bytes t.path = .ok t.manifest.render.toUTF8)
    (hnext : next = b' ∨ b.tracker = none ∧ Json.fits t.manifest.toDatum = true ∧ next = b) :
    (∃ b₂, (next.generate sources false).run d' = ((.ok { skipped := true }, b₂), d')) ↔
      (∃ now, b.resolve d' sources = .ok now ∧ ∀ path, path ∈ now ↔ path ∈ paths) ∧
      (∀ path ∈ paths, (Path.ofText path).aim d'.home = t.path.aim d'.home →
        Tracker.standing d' t.manifest path = .ok .unchanged) ∧
      ∀ path ∈ t.manifest.generated.map Prod.fst, d'.holds (.ofText path) = .ok true := by
  obtain ⟨⟨b₂, hload⟩, hsettings⟩ :=
    withTracker_of_generate hfirst hsuccess hwrites hdry htracker hsaved hnext
  have hdescribes (now : List String) := describes_of_generate now hfirst hsuccess hwrites hdry
    hresolve hfiles htracker
  rw [skip_iff_describes hload (hsettings ▸ hincremental) (hsettings ▸ hdry),
    resolve_of_settings hsettings]
  constructor
  · rintro ⟨now, hnow, -, hnow'⟩
    obtain ⟨hsame, hrest⟩ := (hdescribes now).mp hnow'
    exact ⟨⟨now, hnow, hsame⟩, hrest⟩
  · rintro ⟨⟨now, hnow, hsame⟩, hrest⟩
    refine ⟨now, hnow, ?_, (hdescribes now).mpr ⟨hsame, hrest⟩⟩
    rintro rfl
    obtain ⟨path, hpath⟩ := List.exists_mem_of_ne_nil _
      (ne_nil_of_success hfirst hsuccess hresolve)
    simpa using (hsame path).mpr hpath

/-- Where the samples keep their manifest. -/
def sampleManifest : String := "generated/.generation-manifest.json"

/-- When the file at a path was written, if there is one. -/
def timeOf? (d : Disk) (path : String) : Option Int := (d.fingerprint? path).map (·.modified)

theorem exists_peek_of_timeOf? {path : String} {time : Int} (h : timeOf? d path = some time) :
    ∃ content, d.peek (.ofText path) = .ok (some (.file content time)) := by
  obtain ⟨r, hr, rfl⟩ := Option.map_eq_some_iff.mp h
  obtain ⟨content, time, hpeek, rfl⟩ := Disk.fingerprint?_eq_some_iff.mp hr
  exact ⟨content, hpeek⟩

/-- A sample that makes one file, away from the manifest, leaves at the manifest's place what it
saved, when there was nothing there or something older. -/
theorem bytes_of_sample {name : String} {time : Int}
    (h : (b.generate sources force).run d = ((.ok o, b'), d')) (hsuccess : o.success = true)
    (hwrites : o.writes.all WriteResult.success = true) (hdry : b.settings.dryRun.truthy = false)
    (hskipped : o.skipped = false) (hfiles : o.files.map (·.path) = [name])
    (htracker : b'.tracker = some t) (hpath : t.path = .ofText sampleManifest)
    (hhome : d.home = ["work"])
    (hsaved : timeOf? d' sampleManifest = some time)
    (hold : ∀ content, d.get? ((Path.ofText sampleManifest).aim ["work"]) ≠
      some (.file content time))
    (hname : (Path.ofText sampleManifest).aim ["work"] ∉ (Path.ofText name).aim ["work"] ::
      Path.copyAims ["work"] (.ofText name) (backupPath (.ofText name))) :
    d'.bytes t.path = .ok t.manifest.render.toUTF8 := by
  obtain ⟨saved, hsaved⟩ := exists_peek_of_timeOf? hsaved
  rw [← hpath] at hsaved
  refine bytes_of_generate h hsuccess hwrites hdry hskipped htracker hsaved ?_ ?_
  · rw [hpath, hhome]
    exact hold saved
  · rw [hpath, hhome]
    rintro f hf hputs
    obtain rfl : f.path = name := by
      have hmem := List.mem_map_of_mem (f := (·.path)) hf
      rw [hfiles] at hmem
      simpa using hmem
    rcases hputs with ⟨hplace, -⟩ | ⟨-, hcopy⟩
    · exact hname (hplace ▸ List.mem_cons_self)
    · exact hname (List.mem_cons_of_mem _ hcopy)

theorem firstRun_facts : (firstRun.1.1.toOption.any (fun o => o.success &&
      o.writes.all WriteResult.success && !o.skipped &&
      o.files.map (·.path) == ["generated/user-services/a_machine.py"]) &&
    firstRun.1.2.tracker.any (fun t => t.path == .ofText sampleManifest &&
      (Tracker.allThere firstRun.2 (t.manifest.generated.map Prod.fst)).toOption == some true) &&
    timeOf? firstRun.2 "a.md" == some 500 && timeOf? firstRun.2 sampleManifest == some 1000 &&
    firstRun.2.clock == 1000 && firstRun.2.home == ["work"] &&
    (modulesOnly.resolve firstRun.2 (some ["a.md"])).toOption == some ["a.md"]) = true := by
  decide +kernel

theorem skip_next_firstRun : ∃ o b' d', (modulesOnly.generate (some ["a.md"]) false).run
      (.withSource "a.md" "graph TD\nA-->B") = ((.ok o, b'), d') ∧ o.success = true ∧
    ∃ b₂, (b'.generate (some ["a.md"]) false).run d' = ((.ok { skipped := true }, b₂), d') := by
  have hfacts := firstRun_facts
  simp only [Bool.and_assoc, Bool.and_eq_true, beq_iff_eq] at hfacts
  obtain ⟨hrun, htracker, hsource, hmanifest, hclock, hhome, hresolve⟩ := hfacts
  obtain ⟨o, hrun, ho⟩ := exists_outcome hrun
  simp only [Bool.and_eq_true, Bool.not_eq_true', beq_iff_eq] at ho
  obtain ⟨hsuccess, hwrites, hskipped, hfiles⟩ := ho
  obtain ⟨t, htracker, ht⟩ := (Option.any_eq_true _ _).mp htracker
  simp only [Bool.and_eq_true, beq_iff_eq] at ht
  obtain ⟨hpath, hthere⟩ := ht
  obtain ⟨content, hpeek⟩ := exists_peek_of_timeOf? hsource
  have hnone : (Disk.withSource "a.md" "graph TD\nA-->B").get?
      ((Path.ofText sampleManifest).aim ["work"]) = none := by
    rw [← Option.isNone_iff_eq_none]
    decide
  have hbytes : firstRun.2.bytes t.path = .ok t.manifest.render.toUTF8 :=
    bytes_of_sample hrun hsuccess hwrites rfl hskipped hfiles htracker hpath rfl hmanifest
      (by simp [hnone]) (by decide)
  have hsources : modulesOnly.resolve (.withSource "a.md" "graph TD\nA-->B") (some ["a.md"]) =
      .ok ["a.md"] := by decide
  refine ⟨o, _, _, hrun, hsuccess, (skip_next_iff hrun hsuccess hwrites rfl rfl hsources ?_ htracker
    hbytes (.inl rfl)).mpr ⟨⟨["a.md"], eq_ok_of_toOption hresolve, fun _ => Iff.rfl⟩, ?_,
      Tracker.allThere_eq_true_iff.mp (eq_ok_of_toOption hthere)⟩⟩
  · rw [List.forall_mem_singleton, hclock]
    exact ⟨content, 500, hpeek, by decide⟩
  · rw [List.forall_mem_singleton, hpath, hhome]
    exact fun hplace => absurd hplace (by decide)

/-- The disk some time later: what the first build made is removed, and there is another source. -/
def movedOn : Disk :=
  { (firstRun.2.erase ["work", "generated", "user-services", "a_machine.py"]).set ["work", "b.md"]
      (.file "graph TD\nA-->B".toUTF8 1500) with clock := 2000 }

/-- A build of the other source by the same builder. -/
def secondRun : (Except Fault Outcome × Builder) × Disk :=
  (firstRun.1.2.generate (some ["b.md"]) false).run movedOn

theorem secondRun_facts : (secondRun.1.1.toOption.any (fun o => o.success &&
      o.writes.all WriteResult.success && !o.skipped &&
      o.files.map (·.path) == ["generated/user-services/b_machine.py"]) &&
    secondRun.1.2.tracker.any (fun t => t.path == .ofText sampleManifest &&
      (t.manifest.generated.map Prod.fst).contains "generated/user-services/a_machine.py") &&
    timeOf? secondRun.2 "b.md" == some 1500 && timeOf? secondRun.2 sampleManifest == some 2000 &&
    timeOf? movedOn sampleManifest == some 1000 && secondRun.2.clock == 2000 &&
    movedOn.home == ["work"] && !firstRun.1.2.settings.dryRun.truthy &&
    firstRun.1.2.settings.incremental.truthy &&
    (firstRun.1.2.resolve movedOn (some ["b.md"])).toOption == some ["b.md"] &&
    (secondRun.2.holds (.ofText "generated/user-services/a_machine.py")).toOption ==
      some false) = true := by
  decide +kernel

/-- The second build is fine in every way, and the next one is not left out: the manifest still
names what the first build made. -/
theorem exists_rebuild_after_success : ∃ o b' d' t content,
    (firstRun.1.2.generate (some ["b.md"]) false).run movedOn = ((.ok o, b'), d') ∧
    firstRun.1.2.settings.incremental.truthy = true ∧ firstRun.1.2.settings.dryRun.truthy = false ∧
    firstRun.1.2.resolve movedOn (some ["b.md"]) = .ok ["b.md"] ∧ o.success = true ∧
    o.writes.all WriteResult.success = true ∧
    d'.peek (.ofText "b.md") = .ok (some (.file content 1500)) ∧ 1500 ≤ d'.clock ∧
    b'.tracker = some t ∧ d'.bytes t.path = .ok t.manifest.render.toUTF8 ∧
    ¬ ∃ b₂, (b'.generate (some ["b.md"]) false).run d' = ((.ok { skipped := true }, b₂), d') := by
  have hfacts := secondRun_facts
  simp only [Bool.and_assoc, Bool.and_eq_true, Bool.not_eq_true', beq_iff_eq] at hfacts
  obtain ⟨hrun, htracker, hsource, hmanifest, hbefore, hclock, hhome, hdry, hincremental, hresolve,
    hgone⟩ := hfacts
  obtain ⟨o, hrun, ho⟩ := exists_outcome hrun
  simp only [Bool.and_eq_true, Bool.not_eq_true', beq_iff_eq] at ho
  obtain ⟨hsuccess, hwrites, hskipped, hfiles⟩ := ho
  obtain ⟨t, htracker, ht⟩ := (Option.any_eq_true _ _).mp htracker
  simp only [Bool.and_eq_true, beq_iff_eq, List.contains_iff_mem] at ht
  obtain ⟨hpath, hold⟩ := ht
  obtain ⟨content, hpeek⟩ := exists_peek_of_timeOf? hsource
  obtain ⟨old, hold'⟩ := exists_peek_of_timeOf? hbefore
  have hget := (peek_eq_some_iff.mp hold').2
  rw [hhome] at hget
  have hbytes : secondRun.2.bytes t.path = .ok t.manifest.render.toUTF8 :=
    bytes_of_sample hrun hsuccess hwrites hdry hskipped hfiles htracker hpath hhome hmanifest
      (by simp [hget]) (by decide)
  refine ⟨o, _, _, t, content, hrun, hincremental, hdry, eq_ok_of_toOption hresolve,
    hsuccess, hwrites, hpeek, by rw [hclock]; decide, htracker, hbytes, ?_⟩
  rintro ⟨b₂, hskip⟩
  obtain ⟨-, -, paths, -, -, hsettled⟩ := skipped_of_generate hskip rfl
  obtain ⟨-, t', hload, hdescribes⟩ := isSettled_eq_true_iff.mp hsettled
  rw [withTracker_of_some htracker] at hload
  cases hload
  have hthere := hdescribes.there _ hold
  rw [eq_ok_of_toOption hgone] at hthere
  cases hthere

end Builder

end FlowMachine

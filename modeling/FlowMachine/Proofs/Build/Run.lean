import FlowMachine.Build
import FlowMachine.Proofs.Build.Proposal
import FlowMachine.Proofs.Disk.Acts
import FlowMachine.Proofs.Manifest

/-!
# How a build runs

Every build ends in one of a few ways, and each says what it leaves behind: a fault before the disk
is touched, nothing to do, a proposal that stays off the disk, or files that are written and put on
record. A build is left out exactly when its manifest describes the disk.
-/
namespace FlowMachine

open FlowMachine.Disk

namespace Builder

variable {b b' : Builder} {d : Disk} {paths : List String} {t : Tracker} {force : Bool}

/-! ## Leaving a build out -/

/-- A build is left out exactly when the manifest describes the disk. -/
theorem unchanged_eq_true_iff : unchanged d m paths = .ok true ↔ m.Describes d paths := by
  have hopen : unchanged d m paths = .ok true ↔
      Tracker.upToDate d m paths = .ok true ∧
        ∃ c, Tracker.changes d m paths = .ok c ∧ c.any = false := by
    have hfound : (do
        if ← Tracker.upToDate d m paths then return !(← Tracker.changes d m paths).any
        else return false : Except Fault Bool) = .ok true ↔
          Tracker.upToDate d m paths = .ok true ∧
            ∃ c, Tracker.changes d m paths = .ok c ∧ c.any = false := by
      rw [bind_eq_ok]
      constructor
      · rintro ⟨current, hcurrent, h⟩
        split_ifs at h with htrue
        · obtain ⟨c, hc, h⟩ := bind_eq_ok.mp h
          exact ⟨htrue ▸ hcurrent, c, hc, by simpa using pure_eq_ok.mp h⟩
        · cases h
      · rintro ⟨hcurrent, c, hc, hnone⟩
        exact ⟨true, hcurrent, bind_eq_ok.mpr ⟨c, hc, by simp [hnone, pure_eq_ok]⟩⟩
    rw [← hfound]
    unfold unchanged
    dsimp only
    split
    · rename_i hfault
      rw [hfault]
      simp
    · exact Iff.rfl
  rw [hopen, Tracker.upToDate_eq_true_iff, Tracker.noLater_eq_true_iff,
    Tracker.allThere_eq_true_iff, Tracker.changes_iff]
  simp only [Tracker.standing_eq_unchanged_iff]
  constructor
  · rintro ⟨⟨htime, hthere⟩, hsame, hknown⟩
    refine ⟨fun path hpath => ?_, hknown, hthere⟩
    obtain ⟨content, time, r, hpeek, hr, hdigest, hle⟩ := hsame path hpath
    obtain ⟨content', time', hpeek', hle'⟩ := htime path hpath
    rw [hpeek] at hpeek'
    cases hpeek'
    exact ⟨content, time, r, hpeek, hr, hdigest, hle, hle'⟩
  · intro h
    refine ⟨⟨fun path hpath => ?_, h.there⟩, fun path hpath => ?_, h.known⟩
    · obtain ⟨content, time, r, hpeek, -, -, -, hle⟩ := h.source path hpath
      exact ⟨content, time, hpeek, hle⟩
    · obtain ⟨content, time, r, hpeek, hr, hdigest, hle, -⟩ := h.source path hpath
      exact ⟨content, time, r, hpeek, hr, hdigest, hle⟩

/-- The tracker is the one in memory, or it is loaded from where the settings keep it. -/
theorem withTracker_eq_ok (h : b.withTracker d = .ok (t, b')) :
    b' = { b with tracker := some t } ∧ (b.tracker = some t ∨
      (b.tracker = none ∧ b.settings.manifest = .ok t.path ∧
        Manifest.load d t.path = .ok t.manifest)) := by
  unfold withTracker at h
  split at h
  · rename_i htracker
    cases h
    exact ⟨by rw [← htracker], .inl htracker⟩
  · rename_i htracker
    simp only [bind_eq_ok, pure_eq_ok, Tracker.load] at h
    obtain ⟨p, hp, t', ⟨m, hm, rfl⟩, h⟩ := h
    cases h
    exact ⟨rfl, .inr ⟨htracker, hp, hm⟩⟩

/-- A builder that has its tracker uses it. -/
theorem withTracker_of_some (h : b.tracker = some t) : b.withTracker d = .ok (t, b) := by
  unfold withTracker
  rw [h]

theorem withTracker_of_load {p : Path} {m : Manifest} (h : b.tracker = none)
    (hp : b.settings.manifest = .ok p) (hm : Manifest.load d p = .ok m) :
    b.withTracker d = .ok (⟨p, m⟩, { b with tracker := some ⟨p, m⟩ }) := by
  have hload : Tracker.load d p = .ok ⟨p, m⟩ := by
    rw [Tracker.load, hm]
    rfl
  unfold withTracker
  rw [h, hp]
  show (Tracker.load d p >>= fun t => pure (t, { b with tracker := some t })) = _
  rw [hload]
  rfl

theorem allFiles_of_forall (h : ∀ path ∈ paths, ∃ content time,
    d.peek (.ofText path) = .ok (some (.file content time))) : allFiles d paths = .ok true := by
  induction paths with
  | nil => rfl
  | cons path paths ih =>
    obtain ⟨⟨content, time, hpeek⟩, hrest⟩ := List.forall_mem_cons.mp h
    rw [allFiles, Disk.isFile, hpeek]
    exact ih hrest

/-- Asking whether a build can be left out at most opens the tracker. -/
theorem isSettled_builder {answer : Except Fault Bool}
    (h : b.isSettled d paths force = (answer, b')) :
    b' = b ∨ ∃ t, b.withTracker d = .ok (t, b') := by
  unfold isSettled at h
  split_ifs at h
  · cases h
    exact .inl rfl
  · split at h
    · cases h
      exact .inl rfl
    · cases h
      exact .inl rfl
    · split at h
      · cases h
        exact .inl rfl
      · cases h
        exact .inl rfl
      · rename_i t b₁ htracker
        cases h
        exact .inr ⟨t, htracker⟩

theorem settings_of_isSettled {answer : Except Fault Bool}
    (h : b.isSettled d paths force = (answer, b')) : b'.settings = b.settings := by
  obtain rfl | ⟨t, htracker⟩ := isSettled_builder h
  · rfl
  · rw [(withTracker_eq_ok htracker).1]

/-- What a build proposes does not depend on its tracker. -/
theorem propose_of_isSettled {answer : Except Fault Bool} {now : List String}
    (h : b.isSettled d paths force = (answer, b')) : b'.propose d now = b.propose d now := by
  obtain rfl | ⟨t, htracker⟩ := isSettled_builder h
  · rfl
  · rw [(withTracker_eq_ok htracker).1]
    rfl

theorem isSettled_eq_true_iff : b.isSettled d paths force = (.ok true, b') ↔
    (force = false ∧ b.settings.dryRun.truthy = false ∧ b.settings.incremental.truthy = true) ∧
      ∃ t, b.withTracker d = .ok (t, b') ∧ t.manifest.Describes d paths := by
  unfold isSettled
  constructor
  · intro h
    split_ifs at h with hoff
    · cases h
    · simp only [Bool.or_eq_true, Bool.not_eq_true', not_or, Bool.not_eq_true, Bool.not_eq_false]
        at hoff
      split at h
      · cases h
      · cases h
      · split at h
        · cases h
        · cases h
        · rename_i t b₁ htracker
          obtain ⟨hunchanged, rfl⟩ := Prod.mk.inj h
          exact ⟨⟨hoff.1.1, hoff.1.2, hoff.2⟩, t, htracker, unchanged_eq_true_iff.mp hunchanged⟩
  · rintro ⟨⟨hforce, hdry, hincremental⟩, t, htracker, hdescribes⟩
    have hfiles : allFiles d paths = .ok true := allFiles_of_forall fun path hpath => by
      obtain ⟨content, time, -, hpeek, -⟩ := hdescribes.source path hpath
      exact ⟨content, time, hpeek⟩
    rw [if_neg (by simp [hforce, hdry, hincremental]), hfiles, htracker]
    simp only [unchanged_eq_true_iff.mpr hdescribes]

end Builder

/-! ## Writing and recording -/

namespace Tracker

/-- Only what is recorded without a fault is saved. -/
theorem run_commit (t : Tracker) (sources generated : List String) (d : Disk) :
    (t.commit sources generated).run d =
      match recorded d t.manifest sources generated with
      | (m, .error fault) => (({ t with manifest := m }, .error fault), d)
      | (m, .ok ()) =>
        let saved := ({ t with manifest := m } : Tracker).save.run.run d
        (({ t with manifest := m }, saved.1), saved.2) := by
  simp only [commit, StateT.run_bind, StateT.run_get, pure_bind]
  rcases recorded d t.manifest sources generated with ⟨m, fault | _⟩ <;> rfl

end Tracker

namespace Builder

/-- A build whose record the disk refuses only gets a warning. -/
def settled (o : Outcome) : Except Fault Unit → Except Fault Outcome
  | .ok () => .ok o
  | .error (.file e shown) => .ok (o.report
      [.warning s!"Manifest not updated: {(Fault.file e shown).message}" "manifest" none none])
  | .error fault => .error fault

theorem run_commit (b : Builder) (o : Outcome) (paths : List String) (d : Disk) :
    (b.commit o paths).run d =
      match b.withTracker d with
      | .error fault => ((settled o (.error fault), b), d)
      | .ok (t, b₁) =>
        let done := (t.commit paths (o.files.map OutputFile.path)).run d
        ((settled o done.1.2, { b₁ with tracker := some done.1.1 }), done.2) := by
  have hsettle (b : Builder) (r : Except Fault Unit) : (match r with
      | .ok () => (.ok o, b)
      | .error (.file e shown) => (.ok (o.report [.warning
          s!"Manifest not updated: {(Fault.file e shown).message}" "manifest" none none]), b)
      | .error fault => (.error fault, b) : Except Fault Outcome × Builder) = (settled o r, b) := by
    unfold settled
    split <;> rfl
  cases h : b.withTracker d with
  | error fault =>
    refine Eq.trans ?_ (congrArg (·, d) (hsettle b (.error fault)))
    simp only [commit, StateT.run_bind, StateT.run_get, pure_bind, h]
    rfl
  | ok found =>
    obtain ⟨t, b₁⟩ := found
    refine Eq.trans ?_ (congrArg (·, _) (hsettle _ _))
    simp only [commit, StateT.run_bind, StateT.run_get, pure_bind, h]
    rfl

theorem confined_writeFiles (home : Location) (b : Builder) (files : List OutputFile) :
    Act.Confined home (fun place content => ∃ f ∈ files,
      f.Puts home b.settings.backup.truthy place content)
      (b.writeFiles files) := by
  induction files with
  | nil => exact .pure _
  | cons f files ih =>
    unfold writeFiles
    refine .bind ((f.confined_write home _ _).mono ?_) fun r => .bind (ih.mono ?_) fun _ => .pure _
    · exact fun place content h => ⟨f, List.mem_cons_self, h⟩
    · rintro place content ⟨g, hg, h⟩
      exact ⟨g, List.mem_cons_of_mem _ hg, h⟩

/-- The first file is written, and then the others. -/
theorem writeFiles_cons_eq_ok {b : Builder} {d d' : Disk} {f : OutputFile} {files : List OutputFile}
    {results : List WriteResult} (h : (b.writeFiles (f :: files)).run.run d = (.ok results, d')) :
    ∃ r rest d₁, (f.write b.settings.overwrite.truthy b.settings.backup.truthy).run.run d =
      (.ok r, d₁) ∧
      (b.writeFiles files).run.run d₁ = (.ok rest, d') ∧ results = r :: rest := by
  unfold writeFiles at h
  rw [Act.run_bind] at h
  split at h
  swap
  · cases h
  rename_i r d₁ hfirst
  rw [Act.run_bind] at h
  split at h
  swap
  · cases h
  rename_i rest d₂ hrest
  cases h
  exact ⟨r, rest, d₁, hfirst, hrest, rfl⟩

/-- Files that nothing stood in the way of are all there in the end. -/
theorem peek_of_writeFiles {b : Builder} {d d' : Disk} {files : List OutputFile}
    {results : List WriteResult} (h : (b.writeFiles files).run.run d = (.ok results, d'))
    (hresults : results.all WriteResult.success = true) :
    ∀ f ∈ files, ∃ content time, d'.peek (.ofText f.path) = .ok (some (.file content time)) := by
  induction files generalizing d results with
  | nil => simp
  | cons f files ih =>
    obtain ⟨r, rest, d₁, hfirst, hrest, rfl⟩ := writeFiles_cons_eq_ok h
    obtain ⟨hr, hall⟩ := Bool.and_eq_true_iff.mp hresults
    refine List.forall_mem_cons.mpr ⟨?_, ih hrest hall⟩
    obtain ⟨content, time, hpeek⟩ := OutputFile.peek_of_write hfirst hr
    have hevolves := b.confined_writeFiles d₁.home files d₁ rfl
    rw [hrest] at hevolves
    exact hevolves.exists_peek hpeek

/-- The outcome of a build after its files were written. -/
def withWrites (o : Outcome) (results : List WriteResult) : Outcome :=
  { o.report (writeFailures o.files results) with writes := results }

@[simp]
theorem withWrites_files (o : Outcome) (results : List WriteResult) :
    (withWrites o results).files = o.files := rfl

theorem run_finish (b : Builder) (o : Outcome) (paths : List String) (d : Disk) :
    (b.finish o paths).run d =
      match (b.writeFiles o.files).run.run d with
      | (.error fault, d₁) => ((.error fault, b), d₁)
      | (.ok results, d₁) =>
        if results.all WriteResult.success then (b.commit (withWrites o results) paths).run d₁
        else ((.ok (withWrites o results), b), d₁) := by
  rcases h : (b.writeFiles o.files).run.run d with ⟨fault | results, d₁⟩
  · simp only [finish, StateT.run_bind, h]
    rfl
  · simp only [finish, StateT.run_bind, h]
    show StateT.run (if results.all WriteResult.success then b.commit (withWrites o results) paths
      else return (.ok (withWrites o results), b)) d₁ = _
    split_ifs <;> rfl

/-- How a build can end, and on which disk. -/
inductive Ends (b : Builder) (sources : Option (List String)) (force : Bool) (d : Disk) :
    Except Fault Outcome → Builder → Disk → Prop where
  | faulty (fault : Fault) (b' : Builder) : Ends b sources force d (.error fault) b' d
  | idle (h : b.resolve d sources = .ok []) :
    Ends b sources force d
      (.ok (Outcome.report {} [failure "No diagram sources given" "sources"])) b d
  | skipped {paths : List String} {b' : Builder} (hresolve : b.resolve d sources = .ok paths)
    (hsome : paths ≠ []) (hsettled : b.isSettled d paths force = (.ok true, b')) :
    Ends b sources force d (.ok { skipped := true }) b' d
  | proposed {paths : List String} {b' : Builder} {o : Outcome}
    (hresolve : b.resolve d sources = .ok paths) (hsome : paths ≠ [])
    (hsettled : b.isSettled d paths force = (.ok false, b'))
    (hproposed : b'.propose d paths = .ok (o, false)) : Ends b sources force d (.ok o) b' d
  | finished {paths : List String} {b₁ b' : Builder} {o : Outcome} {result : Except Fault Outcome}
    {d' : Disk} (hresolve : b.resolve d sources = .ok paths) (hsome : paths ≠ [])
    (hsettled : b.isSettled d paths force = (.ok false, b₁))
    (hproposed : b₁.propose d paths = .ok (o, true))
    (hfinished : (b₁.finish o paths).run d = ((result, b'), d')) :
    Ends b sources force d result b' d'

theorem run_generate (b : Builder) (sources : Option (List String)) (force : Bool) (d : Disk) :
    (b.generate sources force).run d =
      match b.resolve d sources with
      | .error fault => ((.error fault, b), d)
      | .ok [] => ((.ok (Outcome.report {} [failure "No diagram sources given" "sources"]), b), d)
      | .ok paths =>
        match b.isSettled d paths force with
        | (.error fault, b) => ((.error fault, b), d)
        | (.ok true, b) => ((.ok { skipped := true }, b), d)
        | (.ok false, b) =>
          match b.propose d paths with
          | .error fault => ((.error fault, b), d)
          | .ok (o, false) => ((.ok o, b), d)
          | .ok (o, true) => (b.finish o paths).run d := by
  simp only [generate, StateT.run_bind, StateT.run_get, pure_bind]
  rcases b.resolve d sources with fault | (_ | ⟨path, paths⟩)
  · rfl
  · rfl
  · dsimp only
    rcases b.isSettled d (path :: paths) force with ⟨fault | (_ | _), b₁⟩
    · rfl
    · dsimp only
      rcases b₁.propose d (path :: paths) with fault | ⟨o, _ | _⟩ <;> rfl
    · rfl

theorem ends_of_generate {b b' : Builder} {sources : Option (List String)} {force : Bool}
    {d d' : Disk}
    {result : Except Fault Outcome} (h : (b.generate sources force).run d = ((result, b'), d')) :
    Ends b sources force d result b' d' := by
  rw [run_generate] at h
  split at h
  · cases h
    exact .faulty _ _
  · rename_i hresolve
    cases h
    exact .idle hresolve
  · rename_i paths hsome hresolve
    have hne : paths ≠ [] := fun hnil => hsome (hnil ▸ rfl)
    split at h
    · cases h
      exact .faulty _ _
    · rename_i hsettled
      cases h
      exact .skipped hresolve hne hsettled
    · rename_i b₁ hsettled
      split at h
      · cases h
        exact .faulty _ _
      · rename_i hproposed
        cases h
        exact .proposed hresolve hne hsettled hproposed
      · rename_i hproposed
        exact .finished hresolve hne hsettled hproposed h

/-! ## What a build leaves behind -/

variable {b b' : Builder} {d d' : Disk} {paths : List String} {o o' : Outcome}
  {sources : Option (List String)} {force : Bool}
  {result : Except Fault Outcome}

/-- A build of `paths` that started on `d` puts them on record on `d₁`, where all its files are
written. The tracker `t` is the one to save. -/
def Commits (b : Builder) (sources : Option (List String)) (force : Bool) (d : Disk)
    (paths : List String) (d₁ : Disk) (t : Tracker) : Prop :=
  ∃ b₁ o results old b₂, b.resolve d sources = .ok paths ∧
    b.isSettled d paths force = (.ok false, b₁) ∧ b₁.propose d paths = .ok (o, true) ∧
    (b₁.writeFiles o.files).run.run d = (.ok results, d₁) ∧
    results.all WriteResult.success = true ∧ b₁.withTracker d₁ = .ok (old, b₂) ∧ t.path = old.path ∧
    Tracker.recorded d₁ old.manifest paths (o.files.map (·.path)) = (t.manifest, .ok ())

theorem Commits.resolve_eq {d₁ : Disk} {t : Tracker} (h : b.Commits sources force d paths d₁ t) :
    b.resolve d sources = .ok paths := by
  obtain ⟨-, -, -, -, -, hresolve, -⟩ := h
  exact hresolve

theorem Commits.home_eq {d₁ : Disk} {t : Tracker} (h : b.Commits sources force d paths d₁ t) :
    d₁.home = d.home := by
  obtain ⟨b₁, o, results, old, b₂, -, -, -, hwritten, -⟩ := h
  have hevolves := b₁.confined_writeFiles d.home o.files d rfl
  rw [hwritten] at hevolves
  exact hevolves.home_eq

/-- Recording a build changes nothing in its outcome but adds a warning. -/
theorem outcome_of_settled {r : Except Fault Unit} (h : settled o r = .ok o') :
    o'.files = o.files ∧ o'.errors = o.errors ∧ o'.machines = o.machines ∧ o'.writes = o.writes ∧
      o'.skipped = o.skipped := by
  unfold settled at h
  split at h
  · cases h
    exact ⟨rfl, rfl, rfl, rfl, rfl⟩
  · cases h
    refine ⟨rfl, ?_, rfl, rfl, rfl⟩
    simp [Outcome.report, errorsOf, Finding.warning]
  · cases h

theorem outcome_of_commit (h : (b.commit o paths).run d = ((.ok o', b'), d')) :
    o'.files = o.files ∧ o'.errors = o.errors ∧ o'.machines = o.machines ∧ o'.writes = o.writes ∧
      o'.skipped = o.skipped := by
  rw [run_commit] at h
  split at h
  · obtain ⟨hsettled, -⟩ := Prod.mk.inj (Prod.mk.inj h).1
    exact outcome_of_settled hsettled
  · obtain ⟨hsettled, -⟩ := Prod.mk.inj (Prod.mk.inj h).1
    exact outcome_of_settled hsettled

/-- Writing adds the results, and errors only for files that could not be written. -/
theorem outcome_of_finish (h : (b.finish o paths).run d = ((.ok o', b'), d')) :
    ∃ results, o'.writes = results ∧ o'.files = o.files ∧
      o'.errors = o.errors ++ errorsOf (writeFailures o.files results) ∧ o'.machines = o.machines ∧
      o'.skipped = o.skipped := by
  rw [run_finish] at h
  split at h
  · cases h
  · rename_i results d₁ hwrites
    split_ifs at h
    · obtain ⟨hfiles, herrors, hmachines, hresults, hskipped⟩ := outcome_of_commit h
      exact ⟨results, hresults, hfiles, herrors, hmachines, hskipped⟩
    · cases h
      exact ⟨results, rfl, rfl, rfl, rfl, rfl⟩

/-- Only a build that is left out says so. -/
theorem skipped_of_generate (h : (b.generate sources force).run d = ((.ok o, b'), d'))
    (hskipped : o.skipped = true) :
    d' = d ∧ o = { skipped := true } ∧ ∃ paths, b.resolve d sources = .ok paths ∧ paths ≠ [] ∧
      b.isSettled d paths force = (.ok true, b') := by
  cases ends_of_generate h with
  | idle => cases hskipped
  | skipped hresolve hsome hsettled => exact ⟨rfl, rfl, _, hresolve, hsome, hsettled⟩
  | proposed _ _ _ hproposed =>
    rw [not_skipped_of_propose hproposed] at hskipped
    cases hskipped
  | finished _ _ _ hproposed hfinished =>
    obtain ⟨-, -, -, -, -, hsame⟩ := outcome_of_finish hfinished
    rw [hsame, not_skipped_of_propose hproposed] at hskipped
    cases hskipped

/-- A build that can be left out is. -/
theorem generate_of_isSettled (hresolve : b.resolve d sources = .ok paths) (hsome : paths ≠ [])
    (hsettled : b.isSettled d paths force = (.ok true, b')) :
    (b.generate sources force).run d = ((.ok { skipped := true }, b'), d) := by
  obtain ⟨path, rest, rfl⟩ := List.exists_cons_of_ne_nil hsome
  rw [run_generate, hresolve]
  dsimp only
  rw [hsettled]

/-- A build whose proposal goes on to the disk writes it. -/
theorem generate_of_propose {b₁ : Builder} (hresolve : b.resolve d sources = .ok paths)
    (hsome : paths ≠ []) (hsettled : b.isSettled d paths force = (.ok false, b₁))
    (hproposed : b₁.propose d paths = .ok (o, true)) :
    (b.generate sources force).run d = (b₁.finish o paths).run d := by
  obtain ⟨path, rest, rfl⟩ := List.exists_cons_of_ne_nil hsome
  rw [run_generate, hresolve]
  dsimp only
  rw [hsettled]
  dsimp only
  rw [hproposed]

/-- What a build commits is what it saves. -/
theorem disk_of_commits {d₁ : Disk} {t : Tracker} (h : b.Commits sources force d paths d₁ t)
    (hsome : paths ≠ []) : ((b.generate sources force).run d).2 = (t.save.run.run d₁).2 := by
  obtain ⟨b₁, o, results, old, b₂, hresolve, hsettled, hproposed, hwritten, hwrites,
    htracker, hpath, hrecorded⟩ := h
  rw [generate_of_propose hresolve hsome hsettled hproposed, run_finish, hwritten]
  dsimp only
  rw [if_pos hwrites, run_commit, htracker]
  dsimp only
  rw [Tracker.run_commit, withWrites_files, hrecorded]
  obtain ⟨p, m⟩ := t
  cases hpath
  rfl

/-- Off the builds that get as far as writing, none changes the disk. The others put only their
documents and kept copies there, and beside them at most the manifest that they commit. -/
theorem disk_of_generate (h : (b.generate sources force).run d = ((result, b'), d')) :
    d' = d ∨ ∃ (paths : List String) (o : Outcome) (d₁ : Disk), b.resolve d sources = .ok paths ∧
      b.propose d paths = .ok (o, true) ∧
      d.Evolves (fun place content => ∃ f ∈ o.files,
        f.Puts d.home b.settings.backup.truthy place content) d₁ ∧
      (d' = d₁ ∨ ∃ t, b.Commits sources force d paths d₁ t ∧ d' = (t.save.run.run d₁).2) := by
  cases ends_of_generate h with
  | faulty => exact .inl rfl
  | idle => exact .inl rfl
  | skipped => exact .inl rfl
  | proposed => exact .inl rfl
  | @finished paths b₁ _ o _ _ hresolve _ hsettled hproposed hfinished =>
    have hevolves := b₁.confined_writeFiles d.home o.files d rfl
    have hproposed' := (propose_of_isSettled hsettled).symm.trans hproposed
    rw [settings_of_isSettled hsettled] at hevolves
    rw [run_finish] at hfinished
    rcases hwrites : (b₁.writeFiles o.files).run.run d with ⟨fault | results, d₁⟩
    · rw [hwrites] at hfinished hevolves
      exact .inr ⟨paths, o, d₁, hresolve, hproposed', hevolves, .inl (Prod.mk.inj hfinished).2.symm⟩
    · rw [hwrites] at hfinished hevolves
      refine .inr ⟨paths, o, d₁, hresolve, hproposed', hevolves, ?_⟩
      dsimp only at hfinished
      split_ifs at hfinished with hall
      · rw [run_commit] at hfinished
        cases htracker : b₁.withTracker d₁ with
        | error fault =>
          rw [htracker] at hfinished
          exact .inl (Prod.mk.inj hfinished).2.symm
        | ok found =>
          obtain ⟨old, b₂⟩ := found
          rw [htracker] at hfinished
          have hdisk := (Prod.mk.inj hfinished).2
          rw [Tracker.run_commit] at hdisk
          rcases hrecorded : Tracker.recorded d₁ old.manifest paths (o.files.map (·.path)) with
            ⟨m, fault | _⟩
          · rw [withWrites_files, hrecorded] at hdisk
            exact .inl hdisk.symm
          · rw [withWrites_files, hrecorded] at hdisk
            exact .inr ⟨⟨old.path, m⟩,
              ⟨b₁, o, results, old, b₂, hresolve, hsettled, hproposed, hwrites,
              hall, htracker, rfl, hrecorded⟩, hdisk.symm⟩
      · exact .inl (Prod.mk.inj hfinished).2.symm

/-! ## Sample builds -/

/-- A builder that writes the machine modules alone and does not check them. -/
def modulesOnly : Builder where
  settings := {
    generateTests := .bool false
    generateDemos := .bool false
    generateServices := .bool false
    checkGeneratedCode := .bool false }

/-- A run without a fault has an outcome. -/
theorem exists_outcome {run : (Except Fault Outcome × Builder) × Disk} {p : Outcome → Bool}
    (h : run.1.1.toOption.any p = true) : ∃ o, run = ((.ok o, run.1.2), run.2) ∧ p o = true := by
  obtain ⟨⟨fault | o, b⟩, d⟩ := run
  · cases h
  · exact ⟨o, rfl, h⟩

end Builder

/-- A disk with one source in its working directory. -/
def Disk.withSource (name text : String) : Disk :=
  (Disk.empty 1000).set ["work", name] (.file text.toUTF8 500)

end FlowMachine

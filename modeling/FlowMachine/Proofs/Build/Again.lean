import FlowMachine.Proofs.Build.Apart
import FlowMachine.Proofs.Build.Batch
import FlowMachine.Proofs.Build.Frame
import FlowMachine.Proofs.Disk.Paving

/-!
# Building twice

A forced build that keeps no copies is repeated on the disk that it left. What the first one could
write the second one can, what stood in the way of the first one still does, and the file that is
written last at a place is the same both times. So the second build leaves all bytes as they are,
the manifest's apart. That it proposes the same files has one condition: no source may come into
reach through a directory that the first build made.
-/
namespace FlowMachine

open FlowMachine.Disk

/-! ## Writing the same files twice -/

/-- The text that files leave at a place: that of the last one written there. -/
def laid (home place : Location) : List (OutputFile × WriteResult) → Option ByteArray
  | [] => none
  | (f, r) :: rest => (laid home place rest).or
      (if r.written ∧ place = (Path.ofText f.path).aim home then some f.content.toUTF8 else none)

theorem laid_congr (home place : Location) (files : List OutputFile) {rs rs' : List WriteResult}
    (h : rs'.map WriteResult.written = rs.map WriteResult.written) :
    laid home place (files.zip rs') = laid home place (files.zip rs) := by
  induction files generalizing rs rs' with
  | nil => rfl
  | cons f files ih =>
    cases rs with
    | nil =>
      rw [List.map_eq_nil_iff.mp h]
    | cons r rs =>
      obtain ⟨r', rest', rfl, hr, hrest⟩ := List.map_eq_cons_iff.mp h
      simp only [List.zip_cons_cons, laid, hr, ih hrest]

theorem laid_of_not_written (home place : Location) (files : List OutputFile)
    {rs : List WriteResult}
    (h : ∀ r ∈ rs, r.written = false) : laid home place (files.zip rs) = none := by
  induction files generalizing rs with
  | nil => rfl
  | cons f files ih =>
    cases rs with
    | nil => rfl
    | cons r rs =>
      obtain ⟨hr, hrest⟩ := List.forall_mem_cons.mp h
      simp only [List.zip_cons_cons, laid, hr, ih hrest]
      rfl

theorem OutputFile.grows_of_write {f : OutputFile} {overwrite backup : Bool} {d d' : Disk}
    {result : Except Fault WriteResult} (h : (f.write overwrite backup).run.run d = (result, d')) :
    d.Evolves (fun _ _ => True) d' := by
  have hevolves := f.confined_write d.home overwrite backup d rfl
  rw [h] at hevolves
  exact hevolves.mono fun _ _ _ => trivial

namespace Builder

variable {b next : Builder} {d d₁ d₂ e : Disk} {files : List OutputFile} {rs rs' : List WriteResult}

theorem grows_of_writeFiles {result : Except Fault (List WriteResult)}
    (h : (b.writeFiles files).run.run d = (result, d₁)) : d.Evolves (fun _ _ => True) d₁ := by
  have hevolves := b.confined_writeFiles d.home files d rfl
  rw [h] at hevolves
  exact hevolves.mono fun _ _ _ => trivial

/-- At every place there is what the files leave there, or what was there before. -/
theorem bytesAt?_of_writeFiles (hbackup : b.settings.backup.truthy = false)
    (h : (b.writeFiles files).run.run d = (.ok rs, d₁)) (place : Location) :
    d₁.bytesAt? place = (laid d.home place (files.zip rs)).or (d.bytesAt? place) := by
  induction files generalizing d rs with
  | nil =>
    cases h
    rfl
  | cons f files ih =>
    obtain ⟨r, rest, d', hfirst, hrest, rfl⟩ := writeFiles_cons_eq_ok h
    rw [hbackup] at hfirst
    rw [ih hrest, OutputFile.bytesAt?_of_write hfirst, (OutputFile.grows_of_write hfirst).home_eq,
      List.zip_cons_cons, laid, Option.or_assoc]

/-- Where files may be overwritten, those that nothing stood in the way of are written. -/
theorem written_of_writeFiles (hbackup : b.settings.backup.truthy = false)
    (hoverwrite : b.settings.overwrite.truthy = true)
    (h : (b.writeFiles files).run.run d = (.ok rs, d₁)) :
    rs.map WriteResult.written = rs.map WriteResult.success := by
  induction files generalizing d rs with
  | nil =>
    cases h
    rfl
  | cons f files ih =>
    obtain ⟨r, rest, d', hfirst, hrest, rfl⟩ := writeFiles_cons_eq_ok h
    rw [hbackup, hoverwrite] at hfirst
    rw [List.map_cons, List.map_cons, ih hrest]
    obtain ⟨-, hkept, -⟩ | ⟨hsuccess, hwritten, -⟩ | ⟨hsuccess, hwritten, -⟩ :=
      OutputFile.write_cases_plain hfirst
    · cases hkept
    · rw [hsuccess, hwritten]
    · rw [hsuccess, hwritten]

/-- Files are written on a disk that came out of writing them. The same ones get through as before,
and where files may not be overwritten none is written. -/
theorem writeFiles_again (hbackup : b.settings.backup.truthy = false)
    (hsettings : next.settings = b.settings) (hnamed : ∀ f ∈ files, (Path.ofText f.path).parts ≠ [])
    (h : (b.writeFiles files).run.run d = (.ok rs, d₁)) (hgrown : d₁.Evolves (fun _ _ => True) e)
    (hagain : (next.writeFiles files).run.run e = (.ok rs', d₂)) :
    rs'.map WriteResult.success = rs.map WriteResult.success ∧
      (b.settings.overwrite.truthy = false → ∀ r ∈ rs', r.written = false) := by
  induction files generalizing d rs e rs' with
  | nil =>
    cases h
    cases hagain
    exact ⟨rfl, by simp⟩
  | cons f files ih =>
    obtain ⟨r, rest, d', hfirst, hrest, rfl⟩ := writeFiles_cons_eq_ok h
    obtain ⟨r', rest', e', hfirst', hrest', rfl⟩ := writeFiles_cons_eq_ok hagain
    obtain ⟨hname, hnames⟩ := List.forall_mem_cons.mp hnamed
    rw [hsettings, hbackup] at hfirst'
    rw [hbackup] at hfirst
    -- the disk only grows, from before the first writing to after the second one
    have hlater := (grows_of_writeFiles hrest).trans hgrown
    have hstep' := OutputFile.grows_of_write hfirst'
    have hthere (hr : r.success = true) : ∃ content time,
        e.peek (.ofText f.path) = .ok (some (.file content time)) := by
      obtain ⟨content, time, hpeek⟩ := OutputFile.peek_of_write hfirst hr
      exact hlater.exists_peek hpeek
    have hsame : r'.success = r.success := by
      rw [Bool.eq_iff_iff]
      constructor
      · intro hr'
        obtain ⟨content, time, hpeek⟩ := OutputFile.peek_of_write hfirst' hr'
        have hall := ((OutputFile.grows_of_write hfirst).trans hlater).trans hstep'
        exact OutputFile.success_of_admits (hall.admits hname hpeek) hfirst
      · intro hr
        obtain ⟨content, time, hpeek⟩ := hthere hr
        exact OutputFile.success_of_admits
          ((Evolves.refl (fun _ _ => True) e).admits hname hpeek) hfirst'
    obtain ⟨hsuccess, hnone⟩ := ih hnames hrest (hgrown.trans hstep') hrest'
    refine ⟨by rw [List.map_cons, List.map_cons, hsame, hsuccess], fun hkeep => ?_⟩
    refine List.forall_mem_cons.mpr ⟨?_, hnone hkeep⟩
    obtain ⟨hkept, -⟩ | ⟨-, hwritten, -⟩ | ⟨hr', -, hnew⟩ := OutputFile.write_cases_plain hfirst'
    · rw [WriteResult.written, hkept]
    · exact hwritten
    · obtain ⟨content, time, hpeek⟩ := hthere (hsame ▸ hr')
      rcases hnew with hover | hmissing
      · rw [hkeep] at hover
        cases hover
      · rw [hpeek] at hmissing
        cases hmissing

/-- Writing the same files again changes no bytes. -/
theorem bytesAt?_again (hbackup : b.settings.backup.truthy = false)
    (hsettings : next.settings = b.settings) (hnamed : ∀ f ∈ files, (Path.ofText f.path).parts ≠ [])
    (h : (b.writeFiles files).run.run d = (.ok rs, d₁)) (hgrown : d₁.Evolves (fun _ _ => True) e)
    (hagain : (next.writeFiles files).run.run e = (.ok rs', d₂)) {place : Location}
    (hplace : e.bytesAt? place = d₁.bytesAt? place) : d₂.bytesAt? place = e.bytesAt? place := by
  obtain ⟨hsuccess, hnone⟩ := writeFiles_again hbackup hsettings hnamed h hgrown hagain
  have hbackup' : next.settings.backup.truthy = false := by rw [hsettings]; exact hbackup
  have hhome : e.home = d.home := ((grows_of_writeFiles h).trans hgrown).home_eq
  rw [bytesAt?_of_writeFiles hbackup' hagain]
  cases hoverwrite : b.settings.overwrite.truthy with
  | false => rw [laid_of_not_written _ _ _ (hnone hoverwrite), Option.none_or]
  | true =>
    have hoverwrite' : next.settings.overwrite.truthy = true := by rw [hsettings]; exact hoverwrite
    have hwritten : rs'.map WriteResult.written = rs.map WriteResult.written := by
      rw [written_of_writeFiles hbackup' hoverwrite' hagain, hsuccess,
        written_of_writeFiles hbackup hoverwrite h]
    -- what the files leave at a place hides what was there, be it their own text or older
    rw [hplace, bytesAt?_of_writeFiles hbackup h, laid_congr _ _ _ hwritten, hhome,
      ← Option.or_assoc, Option.or_self]

/-! ## Forced builds -/

/-- The second builder is the first one but for what its tracker remembers. -/
structure Resembles (b b' : Builder) : Prop where
  settings : b'.settings = b.settings
  unavailable : b'.unavailable = b.unavailable
  manifestPath : b'.manifestPath = b.manifestPath

theorem Resembles.refl (b : Builder) : b.Resembles b := ⟨rfl, rfl, rfl⟩

/-- What a builder proposes does not depend on what its tracker remembers. -/
theorem Resembles.propose_eq {b' : Builder} (h : b.Resembles b') (d : Disk) (paths : List String) :
    b'.propose d paths = b.propose d paths := by
  obtain ⟨settings, unavailable, tracker⟩ := b
  obtain ⟨settings', unavailable', tracker'⟩ := b'
  obtain ⟨rfl, rfl, -⟩ := h
  rfl

variable {b' : Builder} {d' : Disk} {o o' : Outcome} {paths : List String}
  {sources : Option (List String)}

theorem resembles_of_finish {result : Except Fault Outcome}
    (h : (b.finish o paths).run d = ((result, b'), d')) : b.Resembles b' := by
  rw [run_finish] at h
  split at h
  · cases h
    exact .refl b
  · split_ifs at h
    swap
    · cases h
      exact .refl b
    rw [run_commit] at h
    split at h
    · cases h
      exact .refl b
    · rename_i t b₁ htracker
      obtain ⟨hb₁, -⟩ := withTracker_eq_ok htracker
      obtain ⟨⟨-, rfl⟩, -⟩ := Prod.mk.inj h |>.imp_left Prod.mk.inj
      refine ⟨by rw [hb₁], by rw [hb₁], ?_⟩
      rw [manifestPath_of_withTracker htracker, Tracker.run_commit]
      split <;> rfl

/-- A forced build comes to what it proposes. What it proposes is written when it goes on to the
disk, and then at most the manifest. -/
theorem forced_cases (h : (b.generate sources true).run d = ((.ok o, b'), d')) :
    b.Resembles b' ∧ ∃ paths proposal go, b.resolve d sources = .ok paths ∧
      b.propose d paths = .ok (proposal, go) ∧ o.files = proposal.files ∧
      ((go = false ∧ d' = d) ∨ go = true ∧ ∃ rs d₁,
        (b.writeFiles proposal.files).run.run d = (.ok rs, d₁) ∧
          d₁.Evolves (fun place _ => b.KeepsAt d.home place) d') := by
  have hsettled (paths : List String) : b.isSettled d paths true = (.ok false, b) := rfl
  rw [run_generate] at h
  split at h
  · cases h
  · rename_i hresolve
    cases h
    exact ⟨.refl b, [], _, false, hresolve, rfl, rfl, .inl ⟨rfl, rfl⟩⟩
  · rename_i paths _ hresolve
    rw [hsettled] at h
    dsimp only at h
    split at h
    · cases h
    · rename_i proposal hproposed
      cases h
      exact ⟨.refl b, paths, _, false, hresolve, hproposed, rfl, .inl ⟨rfl, rfl⟩⟩
    · rename_i proposal hproposed
      obtain ⟨-, -, hfiles, -⟩ := outcome_of_finish h
      refine ⟨resembles_of_finish h, paths, proposal, true, hresolve, hproposed, hfiles,
        .inr ⟨rfl, ?_⟩⟩
      obtain ⟨written, d₁, hwrite, hfault, hend⟩ := finish_cases h
      cases written with
      | error fault => cases hfault fault rfl
      | ok rs =>
        refine ⟨rs, d₁, hwrite, ?_⟩
        obtain hstill | ⟨hsaved, -⟩ := hend
        · exact hstill.mono fun _ _ hfalse => hfalse.elim
        · exact hsaved

/-! ## Proposing the same files twice -/

/-- Proposals from the same diagrams have the same files and go equally far. -/
theorem files_of_diagrams {now : List String} {go go' : Bool}
    {read read' : List Diagram × List Finding}
    (h : b.propose d paths = .ok (o, go)) (h' : b.propose d' now = .ok (o', go'))
    (hread : b.readPaths d paths = .ok read) (hread' : b.readPaths d' now = .ok read')
    (hsame : read'.1 = read.1) : o'.files = o.files ∧ go' = go := by
  obtain ⟨_, hr, hcases⟩ := propose_cases h
  obtain ⟨_, hr', hcases'⟩ := propose_cases h'
  obtain rfl := Except.ok.inj (hr.symm.trans hread)
  obtain rfl := Except.ok.inj (hr'.symm.trans hread')
  rw [hsame] at hcases'
  obtain ⟨hnil, hgo, rfl⟩ | ⟨hsome, audited, haudit, hrest⟩ := hcases
  · obtain ⟨-, hgo', rfl⟩ | ⟨hsome, -⟩ := hcases'
    · exact ⟨rfl, hgo'.trans hgo.symm⟩
    · exact absurd hnil hsome
  obtain ⟨hnil, -⟩ | ⟨-, audited', haudit', hrest'⟩ := hcases'
  · exact absurd hnil hsome
  obtain rfl := Except.ok.inj (haudit'.symm.trans haudit)
  obtain ⟨herrors, hblock, hgo, rfl⟩ | ⟨hfree, hgo, hrender⟩ := hrest
  · obtain ⟨-, -, hgo', rfl⟩ | ⟨hfree, -⟩ := hrest'
    · exact ⟨rfl, hgo'.trans hgo.symm⟩
    · exact absurd hfree (by simp [herrors, hblock])
  obtain ⟨herrors, hblock, -⟩ | ⟨-, hgo', hrender'⟩ := hrest'
  · exact absurd hfree (by simp [herrors, hblock])
  obtain ⟨emitted, checked, hemitted, hchecked, rfl⟩ := render_eq_ok.mp hrender
  obtain ⟨emitted', checked', hemitted', hchecked', rfl⟩ := render_eq_ok.mp hrender'
  obtain rfl := Except.ok.inj (hemitted'.symm.trans hemitted)
  obtain rfl := Except.ok.inj (hchecked'.symm.trans hchecked)
  exact ⟨rfl, hgo'.trans hgo.symm⟩

/-- The path of a proposed file has a name. -/
theorem named_of_propose {go : Bool} (h : b.propose d paths = .ok (o, go)) {f : OutputFile}
    (hf : f ∈ o.files) : (Path.ofText f.path).parts ≠ [] := by
  obtain ⟨document, x, directory, hdirectory, rfl⟩ := file_of_propose h hf
  obtain ⟨place, -, rfl⟩ := BuildSettings.pathOf_eq_ok hdirectory
  obtain ⟨folder, -, name, -, -, hpath⟩ := Document.liesBelow_file document b.emitOptions {} x place
  rw [hpath]
  simp

/-- A path that leads to no file has no diagrams. -/
theorem diagrams_of_readPath {path : String} {part : List Diagram × List Finding}
    (h : b.readPath d path = .ok part)
    (hnone : ∀ content time, d.peek (.ofText path) ≠ .ok (some (.file content time))) :
    part.1 = [] := by
  cases htext : d.text (.ofText path) with
  | ok text =>
    obtain ⟨content, time, hpeek, -⟩ := Manifest.text_eq_ok_iff.mp htext
    exact absurd hpeek (hnone content time)
  | error fault => exact (readPath_of_error htext h).1

/-- Sources that are read to the same diagrams one by one are so all together. -/
theorem diagrams_of_readPaths {read read' : List Diagram × List Finding}
    (h : b.readPaths d paths = .ok read) (h' : b.readPaths d' paths = .ok read')
    (hsame : ∀ path ∈ paths, ∀ part part', b.readPath d path = .ok part →
      b.readPath d' path = .ok part' → part'.1 = part.1) : read'.1 = read.1 := by
  obtain ⟨parts, hparts, rfl⟩ := readPaths_eq_ok.mp h
  obtain ⟨parts', hparts', rfl⟩ := readPaths_eq_ok.mp h'
  rw [mapM_eq_ok] at hparts hparts'
  clear h h'
  induction hparts generalizing parts' with
  | nil => rw [List.forall₂_nil_left_iff.mp hparts']
  | @cons path part paths parts hpart _ ih =>
    obtain ⟨part', rest', hpart', hrest', rfl⟩ := List.forall₂_cons_left_iff.mp hparts'
    obtain ⟨hfirst, hothers⟩ := List.forall_mem_cons.mp hsame
    have hrest := ih hothers rest' hrest'
    simp only at hrest
    simp only [List.flatMap_cons, hfirst part part' hpart hpart', hrest]

/-- A source is read to the same diagrams when it keeps its bytes, or when it is no file either
time. -/
theorem diagrams_of_evolves {W : Location → ByteArray → Prop} {path : String}
    {part part' : List Diagram × List Finding} (h : d.Evolves W d')
    (hw : ∀ content, ¬ W ((Path.ofText path).aim d.home) content)
    (hsteady : d'.isFile (.ofText path) = .ok true → d.isFile (.ofText path) = .ok true)
    (hpart : b.readPath d path = .ok part) (hpart' : b.readPath d' path = .ok part') :
    part'.1 = part.1 := by
  have hfile (e : Disk) : e.isFile (.ofText path) = .ok true ↔
      ∃ content time, e.peek (.ofText path) = .ok (some (.file content time)) := by
    unfold isFile
    rcases e.peek (.ofText path) with fault | (_ | (_ | ⟨content, time⟩)) <;>
      simp [bind, Except.bind, pure, Except.pure]
  simp only [hfile] at hsteady
  by_cases hbefore : ∃ content time, d.peek (.ofText path) = .ok (some (.file content time))
  · obtain ⟨content, time, hpeek⟩ := hbefore
    obtain ⟨hfind, hget⟩ := peek_eq_some_iff.mp hpeek
    have hpeek' : d'.peek (.ofText path) = .ok (some (.file content time)) := by
      rw [peek_eq_some_iff, h.home_eq]
      exact ⟨h.find_eq_ok hfind, (h.file_iff hw content time).mpr hget⟩
    have htext : d'.text (.ofText path) = d.text (.ofText path) := by
      rw [Disk.text, Disk.text, bytes_eq_ok_iff.mpr ⟨time, hpeek⟩,
        bytes_eq_ok_iff.mpr ⟨time, hpeek'⟩]
    have hsource : b.readPath d' path = b.readPath d path := by
      simp only [readPath, ReaderSettings.sourceAt, htext]
    rw [hsource, hpart] at hpart'
    cases hpart'
    rfl
  · have hafter := mt hsteady hbefore
    rw [diagrams_of_readPath hpart fun content time hpeek => hbefore ⟨content, time, hpeek⟩,
      diagrams_of_readPath hpart' fun content time hpeek => hafter ⟨content, time, hpeek⟩]

/-- Plain sources that a disk keeps as they were are proposed the same files for. -/
theorem files_of_evolves {W : Location → ByteArray → Prop} {given now : List String} {go go' : Bool}
    (hevolves : d.Evolves W d') (hplain : ∀ s ∈ given, Sources.Plain d s ∧ Sources.Plain d' s)
    (hw : ∀ s ∈ given, ∀ content, ¬ W ((Path.ofText s).aim d.home) content)
    (hsteady : ∀ s ∈ given, d'.isFile (.ofText s) = .ok true → d.isFile (.ofText s) = .ok true)
    (hresolve : Sources.resolve d given = .ok paths)
    (hresolve' : Sources.resolve d' given = .ok now)
    (h : b.propose d paths = .ok (o, go)) (h' : b.propose d' now = .ok (o', go')) :
    o'.files = o.files ∧ go' = go := by
  have hpaths : paths = given.eraseDups :=
    ((Sources.resolve_eq_ok_of_plain fun s hs => (hplain s hs).1).mp hresolve).2
  have hnow : now = given.eraseDups :=
    ((Sources.resolve_eq_ok_of_plain fun s hs => (hplain s hs).2).mp hresolve').2
  rw [hpaths] at h
  rw [hnow] at h'
  obtain ⟨read, hread, -⟩ := propose_cases h
  obtain ⟨read', hread', -⟩ := propose_cases h'
  refine files_of_diagrams h h' hread hread'
    (diagrams_of_readPaths hread hread' fun s hs part part' => ?_)
  have hs : s ∈ given := List.mem_eraseDups.mp hs
  exact diagrams_of_evolves hevolves (hw s hs) (hsteady s hs)

/-! ## Building twice -/

/-- Without kept copies, a forced build puts its files and the manifest on the disk, and nothing
else. -/
theorem evolves_of_forced (hbackup : b.settings.backup.truthy = false)
    (h : (b.generate sources true).run d = ((.ok o, b'), d')) :
    d.Evolves (fun place _ => (∃ f ∈ o.files, place = (Path.ofText f.path).aim d.home) ∨
      b.KeepsAt d.home place) d' := by
  obtain ⟨-, paths, proposal, go, -, -, hfiles, ⟨-, rfl⟩ | ⟨-, rs, e, hwrite, hsaved⟩⟩ :=
    forced_cases h
  · exact .refl _ _
  · have hwritten := b.confined_writeFiles d.home proposal.files d rfl
    rw [hwrite, hbackup, ← hfiles] at hwritten
    refine (hwritten.mono ?_).trans (hsaved.mono fun _ _ hplace => .inr hplace)
    rintro place content ⟨f, hf, ⟨hplace, -⟩ | ⟨hcopy, -⟩⟩
    · exact .inl ⟨f, hf, hplace⟩
    · cases hcopy

/-- A forced build without kept copies is made twice in a row, for plain sources of which none is
one of its files or the manifest, and none comes into reach only after the first build. Both times
the same files are proposed, and the second time no bytes change beside the manifest's. -/
theorem generate_again {given : List String} {o₁ o₂ : Outcome} {b₁ b₂ : Builder}
    (hbackup : b.settings.backup.truthy = false)
    (h₁ : (b.generate (some given) true).run d = ((.ok o₁, b₁), d₁)) (hnext : b.Follows b₁ next)
    (h₂ : (next.generate (some given) true).run d₁ = ((.ok o₂, b₂), d₂))
    (hplain : ∀ s ∈ given, Sources.Plain d s ∧ Sources.Plain d₁ s)
    (hgenerated : ∀ s ∈ given, ∀ f ∈ o₁.files,
      (Path.ofText s).aim d.home ≠ (Path.ofText f.path).aim d.home)
    (hmanifest : ∀ s ∈ given, ¬ b.KeepsAt d.home ((Path.ofText s).aim d.home))
    (hsteady : ∀ s ∈ given, d₁.isFile (.ofText s) = .ok true → d.isFile (.ofText s) = .ok true) :
    o₂.files = o₁.files ∧
      ∀ place, ¬ b.KeepsAt d.home place → d₂.bytesAt? place = d₁.bytesAt? place := by
  have hevolves := evolves_of_forced hbackup h₁
  obtain ⟨hsame, paths, proposal, go, hresolve, hproposed, hfiles, hend⟩ := forced_cases h₁
  obtain ⟨-, now, proposal', go', hresolve', hproposed', hfiles', hend'⟩ := forced_cases h₂
  have hresembles : b.Resembles next := by
    obtain rfl | ⟨-, rfl⟩ := hnext
    · exact hsame
    · exact .refl _
  rw [hresembles.propose_eq] at hproposed'
  have hkept : ∀ s ∈ given, ∀ _ : ByteArray,
      ¬ ((∃ f ∈ o₁.files, (Path.ofText s).aim d.home = (Path.ofText f.path).aim d.home) ∨
        b.KeepsAt d.home ((Path.ofText s).aim d.home)) := by
    rintro s hs - (⟨f, hf, hplace⟩ | hplace)
    · exact hgenerated s hs f hf hplace
    · exact hmanifest s hs hplace
  obtain ⟨hproposals, hgo⟩ :=
    files_of_evolves hevolves hplain hkept hsteady hresolve hresolve' hproposed hproposed'
  refine ⟨by rw [hfiles', hproposals, hfiles], fun place hplace => ?_⟩
  -- both builds stay off the disk, or both go on to it
  obtain ⟨hstay, -⟩ | ⟨hwent, rs, e, hwrite, hsaved⟩ := hend
  · obtain ⟨-, rfl⟩ | ⟨hwent', -⟩ := hend'
    · rfl
    · rw [hgo, hstay] at hwent'
      cases hwent'
  obtain ⟨hstay', -⟩ | ⟨-, rs', e', hwrite', hsaved'⟩ := hend'
  · rw [hgo, hwent] at hstay'
    cases hstay'
  have hplace' : ¬ next.KeepsAt d₁.home place := by
    rw [KeepsAt, hresembles.manifestPath, hevolves.home_eq]
    exact hplace
  have hnamed : ∀ f ∈ proposal.files, (Path.ofText f.path).parts ≠ [] := fun _ hf =>
    named_of_propose hproposed hf
  rw [hproposals] at hwrite'
  rw [hsaved'.bytesAt?_eq fun _ => hplace']
  exact bytesAt?_again hbackup hresembles.settings hnamed hwrite
    (hsaved.mono fun _ _ _ => trivial) hwrite' (hsaved.bytesAt?_eq fun _ => hplace)

/-- A forced build of machine modules, and the same again by the builder that it left. -/
def twice (d : Disk) (given : List String) :
    ((Except Fault Outcome × Builder) × Disk) × ((Except Fault Outcome × Builder) × Disk) :=
  let first := (modulesOnly.generate (some given) true).run d
  (first, (first.1.2.generate (some given) true).run first.2)

/-- Both builds come to an outcome with files at the given paths, the sources are plain and none of
the files, and the disks that the builds leave pass a test. -/
def twiceFits (d : Disk) (given first second : List String) (test : Disk → Disk → Bool) : Bool :=
  let runs := twice d given
  runs.1.1.1.toOption.any (fun o => o.files.map (·.path) == first) &&
    (runs.2.1.1.toOption.any (fun o => o.files.map (·.path) == second) &&
      (test runs.1.2 runs.2.2 &&
        given.all fun s => Sources.isPlain d s && Sources.isPlain runs.1.2 s &&
          second.all fun path => (Path.ofText s).aim d.home != (Path.ofText path).aim d.home))

theorem exists_twice (d : Disk) (given first second : List String) (test : Disk → Disk → Bool)
    (h : twiceFits d given first second test = true) : ∃ o₁ b₁ d₁ o₂ b₂ d₂,
      (modulesOnly.generate (some given) true).run d = ((.ok o₁, b₁), d₁) ∧
      (b₁.generate (some given) true).run d₁ = ((.ok o₂, b₂), d₂) ∧
      o₁.files.map (·.path) = first ∧ o₂.files.map (·.path) = second ∧ test d₁ d₂ = true ∧
      (∀ s ∈ given, Sources.Plain d s ∧ Sources.Plain d₁ s) ∧
      ∀ s ∈ given, ∀ path ∈ second, (Path.ofText s).aim d.home ≠ (Path.ofText path).aim d.home := by
  simp only [twiceFits, Bool.and_eq_true, List.all_eq_true] at h
  obtain ⟨hfirst, hsecond, htest, hgiven⟩ := h
  obtain ⟨o₁, hrun₁, hfiles₁⟩ := exists_outcome hfirst
  obtain ⟨o₂, hrun₂, hfiles₂⟩ := exists_outcome hsecond
  refine ⟨o₁, _, _, o₂, _, _, hrun₁, hrun₂, beq_iff_eq.mp hfiles₁, beq_iff_eq.mp hfiles₂, htest,
    fun s hs => ?_, fun s hs path hpath => bne_iff_ne.mp ((hgiven s hs).2 path hpath)⟩
  obtain ⟨⟨hbefore, hafter⟩, -⟩ := hgiven s hs
  exact ⟨Sources.plain_of_isPlain hbefore, Sources.plain_of_isPlain hafter⟩

theorem keepsAt_modulesOnly {home place : Location} :
    modulesOnly.KeepsAt home place ↔ place = (Path.ofText sampleManifest).aim home := by
  have hpath : modulesOnly.manifestPath = .ok (.ofText sampleManifest) := rfl
  simp [KeepsAt, hpath, eq_comm]

/-- One source is missing both times, and a directory stands in the way of one module. -/
theorem generate_again_blocked : ∃ o₁ b₁ d₁ o₂ b₂ d₂,
    (modulesOnly.generate (some ["a.md", "none.md", "b.md"]) true).run blockedDisk =
      ((.ok o₁, b₁), d₁) ∧
    (b₁.generate (some ["a.md", "none.md", "b.md"]) true).run d₁ = ((.ok o₂, b₂), d₂) ∧
    o₁.files.map (·.path) =
      ["generated/user-services/a_machine.py", "generated/user-services/b_machine.py"] ∧
    o₂.files = o₁.files ∧ ∀ place, place ≠ (Path.ofText sampleManifest).aim ["work"] →
      d₂.bytesAt? place = d₁.bytesAt? place := by
  obtain ⟨o₁, b₁, d₁, o₂, b₂, d₂, hrun₁, hrun₂, hpaths, -, hfound, hplain, hapart⟩ := exists_twice
    blockedDisk ["a.md", "none.md", "b.md"]
    ["generated/user-services/a_machine.py", "generated/user-services/b_machine.py"]
    ["generated/user-services/a_machine.py", "generated/user-services/b_machine.py"]
    (fun d₁ _ => ["a.md", "none.md", "b.md"].all fun s =>
      (blockedDisk.isFile (.ofText s)).toOption == some true ||
        (d₁.isFile (.ofText s)).toOption == some false)
    (by decide +kernel)
  have hmanifest : ["a.md", "none.md", "b.md"].all (fun s => (Path.ofText s).aim ["work"] !=
      (Path.ofText sampleManifest).aim ["work"]) = true := by
    decide
  have hsteady : ∀ s ∈ ["a.md", "none.md", "b.md"], d₁.isFile (.ofText s) = .ok true →
      blockedDisk.isFile (.ofText s) = .ok true := by
    intro s hs hafter
    rcases Bool.or_eq_true_iff.mp (List.all_eq_true.mp hfound s hs) with hfile | hnone
    · exact eq_ok_of_toOption (beq_iff_eq.mp hfile)
    · rw [hafter] at hnone
      cases hnone
  obtain ⟨hfiles, hbytes⟩ := generate_again rfl hrun₁ (.inl rfl) hrun₂ hplain
    (fun s hs f hf => hapart s hs f.path (by rw [← hpaths]; exact List.mem_map_of_mem hf))
    (fun s hs hkept => bne_iff_ne.mp (List.all_eq_true.mp hmanifest s hs)
      (keepsAt_modulesOnly.mp hkept))
    hsteady
  exact ⟨o₁, b₁, d₁, o₂, b₂, d₂, hrun₁, hrun₂, hpaths, hfiles,
    fun place hplace => hbytes place (mt keepsAt_modulesOnly.mp hplace)⟩

/-- The second source is reached through the output directory, which is there only after the first
build. So the second build proposes and writes one more module. -/
theorem exists_new_source : ∃ given o₁ b₁ d₁ o₂ b₂ d₂,
    modulesOnly.settings.backup.truthy = false ∧ modulesOnly.settings.dryRun.truthy = false ∧
    (modulesOnly.generate (some given) true).run (twoSources "a.md" "b.md") = ((.ok o₁, b₁), d₁) ∧
    (b₁.generate (some given) true).run d₁ = ((.ok o₂, b₂), d₂) ∧
    (∀ s ∈ given, Sources.Plain (twoSources "a.md" "b.md") s ∧ Sources.Plain d₁ s) ∧
    (∀ s ∈ given, ∀ f ∈ o₁.files ++ o₂.files,
      (Path.ofText s).aim ["work"] ≠ (Path.ofText f.path).aim ["work"]) ∧
    (∀ s ∈ given, ¬ modulesOnly.KeepsAt ["work"] ((Path.ofText s).aim ["work"])) ∧
    o₂.files ≠ o₁.files ∧
    ∃ place, ¬ modulesOnly.KeepsAt ["work"] place ∧ d₂.bytesAt? place ≠ d₁.bytesAt? place := by
  obtain ⟨o₁, b₁, d₁, o₂, b₂, d₂, hrun₁, hrun₂, hpaths₁, hpaths₂, hbytes, hplain, hapart⟩ :=
    exists_twice
    (twoSources "a.md" "b.md") ["a.md", "generated/../b.md"]
    ["generated/user-services/a_machine.py"]
    ["generated/user-services/a_machine.py", "generated/user-services/b_machine.py"]
    (fun d₁ d₂ =>
      (d₁.bytesAt? ["work", "generated", "user-services", "b_machine.py"]).isNone &&
        (d₂.bytesAt? ["work", "generated", "user-services", "b_machine.py"]).isSome)
    (by decide +kernel)
  have hmanifest : ["a.md", "generated/../b.md"].all (fun s => (Path.ofText s).aim ["work"] !=
      (Path.ofText sampleManifest).aim ["work"]) = true := by
    decide
  refine ⟨["a.md", "generated/../b.md"], o₁, b₁, d₁, o₂, b₂, d₂, rfl, rfl, hrun₁, hrun₂, hplain,
    fun s hs f hf => ?_, fun s hs hkept => ?_, fun hsame => ?_,
    ["work", "generated", "user-services", "b_machine.py"], ?_, fun hsame => ?_⟩
  · refine hapart s hs f.path ?_
    rcases List.mem_append.mp hf with hf | hf
    · have hmem : f.path ∈ o₁.files.map (·.path) := List.mem_map_of_mem hf
      rw [hpaths₁] at hmem
      exact List.mem_cons.mpr (.inl (List.mem_singleton.mp hmem))
    · rw [← hpaths₂]
      exact List.mem_map_of_mem hf
  · exact bne_iff_ne.mp (List.all_eq_true.mp hmanifest s hs) (keepsAt_modulesOnly.mp hkept)
  · rw [hsame, hpaths₁] at hpaths₂
    cases hpaths₂
  · rw [keepsAt_modulesOnly]
    decide
  · rw [hsame, Bool.and_eq_true, Option.isNone_iff_eq_none] at hbytes
    rw [hbytes.1] at hbytes
    cases hbytes.2

end Builder

end FlowMachine

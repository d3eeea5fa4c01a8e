import FlowMachine.Proofs.Build.Covering
import FlowMachine.Proofs.Build.Overlap
import FlowMachine.Proofs.Build.Session
import FlowMachine.Proofs.Emit.Places

/-!
# What a forced build would write

A build that is left out rests on an earlier one. When the earlier one rendered alike and laid down
all its files, and nobody has put other bytes in their places since, a forced build would propose
files that are all on the disk already, byte for byte. In general it would not: the manifest records
neither the settings nor what later builds put over the files.
-/
namespace FlowMachine

open FlowMachine.Disk
open FlowMachine.Builder

/-! ## Sizes and places of files -/

theorem Emit.utf8ByteSize_document (lines : List String) :
    (Emit.document lines).utf8ByteSize =
      lines.foldr (fun line n => line.utf8ByteSize + 1 + n) 0 := by
  unfold Emit.document
  induction lines with
  | nil => rfl
  | cons line lines ih =>
    rw [List.map_cons, String.join_cons, String.utf8ByteSize_append, String.utf8ByteSize_append, ih]
    rfl

theorem Path.aim_append (home : Location) (p : Path) {a b : String} (ha : a ≠ "..")
    (hb : b ≠ "..") :
    (⟨p.root, p.parts ++ [a, b]⟩ : Path).aim home = p.aim home ++ [a, b] := by
  have hstart : (⟨p.root, p.parts ++ [a, b]⟩ : Path).start home = p.start home := rfl
  simp [Path.aim, hstart, Location.stride, ha, hb]

namespace Builder

variable {b : Builder} {d d' : Disk} {paths : List String} {o : Outcome}

/-- What a builder proposes goes below its output directory. -/
theorem aim_of_propose {out : Path} {go : Bool}
    (hout : BuildSettings.pathOf b.settings.outputDir = .ok out)
    (h : b.propose d paths = .ok (o, go)) {f : OutputFile} (hf : f ∈ o.files) (home : Location) :
    out.aim home <+: (Path.ofText f.path).aim home := by
  obtain ⟨document, x, directory, hdirectory, rfl⟩ := file_of_propose h hf
  obtain rfl := Except.ok.inj (hdirectory.symm.trans hout)
  obtain ⟨s, -, rfl⟩ := BuildSettings.pathOf_eq_ok hout
  have hcategory := Document.isPart_directory x.category
  have hfile := Document.isPart_fileName document (Identifier.machineId x.id)
  have hlong := Document.length_fileName document (Identifier.snake (Identifier.machineId x.id))
  have hparts : ∀ part ∈ (Path.ofText s).parts ++
      [x.category.directory, document.fileName (Identifier.snake (Identifier.machineId x.id))],
      Path.IsPart part := by
    intro part hpart
    rcases List.mem_append.mp hpart with hpart | hpart
    · exact Path.isPart_of_mem_ofText hpart
    · simp only [List.mem_cons, List.not_mem_nil, or_false] at hpart
      rcases hpart with rfl | rfl
      · exact hcategory
      · exact hfile
  have hback : Path.ofText (⟨(Path.ofText s).root, (Path.ofText s).parts ++ [x.category.directory,
      document.fileName (Identifier.snake (Identifier.machineId x.id))]⟩ : Path).toText = _ :=
    Path.ofText_toText (Path.root_ofText s) hparts (by simp)
  rw [Document.path_file, Document.path_derive, hback, Path.aim_append]
  · exact List.prefix_append _ _
  · cases x.category <;> decide
  · intro hdots
    simp [hdots] at hlong

/-- Files that are all written, none kept from before, have their texts in place when nothing else
is put there. -/
theorem get?_of_writeFiles {files : List OutputFile} {results : List WriteResult}
    (h : (b.writeFiles files).run.run d = (.ok results, d'))
    (hwritten : results.all WriteResult.written = true) {f : OutputFile} (hf : f ∈ files)
    (halone : ∀ g ∈ files, ∀ bytes,
      g.Puts d.home b.settings.backup.truthy ((Path.ofText f.path).aim d.home) bytes →
      bytes = f.content.toUTF8) :
    ∃ time, d'.get? ((Path.ofText f.path).aim d.home) = some (.file f.content.toUTF8 time) := by
  induction files generalizing d results with
  | nil => cases hf
  | cons g files ih =>
    obtain ⟨r, rest, d₁, hfirst, hrest, rfl⟩ := writeFiles_cons_eq_ok h
    obtain ⟨hr, hall⟩ := Bool.and_eq_true_iff.mp hwritten
    have hhome : d₁.home = d.home := by
      have hevolves := g.confined_write d.home b.settings.overwrite.truthy
        b.settings.backup.truthy d rfl
      rw [hfirst] at hevolves
      exact hevolves.home_eq
    rw [← hhome] at halone ⊢
    rcases List.mem_cons.mp hf with rfl | hf
    · obtain ⟨time, hpeek⟩ := OutputFile.content_of_write hfirst hr
      have hevolves := b.confined_writeFiles d₁.home files d₁ rfl
      rw [hrest] at hevolves
      refine hevolves.file_of_forall ⟨time, (peek_eq_some_iff.mp hpeek).2⟩ ?_
      rintro bytes ⟨g, hg, hputs⟩
      exact halone g (List.mem_cons_of_mem _ hg) bytes hputs
    · exact ih hrest hall hf fun g hg => halone g (List.mem_cons_of_mem _ hg)

/-- A forced build that raises no fault has the files that it proposes. -/
theorem files_of_forced {sources : Option (List String)} {b' : Builder}
    {proposal : Outcome} {go : Bool}
    (h : (b.generate sources true).run d = ((.ok o, b'), d'))
    (hresolve : b.resolve d sources = .ok paths)
    (hsome : paths ≠ []) (hproposal : b.propose d paths = .ok (proposal, go)) :
    o.files = proposal.files := by
  cases ends_of_generate h with
  | idle hnone => exact absurd (Except.ok.inj (hresolve.symm.trans hnone)) hsome
  | skipped _ _ hsettled =>
    obtain ⟨⟨hforce, -⟩, -⟩ := isSettled_eq_true_iff.mp hsettled
    cases hforce
  | proposed hresolve' _ hsettled hproposed =>
    obtain rfl := Except.ok.inj (hresolve'.symm.trans hresolve)
    rw [propose_of_isSettled hsettled, hproposal] at hproposed
    cases hproposed
    rfl
  | finished hresolve' _ hsettled hproposed hfinished =>
    obtain rfl := Except.ok.inj (hresolve'.symm.trans hresolve)
    rw [propose_of_isSettled hsettled, hproposal] at hproposed
    cases hproposed
    obtain ⟨-, -, hfiles, -⟩ := outcome_of_finish hfinished
    exact hfiles

end Builder

/-! ## Files that last -/

namespace Call

/-- The call leaves bytes at a place alone: it stays off the disk, or it puts nothing else there. -/
def Preserves (c : Call) (d : Disk) (place : Location) (content : ByteArray) : Prop :=
  (c.run d).2 = d ∨ ∀ paths o, c.builder.resolve d c.sources = .ok paths →
    c.builder.propose d paths = .ok (o, true) →
    ∀ f ∈ o.files, ∀ bytes, f.Puts d.home c.settings.backup.truthy place bytes → bytes = content

/-- The call lays down its files: each is written and none is kept from before, at its place it puts
nothing else, the manifest is kept elsewhere, and the sources that it puts on record on `d₁` are as
they were when it read them. -/
structure Lays (c : Call) (d : Disk) (paths : List String) (d₁ : Disk) (manifest : Path)
    (o : Outcome) :
    Prop where
  result : (c.run d).1.1 = .ok o
  written : o.writes.all WriteResult.written = true
  alone : ∀ f ∈ o.files, ∀ g ∈ o.files, ∀ bytes,
    g.Puts d.home c.settings.backup.truthy ((Path.ofText f.path).aim d.home) bytes →
    bytes = f.content.toUTF8
  apart : ∀ f ∈ o.files, (Path.ofText f.path).aim d.home ≠ manifest.aim d.home
  read : ∀ path ∈ paths, ∀ content time, d₁.peek (.ofText path) = .ok (some (.file content time)) →
    ∃ time', d.peek (.ofText path) = .ok (some (.file content time'))

theorem success_of_written {results : List WriteResult}
    (h : results.all WriteResult.written = true) :
    results.all WriteResult.success = true := by
  refine List.all_eq_true.mpr fun r hr => ?_
  have hwritten := List.all_eq_true.mp h r hr
  unfold WriteResult.written at hwritten
  unfold WriteResult.success
  split at hwritten <;> simp_all

/-- A call that commits and lays down its files proposed them, has them on record, and leaves each
with its text in place. -/
theorem Lays.files_of_commits {c : Call} {d d₁ : Disk} {paths : List String} {manifest : Path}
    {o : Outcome}
    {t : Tracker} (hlays : c.Lays d paths d₁ manifest o) (hcommits : c.Commits d paths d₁ t)
    (hsome : paths ≠ []) (hpath : t.path = manifest) :
    ∃ proposal, c.builder.propose d paths = .ok (proposal, true) ∧ proposal.files = o.files ∧
      ∀ f ∈ o.files,
        (∃ time, t.manifest.generated.get? f.path = some (.ofFile f.path f.content.toUTF8 time)) ∧
        ∃ time, (c.run d).2.get? ((Path.ofText f.path).aim d.home) =
          some (.file f.content.toUTF8 time) := by
  have hdisk := disk_of_commits hcommits.recorded hsome
  have hhome := hcommits.recorded.home_eq
  obtain ⟨b₁, proposal, results, old, b₂, hresolve, hsettled, hproposed, hwritten, hwrites, -, -,
    hrecorded⟩ := hcommits.recorded
  have hrun := generate_of_propose hresolve hsome hsettled hproposed
  obtain ⟨hfiles, rfl⟩ : o.files = proposal.files ∧ results = o.writes := by
    rcases hfinish : (b₁.finish proposal paths).run d with ⟨⟨result, b'⟩, d'⟩
    obtain rfl : result = .ok o := by
      rw [← hlays.result, Call.run, hrun, hfinish]
    obtain ⟨-, -, hfiles, -⟩ := outcome_of_finish hfinish
    obtain ⟨d₂, hagain, -⟩ := commit_of_finish hfinish (success_of_written hlays.written)
    rw [hwritten] at hagain
    cases hagain
    exact ⟨hfiles, rfl⟩
  refine ⟨proposal, (propose_of_isSettled hsettled).symm.trans hproposed, hfiles.symm,
    fun f hf => ?_⟩
  have hplaced : ∃ time, d₁.get? ((Path.ofText f.path).aim d.home) =
      some (.file f.content.toUTF8 time) := by
    refine get?_of_writeFiles hwritten hlays.written (hfiles ▸ hf) fun g hg bytes hputs => ?_
    rw [settings_of_isSettled hsettled] at hputs
    exact hlays.alone f hf g (hfiles ▸ hg) bytes hputs
  constructor
  · obtain ⟨rs, made, -, hmade, hmanifest⟩ := Tracker.recorded_eq_ok_iff.mp hrecorded
    obtain ⟨time, hget⟩ := hplaced
    obtain ⟨content, time', hpeek⟩ := peek_of_writeFiles hwritten hwrites f (hfiles ▸ hf)
    obtain ⟨-, hget'⟩ := peek_eq_some_iff.mp hpeek
    rw [hhome, hget] at hget'
    cases hget'
    have hfingerprint := fingerprint?_eq_some_iff.mpr ⟨_, time, hpeek, rfl⟩
    refine ⟨time, ?_⟩
    rw [hmanifest, Tracker.get?_record (Tracker.record_of_recordEach hmade),
      if_pos (List.mem_map_of_mem (hfiles ▸ hf)), hfingerprint, Option.some_or]
  · have hsave := t.confined_save d₁.home d₁ rfl
    rw [← hdisk, hhome, hpath] at hsave
    exact hsave.file_of_forall hplaced fun _ hput => absurd hput.1 (hlays.apart f hf)

end Call

/-- Sessions over one output directory, in which nobody but builds writes below it. -/
inductive Guarded (manifest out : Path) : List (Call × Disk) → Disk → Prop where
  | start {d : Disk}
    (hnone : ∀ content time, d.get? (manifest.aim d.home) ≠ some (.file content time)) :
    Guarded manifest out [] d
  | edit {history : List (Call × Disk)} {d d' : Disk} (h : Guarded manifest out history d)
    (hhome : d'.home = d.home)
    (hkept : ∀ content time, d'.get? (manifest.aim d.home) = some (.file content time) →
      ∃ time, d.get? (manifest.aim d.home) = some (.file content time))
    (hbelow : ∀ place, out.aim d.home <+: place → d'.get? place = d.get? place) :
    Guarded manifest out history d'
  | reset {history : List (Call × Disk)} {d : Disk} {t : Tracker}
      (h : Guarded manifest out history d)
    (hload : Tracker.load d manifest = .ok t) : Guarded manifest out history (t.reset.run d).2
  | call {history : List (Call × Disk)} {d : Disk} (h : Guarded manifest out history d) (c : Call)
    (hmanifest : c.settings.manifest = .ok manifest) (hspares : c.Spares d (manifest.aim d.home))
    (hout : BuildSettings.pathOf c.settings.outputDir = .ok out) :
    Guarded manifest out ((c, d) :: history) (c.run d).2

namespace Guarded

variable {manifest out : Path} {history : List (Call × Disk)} {d d' : Disk}

theorem session (h : Guarded manifest out history d) : Session manifest history d := by
  induction h with
  | start hnone => exact .start hnone
  | edit _ hhome hkept _ ih => exact .edit ih hhome hkept
  | reset _ hload ih => exact .reset ih hload
  | call _ c hmanifest hspares _ ih => exact .call ih c hmanifest hspares

theorem evolves_reset (t : Tracker) (d : Disk) : d.Evolves
    (fun place _ => place = t.path.aim d.home) (t.reset.run d).2 := by
  have hrun : (t.reset.run d).2 = (({ t with manifest := {} } : Tracker).save.run.run d).2 := rfl
  rw [hrun]
  exact (Tracker.confined_save d.home _ d rfl).mono fun _ _ h => h.1

theorem home_of_run (c : Call) (d : Disk) : (c.run d).2.home = d.home := by
  rcases hrun : c.run d with ⟨⟨result, b'⟩, d'⟩
  obtain rfl | ⟨paths, o, d₁, -, -, hevolves, rfl | ⟨t, -, rfl⟩⟩ := Builder.disk_of_generate hrun
  · rfl
  · exact hevolves.home_eq
  · exact (t.confined_save d₁.home d₁ rfl).home_eq.trans hevolves.home_eq

/-- A session keeps its working directory. -/
theorem home_of_mem (h : Guarded manifest out history d) : ∀ e ∈ history, e.2.home = d.home := by
  induction h with
  | start => simp
  | edit _ hhome _ _ ih => exact fun e he => (ih e he).trans hhome.symm
  | @reset _ d t _ _ ih => exact fun e he => (ih e he).trans (evolves_reset t d).home_eq.symm
  | @call _ d _ c _ _ _ ih =>
    intro e he
    rw [home_of_run]
    rcases List.mem_cons.mp he with rfl | he
    · rfl
    · exact ih e he

/-- A call that preserves bytes away from the manifest leaves them in place. -/
theorem file_of_run {c : Call} {place : Location} {content : ByteArray}
    (hmanifest : c.settings.manifest = .ok manifest) (hplace : place ≠ manifest.aim d.home)
    (hpreserves : c.Preserves d place content)
    (hd : ∃ time, d.get? place = some (.file content time)) :
    ∃ time, (c.run d).2.get? place = some (.file content time) := by
  rcases hpreserves with hsame | hputs
  · rwa [hsame]
  rcases hrun : c.run d with ⟨⟨result, b'⟩, d'⟩
  obtain rfl | ⟨paths, o, d₁, hresolve, hproposed, hevolves, hend⟩ := Builder.disk_of_generate hrun
  · exact hd
  have hwritten : ∃ time, d₁.get? place = some (.file content time) := by
    refine hevolves.file_of_forall hd ?_
    rintro bytes ⟨f, hf, hput⟩
    exact hputs paths o hresolve hproposed f hf bytes hput
  obtain rfl | ⟨t, hcommits, rfl⟩ := hend
  · exact hwritten
  obtain ⟨-, hpath⟩ := Builder.distinct_of_commits hcommits rfl
  obtain rfl : t.path = manifest := Except.ok.inj (hpath.symm.trans hmanifest)
  refine (t.confined_save d₁.home d₁ rfl).file_of_forall hwritten ?_
  rintro bytes ⟨hsave, -⟩
  rw [hevolves.home_eq] at hsave
  exact absurd hsave hplace

/-- Below the output directory a file that a call left stays as it is while the later calls preserve
it. -/
theorem file_stays {home place : Location} {content : ByteArray}
    (h : Guarded manifest out history d)
    (hhome : d.home = home) (hbelow : out.aim home <+: place) (hplace : place ≠ manifest.aim home)
    {later earlier : List (Call × Disk)} {e : Call × Disk}
    (hhistory : history = later ++ e :: earlier)
    (hleft : ∃ time, (e.1.run e.2).2.get? place = some (.file content time))
    (hpreserves : ∀ x ∈ later, x.1.Preserves x.2 place content) :
    ∃ time, d.get? place = some (.file content time) := by
  induction h generalizing later with
  | start => simp at hhistory
  | @edit _ d d' _ hhome' _ hkept ih =>
    have hsame := hhome'.symm.trans hhome
    rw [hkept place (hsame ▸ hbelow)]
    exact ih hsame hhistory hpreserves
  | @reset _ d t _ hload ih =>
    have hevolves := evolves_reset t d
    have hsame := hevolves.home_eq.symm.trans hhome
    obtain ⟨m, -, hm⟩ := bind_eq_ok.mp hload
    obtain rfl : t.path = manifest := congrArg Tracker.path (Except.ok.inj hm).symm
    refine hevolves.file_of_forall (ih hsame hhistory hpreserves) fun _ hput => ?_
    rw [hsame] at hput
    exact absurd hput hplace
  | @call history d _ c hmanifest _ _ ih =>
    have hsame := (home_of_run c d).symm.trans hhome
    cases later with
    | nil =>
      obtain ⟨rfl, -⟩ := List.cons.inj hhistory
      exact hleft
    | cons x later =>
      obtain ⟨rfl, hrest⟩ := List.cons.inj hhistory
      obtain ⟨hx, hlater⟩ := List.forall_mem_cons.mp hpreserves
      exact file_of_run hmanifest (hsame ▸ hplace) hx (ih hsame hrest hlater)

/-- All calls of a session keep to its manifest and its output directory. -/
theorem settings_of_mem (h : Guarded manifest out history d) : ∀ e ∈ history,
    e.1.settings.manifest = .ok manifest ∧
    BuildSettings.pathOf e.1.settings.outputDir = .ok out := by
  induction h with
  | start => simp
  | edit _ _ _ _ ih => exact ih
  | reset _ _ ih => exact ih
  | call _ c hmanifest _ hout ih => exact List.forall_mem_cons.mpr ⟨⟨hmanifest, hout⟩, ih⟩

/-- Sources that the manifest of an earlier call describes read now as that call read them. -/
theorem texts_of_describes {e : Call × Disk} {paths committed : List String} {d₁ : Disk}
    {t : Tracker}
    {m : Manifest} {laid : Outcome} (hdescribes : m.Describes d paths)
    (hcommits : e.1.Commits e.2 committed d₁ t) (hsame : t.manifest = m)
    (hlays : e.1.Lays e.2 committed d₁ manifest laid)
    (hdiscerning : ∀ path ∈ committed, ∀ content₁ time₁ content time,
      d₁.peek (.ofText path) = .ok (some (.file content₁ time₁)) →
      d.peek (.ofText path) = .ok (some (.file content time)) →
      Digest.ofBytes content = Digest.ofBytes content₁ → content = content₁) :
    ∀ path ∈ paths, path ∈ committed ∧ d.text (.ofText path) = e.2.text (.ofText path) := by
  have hrecord : Tracker.record d₁ [] committed = .ok m.sources := by
    obtain ⟨b₁, full, results, old, b₂, -, -, -, -, -, -, -, hrecorded⟩ := hcommits.recorded
    obtain ⟨rs, made, hrs, -, hmade⟩ := Tracker.recorded_eq_ok_iff.mp hrecorded
    rw [← hsame, hmade]
    exact hrs
  obtain ⟨hpaths, hcontents⟩ := hdescribes.sources_eq hrecord
  intro path hmem
  have hbefore := ((hpaths path).mp hmem).1
  obtain ⟨content, time, content₁, time₁, hpeek, hpeek₁, hdigest⟩ := hcontents path hmem
  obtain rfl := hdiscerning path hbefore content₁ time₁ content time hpeek₁ hpeek hdigest
  obtain ⟨time₀, hpeek₀⟩ := hlays.read path hbefore content time₁ hpeek₁
  refine ⟨hbefore, ?_⟩
  rw [Disk.text, Disk.text, bytes_eq_ok_iff.mpr ⟨time, hpeek⟩, bytes_eq_ok_iff.mpr ⟨time₀, hpeek₀⟩]

/-- Files that an earlier call laid down are on the disk, when they still lead somewhere and the
later calls preserve them. -/
theorem peek_of_lays (h : Guarded manifest out history d) {later earlier : List (Call × Disk)}
    {e : Call × Disk} {committed : List String} {d₁ : Disk} {t : Tracker} {laid : Outcome}
    (hhistory : history = later ++ e :: earlier) (hcommits : e.1.Commits e.2 committed d₁ t)
    (hsome : committed ≠ []) (hlays : e.1.Lays e.2 committed d₁ manifest laid)
    (hpreserves : ∀ x ∈ later, ∀ f ∈ laid.files,
      x.1.Preserves x.2 ((Path.ofText f.path).aim d.home) f.content.toUTF8)
    (hthere : ∀ path ∈ t.manifest.generated.map Prod.fst, d.holds (.ofText path) = .ok true) :
    ∃ proposal, e.1.builder.propose e.2 committed = .ok (proposal, true) ∧
      ∀ f ∈ proposal.files, ∃ time,
        d.peek (.ofText f.path) = .ok (some (.file f.content.toUTF8 time)) := by
  have he : e ∈ history := by simp [hhistory]
  have hhome := h.home_of_mem e he
  obtain ⟨hmanifest, hout⟩ := h.settings_of_mem e he
  obtain ⟨-, hpath⟩ := distinct_of_commits hcommits.recorded rfl
  obtain ⟨proposal, hproposed, hfiles, hleft⟩ :=
    hlays.files_of_commits hcommits hsome (Except.ok.inj (hpath.symm.trans hmanifest))
  refine ⟨proposal, hproposed, fun f hf => ?_⟩
  have hbelow := aim_of_propose hout hproposed hf e.2.home
  rw [hfiles] at hf
  obtain ⟨⟨_, hmade⟩, hplaced⟩ := hleft f hf
  have hplace := hlays.apart f hf
  rw [hhome] at hbelow hplaced hplace
  obtain ⟨time, hget⟩ := h.file_stays rfl hbelow hplace hhistory hplaced fun x hx =>
    hpreserves x hx f hf
  obtain ⟨found, hpeek, hfound⟩ := bind_eq_ok.mp (hthere f.path (Records.mem_keys_of_get? hmade))
  cases found with
  | none => cases hfound
  | some entry =>
    obtain ⟨hfind, -⟩ := peek_eq_some_iff.mp hpeek
    exact ⟨time, peek_eq_some_iff.mpr ⟨hfind, hget⟩⟩

/-- A call that is left out rests on an earlier one of the session that committed the manifest. If
that one rendered at least as much and laid down its files, and the later calls preserve them, then
all that a forced call would write is on the disk byte for byte. If it was as strict too, a forced
call would raise nothing before it writes. -/
theorem current_of_skip (h : Guarded manifest out history d) (c : Call)
    (hmanifest : c.settings.manifest = .ok manifest) (hdiscerning : Session.Discerning history d)
    {o : Outcome} {b' : Builder} (hrun : c.run d = ((.ok o, b'), d'))
    (hskipped : o.skipped = true) :
    d' = d ∧ ∃ paths m, c.builder.resolve d c.sources = .ok paths ∧
      Manifest.load d manifest = .ok m ∧
      (∃ e ∈ history, ∃ committed d₁ t, e.1.Commits e.2 committed d₁ t ∧ t.manifest = m) ∧
      ∀ later e earlier committed d₁ t laid, history = later ++ e :: earlier →
        e.1.Commits e.2 committed d₁ t → t.manifest = m → e.1.Lays e.2 committed d₁ manifest laid →
        (∀ x ∈ later, ∀ f ∈ laid.files,
          x.1.Preserves x.2 ((Path.ofText f.path).aim d.home) f.content.toUTF8) →
        e.1.builder.Covers c.builder →
        (∀ proposal go, c.builder.propose d paths = .ok (proposal, go) →
          (∀ f ∈ proposal.files, ∃ time,
            d.peek (.ofText f.path) = .ok (some (.file f.content.toUTF8 time))) ∧
          ∀ forced b₁ d₁, ({ c with force := true } : Call).run d = ((.ok forced, b₁), d₁) →
            forced.files = proposal.files) ∧
        (e.1.builder.Vets c.builder → ∃ proposal go,
          c.builder.propose d paths = .ok (proposal, go)) := by
  obtain ⟨rfl, -, paths, hresolve, hsome, hsettled⟩ := Builder.skipped_of_generate hrun hskipped
  obtain ⟨-, t, hopen, hdescribes⟩ := Builder.isSettled_eq_true_iff.mp hsettled
  obtain ⟨-, hmemory | ⟨-, hpath, hload⟩⟩ := Builder.withTracker_eq_ok hopen
  · cases hmemory
  rw [Except.ok.inj (hpath.symm.trans hmanifest)] at hload
  obtain ⟨path, hmem⟩ := List.exists_mem_of_ne_nil _ hsome
  have hsources : t.manifest.sources ≠ [] := by
    obtain ⟨-, -, r, -, hr, -⟩ := hdescribes.source path hmem
    intro hnil
    rw [hnil] at hr
    cases hr
  refine ⟨rfl, paths, t.manifest, hresolve, hload, h.session.commits_of_load hload hsources, ?_⟩
  intro later e earlier committed d₁ t₁ laid hhistory hcommits hsame hlays hpreserves hcovers
  have htexts := texts_of_describes hdescribes hcommits hsame hlays
    (hdiscerning e (by simp [hhistory]) committed d₁ t₁ hcommits)
  obtain ⟨full, hfull, hlaid⟩ := h.peek_of_lays hhistory hcommits
    (List.ne_nil_of_mem (htexts path hmem).1) hlays hpreserves (hsame ▸ hdescribes.there)
  refine ⟨fun proposal go hproposal => ⟨fun f hf => ?_, fun forced b₁ d₁ hforced => ?_⟩,
    fun hvets => ?_⟩
  · exact hlaid f (mem_propose_of_covers hcovers htexts hfull hproposal f hf)
  · exact files_of_forced (b := c.builder) hforced hresolve hsome hproposal
  · exact exists_propose_of_covers hcovers hvets htexts hfull

/-! ## Sample sessions -/

/-- A call that writes the machine module alone. -/
def modulesCall : Call where
  settings := modulesOnly.settings
  sources := some ["a.md"]

/-- The disk of the first call. -/
def firstDisk : Disk := .withSource "a.md" "graph TD\nA-->B"

theorem run_modulesCall : modulesCall.run firstDisk = firstRun := rfl

theorem resolve_firstDisk :
    modulesCall.builder.resolve firstDisk modulesCall.sources = .ok ["a.md"] := by
  decide

theorem firstDisk_manifest : firstDisk.get? ((Path.ofText sampleManifest).aim ["work"]) = none := by
  rw [← Option.isNone_iff_eq_none]
  decide

theorem firstRun_written : (firstRun.1.1.toOption.any (fun o => o.writes.all WriteResult.written) &&
    firstRun.1.2.tracker.any (fun t => Json.fits (.int t.manifest.lastUpdate) &&
      t.manifest.sources.all (Json.fits ·.2.toDatum) &&
      t.manifest.generated.all (Json.fits <| .int ·.2.modified) &&
      t.manifest.generated.map Prod.fst == ["generated/user-services/a_machine.py"])) = true := by
  decide +kernel

theorem firstRead_size : (modulesOnly.readPaths firstDisk ["a.md"]).toOption.any (fun read =>
    read.1.all fun x =>
      decide ((Emit.machineModule (Machine.derive {} x)).utf8ByteSize ≤ 10000)) = true := by
  -- the lines are measured one by one, as the whole text takes far longer to evaluate
  simp only [Emit.machineModule, Emit.utf8ByteSize_document]
  decide +kernel

theorem guarded_firstRun :
    Guarded (.ofText sampleManifest) (.ofText "generated") [(modulesCall, firstDisk)]
      firstRun.2 := by
  refine .call (.start ?_) modulesCall rfl (by rintro ⟨⟩) rfl
  intro content time
  show firstDisk.get? ((Path.ofText sampleManifest).aim ["work"]) ≠ _
  simp [firstDisk_manifest]

/-- The first call wrote one module. -/
theorem exists_firstRun : ∃ o f, firstRun = ((.ok o, firstRun.1.2), firstRun.2) ∧ o.success = true ∧
    o.skipped = false ∧ o.writes.all WriteResult.written = true ∧ o.files = [f] ∧
    f.path = "generated/user-services/a_machine.py" := by
  have hfacts := firstRun_facts
  have hmore := firstRun_written
  simp only [Bool.and_assoc, Bool.and_eq_true, beq_iff_eq] at hfacts hmore
  obtain ⟨o, hrun, ho⟩ := exists_outcome hfacts.1
  simp only [Bool.and_eq_true, Bool.not_eq_true', beq_iff_eq] at ho
  obtain ⟨hsuccess, -, hskipped, hfiles⟩ := ho
  obtain ⟨f, hf, hpath⟩ := List.map_eq_singleton_iff.mp hfiles
  have hwritten := hmore.1
  rw [hrun] at hwritten
  exact ⟨o, f, hrun, hsuccess, hskipped, hwritten, hf, hpath⟩

theorem size_firstRun {o : Outcome} (hrun : firstRun = ((.ok o, firstRun.1.2), firstRun.2))
    (hsuccess : o.success = true) (hskipped : o.skipped = false) {f : OutputFile}
    (hf : f ∈ o.files) :
    f.content.utf8ByteSize ≤ 10000 := by
  obtain ⟨paths, read, -, hresolve, hread, -, -, hall⟩ :=
    files_of_generate hrun (List.isEmpty_iff.mp hsuccess) hskipped
  obtain rfl : paths = ["a.md"] := Except.ok.inj (hresolve.symm.trans resolve_firstDisk)
  obtain ⟨read', hread', hsize⟩ := (Option.any_eq_true _ _).mp firstRead_size
  obtain rfl : read' = read := Except.ok.inj ((eq_ok_of_toOption hread').symm.trans hread)
  have hdocuments : modulesOnly.documents = [.machine] := by decide
  rw [hall, filesOf, hdocuments] at hf
  obtain ⟨x, hx, hmodule⟩ := List.mem_flatMap.mp hf
  rw [List.map_singleton, List.mem_singleton] at hmodule
  have hshort := List.all_eq_true.mp hsize x hx
  rw [decide_eq_true_eq] at hshort
  have hcontent : f.content = Emit.machineModule (Machine.derive {} x) := by
    rw [hmodule, Document.file, Document.text]
  rw [hcontent]
  exact hshort

/-- The first call laid down its module. -/
theorem lays_firstRun {committed : List String} {d₁ : Disk} {t : Tracker} {o : Outcome}
    (hrun : firstRun = ((.ok o, firstRun.1.2), firstRun.2))
    (hcommits : modulesCall.Commits firstDisk committed d₁ t) :
    modulesCall.Lays firstDisk committed d₁ (.ofText sampleManifest) o := by
  obtain ⟨o', f, hrun', -, -, hwritten, hfiles, hname⟩ := exists_firstRun
  obtain rfl : o' = o := by
    rw [hrun] at hrun'
    cases hrun'
    rfl
  refine ⟨?_, hwritten, ?_, ?_, ?_⟩
  · rw [run_modulesCall, hrun]
  · rw [hfiles, List.forall_mem_singleton, List.forall_mem_singleton]
    rintro bytes (⟨-, rfl⟩ | ⟨⟨⟩, -⟩)
    rfl
  · rw [hfiles, List.forall_mem_singleton, hname]
    decide
  · have hresolve := hcommits.recorded.resolve_eq
    obtain rfl := Except.ok.inj (hresolve.symm.trans resolve_firstDisk)
    obtain ⟨b₁, proposal, results, old, b₂, -, hsettled, hproposed, hwritten₁, -⟩ :=
      hcommits.recorded
    have hevolves := b₁.confined_writeFiles firstDisk.home proposal.files firstDisk rfl
    rw [hwritten₁, settings_of_isSettled hsettled] at hevolves
    rw [List.forall_mem_singleton]
    intro content time hpeek
    have hget := (peek_eq_some_iff.mp hpeek).2
    rw [hevolves.home_eq] at hget
    refine ⟨time, peek_eq_some_iff.mpr ⟨by decide, hevolves.file_of_not hget ?_⟩⟩
    rintro ⟨g, hg, ⟨hplace, -⟩ | ⟨⟨⟩, -⟩⟩
    have hout : BuildSettings.pathOf b₁.settings.outputDir = .ok (.ofText "generated") := by
      rw [settings_of_isSettled hsettled]
      rfl
    have hbelow := aim_of_propose hout hproposed hg firstDisk.home
    rw [← hplace] at hbelow
    revert hbelow
    decide

/-- What the first call puts on record can be read back. -/
theorem fits_firstRun {committed : List String} {d₁ : Disk} {t : Tracker}
    (hcommits : modulesCall.Commits firstDisk committed d₁ t)
    (htracker : firstRun.1.2.tracker = some t)
    (hpath : t.path = .ofText sampleManifest) : Json.fits t.manifest.toDatum = true := by
  obtain ⟨o, f, hrun, hsuccess, hskipped, -, hfiles, hname⟩ := exists_firstRun
  have hmore := firstRun_written
  rw [htracker] at hmore
  simp only [Option.any_some, Bool.and_eq_true, beq_iff_eq] at hmore
  obtain ⟨-, ⟨⟨hupdate, hsources⟩, htimes⟩, hkeys⟩ := hmore
  obtain rfl := Except.ok.inj (hcommits.recorded.resolve_eq.symm.trans resolve_firstDisk)
  obtain ⟨-, -, -, hleft⟩ := (lays_firstRun hrun hcommits).files_of_commits hcommits (by simp) hpath
  have hf : f ∈ o.files := by simp [hfiles]
  obtain ⟨⟨time, hget⟩, -⟩ := hleft f hf
  obtain ⟨⟨path, r⟩, hgenerated, rfl⟩ := List.map_eq_singleton_iff.mp hkeys
  rw [hgenerated] at htimes hget
  obtain rfl : r = .ofFile f.path f.content.toUTF8 time := by
    rw [← hname, Records.get?, List.lookup_cons_self] at hget
    exact Option.some.inj hget
  have hsize : Json.fits (.int f.content.utf8ByteSize) = true := by
    have hfew : Json.fits (.int 10000) = true := by decide
    exact Json.fits_int_of_le (m := 10000) (size_firstRun hrun hsuccess hskipped hf) hfew
  have hrecord : Json.fits (Fingerprint.ofFile f.path f.content.toUTF8 time).toDatum = true := by
    rw [List.all_cons, List.all_nil, Bool.and_true] at htimes
    rw [Manifest.fits_fingerprint, htimes]
    exact hsize
  rw [Manifest.fits_toDatum, hupdate, hsources, hgenerated, List.all_cons, hrecord]
  rfl

/-- Whatever they would render, calls of the same source with the same manifest are left out after
the first one. -/
theorem skip_after_firstRun {c : Call} (hsources : c.sources = some ["a.md"])
    (hforce : c.force = false)
    (hmanifest : c.settings.manifest = .ok (.ofText sampleManifest))
    (hincremental : c.settings.incremental.truthy = true)
    (hdry : c.settings.dryRun.truthy = false) :
    ∃ b', c.run firstRun.2 = ((.ok { skipped := true }, b'), firstRun.2) := by
  have hfacts := firstRun_facts
  simp only [Bool.and_assoc, Bool.and_eq_true, beq_iff_eq] at hfacts
  obtain ⟨-, htracker, hsource, htime, hclock, hhome, hresolve⟩ := hfacts
  obtain ⟨o, f, hrun, hsuccess, hskipped, hwritten, hfiles, hname⟩ := exists_firstRun
  obtain ⟨t, htracker, ht⟩ := (Option.any_eq_true _ _).mp htracker
  simp only [Bool.and_eq_true, beq_iff_eq] at ht
  obtain ⟨hpath, hthere⟩ := ht
  obtain ⟨content, hpeek⟩ := exists_peek_of_timeOf? hsource
  have hwrites := Call.success_of_written hwritten
  have hnames : o.files.map (·.path) = ["generated/user-services/a_machine.py"] := by
    rw [hfiles, List.map_singleton, hname]
  have hbytes : firstRun.2.bytes t.path = .ok t.manifest.render.toUTF8 :=
    bytes_of_sample (d := firstDisk) hrun hsuccess hwrites rfl hskipped hnames htracker
      hpath rfl htime
      (by simp [firstDisk_manifest]) (by decide)
  obtain ⟨committed, d₁, hcommits, -⟩ :=
    commits_of_generate hrun (List.isEmpty_iff.mp hsuccess) hwrites rfl hskipped htracker
  have hsaved : ∃ time, firstRun.2.get? (t.path.aim firstDisk.home) =
      some (.file t.manifest.render.toUTF8 time) := by
    obtain ⟨time, hpeek⟩ := bytes_eq_ok_iff.mp hbytes
    obtain ⟨-, hget⟩ := peek_eq_some_iff.mp hpeek
    rw [hhome] at hget
    exact ⟨time, hget⟩
  have hfits := fits_firstRun ⟨hcommits, hsaved⟩ htracker hpath
  obtain ⟨hdistinct, -⟩ := distinct_of_commits hcommits rfl
  have hload : c.builder.withTracker firstRun.2 = .ok (t, { c.builder with tracker := some t }) :=
    withTracker_of_saved rfl (hpath ▸ hmanifest) hdistinct hbytes hfits
  have hdescribes : t.manifest.Describes firstRun.2 ["a.md"] := by
    refine (describes_of_generate ["a.md"] hrun hsuccess hwrites rfl resolve_firstDisk ?_
      htracker).mpr
      ⟨fun _ => Iff.rfl, ?_, Tracker.allThere_eq_true_iff.mp (eq_ok_of_toOption hthere)⟩
    · rw [List.forall_mem_singleton, hclock]
      exact ⟨content, 500, hpeek, by decide⟩
    · rw [List.forall_mem_singleton, hpath, hhome]
      exact fun hplace => absurd hplace (by decide)
  have hnow : c.builder.resolve firstRun.2 c.sources = .ok ["a.md"] := by
    rw [hsources]
    exact eq_ok_of_toOption hresolve
  rw [Call.run, hforce]
  exact (skip_iff_describes hload hincremental hdry).mpr ⟨["a.md"], hnow, by simp, hdescribes⟩

theorem current_of_skip_first : ∃ b' proposal go,
    Session.keepingCall.run firstRun.2 = ((.ok { skipped := true }, b'), firstRun.2) ∧
    Session.keepingCall.builder.propose firstRun.2 ["a.md"] = .ok (proposal, go) ∧
    ∀ f ∈ proposal.files, ∃ time,
      firstRun.2.peek (.ofText f.path) = .ok (some (.file f.content.toUTF8 time)) := by
  obtain ⟨o, f, hrun, -⟩ := exists_firstRun
  obtain ⟨b', hskip⟩ := skip_after_firstRun (c := Session.keepingCall) rfl rfl rfl rfl rfl
  have hdiscerning : Session.Discerning [(modulesCall, firstDisk)] firstRun.2 :=
    Session.discerning_of_call modulesCall resolve_firstDisk rfl (by decide)
  obtain ⟨-, paths, m, hresolve, -, ⟨e, he, committed, d₁, t, hcommits, hsame⟩, hcurrent⟩ :=
    current_of_skip guarded_firstRun Session.keepingCall rfl hdiscerning hskip rfl
  obtain rfl := List.mem_singleton.mp he
  have hnow : Session.keepingCall.builder.resolve firstRun.2 Session.keepingCall.sources =
      .ok ["a.md"] := by
    have hfacts := firstRun_facts
    simp only [Bool.and_assoc, Bool.and_eq_true, beq_iff_eq] at hfacts
    exact eq_ok_of_toOption hfacts.2.2.2.2.2.2
  obtain rfl := Except.ok.inj (hresolve.symm.trans hnow)
  have hcovers : modulesCall.builder.Covers Session.keepingCall.builder :=
    ⟨rfl, rfl, fun _ h => h, rfl, fun h => h⟩
  obtain ⟨hthere, hsome⟩ := hcurrent [] _ [] committed d₁ t o rfl hcommits hsame
    (lays_firstRun hrun hcommits) (by simp) hcovers
  obtain ⟨proposal, go, hproposal⟩ := hsome ⟨fun h => h, fun h => ⟨h, rfl⟩⟩
  exact ⟨b', proposal, go, hskip, hproposal, (hthere proposal go hproposal).1⟩

/-- A call that writes the machine module and its demo. -/
def demoCall : Call where
  settings := { modulesOnly.settings with generateDemos := .bool true }
  sources := some ["a.md"]

theorem demoCall_proposal : (demoCall.builder.propose firstRun.2 ["a.md"]).toOption.any (fun p =>
    p.1.files.any fun f => (firstRun.2.holds (.ofText f.path)).toOption == some false) = true := by
  decide +kernel

/-- The call is left out, and the demo that it asks for is not there. -/
theorem exists_skip_without_file : ∃ b' proposal go f,
    Guarded (.ofText sampleManifest) (.ofText "generated") [(modulesCall, firstDisk)] firstRun.2 ∧
    demoCall.settings.manifest = .ok (.ofText sampleManifest) ∧
    BuildSettings.pathOf demoCall.settings.outputDir = .ok (.ofText "generated") ∧
    demoCall.run firstRun.2 = ((.ok { skipped := true }, b'), firstRun.2) ∧
    demoCall.builder.propose firstRun.2 ["a.md"] = .ok (proposal, go) ∧ f ∈ proposal.files ∧
    firstRun.2.holds (.ofText f.path) = .ok false := by
  obtain ⟨b', hskip⟩ := skip_after_firstRun (c := demoCall) rfl rfl rfl rfl rfl
  obtain ⟨⟨proposal, go⟩, hproposal, hmissing⟩ := (Option.any_eq_true _ _).mp demoCall_proposal
  obtain ⟨f, hf, hholds⟩ := List.any_eq_true.mp hmissing
  exact ⟨b', proposal, go, f, guarded_firstRun, rfl, rfl, hskip, eq_ok_of_toOption hproposal, hf,
    eq_ok_of_toOption (beq_iff_eq.mp hholds)⟩

end Guarded

end FlowMachine

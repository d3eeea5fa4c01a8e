import FlowMachine.Manifest.Tracker
import FlowMachine.Proofs.Disk

/-!
# Where acts put bytes

An act is confined to what may be put where. Sequences of confined acts are confined, and so are the
acts that make directories, write an output file with its kept copy, and save a manifest.
-/
namespace FlowMachine.Act

open FlowMachine.Disk

variable {α β : Type} {home : Location} {W V : Location → ByteArray → Prop}

theorem run_bind (act : Act α) (f : α → Act β) (d : Disk) :
    (act >>= f).run.run d = match act.run.run d with
      | (.ok a, d₁) => (f a).run.run d₁
      | (.error fault, d₁) => (.error fault, d₁) := by
  simp only [ExceptT.run, StateT.run, bind, ExceptT.bind, ExceptT.mk, StateT.bind, ExceptT.bindCont]
  cases act d with
  | mk result d₁ => cases result <;> rfl

theorem run_get (d : Disk) : (get : Act Disk).run.run d = (.ok d, d) := rfl

theorem run_tryCatch (act : Act α) (handle : Fault → Act α) (d : Disk) :
    (tryCatch act handle).run.run d = match act.run.run d with
      | (.ok a, d₁) => (.ok a, d₁)
      | (.error fault, d₁) => (handle fault).run.run d₁ := by
  simp only [tryCatch, tryCatchThe, MonadExceptOf.tryCatch, ExceptT.tryCatch, ExceptT.mk,
    ExceptT.run, StateT.run, bind, StateT.bind]
  rcases act d with ⟨fault | a, d₁⟩ <;> rfl

theorem run_look (f : Disk → Except Fault α) (d : Disk) : (look f).run.run d = (f d, d) := by
  unfold look
  rw [run_bind, run_get]
  dsimp only
  cases f d <;> rfl

theorem run_change (f : Disk → Except Fault Disk) (d : Disk) :
    (change f).run.run d = match f d with
      | .ok d' => (.ok (), d')
      | .error fault => (.error fault, d) := by
  unfold change
  rw [run_bind, run_get]
  dsimp only
  cases f d <;> rfl

theorem run_attempt (act : Act α) (d : Disk) :
    (attempt act).run.run d = match act.run.run d with
      | (.ok a, d') => (.ok (.ok a), d')
      | (.error (.file e shown), d') => (.ok (.error (.file e shown)), d')
      | (.error fault, d') => (.error fault, d') := by
  unfold attempt
  rw [run_tryCatch, run_bind]
  rcases act.run.run d with ⟨fault | a, d'⟩
  · cases fault <;> rfl
  · rfl

/-- From whatever disk the act starts, it makes directories and puts bytes as `W` allows, and does
nothing else. -/
def Confined (home : Location) (W : Location → ByteArray → Prop) (act : Act α) : Prop :=
  ∀ d : Disk, d.home = home → d.Evolves W (act.run.run d).2

namespace Confined

theorem mono {act : Act α} (h : Confined home W act)
    (hWV : ∀ place content, W place content → V place content) : Confined home V act :=
  fun d hd => (h d hd).mono hWV

theorem pure (a : α) : Confined home W (Pure.pure a : Act α) := fun d _ => .refl W d

theorem throw (fault : Fault) : Confined home W (MonadExcept.throw fault : Act α) :=
  fun d _ => .refl W d

theorem bind {act : Act α} {f : α → Act β} (h : Confined home W act)
    (hf : ∀ a, Confined home W (f a)) : Confined home W (act >>= f) := by
  intro d hd
  have hfirst := h d hd
  rw [run_bind]
  rcases hrun : act.run.run d with ⟨fault | a, d₁⟩
  · rw [hrun] at hfirst
    exact hfirst
  · rw [hrun] at hfirst
    exact hfirst.trans (hf a d₁ (hfirst.home_eq.trans hd))

theorem attempt {act : Act α} (h : Confined home W act) : Confined home W (attempt act) := by
  intro d hd
  have hact := h d hd
  rw [run_attempt]
  rcases hrun : act.run.run d with ⟨fault | a, d₁⟩
  · rw [hrun] at hact
    cases fault <;> exact hact
  · rw [hrun] at hact
    exact hact

theorem look (f : Disk → Except Fault α) : Confined home W (look f) := by
  intro d _
  rw [run_look]
  exact .refl W d

theorem change {f : Disk → Except Fault Disk}
    (h : ∀ d d' : Disk, d.home = home → f d = .ok d' → d.Evolves W d') :
    Confined home W (change f) := by
  intro d hd
  rw [run_change]
  cases hf : f d with
  | error fault => exact .refl W d
  | ok d' => exact h d d' hd hf

end Confined

/-! ## Directories -/

theorem evolves_of_makeDirectory {d d' : Disk} {p : Path} (h : d.makeDirectory p = .ok d') :
    d.Evolves W d' := by
  unfold makeDirectory at h
  rw [bind_eq_ok] at h
  obtain ⟨place, -, h⟩ := h
  split at h
  · cases h
  · rename_i hnone
    obtain rfl := pure_eq_ok.mp h
    exact evolves_set_directory hnone

theorem confined_admitDirectory (p : Path) : Confined home W (admitDirectory p) := by
  unfold admitDirectory
  refine .bind (.attempt (.change fun d d' _ h => evolves_of_makeDirectory h)) ?_
  rintro (fault | -)
  · show Confined home W (if fault == .file .missing p.toText then throw fault else _)
    split_ifs
    · exact .throw fault
    · refine .bind (.look _) fun there => ?_
      split_ifs
      · exact .throw fault
      · exact .pure _
  · exact .pure _

theorem confined_makeDirectories (root : Nat) (names : List String) :
    Confined home W (makeDirectories root names) := by
  induction names with
  | nil => exact confined_admitDirectory _
  | cons name above ih =>
    unfold makeDirectories
    refine .bind (.attempt (confined_admitDirectory _)) ?_
    rintro (fault | -)
    · show Confined home W (if fault == .file .missing _ then _ else throw fault)
      split_ifs
      · exact .bind ih fun _ => confined_admitDirectory _
      · exact .throw fault
    · exact .pure _

theorem confined_ensureDirectory (p : Path) : Confined home W (ensureDirectory p) :=
  confined_makeDirectories _ _

end FlowMachine.Act

namespace FlowMachine

open FlowMachine.Disk

/-! ## Files -/

/-- A file is found nowhere at the root, which is a directory. -/
theorem Disk.ne_nil_of_get? {d : Disk} {place : Location} (h : d.get? place ≠ some .directory) :
    place ≠ [] := by
  rintro rfl
  exact h (by simp [get?])

/-- Bytes are written where no directory is. -/
theorem Disk.write_eq_ok_iff {d d' : Disk} {p : Path} {content : ByteArray} :
    d.write p content = .ok d' ↔ ∃ place, d.find p = .ok place ∧
      d.get? place ≠ some .directory ∧ d' = d.set place (.file content d.clock) := by
  unfold write
  rw [bind_eq_ok]
  refine exists_congr fun place => and_congr_right fun _ => ?_
  split
  · rename_i hdir
    exact ⟨fun h => (nomatch h), fun h => absurd hdir h.1⟩
  · rename_i hnot
    exact pure_eq_ok.trans ⟨fun h => ⟨fun hdir => hnot hdir, h.symm⟩, fun h => h.2.symm⟩

theorem Disk.evolves_of_write {d d' : Disk} {p : Path} {content : ByteArray}
    (h : d.write p content = .ok d') :
    d.Evolves (fun place bytes => place = p.aim d.home ∧ bytes = content) d' := by
  obtain ⟨place, hfind, hdir, rfl⟩ := write_eq_ok_iff.mp h
  exact evolves_set (ne_nil_of_get? hdir) ⟨eq_aim_of_find hfind, rfl⟩ hdir

theorem Disk.peek_of_write {d d' : Disk} {p : Path} {content : ByteArray}
    (h : d.write p content = .ok d') : d'.peek p = .ok (some (.file content d.clock)) := by
  have hevolves := evolves_of_write h
  obtain ⟨place, hfind, hdir, rfl⟩ := write_eq_ok_iff.mp h
  rw [peek_eq_some_iff, hevolves.home_eq, ← eq_aim_of_find hfind]
  exact ⟨hevolves.find_eq_ok hfind, get?_set_self d (ne_nil_of_get? hdir) _⟩

/-- What is written second takes the place of what was written first. -/
theorem Disk.write_of_write {d d₁ : Disk} {p : Path} {content : ByteArray}
    (h : d.write p content = .ok d₁) (next : ByteArray) : d₁.write p next = d.write p next := by
  have hevolves := evolves_of_write h
  obtain ⟨place, hfind, hdir, rfl⟩ := write_eq_ok_iff.mp h
  have hthere := get?_set_self d (ne_nil_of_get? hdir) (.file content d.clock)
  have hput : (d.set place (.file content d.clock)).set place (.file next d.clock) =
      d.set place (.file next d.clock) := by
    simp [set, List.filter_filter]
  rw [write_eq_ok_iff.mpr ⟨place, hfind, hdir, rfl⟩, write_eq_ok_iff]
  exact ⟨place, hevolves.find_eq_ok hfind, by simp [hthere], hput.symm⟩

/-- Whether a file can be written does not depend on its bytes. -/
theorem Disk.write_eq_error {d : Disk} {p : Path} {content : ByteArray} {fault : Fault}
    (h : d.write p content = .error fault) (next : ByteArray) : d.write p next = .error fault := by
  unfold write at h ⊢
  rcases bind_eq_error.mp h with hfind | ⟨place, hfind, hplace⟩
  · rw [hfind]
    rfl
  · rw [hfind]
    rcases hget : d.get? place with _ | (_ | ⟨bytes, time⟩) <;> rw [hget] at hplace <;> cases hplace
    exact bind_eq_error.mpr (.inr ⟨place, rfl, by rw [hget]; rfl⟩)

/-- Where a copy can end up: under its own path, or in a directory that is there. -/
def Path.copyAims (home : Location) (source target : Path) : List Location :=
  [target.aim home, (target.join ⟨0, [source.name]⟩).aim home]

theorem Disk.evolves_of_copy {d d' : Disk} {source target : Path}
    (h : d.copy source target = .ok d') :
    d.Evolves (fun place _ => place ∈ Path.copyAims d.home source target) d' := by
  unfold copy at h
  simp only at h
  rw [bind_eq_ok] at h
  obtain ⟨e, -, h⟩ := h
  cases e with
  | directory => cases h
  | file content modified =>
    simp only [bind_eq_ok] at h
    obtain ⟨place, hfind, h⟩ := h
    split at h
    · cases h
    · rename_i hnot
      obtain rfl := pure_eq_ok.mp h
      have hdir : d.get? place ≠ some .directory := fun hdir => hnot hdir
      refine evolves_set (ne_nil_of_get? hdir) ?_ hdir
      rw [eq_aim_of_find hfind]
      split_ifs <;> simp [Path.copyAims]

namespace FileWriter

theorem confined_keepCopy (home : Location) (p : Path) (there backup : Bool) :
    Act.Confined home (fun place _ => backup = true ∧ place ∈ Path.copyAims home p (backupPath p))
      (keepCopy p there backup) := by
  unfold keepCopy
  split_ifs with hkept
  · have hbackup := (Bool.and_eq_true_iff.mp hkept).2
    refine .bind (.change ?_) fun _ => .pure _
    rintro d d' rfl h
    exact (evolves_of_copy h).mono fun _ _ hplace => ⟨hbackup, hplace⟩
  · exact .pure _

theorem run_keepCopy (p : Path) (there backup : Bool) (d : Disk) :
    (keepCopy p there backup).run.run d =
      if there && backup then
        match d.copy p (backupPath p) with
        | .error fault => (.error fault, d)
        | .ok d₁ => (.ok (some (backupPath p)), d₁)
      else (.ok none, d) := by
  unfold keepCopy
  split_ifs
  · rw [Act.run_bind, Act.run_change]
    cases d.copy p (backupPath p) <;> rfl
  · rfl

theorem run_encoded {α : Type} (result : Except Text.EncodeFlaw α) (d : Disk) :
    (encoded result).run.run d = (result.mapError .unencodable, d) := by
  cases result <;> rfl

/-- A file is opened, then its text is turned into bytes, and the bytes are written. -/
theorem run_store (w : FileWriter) (f : TextFile) (p : Path) (d : Disk) :
    (w.store f p).run.run d = match d.write p .empty with
      | .error fault => (.error fault, d)
      | .ok d₁ => match w.encode f.content with
        | .error flaw => (.error (.unencodable flaw), d₁)
        | .ok bytes => match d₁.write p bytes with
          | .error fault => (.error fault, d₁)
          | .ok d₂ => (.ok (), d₂) := by
  unfold store
  rw [Act.run_bind, Act.run_change]
  rcases d.write p .empty with fault | d₁
  · rfl
  · dsimp only
    rw [Act.run_bind, run_encoded]
    rcases w.encode f.content with flaw | bytes
    · rfl
    · dsimp only [Except.mapError]
      rw [Act.run_change]
      cases d₁.write p bytes <;> rfl

/-- A text is put in place after what is there is copied and its directories are made. -/
theorem run_place (w : FileWriter) (f : TextFile) (p : Path) (there overwrite backup : Bool)
    (d : Disk) :
    (w.place f p there overwrite backup).run.run d =
      if there && !overwrite then (.ok .kept, d)
      else match (keepCopy p there backup).run.run d with
        | (.error fault, d₀) => (.error fault, d₀)
        | (.ok kept, d₀) =>
          match (Act.ensureDirectory p.parent).run.run d₀ with
          | (.error fault, d₁) => (.error fault, d₁)
          | (.ok (), d₁) =>
            match (w.store f p).run.run d₁ with
            | (.error fault, d₂) => (.error fault, d₂)
            | (.ok (), d₂) => match f.size with
              | .error flaw => (.error (.unencodable flaw), d₂)
              | .ok size => (.ok (.written size kept), d₂) := by
  unfold place
  split_ifs
  · rfl
  · rw [Act.run_bind]
    rcases (keepCopy p there backup).run.run d with ⟨fault | kept, d₀⟩
    · rfl
    · dsimp only
      rw [Act.run_bind]
      rcases (Act.ensureDirectory p.parent).run.run d₀ with ⟨fault | _, d₁⟩
      · rfl
      · dsimp only
        rw [Act.run_bind]
        rcases (w.store f p).run.run d₁ with ⟨fault | _, d₂⟩
        · rfl
        · dsimp only
          rw [Act.run_bind, run_encoded]
          cases f.size <;> rfl

theorem run_settle (w : FileWriter) (f : TextFile) (p : Path) (overwrite backup : Bool) (d : Disk) :
    (w.settle f p overwrite backup).run.run d =
      match d.peek p with
      | .error fault => (.error fault, d)
      | .ok (some .directory) => (.ok .blocked, d)
      | .ok there => (w.place f p there.isSome overwrite backup).run.run d := by
  unfold settle
  rw [Act.run_bind, Act.run_look]
  rcases d.peek p with fault | (_ | (_ | ⟨content, time⟩)) <;> rfl

/-- Where no directory is, the text is put in place. -/
theorem run_settle_of_peek (w : FileWriter) (f : TextFile) {p : Path} (overwrite backup : Bool)
    {d : Disk} {found : Option Entry} (hpeek : d.peek p = .ok found)
    (hfile : found ≠ some .directory) :
    (w.settle f p overwrite backup).run.run d =
      (w.place f p found.isSome overwrite backup).run.run d := by
  rw [run_settle, hpeek]
  rcases found with _ | (_ | ⟨content, time⟩)
  · rfl
  · exact absurd rfl hfile
  · rfl

theorem run_write (w : FileWriter) (f : TextFile) (overwrite backup : Bool) (d : Disk) :
    (w.write f overwrite backup).run.run d =
      match (w.settle f (.ofText f.path) overwrite backup).run.run d with
      | (.ok outcome, d') => (.ok ⟨.ofText f.path, outcome⟩, d')
      | (.error (.file e shown), d') => (.ok ⟨.ofText f.path, .refused (.file e shown)⟩, d')
      | (.error fault, d') => (.error fault, d') := by
  unfold write
  dsimp only
  rw [Act.run_bind, Act.run_attempt]
  rcases (w.settle f (.ofText f.path) overwrite backup).run.run d with ⟨fault | outcome, d'⟩
  · cases fault <;> rfl
  · rfl

end FileWriter

namespace OutputFile

/-! ## Files of builds -/

/-- Puts the file in place, where no directory is. -/
abbrev place (f : OutputFile) := ({} : FileWriter).place f.textFile

/-- Writes the file, or leaves what is there. -/
abbrev settle (f : OutputFile) := ({} : FileWriter).settle f.textFile

theorem run_settle (f : OutputFile) (p : Path) (overwrite backup : Bool) (d : Disk) :
    (f.settle p overwrite backup).run.run d =
      match d.peek p with
      | .error fault => (.error fault, d)
      | .ok (some .directory) => (.ok .blocked, d)
      | .ok there => (f.place p there.isSome overwrite backup).run.run d :=
  FileWriter.run_settle {} f.textFile p overwrite backup d

theorem run_write (f : OutputFile) (overwrite backup : Bool) (d : Disk) :
    (f.write overwrite backup).run.run d =
      match (f.settle (.ofText f.path) overwrite backup).run.run d with
      | (.ok outcome, d') => (.ok ⟨.ofText f.path, outcome⟩, d')
      | (.error (.file e shown), d') => (.ok ⟨.ofText f.path, .refused (.file e shown)⟩, d')
      | (.error fault, d') => (.error fault, d') :=
  FileWriter.run_write {} f.textFile overwrite backup d

/-- A text without lone surrogates is stored as if its bytes were put there at once. -/
theorem store_textFile (f : OutputFile) (p : Path) :
    ({} : FileWriter).store f.textFile p = Act.change (·.write p f.content.toUTF8) := by
  refine funext fun d => ?_
  have hencode : ({} : FileWriter).encode f.textFile.content = .ok f.content.toUTF8 := rfl
  have hrun : (({} : FileWriter).store f.textFile p).run.run d =
      (Act.change (·.write p f.content.toUTF8)).run.run d := by
    rw [FileWriter.run_store, Act.run_change, hencode]
    cases hempty : d.write p .empty with
    | error fault =>
      rw [write_eq_error hempty]
    | ok d₁ =>
      obtain ⟨place, hfind, hdir, -⟩ := write_eq_ok_iff.mp hempty
      have hput := write_eq_ok_iff.mpr
        ⟨place, hfind, hdir, (rfl : _ = d.set place (.file f.content.toUTF8 d.clock))⟩
      simp only [write_of_write hempty, hput]
  exact hrun

theorem size_textFile (f : OutputFile) : f.textFile.size = .ok f.size := rfl

/-- What writing a file may put where: its text under its path, and, when copies are kept, anything
under the path of its copy. -/
def Puts (home : Location) (backup : Bool) (f : OutputFile) (place : Location)
    (content : ByteArray) :
    Prop :=
  (place = (Path.ofText f.path).aim home ∧ content = f.content.toUTF8) ∨
    (backup = true ∧ place ∈ Path.copyAims home (.ofText f.path) (backupPath (.ofText f.path)))

/-- A file is put in place after what is there is copied and its directories are made. -/
theorem place_eq (f : OutputFile) (p : Path) (there overwrite backup : Bool) :
    f.place p there overwrite backup = if there && !overwrite then pure .kept else do
      let kept ← FileWriter.keepCopy p there backup
      Act.ensureDirectory p.parent
      Act.change (·.write p f.content.toUTF8)
      return .written f.size kept := by
  rw [place, FileWriter.place, store_textFile, size_textFile]
  rfl

theorem confined_write (home : Location) (f : OutputFile) (overwrite backup : Bool) :
    Act.Confined home (f.Puts home backup) (f.write overwrite backup) := by
  have hcopy (there : Bool) :
      Act.Confined home (f.Puts home backup) (FileWriter.keepCopy (.ofText f.path) there backup) :=
    (FileWriter.confined_keepCopy home _ there backup).mono fun _ _ h => .inr h
  have hplace (there : Bool) :
      Act.Confined home (f.Puts home backup) (f.place (.ofText f.path) there overwrite backup) := by
    rw [place_eq]
    split_ifs
    · exact .pure _
    · refine .bind (hcopy there) fun _ => .bind (Act.confined_ensureDirectory _) fun _ =>
        .bind (.change ?_) fun _ => .pure _
      rintro d d' rfl h
      exact (evolves_of_write h).mono fun _ _ h => .inl h
  have hsettle : Act.Confined home (f.Puts home backup)
      (f.settle (.ofText f.path) overwrite backup) := by
    unfold settle FileWriter.settle
    refine .bind (.look _) fun there => ?_
    split
    · exact .pure _
    · exact hplace _
  unfold write FileWriter.write
  refine .bind (.attempt hsettle) ?_
  rintro (fault | outcome) <;> exact .pure _

/-- What is there already is kept, or the text of the file is put in its place. -/
theorem place_cases {f : OutputFile} {p : Path} {there overwrite backup : Bool} {d d' : Disk}
    {outcome : WriteOutcome}
    (h : (f.place p there overwrite backup).run.run d = (.ok outcome, d')) :
    (there = true ∧ outcome = .kept ∧ d' = d) ∨
      ∃ time, d'.peek p = .ok (some (.file f.content.toUTF8 time)) := by
  rw [place_eq] at h
  split_ifs at h with hkept
  · cases h
    exact .inl ⟨(Bool.and_eq_true_iff.mp hkept).1, rfl, rfl⟩
  · rw [Act.run_bind] at h
    split at h
    swap
    · cases h
    rw [Act.run_bind] at h
    split at h
    swap
    · cases h
    rw [Act.run_bind, Act.run_change] at h
    split at h
    swap
    · cases h
    rename_i hwrite
    split at hwrite
    · rename_i d₁ d₂ hok
      cases hwrite
      cases h
      exact .inr ⟨_, peek_of_write hok⟩
    · cases hwrite

/-- Where no directory is, a file is kept or put in place. -/
theorem settle_cases {f : OutputFile} {p : Path} {overwrite backup : Bool} {d d' : Disk}
    {outcome : WriteOutcome} (h : (f.settle p overwrite backup).run.run d = (.ok outcome, d'))
    (hblocked : outcome ≠ .blocked) :
    (outcome = .kept ∧ ∃ content time, d'.peek p = .ok (some (.file content time))) ∨
      ∃ time, d'.peek p = .ok (some (.file f.content.toUTF8 time)) := by
  rw [run_settle] at h
  cases hpeek : d.peek p with
  | error fault =>
    rw [hpeek] at h
    cases h
  | ok found =>
    rw [hpeek] at h
    match found, h with
    | some .directory, h =>
      cases h
      exact absurd rfl hblocked
    | some (.file content time), h =>
      obtain ⟨-, rfl, rfl⟩ | hput := place_cases h
      · exact .inl ⟨rfl, content, time, hpeek⟩
      · exact .inr hput
    | none, h =>
      obtain ⟨hthere, -⟩ | hput := place_cases h
      · cases hthere
      · exact .inr hput

/-- A file that nothing stood in the way of is there afterwards, with its own text unless it was
kept. -/
theorem write_cases {f : OutputFile} {overwrite backup : Bool} {d d' : Disk} {r : WriteResult}
    (h : (f.write overwrite backup).run.run d = (.ok r, d')) (hr : r.success = true) :
    (r.outcome = .kept ∧ ∃ content time,
      d'.peek (.ofText f.path) = .ok (some (.file content time))) ∨
      ∃ time, d'.peek (.ofText f.path) = .ok (some (.file f.content.toUTF8 time)) := by
  rw [run_write] at h
  rcases hsettle : (f.settle (.ofText f.path) overwrite backup).run.run d with ⟨fault | outcome, d₁⟩
  · rw [hsettle] at h
    cases fault <;> cases h
    cases hr
  · rw [hsettle] at h
    cases h
    refine settle_cases hsettle ?_
    rintro rfl
    cases hr

theorem peek_of_write {f : OutputFile} {overwrite backup : Bool} {d d' : Disk} {r : WriteResult}
    (h : (f.write overwrite backup).run.run d = (.ok r, d')) (hr : r.success = true) :
    ∃ content time, d'.peek (.ofText f.path) = .ok (some (.file content time)) := by
  obtain ⟨-, hthere⟩ | ⟨time, hput⟩ := write_cases h hr
  · exact hthere
  · exact ⟨_, time, hput⟩

theorem content_of_write {f : OutputFile} {overwrite backup : Bool} {d d' : Disk} {r : WriteResult}
    (h : (f.write overwrite backup).run.run d = (.ok r, d')) (hr : r.written = true) :
    ∃ time, d'.peek (.ofText f.path) = .ok (some (.file f.content.toUTF8 time)) := by
  have hsuccess : r.success = true := by
    unfold WriteResult.written at hr
    unfold WriteResult.success
    split at hr <;> simp_all
  obtain ⟨hkept, -⟩ | hput := write_cases h hsuccess
  · rw [WriteResult.written, hkept] at hr
    cases hr
  · exact hput

end OutputFile

namespace Tracker

theorem confined_save (home : Location) (t : Tracker) :
    Act.Confined home (fun place content =>
      place = t.path.aim home ∧ content = t.manifest.render.toUTF8) t.save := by
  unfold save
  refine .bind (.attempt (.bind (Act.confined_ensureDirectory _) fun _ => .change ?_)) fun _ =>
    .pure _
  rintro d d' rfl h
  exact evolves_of_write h

end Tracker

end FlowMachine

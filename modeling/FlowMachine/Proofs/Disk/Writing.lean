import FlowMachine.Proofs.Disk.Paving
import FlowMachine.Proofs.Text.Pieces

/-!
# What a write leaves behind

Writing a text that has bytes ends in a result whatever is on the disk, as long as its path has no
null character: every other fault on the way is a refusal of the disk, which is reported. Before the
text is put in place the file that is there is copied, and directories are made on the way to it, so
a refused write may leave a copy and directories, and bytes at no other place. A text without bytes
is found out after the file is opened: the writing stops there, and what was in the file is gone.
-/
namespace FlowMachine

open FlowMachine.Disk FlowMachine.Text

/-! ## Refusals -/

/-- The fault is a refusal of the disk. -/
def Fault.IsRefusal (fault : Fault) : Prop := ∃ e shown, fault = .file e shown

namespace Path

variable {p : Path}

/-- No name of the path has a null character. -/
def Visible (p : Path) : Prop := ∀ part ∈ p.parts, Char.ofNat 0 ∉ part.toList

theorem visible_iff : p.Visible ↔ p.parts.any (·.toList.contains (Char.ofNat 0)) = false := by
  simp [Visible]

theorem visible_ofText {s : String} (h : Char.ofNat 0 ∉ s.toList) : (ofText s).Visible := by
  intro part hpart hnul
  obtain ⟨piece, hpiece, rfl⟩ := List.mem_map.mp hpart
  rw [String.toList_ofList] at hnul
  exact h (mem_of_mem_splitWhere (List.mem_of_mem_filter hpiece) hnul)

theorem Visible.parent (h : p.Visible) : p.parent.Visible :=
  fun part hpart => h part (List.dropLast_subset _ hpart)

theorem Visible.name (h : p.Visible) : Char.ofNat 0 ∉ p.name.toList := by
  unfold Path.name
  rcases hlast : p.parts.getLast? with _ | last
  · simp
  · exact h last (List.mem_of_getLast? hlast)

theorem Visible.backupPath (h : p.Visible) : (backupPath p).Visible := by
  intro part hpart
  rcases List.mem_append.mp hpart with hfront | hlast
  · exact h.parent part hfront
  · obtain rfl := List.mem_singleton.mp hlast
    rw [String.toList_append, List.mem_append, not_or]
    exact ⟨h.name, by decide⟩

/-- The places on the way along a path, with the one it leads to. -/
def way (home : Location) (p : Path) : List Location := p.stops home ++ [p.aim home]

theorem way_concat (home : Location) (root : Nat) (names : List String) (name : String) :
    (⟨root, names ++ [name]⟩ : Path).way home =
      (⟨root, names⟩ : Path).way home ++ [(⟨root, names ++ [name]⟩ : Path).aim home] := by
  rw [way, stops_concat, way]

/-- A copy is never kept in the place of the file itself. -/
theorem backupPath_aim_ne (home : Location) (p : Path) :
    (FlowMachine.backupPath p).aim home ≠ p.aim home := by
  have hcopy : (FlowMachine.backupPath p).aim home = p.parent.aim home ++
      [p.name ++ backupSuffix] := by
    have hdots : (p.name ++ backupSuffix == "..") = false := by
      rw [beq_eq_false_iff_ne]
      intro heq
      have hlast := congrArg (·.toList.getLast?) heq
      simp [backupSuffix] at hlast
    unfold FlowMachine.backupPath withName aim parent
    rw [List.foldl_append, List.foldl_cons, List.foldl_nil, Location.stride, hdots]
    rfl
  rw [hcopy]
  rcases List.eq_nil_or_concat p.parts with hnil | ⟨front, last, hparts⟩
  · intro heq
    have hlength := congrArg List.length heq
    simp [aim, parent, start, hnil] at hlength
  · have haim : p.aim home = (p.parent.aim home).stride last := by
      simp [aim, parent, start, hparts]
    rw [haim, Location.stride]
    split_ifs
    · intro heq
      have hlength := congrArg List.length heq
      rw [List.length_append, List.length_dropLast, List.length_singleton] at hlength
      omega
    · intro heq
      have hname : p.name ++ backupSuffix = last := by simpa using heq
      have hlength := congrArg String.length hname
      simp [name, hparts, backupSuffix] at hlength

end Path

namespace Disk

variable {d d' : Disk} {p source target : Path} {fault : Fault}

theorem isRefusal_of_find (hp : p.Visible) (h : d.find p = .error fault) : fault.IsRefusal := by
  unfold find at h
  rw [Path.visible_iff.mp hp] at h
  cases hlocate : d.locate p with
  | ok place =>
    rw [hlocate] at h
    cases h
  | error e =>
    rw [hlocate] at h
    cases h
    exact ⟨_, _, rfl⟩

theorem isRefusal_of_peek (h : d.peek p = .error fault) : fault.IsRefusal := by
  unfold peek at h
  split at h <;> cases h
  exact ⟨_, _, rfl⟩

theorem isRefusal_of_isDirectory (h : d.isDirectory p = .error fault) : fault.IsRefusal := by
  unfold isDirectory at h
  rcases bind_eq_error.mp h with hpeek | ⟨there, -, hthere⟩
  · exact isRefusal_of_peek hpeek
  · cases hthere

/-- After a path is followed, only refusals are left when what is done there refuses only. -/
theorem isRefusal_of_find_bind {α : Type} {act : Location → Except Fault α} (hp : p.Visible)
    (hact : ∀ place fault, act place = .error fault → fault.IsRefusal)
    (h : (d.find p >>= act) = .error fault) : fault.IsRefusal := by
  rcases bind_eq_error.mp h with hfind | ⟨place, -, hplace⟩
  · exact isRefusal_of_find hp hfind
  · exact hact place fault hplace

theorem isRefusal_of_makeDirectory (hp : p.Visible) (h : d.makeDirectory p = .error fault) :
    fault.IsRefusal := by
  refine isRefusal_of_find_bind hp (fun place fault hplace => ?_) h
  split at hplace <;> cases hplace
  exact ⟨_, _, rfl⟩

theorem isRefusal_of_write (hp : p.Visible) {content : ByteArray}
    (h : d.write p content = .error fault) :
    fault.IsRefusal := by
  refine isRefusal_of_find_bind hp (fun place fault hplace => ?_) h
  split at hplace <;> cases hplace
  exact ⟨_, _, rfl⟩

theorem eq_set_of_makeDirectory (h : d.makeDirectory p = .ok d') :
    d' = d.set (p.aim d.home) .directory := by
  unfold makeDirectory at h
  obtain ⟨place, hfind, h⟩ := bind_eq_ok.mp h
  rw [← eq_aim_of_find hfind]
  split at h
  · cases h
  · exact (pure_eq_ok.mp h).symm

/-- A file is copied under the name of the copy, where no directory has that name, or the disk
refuses. -/
theorem copy_cases (hvisible : target.Visible) {content : ByteArray} {time : Int}
    (hsource : d.peek source = .ok (some (.file content time)))
    (htarget : d.peek target ≠ .ok (some .directory)) :
    (∃ fault, d.copy source target = .error fault ∧ fault.IsRefusal) ∨
      d.find target = .ok (target.aim d.home) ∧ d.get? (target.aim d.home) ≠ some .directory ∧
        d.copy source target = .ok (d.set (target.aim d.home) (.file content time)) := by
  have hstatus : d.status source = .ok (.file content time) :=
    status_eq_ok_iff.mpr (peek_eq_some_iff.mp hsource)
  have hbeside : d.status target ≠ .ok .directory := fun hdirectory =>
    htarget (peek_eq_some_iff.mpr (status_eq_ok_iff.mp hdirectory))
  unfold copy
  simp only [hstatus, Bool.false_eq_true, if_false]
  cases hfind : d.find target with
  | error fault => exact .inl ⟨fault, rfl, isRefusal_of_find hvisible hfind⟩
  | ok place =>
    obtain rfl := eq_aim_of_find hfind
    have hvacant : d.get? (target.aim d.home) ≠ some .directory := fun hget =>
      hbeside (status_eq_ok_iff.mpr ⟨hfind, hget⟩)
    refine .inr ⟨rfl, hvacant, bind_eq_ok.mpr ⟨_, rfl, bind_eq_ok.mpr ⟨_, rfl, ?_⟩⟩⟩
    split
    · rename_i hget
      exact absurd hget hvacant
    · rfl

end Disk

/-! ## Making directories -/

namespace Act

variable {α β : Type} {home : Location} {places more : Location → Prop}

/-- The act fails with refusals only, and touches no place but some. -/
def Careful (home : Location) (places : Location → Prop) (act : Act α) : Prop :=
  ∀ d : Disk, d.home = home → (∀ fault, (act.run.run d).1 = .error fault → fault.IsRefusal) ∧
    (act.run.run d).2.home = home ∧ ∀ place, ¬ places place →
    (act.run.run d).2.get? place = d.get? place

namespace Careful

theorem mono {act : Act α} (h : Careful home places act)
    (hmore : ∀ place, places place → more place) :
    Careful home more act := by
  intro d hd
  obtain ⟨hrefusal, hhome, hkept⟩ := h d hd
  exact ⟨hrefusal, hhome, fun place hplace => hkept place fun hin => hplace (hmore place hin)⟩

theorem pure (a : α) : Careful home places (Pure.pure a : Act α) :=
  fun _ hd => ⟨fun _ h => (nomatch h), hd, fun _ _ => rfl⟩

theorem throw {fault : Fault} (h : fault.IsRefusal) :
    Careful home places (MonadExcept.throw fault : Act α) :=
  fun _ hd => ⟨fun _ hfault => by cases hfault; exact h, hd, fun _ _ => rfl⟩

theorem look {f : Disk → Except Fault α} (h : ∀ d fault, f d = .error fault → fault.IsRefusal) :
    Careful home places (look f) := by
  intro d hd
  rw [run_look]
  exact ⟨h d, hd, fun _ _ => rfl⟩

theorem change {f : Disk → Except Fault Disk} (h : ∀ d fault, f d = .error fault → fault.IsRefusal)
    (hset : ∀ d d' : Disk, d.home = home → f d = .ok d' →
      d'.home = home ∧ ∀ place, ¬ places place → d'.get? place = d.get? place) :
    Careful home places (change f) := by
  intro d hd
  rw [run_change]
  cases hf : f d with
  | error fault => exact ⟨fun _ hfault => by cases hfault; exact h d fault hf, hd, fun _ _ => rfl⟩
  | ok d' => exact ⟨fun _ hfault => (nomatch hfault), hset d d' hd hf⟩

/-- What follows a careful act is looked at with the outcomes alone that the act can have. -/
theorem bind {act : Act α} {f : α → Act β} (h : Careful home places act)
    (hf : ∀ a d d₁, act.run.run d = (.ok a, d₁) → Careful home places (f a)) :
    Careful home places (act >>= f) := by
  intro d hd
  have hfirst := h d hd
  rw [run_bind]
  rcases hrun : act.run.run d with ⟨fault | a, d₁⟩
  · rw [hrun] at hfirst
    exact ⟨fun _ hfault => by cases hfault; exact hfirst.1 fault rfl, hfirst.2⟩
  · rw [hrun] at hfirst
    obtain ⟨-, hhome, hkept⟩ := hfirst
    obtain ⟨hrefusal, hhome', hkept'⟩ := hf a d d₁ hrun d₁ hhome
    exact ⟨hrefusal, hhome', fun place hplace => (hkept' place hplace).trans (hkept place hplace)⟩

theorem attempt {act : Act α} (h : Careful home places act) :
    Careful home places (attempt act) := by
  intro d hd
  obtain ⟨hrefusal, hrest⟩ := h d hd
  rw [run_attempt]
  rcases hrun : act.run.run d with ⟨fault | a, d₁⟩
  · rw [hrun] at hrefusal hrest
    obtain ⟨e, shown, rfl⟩ := hrefusal fault rfl
    exact ⟨fun _ hfault => (nomatch hfault), hrest⟩
  · rw [hrun] at hrest
    exact ⟨fun _ hfault => (nomatch hfault), hrest⟩

end Careful

/-- What is handed on is a refusal. -/
theorem isRefusal_of_attempt {act : Act α} {fault : Fault} {d d₁ : Disk}
    (h : (attempt act).run.run d = (.ok (.error fault), d₁)) : fault.IsRefusal := by
  rw [run_attempt] at h
  split at h <;> cases h
  exact ⟨_, _, rfl⟩

theorem careful_admitDirectory {p : Path} (hp : p.Visible) :
    Careful home (· = p.aim home) (admitDirectory p) := by
  unfold admitDirectory
  refine .bind (.attempt (.change (fun d fault => isRefusal_of_makeDirectory hp) ?_)) ?_
  · rintro d d' rfl hmade
    obtain rfl := eq_set_of_makeDirectory hmade
    exact ⟨rfl, fun place hplace => get?_set_of_ne d hplace _⟩
  · rintro (fault | -) d d₁ hrun
    · have hfault := isRefusal_of_attempt hrun
      show Careful home _ (if fault == .file .missing p.toText then MonadExcept.throw fault else _)
      split_ifs
      · exact .throw hfault
      · refine .bind (.look fun d fault => isRefusal_of_isDirectory) fun there _ _ _ => ?_
        split_ifs
        · exact .throw hfault
        · exact .pure _
    · exact .pure _

/-- Directories are made on the way to a path alone. -/
theorem careful_makeDirectories (home : Location) (root : Nat) (names : List String)
    (hp : (⟨root, names.reverse⟩ : Path).Visible) :
    Careful home (· ∈ (⟨root, names.reverse⟩ : Path).way home) (makeDirectories root names) := by
  induction names with
  | nil => exact (careful_admitDirectory hp).mono fun place hplace => by simp [Path.way, hplace]
  | cons name above ih =>
    have hadmit : Careful home (· ∈ (⟨root, (name :: above).reverse⟩ : Path).way home)
        (admitDirectory ⟨root, (name :: above).reverse⟩) :=
      (careful_admitDirectory hp).mono fun place hplace => by simp [Path.way, hplace]
    unfold makeDirectories
    refine .bind (.attempt hadmit) ?_
    rintro (fault | -) d d₁ hrun
    · show Careful home _ (if fault == .file .missing _ then _ else MonadExcept.throw fault)
      split_ifs
      · refine .bind ?_ fun _ _ _ _ => hadmit
        rw [List.reverse_cons] at hp ⊢
        refine (ih fun part hpart => hp part (List.mem_append_left _ hpart)).mono
          fun place hplace => ?_
        rw [Path.way_concat]
        exact List.mem_append_left _ hplace
      · exact .throw (isRefusal_of_attempt hrun)
    · exact .pure _

theorem careful_ensureDirectory (home : Location) {p : Path} (hp : p.Visible) :
    Careful home (· ∈ p.way home) (ensureDirectory p) := by
  have hmade := careful_makeDirectories home p.root p.parts.reverse
  rw [List.reverse_reverse] at hmade
  exact hmade hp

end Act

/-! ## Writing -/

namespace FileWriter

variable {w : FileWriter} {f : TextFile} {p : Path} {backup : Bool} {d d₀ d₁ d' : Disk}
  {found : Option Entry} {r : WriteResult}

/-- What may be done to the disk before the text of a file is put in place: bytes are put under the
name of the copy alone, and the place of the file itself is as it was, unless nothing was there and
it is one of the directories on the way. -/
structure Readied (p : Path) (d d₁ : Disk) : Prop where
  evolves : d.Evolves (fun place _ => place = (backupPath p).aim d.home) d₁
  target : d₁.get? (p.aim d.home) = d.get? (p.aim d.home) ∨
    d.get? (p.aim d.home) = none ∧ d₁.get? (p.aim d.home) = some .directory ∧
      p.aim d.home ∈ p.parent.way d.home

theorem Readied.refl (p : Path) (d : Disk) : Readied p d d := ⟨.refl _ d, .inl rfl⟩

/-- The copy of the file that was there is kept. -/
def Copied (p : Path) (backup : Bool) (d d₁ : Disk) : Prop :=
  backup = true → ∀ content time, d.peek p = .ok (some (.file content time)) →
    d₁.peek (backupPath p) = .ok (some (.file content time))

/-- A copy that was kept stays where bytes are put elsewhere. -/
theorem Copied.trans {W : Location → ByteArray → Prop} (h : Copied p backup d d₀)
    (hd : d₀.Evolves W d₁)
    (hw : ∀ content, ¬ W ((backupPath p).aim d₀.home) content) : Copied p backup d d₁ := by
  intro hbackup content time hpeek
  obtain ⟨hfind, hget⟩ := peek_eq_some_iff.mp (h hbackup content time hpeek)
  rw [peek_eq_some_iff, hd.home_eq]
  exact ⟨hd.find_eq_ok hfind, (hd.file_iff hw content time).mpr hget⟩

/-- Before the way is made, the file that is there is copied, or the disk refuses and is as it
was. -/
theorem keepCopy_cases (backup : Bool) (hp : p.Visible) (hfound : d.peek p = .ok found)
    (hfile : found ≠ some .directory) (hcopy : d.peek (backupPath p) ≠ .ok (some .directory)) :
    (∃ fault, (keepCopy p found.isSome backup).run.run d = (.error fault, d) ∧ fault.IsRefusal) ∨
      ∃ kept d₀, (keepCopy p found.isSome backup).run.run d = (.ok kept, d₀) ∧
        d.Evolves (fun place _ => place = (backupPath p).aim d.home) d₀ ∧
        d₀.get? (p.aim d.home) = d.get? (p.aim d.home) ∧ Copied p backup d d₀ := by
  rw [run_keepCopy]
  rcases found with _ | (_ | ⟨content, time⟩)
  · refine .inr ⟨none, d, rfl, .refl _ d, rfl, fun _ content time hpeek => ?_⟩
    rw [hfound] at hpeek
    cases hpeek
  · exact absurd rfl hfile
  · cases backup with
    | false => exact .inr ⟨none, d, rfl, .refl _ d, rfl, fun hbackup => by cases hbackup⟩
    | true =>
      obtain ⟨fault, hfault, hrefusal⟩ | ⟨hfind, hvacant, hput⟩ :=
        copy_cases hp.backupPath hfound hcopy
      · rw [hfault]
        exact .inl ⟨fault, rfl, hrefusal⟩
      · have hne := ne_nil_of_get? hvacant
        have hevolves : d.Evolves (fun place _ => place = (backupPath p).aim d.home)
            (d.set ((backupPath p).aim d.home) (.file content time)) := evolves_set hne rfl hvacant
        rw [hput]
        refine .inr ⟨_, _, rfl, hevolves, get?_set_of_ne d (Path.backupPath_aim_ne _ p).symm _, ?_⟩
        intro _ content' time' hpeek
        rw [hfound] at hpeek
        cases hpeek
        exact peek_eq_some_iff.mpr ⟨hevolves.find_eq_ok hfind, get?_set_self d hne _⟩

/-- What making the way to a file adds to a disk on which its copy is kept. -/
theorem readied_of_ensureDirectory (hp : p.Visible)
    (hevolves : d.Evolves (fun place _ => place = (backupPath p).aim d.home) d₀)
    (htarget : d₀.get? (p.aim d.home) = d.get? (p.aim d.home)) {result : Except Fault Unit}
    (hrun : (Act.ensureDirectory p.parent).run.run d₀ = (result, d₁)) :
    Readied p d d₁ ∧ d₀.Evolves (fun _ _ => False) d₁ ∧ ∀ fault, result = .error fault →
      fault.IsRefusal := by
  have hmade := Act.confined_ensureDirectory (W := fun _ _ => False) p.parent d₀ rfl
  obtain ⟨hrefusal, -, hkept⟩ := Act.careful_ensureDirectory d.home hp.parent d₀ hevolves.home_eq
  rw [hrun] at hmade hrefusal hkept
  refine ⟨⟨hevolves.trans (hmade.mono fun _ _ h => h.elim), ?_⟩, hmade, hrefusal⟩
  rw [← htarget]
  -- a path that leads back can end in a directory that is made for it
  by_cases hway : p.aim d.home ∈ p.parent.way d.home
  · obtain hsame | ⟨hnone, hnew⟩ | ⟨_, _, _, hput, _⟩ := hmade.entry (p.aim d.home)
    · exact .inl hsame
    · exact .inr ⟨hnone, hnew, hway⟩
    · exact hput.elim
  · exact .inl (hkept _ hway)

/-- A text is written where the disk lets it, or the disk refuses, or the encoding fails over an
empty file. -/
theorem store_cases (w : FileWriter) (f : TextFile) (hp : p.Visible) (d : Disk) :
    (∃ fault, (w.store f p).run.run d = (.error fault, d) ∧ fault.IsRefusal) ∨
      (∃ flaw d₁, (w.store f p).run.run d = (.error (.unencodable flaw), d₁) ∧
        w.encode f.content = .error flaw ∧ d.write p .empty = .ok d₁) ∨
      ∃ bytes d₁, (w.store f p).run.run d = (.ok (), d₁) ∧
        w.encode f.content = .ok bytes ∧ d.write p bytes = .ok d₁ := by
  rw [run_store]
  cases hempty : d.write p .empty with
  | error fault => exact .inl ⟨fault, rfl, isRefusal_of_write hp hempty⟩
  | ok d₁ =>
    cases hencode : w.encode f.content with
    | error flaw => exact .inr (.inl ⟨flaw, d₁, rfl, rfl, rfl⟩)
    | ok bytes =>
      obtain ⟨place, hfind, hdir, -⟩ := write_eq_ok_iff.mp hempty
      have hput := write_eq_ok_iff.mpr
        ⟨place, hfind, hdir, (rfl : _ = d.set place (.file bytes d.clock))⟩
      simp only [write_of_write hempty, hput]
      exact .inr (.inr ⟨bytes, _, rfl, rfl, hput⟩)

/-- What stands at a path is turned into bytes as far as the encoding has any: nothing, when it has
none for the text, and the text itself, when only its size cannot be told. -/
def Stored (w : FileWriter) (f : TextFile) (flaw : Text.EncodeFlaw) (content : ByteArray) : Prop :=
  (w.encode f.content = .error flaw ∧ content = .empty) ∨
    (w.encode f.content = .ok content ∧ f.size = .error flaw)

/-- Where no directory is, a file is kept, or the disk refuses, or the encoding fails over what was
opened, or the text is put in place last of all. -/
theorem place_stages (w : FileWriter) (f : TextFile) (overwrite backup : Bool) (hp : p.Visible)
    (hfound : d.peek p = .ok found) (hfile : found ≠ some .directory)
    (hcopy : d.peek (backupPath p) ≠ .ok (some .directory)) :
    (w.place f p found.isSome overwrite backup).run.run d = (.ok .kept, d) ∨
      (∃ fault d₁, (w.place f p found.isSome overwrite backup).run.run d = (.error fault, d₁) ∧
        fault.IsRefusal ∧ Readied p d d₁) ∨
      ∃ d₁ d₂ content, Readied p d d₁ ∧ Copied p backup d d₁ ∧ d₁.write p content = .ok d₂ ∧
        ((∃ flaw, (w.place f p found.isSome overwrite backup).run.run d =
          (.error (.unencodable flaw), d₂) ∧
          w.Stored f flaw content) ∨
        ∃ size kept, (w.place f p found.isSome overwrite backup).run.run d =
          (.ok (.written size kept), d₂) ∧
          w.encode f.content = .ok content) := by
  rw [run_place]
  split_ifs
  · exact .inl rfl
  · right
    obtain ⟨fault, hrun, hrefusal⟩ | ⟨kept, d₀, hrun, hevolves, htarget, hcopied⟩ :=
      keepCopy_cases backup hp hfound hfile hcopy
    · rw [hrun]
      exact .inl ⟨fault, d, rfl, hrefusal, .refl p d⟩
    · rw [hrun]
      dsimp only
      rcases hdirs : (Act.ensureDirectory p.parent).run.run d₀ with ⟨fault | _, d₁⟩
      · obtain ⟨hready, -, hrefusal⟩ := readied_of_ensureDirectory hp hevolves htarget hdirs
        exact .inl ⟨fault, d₁, rfl, hrefusal fault rfl, hready⟩
      · obtain ⟨hready, hmade, -⟩ := readied_of_ensureDirectory hp hevolves htarget hdirs
        have hkept : Copied p backup d d₁ := hcopied.trans hmade fun _ => id
        dsimp only
        obtain ⟨fault, hstore, hrefusal⟩ | ⟨flaw, d₂, hstore, hencode, hempty⟩ |
            ⟨bytes, d₂, hstore, hencode, hput⟩ :=
          store_cases w f hp d₁
        · rw [hstore]
          exact .inl ⟨fault, d₁, rfl, hrefusal, hready⟩
        · rw [hstore]
          exact .inr ⟨d₁, d₂, .empty, hready, hkept, hempty, .inl ⟨flaw, rfl, .inl ⟨hencode, rfl⟩⟩⟩
        · rw [hstore]
          dsimp only
          cases hsize : f.size with
          | error flaw =>
            exact .inr ⟨d₁, d₂, bytes, hready, hkept, hput, .inl ⟨flaw, rfl, .inr ⟨hencode, hsize⟩⟩⟩
          | ok size =>
            exact .inr ⟨d₁, d₂, bytes, hready, hkept, hput, .inr ⟨size, kept, rfl, hencode⟩⟩

/-- What the result of writing a file tells about the disk before and after. -/
structure Settled (w : FileWriter) (f : TextFile) (backup : Bool) (d : Disk) (r : WriteResult)
    (d' : Disk) : Prop where
  /-- A file that was written has the proposed text. -/
  text : r.written = true → ∃ content time, w.encode f.content = .ok content ∧
    d'.peek (.ofText f.path) = .ok (some (.file content time))
  /-- The file that was replaced is kept, when copies are. -/
  copied : r.written = true → Copied (.ofText f.path) backup d d'
  skipped : r.skipped = true → d' = d
  /-- A file that was not written left its place alone, unless nothing was there and it is one of
  the directories on its own way. -/
  refused : r.success = false →
    d'.get? ((Path.ofText f.path).aim d.home) = d.get? ((Path.ofText f.path).aim d.home) ∨
      d.get? ((Path.ofText f.path).aim d.home) = none ∧
        d'.get? ((Path.ofText f.path).aim d.home) = some .directory ∧
        (Path.ofText f.path).aim d.home ∈ (Path.ofText f.path).parent.way d.home
  /-- No other file changes. -/
  elsewhere : ∀ place, place ≠ (Path.ofText f.path).aim d.home →
    place ≠ (backupPath (.ofText f.path)).aim d.home → d'.bytesAt? place = d.bytesAt? place

/-- What a fault that writing a file stops at tells about the disk before and after: a text has no
bytes, and the file was opened by then. -/
structure Broken (w : FileWriter) (f : TextFile) (backup : Bool) (d : Disk) (fault : Fault)
    (d' : Disk) : Prop where
  stored : ∃ flaw content time, fault = .unencodable flaw ∧ w.Stored f flaw content ∧
    d'.peek (.ofText f.path) = .ok (some (.file content time))
  copied : Copied (.ofText f.path) backup d d'
  elsewhere : ∀ place, place ≠ (Path.ofText f.path).aim d.home →
    place ≠ (backupPath (.ofText f.path)).aim d.home → d'.bytesAt? place = d.bytesAt? place

/-- A result that is no write and no skip, with a disk that was only readied. -/
theorem settled_of_readied (hwritten : r.written = false) (hskipped : r.skipped = false)
    (hready : Readied (.ofText f.path) d d') : w.Settled f backup d r d' where
  text h := by simp [hwritten] at h
  copied h := by simp [hwritten] at h
  skipped h := by simp [hskipped] at h
  refused _ := hready.target
  elsewhere _ _ hcopy := hready.evolves.bytesAt?_eq fun _ => hcopy

theorem settled_of_kept (w : FileWriter) (f : TextFile) (backup : Bool) (d : Disk) :
    w.Settled f backup d ⟨.ofText f.path, .kept⟩ d where
  text h := by cases h
  copied h := by cases h
  skipped _ := rfl
  refused h := by cases h
  elsewhere _ _ _ := rfl

section Put

variable {content : ByteArray} (hready : Readied (.ofText f.path) d d₁)
    (hput : d₁.write (.ofText f.path) content = .ok d')

include hready hput

/-- The bytes that are put in place last change no other file. -/
theorem elsewhere_of_put {place : Location} (htarget : place ≠ (Path.ofText f.path).aim d.home)
    (hcopy : place ≠ (backupPath (.ofText f.path)).aim d.home) :
    d'.bytesAt? place = d.bytesAt? place := by
  rw [(evolves_of_write hput).bytesAt?_eq fun _ h => htarget (hready.evolves.home_eq ▸ h.1)]
  exact hready.evolves.bytesAt?_eq fun _ => hcopy

theorem settled_of_put (hcopied : Copied (.ofText f.path) backup d d₁)
    (hencode : w.encode f.content = .ok content)
    {size : Nat} {kept : Option Path} :
    w.Settled f backup d ⟨.ofText f.path, .written size kept⟩ d' where
  text _ := ⟨content, _, hencode, Disk.peek_of_write hput⟩
  copied _ := hcopied.trans (evolves_of_write hput) fun _ h => Path.backupPath_aim_ne _ _ h.1
  skipped h := by cases h
  refused h := by cases h
  elsewhere _ := elsewhere_of_put hready hput

theorem broken_of_put (hcopied : Copied (.ofText f.path) backup d d₁) {flaw : Text.EncodeFlaw}
    (hstored : w.Stored f flaw content) : w.Broken f backup d (.unencodable flaw) d' where
  stored := ⟨flaw, content, _, rfl, hstored, Disk.peek_of_write hput⟩
  copied := hcopied.trans (evolves_of_write hput) fun _ h => Path.backupPath_aim_ne _ _ h.1
  elsewhere _ := elsewhere_of_put hready hput

end Put

/-- Writing a file ends in a result that tells what became of the disk, or in the fault of a text
without bytes. -/
theorem settled_or_broken (w : FileWriter) (f : TextFile) (overwrite backup : Bool) (d : Disk)
    (hnul : Char.ofNat 0 ∉ f.path.toList)
    (hcopy : d.peek (backupPath (.ofText f.path)) ≠ .ok (some .directory)) :
    (∃ r d', (w.write f overwrite backup).run.run d = (.ok r, d') ∧ w.Settled f backup d r d') ∨
      ∃ fault d', (w.write f overwrite backup).run.run d = (.error fault, d') ∧
      w.Broken f backup d fault d' := by
  have hp := Path.visible_ofText hnul
  rcases hfound : d.peek (.ofText f.path) with fault | found
  · obtain ⟨e, shown, rfl⟩ := isRefusal_of_peek hfound
    rw [run_write, run_settle, hfound]
    exact .inl ⟨_, d, rfl, settled_of_readied rfl rfl (.refl _ d)⟩
  by_cases hfile : found = some .directory
  · rw [run_write, run_settle, hfound, hfile]
    exact .inl ⟨_, d, rfl, settled_of_readied rfl rfl (.refl _ d)⟩
  rw [run_write, run_settle_of_peek w f overwrite backup hfound hfile]
  obtain hrun | ⟨fault, d₁, hrun, ⟨e, shown, rfl⟩, hready⟩ |
      ⟨d₁, d₂, content, hready, hcopied, hput,
        ⟨flaw, hrun, hstored⟩ | ⟨size, kept, hrun, hencode⟩⟩ :=
    place_stages w f overwrite backup hp hfound hfile hcopy
  · rw [hrun]
    exact .inl ⟨_, d, rfl, settled_of_kept w f backup d⟩
  · rw [hrun]
    exact .inl ⟨_, d₁, rfl, settled_of_readied rfl rfl hready⟩
  · rw [hrun]
    exact .inr ⟨_, d₂, rfl, broken_of_put hready hput hcopied hstored⟩
  · rw [hrun]
    exact .inl ⟨_, d₂, rfl, settled_of_put hready hput hcopied hencode⟩

/-- The size of a text without lone surrogates can be told. -/
theorem exists_size (h : f.content.tears = []) : ∃ size, f.size = .ok size := by
  rw [TextFile.size, Text.Torn.encode_eq_ok_iff.mpr ⟨h, rfl⟩]
  exact ⟨_, rfl⟩

/-- Writing a text that has bytes ends in a result, whatever is on the disk. Every result tells what
became of the disk, and so does the fault at a text without bytes, which empties a file that it was
to replace. -/
theorem settled_of_write (w : FileWriter) (f : TextFile) (overwrite backup : Bool) (d : Disk)
    (hnul : Char.ofNat 0 ∉ f.path.toList)
    (hcopy : d.peek (backupPath (.ofText f.path)) ≠ .ok (some .directory)) :
    (f.content.tears = [] → (∃ content, w.encode f.content = .ok content) →
      ∃ r d', (w.write f overwrite backup).run.run d = (.ok r, d')) ∧
    (∀ r d', (w.write f overwrite backup).run.run d = (.ok r, d') → w.Settled f backup d r d') ∧
    ∀ fault d', (w.write f overwrite backup).run.run d = (.error fault, d') →
    w.Broken f backup d fault d' := by
  obtain ⟨r, d₁, hrun, hsettled⟩ | ⟨fault, d₁, hrun, hbroken⟩ :=
    settled_or_broken w f overwrite backup d hnul hcopy
  · rw [hrun]
    refine ⟨fun _ _ => ⟨r, d₁, rfl⟩, ?_, nofun⟩
    rintro r d' ⟨⟩
    exact hsettled
  · rw [hrun]
    refine ⟨?_, nofun, ?_⟩
    · rintro htears ⟨content, hcontent⟩
      obtain ⟨size, hsize⟩ := exists_size htears
      obtain ⟨flaw, _, _, -, ⟨hencode, -⟩ | ⟨-, hflaw⟩, -⟩ := hbroken.stored
      · rw [hencode] at hcontent
        cases hcontent
      · rw [hflaw] at hsize
        cases hsize
    · rintro fault d' ⟨⟩
      exact hbroken

/-- A file on a disk, and another text for it. -/
def note : TextFile := ⟨"b", ⟨"new", []⟩⟩

def noteDisk : Disk where
  entries := [(["work"], .directory), (["work", "b"], .file "old".toUTF8 1)]
  home := ["work"]
  clock := 2

theorem ofText_note : Path.ofText note.path = ⟨0, ["b"]⟩ := by decide

theorem peek_note : noteDisk.peek (.ofText note.path) = .ok (some (.file "old".toUTF8 1)) := by
  rw [ofText_note]
  rfl

theorem peek_copy_note : noteDisk.peek (backupPath (.ofText note.path)) ≠
    .ok (some .directory) := by
  rw [ofText_note]
  exact nofun

/-- The old text is kept beside the new one. -/
theorem settled_of_write_note : ∃ d' time,
    (({} : FileWriter).write note true true).run.run noteDisk =
      (.ok ⟨⟨0, ["b"]⟩, .written 3 (some ⟨0, ["b.bak"]⟩)⟩, d') ∧
    d'.peek ⟨0, ["b"]⟩ = .ok (some (.file "new".toUTF8 time)) ∧
    d'.peek ⟨0, ["b.bak"]⟩ = .ok (some (.file "old".toUTF8 1)) := by
  have hencode : ({} : FileWriter).encode note.content = .ok "new".toUTF8 := rfl
  obtain ⟨hreturns, hresults, -⟩ := settled_of_write {} note true true noteDisk (by decide)
    peek_copy_note
  obtain ⟨r, d', hrun⟩ := hreturns rfl ⟨_, hencode⟩
  have hsettled := hresults r d' hrun
  have hresult : ((({} : FileWriter).write note true true).run.run noteDisk).1.toOption =
      some ⟨⟨0, ["b"]⟩, .written 3 (some ⟨0, ["b.bak"]⟩)⟩ := by decide
  rw [hrun] at hresult
  obtain rfl := Option.some.inj hresult
  obtain ⟨content, time, hcontent, htext⟩ := hsettled.text rfl
  rw [hencode] at hcontent
  obtain rfl := Except.ok.inj hcontent
  have hcopied := hsettled.copied rfl rfl "old".toUTF8 1 peek_note
  rw [ofText_note] at htext hcopied
  exact ⟨d', time, hrun, htext, hcopied⟩

/-- A text for the file that ends in a lone surrogate. -/
def tornNote : TextFile := { note with content := ⟨"caf", [(0x4E9, "")]⟩ }

def tornFlaw : Text.EncodeFlaw where
  encoding := "utf-8"
  position := 3
  first := Text.surrogate 0x4E9
  more := 0
  reason := "surrogates not allowed"

/-- The file that a text without bytes was to replace is empty when the writing stops. -/
theorem exists_emptied_by_fault :
    ∃ (f : TextFile) (d d' : Disk) (flaw : Text.EncodeFlaw) (time : Int),
    Char.ofNat 0 ∉ f.path.toList ∧ d.peek (backupPath (.ofText f.path)) ≠ .ok (some .directory) ∧
    d.peek (.ofText f.path) = .ok (some (.file "old".toUTF8 1)) ∧
    (({} : FileWriter).write f true false).run.run d = (.error (.unencodable flaw), d') ∧
    flaw.message =
      "'utf-8' codec can't encode character '\\udce9' in position 3: surrogates not allowed" ∧
    d'.peek (.ofText f.path) = .ok (some (.file .empty time)) := by
  have hfault : ((({} : FileWriter).write tornNote true false).run.run noteDisk).1 =
      .error (.unencodable tornFlaw) := by decide
  have hempty : ∀ content, ({} : FileWriter).encode tornNote.content ≠ .ok content := nofun
  obtain ⟨r, d', hrun, -⟩ | ⟨fault, d', hrun, hbroken⟩ :=
    settled_or_broken {} tornNote true false noteDisk (by decide) peek_copy_note
  · rw [hrun] at hfault
    cases hfault
  · rw [hrun] at hfault
    obtain rfl := Except.error.inj hfault
    obtain ⟨-, content, time, -, ⟨-, rfl⟩ | ⟨hencode, -⟩, hpeek⟩ := hbroken.stored
    · exact ⟨tornNote, noteDisk, d', tornFlaw, time, by decide, peek_copy_note, peek_note, hrun,
        by decide, hpeek⟩
    · exact absurd hencode (hempty content)

/-- A file whose path leads back into a directory that is made on its way. -/
def looped : TextFile := ⟨"a/../a", ⟨"x", []⟩⟩

/-- Nothing was in the place of a refused file, and a directory is there afterwards. -/
theorem exists_directory_after_refusal : ∃ (f : TextFile) (d d' : Disk) (r : WriteResult),
    Char.ofNat 0 ∉ f.path.toList ∧ d.peek (backupPath (.ofText f.path)) ≠ .ok (some .directory) ∧
    (({} : FileWriter).write f true false).run.run d = (.ok r, d') ∧ r.success = false ∧
    d.get? ((Path.ofText f.path).aim d.home) = none ∧
    d'.get? ((Path.ofText f.path).aim d.home) = some .directory := by
  have hpath : Path.ofText looped.path = ⟨0, ["a", "..", "a"]⟩ := by decide
  have hcopy : (Disk.empty 0).peek (backupPath (.ofText looped.path)) = .ok none := by
    rw [hpath]
    rfl
  have hend :
      (((({} : FileWriter).write looped true false).run.run (.empty 0)).1.toOption.map
      (·.success)) = some false ∧
      (((({} : FileWriter).write looped true false).run.run (.empty 0)).2.get? ["work", "a"]).map
        (·.isDirectory) =
        some true := by
    decide
  rcases hrun : (({} : FileWriter).write looped true false).run.run (.empty 0) with ⟨fault | r, d'⟩
  · rw [hrun] at hend
    cases hend.1
  · rw [hrun] at hend
    refine ⟨looped, .empty 0, d', r, by decide, by rw [hcopy]; simp, hrun,
      Option.some.inj hend.1, ?_, ?_⟩
    · rw [hpath]
      rfl
    · rw [hpath]
      obtain ⟨e, hget, he⟩ := Option.map_eq_some_iff.mp hend.2
      cases e with
      | directory => exact hget
      | file content time => cases he

end FileWriter

end FlowMachine

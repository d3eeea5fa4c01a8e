import FlowMachine.Proofs.Emit.Clients
import FlowMachine.Proofs.Emit.Derived
import FlowMachine.Proofs.Emit.Modules
import FlowMachine.Proofs.Emit.Suites
import FlowMachine.Emit

/-!
# Documents of machines

Every document of a printable machine is read as a module. The module of a derived machine shows all
free texts of its diagram, and the path of a document adds no null character to the directory that
it goes below.
-/
namespace FlowMachine

open FlowMachine.Emit

variable {m : Machine} {d : Diagram}

theorem Document.content_file (document : Document) (o : EmitOptions) (m : Machine)
    (directory : Path) :
    (document.file o m directory).content = document.text o m := by
  rw [file]

/-- Every document of a machine is a module. -/
theorem Document.isModule_text (document : Document) (hm : Printable m) (o : EmitOptions)
    (limit : Nat)
    (hlimit : o.maxInputLength = toString limit) : IsModule (document.text o m) := by
  cases document with
  | machine => exact isModule_machineModule hm
  | smokeTests => exact isModule_smokeSuite hm o.comprehensive
  | transitionTests => exact isModule_transitionSuite hm
  | errorTests => exact isModule_boundarySuite hm
  | demo => exact isModule_demoScript hm
  | service =>
    rw [Document.text, hlimit]
    exact isModule_sessionService hm limit

/-! ## What a document shows -/

/-- A docstring has all characters of the text in it. -/
theorem mem_doc {c : Char} {s : String} (hc : c ∈ s.toList) : c ∈ (Emit.doc s).toList := by
  have hdouble : c ∈ Emit.doubleBackslashes s.toList := by
    refine List.mem_flatMap.mpr ⟨c, hc, ?_⟩
    split_ifs with hslash
    · simp [beq_iff_eq.mp hslash]
    · simp
  have hshield (cs : List Char) (hcs : c ∈ cs) : c ∈ Emit.shieldQuotes cs := by
    fun_induction Emit.shieldQuotes cs with
    | case1 => exact hcs
    | case2 cs ih => grind
    | case3 d cs _ ih => grind
  rw [Emit.doc, String.toList_ofList]
  exact hshield _ hdouble

/-- A comment has all characters of the text in it but blanks. -/
theorem mem_comment {c : Char} {s : String} (hc : c ∈ s.toList) (hblank : Text.isBlank c = false) :
    c ∈ (Emit.comment s).toList := by
  have hwords : c ∈ (Text.words s.toList).flatten := by
    rw [Text.words, Text.piecesWhere, List.flatten_filter_not_isEmpty, Text.flatten_splitWhere]
    exact List.mem_filter.mpr ⟨hc, by simp [hblank]⟩
  obtain ⟨word, hword, hc⟩ := List.mem_flatten.mp hwords
  rw [Emit.comment, String.toList_ofList]
  exact Text.mem_joinChars_of_mem [' '] hword hc

theorem mem_document {c : Char} {line : String} {lines : List String} (hline : line ∈ lines)
    (hc : c ∈ line.toList) : c ∈ (Emit.document lines).toList := by
  rw [Emit.document, String.toList_join]
  refine List.mem_flatMap.mpr ⟨line ++ "\n", List.mem_map_of_mem hline, ?_⟩
  rw [String.toList_append]
  exact List.mem_append_left _ hc

theorem nulFree_of_document {line : String} {lines : List String}
    (h : NulFree (Emit.document lines)) (hline : line ∈ lines) :
    NulFree line :=
  fun hmem => h (mem_document hline hmem)

theorem nulFree_of_doc {s : String} (h : NulFree (Emit.doc s)) : NulFree s :=
  fun hmem => h (mem_doc hmem)

theorem nulFree_of_comment {s : String} (h : NulFree (Emit.comment s)) : NulFree s :=
  fun hmem => h (mem_comment hmem (by decide))

/-- The module of a machine shows what a diagram has of free texts. -/
theorem isClear_of_machineModule (h : NulFree (machineModule (Machine.derive {} d))) :
    d.IsClear := by
  have hlines (line : String) (hline : line ∈ moduleHeader (Machine.derive {} d) ∨
    line ∈ tables (Machine.derive {} d)) :
      NulFree line := by
    refine nulFree_of_document h ?_
    simp only [List.mem_append]
    tauto
  refine ⟨?_, ?_, fun n hn => ?_⟩
  · have hname := hlines (doc (Machine.derive {} d).displayName ++ " - generated state machine")
      (.inl (by simp [moduleHeader]))
    exact nulFree_of_doc (nulFree_append.mp hname).1
  · by_cases hpath : ((Machine.derive {} d).sourcePath.getD "").isEmpty
    · have hnone : sourceName (Machine.derive {} d) = "" := by
        unfold sourceName
        split
        · next path heq =>
          rw [heq, Option.getD_some] at hpath
          rw [if_pos hpath]
        · rfl
      rw [hnone]
      decide
    · have hsource := hlines ("Source diagram: " ++ doc (sourceName (Machine.derive {} d)))
        (.inl (by simp [moduleHeader, hpath]))
      exact nulFree_of_doc (nulFree_append.mp hsource).2
  · have hstate : Machine.stateOf d (Machine.guardsOf d.edges) n ∈ (Machine.derive {} d).states :=
      List.mem_map_of_mem hn
    have hentry : "    # " ++ comment n.label ∈
        stateEntry (Machine.stateOf d (Machine.guardsOf d.edges) n) :=
      List.mem_cons_self
    have hrow : "    # " ++ comment n.label ∈ tables (Machine.derive {} d) := by
      simp only [tables, List.mem_append, List.mem_flatMap.mpr ⟨_, hstate, hentry⟩,
        true_or, or_true]
    have hcomment := hlines _ (.inr hrow)
    exact nulFree_of_comment (nulFree_append.mp hcomment).2

/-! ## Paths -/

namespace Path

theorem mem_intercalate {sep c : Char} (hc : c ≠ sep) (xs : List (List Char)) :
    c ∈ [sep].intercalate xs ↔ ∃ x ∈ xs, c ∈ x := by
  induction xs with
  | nil => simp
  | cons x xs ih =>
    cases xs with
    | nil => simp
    | cons y ys =>
      rw [List.intercalate_cons_of_ne_nil (by simp), List.mem_append, List.mem_append, ih]
      simp [hc]

theorem nulFree_toText {p : Path} (hparts : p.parts ≠ []) :
    NulFree p.toText ↔ ∀ part ∈ p.parts, NulFree part := by
  have htext : p.toText = String.ofList (List.replicate p.root '/') ++ "/".intercalate p.parts := by
    simp [toText, hparts]
  rw [htext, nulFree_append, NulFree, NulFree, String.toList_intercalate]
  simp [mem_intercalate, NulFree]

end Path

/-- A null character in the path of a document stands in the directory that all documents go
below. -/
theorem Document.nulFree_path (document : Document) (o : EmitOptions) (d : Diagram)
    (directory : Path) :
    NulFree (document.file o (Machine.derive {} d) directory).path ↔
      ∀ part ∈ directory.parts, NulFree part := by
  have hcategory : NulFree d.category.directory := by cases d.category <;> decide
  have hname : NulFree (document.fileName (Identifier.snake (Identifier.machineId d.id))) := by
    have hsnake : NulFree (Identifier.snake (Identifier.machineId d.id)) := fun hmem =>
      absurd (Identifier.isSnakeChar_of_mem_snake hmem) (by decide)
    rw [fileName_eq, nulFree_append, nulFree_append]
    cases document <;> exact ⟨⟨by decide, hsnake⟩, by decide⟩
  rw [path_file, path_derive, Path.nulFree_toText (by simp)]
  simp [or_imp, forall_and, hcategory, hname]

end FlowMachine

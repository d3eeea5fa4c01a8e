import FlowMachine.Lint
import FlowMachine.Proofs.Findings

/-!
# Strict linting

Strict mode finds what is found without it, in the same order, and only grades differently: findings
about naming become errors. Where no error is left in strict mode, nothing was graded differently at
all.
-/
namespace FlowMachine

/-- The finding as strict mode grades it. -/
def Finding.strictly (f : Finding) : Finding :=
  if f.category = "naming" then { f with severity := .error } else f

namespace Lint

theorem map_strictly_of_forall {fs : List Finding} (h : ∀ f ∈ fs, f.category ≠ "naming") :
    fs.map Finding.strictly = fs := by
  conv_rhs => rw [← List.map_id fs]
  exact List.map_congr_left fun f hf => if_neg (h f hf)

/-- Findings of other kinds keep their grade. -/
theorem map_strictly_eq_self {kinds : List (Severity × String)} {fs : List Finding}
    (h : Within kinds fs) (hkinds : ∀ kind ∈ kinds, kind.2 ≠ "naming") :
    fs.map Finding.strictly = fs :=
  map_strictly_of_forall fun f hf => hkinds _ (h f hf)

theorem flatMap_strict {α : Type} {f g : α → List Finding}
    (h : ∀ x, f x = (g x).map Finding.strictly)
    (xs : List α) : xs.flatMap f = (xs.flatMap g).map Finding.strictly := by
  rw [List.map_flatMap, funext h]

theorem strictly_namingFinding (naming : Bool) (message suggestion : String) (n : Nat) :
    (namingFinding ⟨false, naming⟩ message suggestion n).strictly =
      namingFinding ⟨true, naming⟩ message suggestion n := rfl

section Kinds

variable (category : String) {message : String} {line : Option Int} {suggestion : Option String}

theorem strictly_error (h : category ≠ "naming") :
    (Finding.error message category line suggestion).strictly =
      .error message category line suggestion := if_neg h

theorem strictly_warning (h : category ≠ "naming") :
    (Finding.warning message category line suggestion).strictly =
      .warning message category line suggestion := if_neg h

end Kinds

/-! ## Parts of a line -/

variable (naming : Bool) (n : Nat)

theorem checkName_strict (role : NameRole) (cs : List Char) :
    checkName ⟨true, naming⟩ n role cs =
      (checkName ⟨false, naming⟩ n role cs).map Finding.strictly := by
  unfold checkName
  simp only [apply_ite (List.map Finding.strictly), List.map_append, List.map_cons, List.map_nil,
    strictly_namingFinding, strictly_error "state_name" (by decide),
    strictly_warning "reserved_name" (by decide),
    strictly_warning "long_name" (by decide)]

theorem checkLabel_strict (cs : List Char) :
    checkLabel ⟨true, naming⟩ n cs = (checkLabel ⟨false, naming⟩ n cs).map Finding.strictly := by
  unfold checkLabel
  simp only [apply_ite (List.map Finding.strictly), List.map_cons, List.map_nil,
    strictly_namingFinding, strictly_warning "event_name" (by decide)]

theorem checkChain_strict (chain : Chain) :
    checkChain ⟨true, naming⟩ n chain =
      (checkChain ⟨false, naming⟩ n chain).map Finding.strictly := by
  unfold checkChain
  rw [List.map_append, flatMap_strict (checkLabel_strict naming n)]
  cases chain.names with
  | nil => rfl
  | cons first rest =>
    dsimp only
    rw [List.map_append, checkName_strict, flatMap_strict (checkName_strict naming n .target)]

theorem checkTransition_strict (line : List Char) :
    checkTransition ⟨true, naming⟩ n line =
      (checkTransition ⟨false, naming⟩ n line).map Finding.strictly := by
  unfold checkTransition
  split_ifs
  · rfl
  · cases readChain? line with
    | none => rfl
    | some chain => exact checkChain_strict naming n chain

theorem within_checkClassName (cs : List Char) :
    Within [(.error, "class_name")] (checkClassName n cs) := by
  unfold checkClassName
  split_ifs
  · exact within_nil
  · exact within_error.mpr List.mem_cons_self

theorem within_checkClassDef (name styles : List Char) :
    Within [(.error, "class_name"), (.warning, "class_styles")] (checkClassDef n name styles) := by
  refine within_append.mpr ⟨(within_checkClassName n name).mono (by decide), ?_⟩
  split_ifs
  · exact within_warning.mpr (List.mem_cons_of_mem _ List.mem_cons_self)
  · exact within_nil

theorem checkAssignment_strict (targets name : List Char) :
    checkAssignment ⟨true, naming⟩ n targets name =
      (checkAssignment ⟨false, naming⟩ n targets name).map Finding.strictly := by
  unfold checkAssignment
  rw [List.map_append, flatMap_strict (checkName_strict naming n .classTarget),
    map_strictly_eq_self (within_checkClassName n name) (by decide)]

/-! ## Lines and regions -/

theorem checkLine_strict (line : List Char) :
    checkLine ⟨true, naming⟩ n line = (checkLine ⟨false, naming⟩ n line).map Finding.strictly := by
  unfold checkLine
  dsimp only
  split
  · exact (map_strictly_eq_self (within_checkClassDef n _ _) (by decide)).symm
  split
  · exact checkAssignment_strict naming n _ _
  split
  · exact checkTransition_strict naming n line
  split
  · exact checkName_strict naming n .styled _
  split
  · rfl
  split
  · rfl
  split
  · rw [List.map_append, checkName_strict]
    congr 1
    split_ifs <;> rfl
  · split_ifs <;> rfl

theorem checkBodyLine_strict (line : Line) :
    checkBodyLine ⟨true, naming⟩ line =
      (checkBodyLine ⟨false, naming⟩ line).map Finding.strictly := by
  unfold checkBodyLine
  split_ifs
  · rfl
  · exact checkLine_strict naming _ _

theorem checkRegion_strict (region : Region) :
    checkRegion ⟨true, naming⟩ region =
      (checkRegion ⟨false, naming⟩ region).map Finding.strictly := by
  unfold checkRegion
  cases content region.lines with
  | nil => rfl
  | cons first rest =>
    dsimp only
    rw [List.map_append, flatMap_strict (checkBodyLine_strict naming)]
    congr 1
    split_ifs <;> rfl

/-- The kinds of what is said about fences. -/
def fenceKinds : List (Severity × String) :=
  [(.error, "unterminated_block"), (.error, "nested_block"), (.error, "empty_block")]

theorem within_fenced (current : Option Region) (lines : List Line) :
    Within fenceKinds (fenced current lines).2 := by
  fun_induction fenced current lines with
  | case1 => exact within_nil
  | case2 region => exact within_error.mpr (by decide)
  | case3 current n line rest _ more nested ih =>
    refine within_append.mpr ⟨?_, ih⟩
    unfold nested
    split_ifs
    · exact within_error.mpr (by decide)
    · exact within_nil
  | case4 n line rest _ ih => exact ih
  | case5 n line rest _ region _ more _ ih => exact ih
  | case6 n line rest _ region _ more _ ih =>
    exact within_append.mpr ⟨within_error.mpr (by decide), ih⟩
  | case7 n line rest _ region _ ih => exact ih

theorem within_regions (cs : List Char) : Within fenceKinds (regions cs).2 := by
  unfold regions
  dsimp only
  split
  · exact within_fenced none _
  · split <;> exact within_nil

/-- Strict mode finds the same, graded differently. -/
theorem findings_strict (text : String) :
    findings ⟨true, naming⟩ text = (findings ⟨false, naming⟩ text).map Finding.strictly := by
  unfold findings
  dsimp only
  rw [List.map_append, List.map_append, map_strictly_eq_self (within_regions _) (by decide),
    flatMap_strict (checkRegion_strict naming)]
  congr 2
  split_ifs <;> rfl

/-- Findings that grading leaves without errors are graded as they were. -/
theorem map_strictly_of_no_error {fs : List Finding} (h : errorsOf (fs.map Finding.strictly) = []) :
    fs.map Finding.strictly = fs := by
  refine map_strictly_of_forall fun f hf hnaming => ?_
  have hgraded : f.strictly ∈ errorsOf (fs.map Finding.strictly) :=
    List.mem_filter.mpr ⟨List.mem_map_of_mem hf, by simp [Finding.strictly, hnaming]⟩
  simp [h] at hgraded

/-- A text without errors in strict mode has the same report without it. -/
theorem check_strict_of_valid {text source : String}
    (h : (check ⟨true, naming⟩ text source).errors = []) :
    check ⟨true, naming⟩ text source = check ⟨false, naming⟩ text source := by
  have hnone : errorsOf ((findings ⟨false, naming⟩ text).map Finding.strictly) = [] := by
    rw [← findings_strict]
    exact h
  unfold check
  rw [findings_strict, map_strictly_of_no_error hnone]

theorem eq_nil_of_ofFindings {fs : List Finding} {source : String}
    (herrors : (Report.ofFindings source fs).errors = [])
    (hwarnings : (Report.ofFindings source fs).warnings = []) : fs = [] := by
  refine List.eq_nil_iff_forall_not_mem.mpr fun f hf => ?_
  have herror := List.filter_eq_nil_iff.mp herrors f hf
  have hwarning := List.filter_eq_nil_iff.mp hwarnings f hf
  cases hseverity : f.severity <;> simp_all

/-- A text about which nothing is said has the same report in strict mode. -/
theorem check_strict_of_spotless {text source : String}
    (herrors : (check ⟨false, naming⟩ text source).errors = [])
    (hwarnings : (check ⟨false, naming⟩ text source).warnings = []) :
    check ⟨true, naming⟩ text source = check ⟨false, naming⟩ text source := by
  unfold check
  rw [findings_strict, eq_nil_of_ofFindings herrors hwarnings]
  rfl

end Lint

end FlowMachine

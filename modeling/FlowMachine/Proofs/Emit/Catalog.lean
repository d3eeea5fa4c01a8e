import FlowMachine.Diagram.Source
import FlowMachine.Emit.Smoke
import FlowMachine.Proofs.Emit.Tables
import FlowMachine.Proofs.Label
import FlowMachine.Proofs.Machine.Names
import Mathlib.Data.List.Sort
import Mathlib.Data.String.Basic

/-!
# The list of events in the smoke suite

The suite sorts the events of a machine by code point and compares them with a list that was sorted
without regard to case. Event names consist of capitals, digits and underscores. An underscore
stands behind all capitals but in front of all small letters, and nothing else changes its place. So
the two orders differ exactly when one name goes on with an underscore where another one goes on
with a capital.
-/
namespace FlowMachine

open FlowMachine.Text

/-! ## Event names -/

namespace Label

/-- In small letters a capital moves up by 32 places, and an underscore and a digit stay. -/
theorem isNamePart_cases {c : Char} (h : isNamePart c = true) :
    c.isUpper = true ∧ 65 ≤ c.toNat ∧ c.toNat ≤ 90 ∧ c.toLower.toNat = c.toNat + 32 ∨
      c.isUpper = false ∧ c = '_' ∧ c.toNat = 95 ∧ c.toLower.toNat = c.toNat ∨
      c.isUpper = false ∧ c.toNat ≤ 57 ∧ c.toLower.toNat = c.toNat := by
  have hascii := lt_of_isNamePart h
  revert h
  exact forall_ascii (P := fun c => isNamePart c = true →
    c.isUpper = true ∧ 65 ≤ c.toNat ∧ c.toNat ≤ 90 ∧ c.toLower.toNat = c.toNat + 32 ∨
      c.isUpper = false ∧ c = '_' ∧ c.toNat = 95 ∧ c.toLower.toNat = c.toNat ∨
      c.isUpper = false ∧ c.toNat ≤ 57 ∧ c.toLower.toNat = c.toNat) (by decide) hascii

/-- Two characters keep their order in small letters, unless a capital stands in front of an
underscore. -/
theorem toLower_lt_toLower {a b : Char} (ha : isNamePart a = true) (hb : isNamePart b = true)
    (hlt : a < b)
    (hne : a.isUpper = true → b ≠ '_') : a.toLower < b.toLower := by
  have hcode : a.toNat < b.toNat := hlt
  show a.toLower.toNat < b.toLower.toNat
  rcases isNamePart_cases ha with ⟨hupper, ha⟩ | ⟨-, -, ha⟩ | ⟨-, ha⟩ <;>
    rcases isNamePart_cases hb with ⟨-, hb⟩ | ⟨-, hunder, hb⟩ | ⟨-, hb⟩
  case inl.inr.inl => exact absurd hunder (hne hupper)
  all_goals omega

theorem lowerAfter_eq {seen cs : List Char} (h : ∀ c ∈ cs, isNamePart c = true) :
    lowerAfter seen cs = cs.map Char.toLower := by
  induction cs generalizing seen with
  | nil => rfl
  | cons c cs ih =>
    obtain ⟨hc, hcs⟩ := List.forall_mem_cons.mp h
    have hascii := lt_of_isNamePart hc
    have hsigma : (c.toNat == 0x3A3) = false := by simp; omega
    have hlower : lowerChar c = [c.toLower] := by simp [lowerChar, hascii]
    rw [lowerAfter, ih hcs, hsigma, hlower]
    rfl

end Label

/-! ## The two orders -/

namespace Emit

open FlowMachine.Label FlowMachine.Literal

/-- The first name goes on with an underscore where the second one goes on with a capital. -/
def Overtakes (as bs : List Char) : Prop :=
  ∃ front capital rest rest', as = front ++ '_' :: rest ∧ bs = front ++ capital :: rest' ∧
    capital.isUpper = true

/-- Of such names the first one comes first when case is disregarded, and the second one by code
point. -/
theorem Overtakes.lt {as bs : List Char} (h : Overtakes as bs) :
    as.map Char.toLower < bs.map Char.toLower ∧ bs < as := by
  obtain ⟨front, capital, rest, rest', rfl, rfl, hcapital⟩ := h
  have hpart : isNamePart capital = true := by simp [isNamePart, isEventChar, hcapital]
  obtain ⟨-, hlow, hhigh, hlower⟩ | ⟨hnot, -⟩ | ⟨hnot, -⟩ := isNamePart_cases hpart
  · have hfolded : '_'.toLower < capital.toLower := by
      show 95 < capital.toLower.toNat
      omega
    have hcode : capital < '_' := by
      show capital.toNat < 95
      omega
    induction front with
    | nil => exact ⟨List.Lex.rel hfolded, List.Lex.rel hcode⟩
    | cons c front ih => exact ⟨List.Lex.cons ih.1, List.Lex.cons ih.2⟩
  · simp [hcapital] at hnot
  · simp [hcapital] at hnot

/-- Otherwise small letters keep the order of names. -/
theorem map_toLower_lt {as bs : List Char} (has : ∀ c ∈ as, isNamePart c = true)
    (hbs : ∀ c ∈ bs, isNamePart c = true) (h : ¬ Overtakes bs as) (hlt : as < bs) :
    as.map Char.toLower < bs.map Char.toLower := by
  induction hlt with
  | nil => exact List.Lex.nil
  | @cons c as bs hlt ih =>
    refine List.Lex.cons
      (ih (fun x hx => has x (by simp [hx])) (fun x hx => hbs x (by simp [hx])) ?_)
    rintro ⟨front, capital, rest, rest', rfl, rfl, hcapital⟩
    exact h ⟨c :: front, capital, rest, rest', rfl, rfl, hcapital⟩
  | @rel a as b bs hlt =>
    refine List.Lex.rel (toLower_lt_toLower (has a (by simp)) (hbs b (by simp)) hlt ?_)
    rintro hcapital rfl
    exact h ⟨[], a, bs, as, rfl, rfl, hcapital⟩

theorem sortTexts_perm (xs : List String) : (sortTexts xs).Perm xs := List.mergeSort_perm xs _

theorem sortFolded_perm (xs : List String) : (sortFolded xs).Perm xs := List.mergeSort_perm xs _

theorem pairwise_sortTexts (xs : List String) : (sortTexts xs).Pairwise (· ≤ ·) :=
  List.pairwise_mergeSort' (· ≤ ·) xs

theorem pairwise_sortFolded (xs : List String) :
    (sortFolded xs).Pairwise fun a b => lower a ≤ lower b := by
  have : IsTrans String fun a b => lower a ≤ lower b := ⟨fun _ _ _ => le_trans⟩
  have : Std.Total fun a b : String => lower a ≤ lower b := ⟨fun _ _ => le_total _ _⟩
  exact List.pairwise_mergeSort' (fun a b => lower a ≤ lower b) xs

/-- A list in order is what sorting any arrangement of it gives. -/
theorem eq_sortTexts_of_pairwise {xs ys : List String} (hperm : ys.Perm xs)
    (hys : ys.Pairwise (· ≤ ·)) :
    ys = sortTexts xs :=
  (hperm.trans (sortTexts_perm xs).symm).eq_of_pairwise' hys (pairwise_sortTexts xs)

theorem toList_lower {name : String} (h : ∀ c ∈ name.toList, isNamePart c = true) :
    (lower name).toList = name.toList.map Char.toLower := by
  rw [lower, String.toList_ofList, lowerChars, lowerAfter_eq h]

/-- The two orders give the same list exactly when no name overtakes another one. -/
theorem sortFolded_eq_sortTexts_iff {xs : List String}
    (h : ∀ x ∈ xs, ∀ c ∈ x.toList, isNamePart c = true) :
    sortFolded xs = sortTexts xs ↔ ∀ a ∈ xs, ∀ b ∈ xs, ¬ Overtakes a.toList b.toList := by
  have hmem {a : String} : a ∈ sortFolded xs ↔ a ∈ xs := (sortFolded_perm xs).mem_iff
  constructor
  · intro heq a ha b hb hover
    -- in a list that is in both orders, of two names neither overtakes the other
    have hcode : (sortFolded xs).Pairwise fun a b => ¬ Overtakes a.toList b.toList := by
      rw [heq]
      exact (pairwise_sortTexts xs).imp fun hle hover =>
        absurd hle (not_le.mpr (String.lt_iff_toList_lt.mpr hover.lt.2))
    have hfolded : (sortFolded xs).Pairwise fun a b => ¬ Overtakes b.toList a.toList := by
      refine (pairwise_sortFolded xs).imp_of_mem fun {a b} ha hb hle hover => ?_
      have hlt := hover.lt.1
      rw [← toList_lower (h b (hmem.mp hb)), ← toList_lower (h a (hmem.mp ha)),
        ← String.lt_iff_toList_lt]
        at hlt
      exact absurd hle (not_le.mpr hlt)
    have hself : ∀ x ∈ sortFolded xs, ¬ Overtakes x.toList x.toList := fun x _ hover =>
      lt_irrefl _ hover.lt.2
    exact hcode.forall_of_forall_of_flip hself hfolded (hmem.mpr ha) (hmem.mpr hb) hover
  · intro hnone
    refine eq_sortTexts_of_pairwise (sortFolded_perm xs) ?_
    refine (pairwise_sortFolded xs).imp_of_mem fun {a b} ha hb hle => ?_
    by_contra hnot
    have hlt : b.toList < a.toList := String.lt_iff_toList_lt.mp (not_le.mp hnot)
    have hlower := map_toLower_lt (h b (hmem.mp hb)) (h a (hmem.mp ha))
      (hnone a (hmem.mp ha) b (hmem.mp hb)) hlt
    rw [← toList_lower (h b (hmem.mp hb)), ← toList_lower (h a (hmem.mp ha)),
      ← String.lt_iff_toList_lt]
      at hlower
    exact absurd hle (not_le.mpr hlower)

/-! ## The list in the suite -/

/-- The list that the suite compares the sorted events with. -/
def catalogLiteral (m : Machine) : String := listOf (sortFolded m.eventNames)

/-- The lines of the test of the catalog. -/
def catalogTest (m : Machine) : List String :=
  ["    def test_event_catalog(self):", "        assert sorted(EVENTS) == " ++ catalogLiteral m]

theorem smokeSuite_eq (comprehensive : Bool) (m : Machine) :
    ∃ before after, smokeSuite comprehensive m = document (before ++ catalogTest m ++ after) := by
  have hclass : smokeClass m = (smokeClass m).take 47 ++ catalogTest m ++
    (smokeClass m).drop 49 := rfl
  refine ⟨(smokeClass m).take 47, (smokeClass m).drop 49 ++ if comprehensive then dispatchClass m
    else [], ?_⟩
  rw [smokeSuite, ← List.append_assoc, ← hclass]

theorem read?_catalogLiteral (m : Machine) :
    read? (catalogLiteral m) = some (.list ((sortFolded m.eventNames).map .text)) :=
  read?_of_lexes (lexes_listOf _) (denotes_listTokens _)

theorem read?_catalogLiteral_iff (m : Machine) {names : List String} :
    read? (catalogLiteral m) = some (.list (names.map .text)) ↔
      sortFolded m.eventNames = names := by
  rw [read?_catalogLiteral, Option.some.injEq, Datum.list.injEq]
  exact (List.map_injective_iff.mpr fun a b h => Datum.text.inj h).eq_iff

theorem isNamePart_of_mem_eventNames {o : DeriveOptions} {d : Diagram} {name : String}
    (h : name ∈ (Machine.derive o d).eventNames) : ∀ c ∈ name.toList, isNamePart c = true := by
  obtain ⟨e, -, rfl, -⟩ := Machine.exists_edge_of_mem_eventNames h
  exact fun c hc => isNamePart_of_mem_eventName hc

/-- The suite has the event names sorted without regard to case. They stand there sorted by code
point exactly when no event name overtakes another one. -/
theorem eventCatalog_iff (o : DeriveOptions) (comprehensive : Bool) (d : Diagram) :
    let m := Machine.derive o d
    (∃ before after, smokeSuite comprehensive m = document (before ++ catalogTest m ++ after)) ∧
      read? (catalogLiteral m) = some (.list ((sortFolded m.eventNames).map .text)) ∧
      (read? (catalogLiteral m) = some (.list ((sortTexts m.eventNames).map .text)) ↔
        ∀ a ∈ m.eventNames, ∀ b ∈ m.eventNames, ¬ Overtakes a.toList b.toList) := by
  intro m
  refine ⟨smokeSuite_eq comprehensive m, read?_catalogLiteral m, ?_⟩
  rw [read?_catalogLiteral_iff]
  exact sortFolded_eq_sortTexts_iff fun name hname => isNamePart_of_mem_eventNames hname

/-- Two labels that differ by a blank give events whose sorted list is not the one in the suite. -/
theorem exists_catalog_out_of_order :
    ∃ d ∈ (Source.read {} "flowchart TD\nA -->|ab| B\nB -->|a b| A" none none).diagrams,
      (Machine.derive {} d).eventNames = ["AB", "A_B"] ∧ sortTexts ["AB", "A_B"] = ["AB", "A_B"] ∧
      read? (catalogLiteral (Machine.derive {} d)) ≠ some (.list (["AB", "A_B"].map .text)) := by
  have hd : ∃ d ∈ (Source.read {} "flowchart TD\nA -->|ab| B\nB -->|a b| A" none none).diagrams,
      (Machine.derive {} d).eventNames = ["AB", "A_B"] := by
    decide +kernel
  obtain ⟨d, hmem, hnames⟩ := hd
  have hsorted : sortTexts ["AB", "A_B"] = ["AB", "A_B"] :=
    (eq_sortTexts_of_pairwise (.refl _) (by decide)).symm
  refine ⟨d, hmem, hnames, hsorted, fun hread => ?_⟩
  have hequal : sortFolded (Machine.derive {} d).eventNames =
      sortTexts (Machine.derive {} d).eventNames := by
    rw [(read?_catalogLiteral_iff _).mp hread, hnames, hsorted]
  have hnone :=
    (sortFolded_eq_sortTexts_iff fun name hname => isNamePart_of_mem_eventNames hname).mp hequal
  refine hnone "A_B" (by simp [hnames]) "AB" (by simp [hnames]) ?_
  exact ⟨['A'], 'B', ['B'], [], rfl, rfl, rfl⟩

end Emit

end FlowMachine

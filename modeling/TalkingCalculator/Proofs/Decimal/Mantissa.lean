import Mathlib.Data.Nat.Digits.Defs
import TalkingCalculator.Proofs.Decimal.Reading

/-!
# Mantissas

A mantissa is written with digits of some kind and at most one point, and has at least one digit. The numeral at the
start of a text is the longest mantissa that the text begins with, and is empty when the text begins with none.
-/
namespace TalkingCalculator

namespace Numeral

variable {digit : Char → Option ℕ} {ds rest cs : List Char}

def valueOf (digit : Char → Option ℕ) (c : Char) : ℕ :=
  (digit c).getD 0

theorem leadingDigits_run (hds : ∀ c ∈ ds, (digit c).isSome) (hrest : ∀ c ∈ rest.head?, digit c = none) :
    leadingDigits digit (ds ++ rest) = ds.map (valueOf digit) := by
  induction ds with
  | nil =>
    cases rest with
    | nil => rfl
    | cons c cs => simp [leadingDigits, hrest c rfl]
  | cons d ds ih =>
    obtain ⟨hd, hds⟩ := List.forall_mem_cons.mp hds
    obtain ⟨n, hn⟩ := Option.isSome_iff_exists.mp hd
    rw [List.cons_append, leadingDigits, hn]
    simp [ih hds, valueOf, hn]

theorem length_run_le (hds : ∀ c ∈ ds, (digit c).isSome) (rest : List Char) :
    ds.length ≤ (leadingDigits digit (ds ++ rest)).length := by
  induction ds with
  | nil => exact Nat.zero_le _
  | cons d ds ih =>
    obtain ⟨hd, hds⟩ := List.forall_mem_cons.mp hds
    obtain ⟨n, hn⟩ := Option.isSome_iff_exists.mp hd
    rw [List.cons_append, leadingDigits, hn]
    exact Nat.succ_le_succ (ih hds)

/-- Every text begins with a run of digits, which may be empty. -/
theorem exists_run (digit : Char → Option ℕ) (cs : List Char) :
    ∃ ds rest, cs = ds ++ rest ∧ (∀ c ∈ ds, (digit c).isSome) ∧ ∀ c ∈ rest.head?, digit c = none := by
  induction cs with
  | nil => exact ⟨[], [], rfl, nofun, nofun⟩
  | cons c cs ih =>
    cases hc : digit c with
    | none =>
      refine ⟨[], c :: cs, rfl, nofun, fun d hd => ?_⟩
      cases hd
      exact hc
    | some n =>
      obtain ⟨ds, rest, rfl, hds, hrest⟩ := ih
      exact ⟨c :: ds, rest, rfl, List.forall_mem_cons.mpr ⟨by rw [hc]; rfl, hds⟩, hrest⟩

theorem leading_run (hds : ∀ c ∈ ds, (digit c).isSome) (hrest : ∀ c ∈ rest.head?, digit c = none)
    (hpoint : rest.head? ≠ some '.') : leading digit (ds ++ rest) = ⟨ds.map (valueOf digit), false, []⟩ := by
  have hdrop : (ds ++ rest).drop (ds.map (valueOf digit)).length = rest := by
    rw [List.length_map, List.drop_left]
  unfold leading
  simp only [leadingDigits_run hds hrest, hdrop]
  split
  · exact absurd rfl hpoint
  · rfl

theorem leading_run_point (hpoint : digit '.' = none) (hds : ∀ c ∈ ds, (digit c).isSome) (after : List Char) :
    leading digit (ds ++ '.' :: after) = ⟨ds.map (valueOf digit), true, leadingDigits digit after⟩ := by
  have hrest : ∀ c ∈ ('.' :: after).head?, digit c = none := by
    intro c hc
    cases hc
    exact hpoint
  have hdrop : (ds ++ '.' :: after).drop (ds.map (valueOf digit)).length = '.' :: after := by
    rw [List.length_map, List.drop_left]
  unfold leading
  simp only [leadingDigits_run hds hrest, hdrop]

theorem whole_leading (digit : Char → Option ℕ) (cs : List Char) :
    (leading digit cs).whole = leadingDigits digit cs := by
  unfold leading
  dsimp only
  split <;> rfl

end Numeral

/-- Of all that can be written in this way, the longest that the text begins with. -/
structure LongestAt {α : Type} (chars : α → List Char) (cs : List Char) (a : α) : Prop where
  leading : chars a <+: cs
  longest : ∀ b, chars b <+: cs → (chars b).length ≤ (chars a).length

/-- The characters of a number: the digits before the point and, if there is a point, those after it. -/
structure Mantissa (digit : Char → Option ℕ) where
  whole : List Char
  fraction : Option (List Char)
  whole_digits : ∀ c ∈ whole, (digit c).isSome
  fraction_digits : ∀ c ∈ fraction.getD [], (digit c).isSome
  nonempty : whole ++ fraction.getD [] ≠ []

namespace Mantissa

open Numeral

variable {digit : Char → Option ℕ} {cs rest : List Char}

def fractionDigits (m : Mantissa digit) : List Char :=
  m.fraction.getD []

def chars (m : Mantissa digit) : List Char :=
  match m.fraction with
  | none => m.whole
  | some ds => m.whole ++ '.' :: ds

def value (m : Mantissa digit) : ℚ :=
  (Nat.ofDigits 10 ((m.whole ++ m.fractionDigits).map (valueOf digit)).reverse : ℕ) / 10 ^ m.fractionDigits.length

def numeral (m : Mantissa digit) : Numeral :=
  ⟨m.whole.map (valueOf digit), m.fraction.isSome, m.fractionDigits.map (valueOf digit)⟩

/-- No mantissa goes on with this text. -/
def Ends (digit : Char → Option ℕ) (cs : List Char) : Prop :=
  ∀ c ∈ cs.head?, digit c = none ∧ c ≠ '.'

theorem leading_append (hpoint : digit '.' = none) (m : Mantissa digit) (hrest : Ends digit rest) :
    leading digit (m.chars ++ rest) = m.numeral := by
  have hdigit : ∀ c ∈ rest.head?, digit c = none := fun c hc => (hrest c hc).1
  obtain ⟨whole, fraction, hwhole, hfraction, hne⟩ := m
  cases fraction with
  | none => exact leading_run hwhole hdigit fun h => (hrest '.' h).2 rfl
  | some ds =>
    simp only [chars, List.append_assoc, List.cons_append]
    rw [leading_run_point hpoint hwhole]
    exact congrArg (Numeral.mk _ true) (leadingDigits_run hfraction hdigit)

theorem width_numeral (m : Mantissa digit) : m.numeral.width = m.chars.length := by
  obtain ⟨whole, fraction, hwhole, hfraction, hne⟩ := m
  cases fraction with
  | none => simp [numeral, chars, fractionDigits, width, digitCount]
  | some ds => simp [numeral, chars, fractionDigits, width, digitCount, Nat.add_assoc]

theorem digitCount_numeral_pos (m : Mantissa digit) : 0 < m.numeral.digitCount := by
  have hpos : 0 < (m.whole ++ m.fraction.getD []).length := List.length_pos_iff.mpr m.nonempty
  simpa [numeral, fractionDigits, digitCount] using hpos

theorem ofDigits_eq (ds : List ℕ) : Decimal.ofDigits ds = Nat.ofDigits 10 ds.reverse := by
  rw [Nat.ofDigits_eq_foldr, List.foldr_reverse]
  simp only [Decimal.ofDigits, add_comm, Nat.cast_id]

theorem value_decimal (m : Mantissa digit) (exponent : ℤ) :
    (m.numeral.decimal exponent).value = m.value * 10 ^ exponent := by
  unfold Numeral.decimal Decimal.value value numeral
  simp only [← List.map_append, ofDigits_eq, List.length_map]
  rw [zpow_sub₀ (by norm_num), zpow_natCast]
  ring

theorem value_numeral (m : Mantissa digit) : (m.numeral.decimal 0).value = m.value := by
  rw [value_decimal, zpow_zero, mul_one]

theorem value_nonneg (m : Mantissa digit) : 0 ≤ m.value := by
  rw [← m.value_numeral]
  exact Decimal.value_nonneg _

/-- A mantissa begins with a digit or a point. -/
theorem exists_cons (m : Mantissa digit) : ∃ c cs, m.chars = c :: cs ∧ ((digit c).isSome ∨ c = '.') := by
  obtain ⟨whole, fraction, hwhole, hfraction, hne⟩ := m
  cases whole with
  | cons c cs =>
    have hc := hwhole c List.mem_cons_self
    cases fraction with
    | none => exact ⟨c, cs, rfl, Or.inl hc⟩
    | some ds => exact ⟨c, cs ++ '.' :: ds, rfl, Or.inl hc⟩
  | nil =>
    cases fraction with
    | none => exact absurd rfl hne
    | some ds => exact ⟨'.', ds, rfl, Or.inr rfl⟩

theorem chars_ne_nil (m : Mantissa digit) : m.chars ≠ [] := by
  obtain ⟨c, cs, hchars, -⟩ := m.exists_cons
  rw [hchars]
  exact List.cons_ne_nil c cs

/-- No mantissa at the start of a text is longer than the numeral there. -/
theorem length_le_width (hpoint : digit '.' = none) {m : Mantissa digit} (h : m.chars <+: cs) :
    m.chars.length ≤ (leading digit cs).width ∧ 0 < (leading digit cs).digitCount := by
  obtain ⟨rest, rfl⟩ := h
  obtain ⟨whole, fraction, hwhole, hfraction, hne⟩ := m
  unfold width digitCount
  cases fraction with
  | none =>
    have hlength := length_run_le hwhole rest
    have hpos : 0 < whole.length := List.length_pos_iff.mpr (by simpa using hne)
    rw [whole_leading, show chars ⟨whole, none, hwhole, hfraction, hne⟩ = whole from rfl]
    omega
  | some ds =>
    have hlength := length_run_le hfraction rest
    have hpos : 0 < (whole ++ ds).length := List.length_pos_iff.mpr hne
    rw [chars, List.append_assoc, List.cons_append, leading_run_point hpoint hwhole]
    simp only [List.length_append, List.length_map, List.length_cons, if_true, Option.getD_some] at hlength hpos ⊢
    omega

/-- The numeral at the start of a text is that of a mantissa there, unless it is empty. -/
theorem exists_leading (hpoint : digit '.' = none) (h : (leading digit cs).digitCount ≠ 0) :
    ∃ m : Mantissa digit, m.chars <+: cs ∧ m.numeral = leading digit cs := by
  obtain ⟨whole, after, rfl, hwhole, hafter⟩ := exists_run digit cs
  by_cases hhead : after.head? = some '.'
  · obtain ⟨tail, rfl⟩ := List.head?_eq_some_iff.mp hhead
    obtain ⟨fraction, rest, rfl, hfraction, hrest⟩ := exists_run digit tail
    rw [leading_run_point hpoint hwhole, leadingDigits_run hfraction hrest] at h ⊢
    have hne : whole ++ fraction ≠ [] := by
      intro hnil
      obtain ⟨rfl, rfl⟩ := List.append_eq_nil_iff.mp hnil
      exact h rfl
    exact ⟨⟨whole, some fraction, hwhole, hfraction, hne⟩, ⟨rest, by simp [chars]⟩, rfl⟩
  · rw [leading_run hwhole hafter hhead] at h ⊢
    have hne : whole ++ [] ≠ [] := by
      rw [List.append_nil]
      rintro rfl
      exact h rfl
    exact ⟨⟨whole, none, hwhole, nofun, hne⟩, List.prefix_append whole after, rfl⟩

theorem longestAt_or_none (hpoint : digit '.' = none) (cs : List Char) :
    (∃ m : Mantissa digit, LongestAt chars cs m ∧ m.numeral = leading digit cs) ∨
      (leading digit cs).digitCount = 0 ∧ ∀ m : Mantissa digit, ¬ m.chars <+: cs := by
  by_cases h : (leading digit cs).digitCount = 0
  · refine Or.inr ⟨h, fun m hm => ?_⟩
    have := (length_le_width hpoint hm).2
    omega
  · obtain ⟨m, hm, hnumeral⟩ := exists_leading hpoint h
    refine Or.inl ⟨m, ⟨hm, fun m' hm' => ?_⟩, hnumeral⟩
    rw [← m.width_numeral, hnumeral]
    exact (length_le_width hpoint hm').1

end Mantissa

end TalkingCalculator

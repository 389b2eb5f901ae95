import Mathlib.Data.List.TakeWhile
import TalkingCalculator.Voice.Spoken

/-!
# Audible texts

A text is audible if not all of it is blank. Reading a text aloud keeps it audible: every sign gives way to a reading
that is audible itself, and the words that are parted have every character that is not blank. What is said for a key
is audible if its label has more than blanks and opening parentheses.
-/
namespace TalkingCalculator

def Audible (cs : List Char) : Prop :=
  ∃ c ∈ cs, Text.isBlank c = false

theorem any_iff_audible {cs : List Char} : (cs.any fun c => !Text.isBlank c) = true ↔ Audible cs := by
  simp only [Audible, List.any_eq_true, Bool.not_eq_true']

instance (cs : List Char) : Decidable (Audible cs) :=
  decidable_of_iff _ any_iff_audible

namespace Audible

variable {cs ds : List Char}

theorem mono (h : Audible cs) (hsubset : cs ⊆ ds) : Audible ds := by
  obtain ⟨c, hc, hblank⟩ := h
  exact ⟨c, hsubset hc, hblank⟩

theorem append_left (h : Audible cs) (ds : List Char) : Audible (cs ++ ds) :=
  h.mono (List.subset_append_left cs ds)

theorem replaceAll {part new : List Char} (hnew : Audible new) (h : Audible cs) :
    Audible (Text.replaceAll part new cs) := by
  fun_induction Text.replaceAll part new cs with
  | case1 => exact h
  | case2 c cs hpart ih => exact hnew.append_left _
  | case3 c cs hpart ih =>
    obtain ⟨d, hd, hblank⟩ := h
    rcases List.mem_cons.mp hd with rfl | hd
    · exact ⟨d, List.mem_cons_self, hblank⟩
    · exact (ih ⟨d, hd, hblank⟩).mono (List.subset_cons_self _ _)

end Audible

namespace Text

theorem flatten_go (word cs : List Char) :
    (words.go word cs).flatten = word.reverse ++ cs.filter fun c => !isBlank c := by
  induction cs generalizing word with
  | nil =>
    unfold words.go
    cases word <;> simp
  | cons c cs ih =>
    unfold words.go
    cases hc : isBlank c with
    | false => simp [hc, ih]
    | true => cases word <;> simp [hc, ih]

/-- The words of a text are all of it but the blanks. -/
theorem flatten_words (cs : List Char) : (words cs).flatten = cs.filter fun c => !isBlank c :=
  flatten_go [] cs

end Text

theorem flatten_subset_intercalate {α : Type} (sep : List α) (ws : List (List α)) :
    ws.flatten ⊆ sep.intercalate ws := by
  induction ws with
  | nil => exact List.Subset.refl _
  | cons w ws ih =>
    cases ws with
    | nil => simp
    | cons w' ws =>
      rw [List.intercalate_cons_cons, List.flatten_cons, List.append_assoc]
      exact List.append_subset.mpr ⟨List.subset_append_left _ _,
        List.Subset.trans ih (List.subset_append_of_subset_right _ (List.subset_append_right _ _))⟩

namespace Spoken

theorem audible_readings : ∀ r ∈ readings, Audible r.2.toList := by
  decide

theorem audible_digitNames : ∀ r ∈ digitNames, Audible r.2.toList := by
  decide

variable {cs : List Char} {label : String}

theorem audible_replaceSigns (h : Audible cs) : Audible (replaceSigns cs) :=
  List.foldlRecOn readings _ h fun _ hcs r hr => (audible_readings r hr).replaceAll hcs

theorem audible_spaced (h : Audible cs) : Audible (spaced cs) := by
  have hwords : Audible (Text.words cs).flatten := by
    obtain ⟨c, hc, hblank⟩ := h
    rw [Text.flatten_words]
    exact ⟨c, List.mem_filter.mpr ⟨hc, by rw [hblank]; rfl⟩, hblank⟩
  exact hwords.mono (flatten_subset_intercalate _ _)

/-- A text that is not blank is not read as a blank one. -/
theorem audible_read {text : String} (h : Audible text.toList) : Audible (read text).toList := by
  unfold read
  rw [String.toList_ofList]
  exact audible_spaced (audible_replaceSigns h)

theorem audible_result (text : String) : Audible (result text).toList := by
  have hlead : Audible "igual a ".toList := by decide
  rw [result, String.toList_append]
  exact hlead.append_left _

/-- Only opening parentheses are taken from the end of a label. -/
theorem mem_reverse_dropWhile {c : Char} (hc : c ∈ cs) (hparen : c ≠ '(') :
    c ∈ (cs.reverse.dropWhile (· = '(')).reverse := by
  rw [List.mem_reverse]
  rw [← List.mem_reverse, ← List.takeWhile_append_dropWhile (p := (· = '(')) (l := cs.reverse)] at hc
  rcases List.mem_append.mp hc with htaken | hleft
  · exact absurd (decide_eq_true_iff.mp (List.mem_takeWhile_imp htaken :)) hparen
  · exact hleft

theorem audible_key (h : Audible (label.toList.filter (· ≠ '('))) : Audible (key label).toList := by
  unfold key
  split
  · rename_i name hname
    obtain ⟨before, after, hnames, -⟩ := List.lookup_eq_some_iff.mp hname
    refine audible_digitNames (label, name) ?_
    rw [hnames]
    exact List.mem_append_right _ List.mem_cons_self
  · obtain ⟨c, hc, hblank⟩ := h
    obtain ⟨hlabel, hparen⟩ := List.mem_filter.mp hc
    refine audible_read ⟨c, ?_, hblank⟩
    rw [String.toList_ofList]
    exact mem_reverse_dropWhile hlabel (of_decide_eq_true hparen)

/-- The label of the opening parenthesis is taken away as if it were that of a function. -/
theorem key_openParen : key "(" = "" := by
  decide +kernel

end Spoken

end TalkingCalculator

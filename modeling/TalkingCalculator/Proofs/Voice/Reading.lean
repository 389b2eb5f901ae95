import Mathlib.Data.List.Chain
import TalkingCalculator.Proofs.Text.Substitution
import TalkingCalculator.Proofs.Voice.Audible

/-!
# Texts as they are read

Each sign of the table is apart from those after it, so that reading a text is reading all of its signs at once, from
left to right. Words are then parted by single spaces. The comma is the only sign that is left, and a blank follows it
wherever it stands, which is why reading what has been read changes nothing.
-/
namespace TalkingCalculator

namespace Text

variable {w word cs : List Char} {ws : List (List Char)} {b c : Char}

def IsWord (w : List Char) : Prop :=
  w ≠ [] ∧ ∀ c ∈ w, isBlank c = false

theorem isWord_reverse (hne : ¬ word.isEmpty = true) (hword : ∀ c ∈ word, isBlank c = false) : IsWord word.reverse :=
  ⟨List.reverse_ne_nil_iff.mpr (mt List.isEmpty_iff.mpr hne), fun c hc => hword c (List.mem_reverse.mp hc)⟩

theorem isWord_of_mem_go (hword : ∀ c ∈ word, isBlank c = false) (hw : w ∈ words.go word cs) : IsWord w := by
  induction cs generalizing word with
  | nil =>
    unfold words.go at hw
    split at hw
    · cases hw
    · rename_i hne
      rw [List.mem_singleton.mp hw]
      exact isWord_reverse hne hword
  | cons c cs ih =>
    unfold words.go at hw
    split at hw
    · split at hw
      · exact ih (List.forall_mem_nil _) hw
      · rename_i hne
        rcases List.mem_cons.mp hw with rfl | hw
        · exact isWord_reverse hne hword
        · exact ih (List.forall_mem_nil _) hw
    · rename_i hc
      refine ih (List.forall_mem_cons.mpr ⟨?_, hword⟩) hw
      exact Bool.eq_false_iff.mpr hc

theorem isWord_of_mem_words (hw : w ∈ words cs) : IsWord w :=
  isWord_of_mem_go (List.forall_mem_nil _) hw

theorem go_append (hw : ∀ c ∈ w, isBlank c = false) (word cs : List Char) :
    words.go word (w ++ cs) = words.go (w.reverse ++ word) cs := by
  induction w generalizing word with
  | nil => rfl
  | cons c w ih =>
    obtain ⟨hc, hw⟩ := List.forall_mem_cons.mp hw
    rw [List.cons_append, words.go, hc, if_neg Bool.false_ne_true, ih hw, List.reverse_cons, List.append_assoc]
    rfl

theorem words_append_blank (hw : IsWord w) (hb : isBlank b = true) (cs : List Char) :
    words (w ++ b :: cs) = w :: words cs := by
  unfold words
  rw [go_append hw.2, List.append_nil, words.go, if_pos hb, if_neg, List.reverse_reverse]
  rw [List.isEmpty_reverse, List.isEmpty_iff]
  exact hw.1

theorem words_of_isWord (hw : IsWord w) : words w = [w] := by
  have hgo := go_append hw.2 [] []
  rw [List.append_nil, List.append_nil] at hgo
  rw [words, hgo, words.go, if_neg, List.reverse_reverse]
  rw [List.isEmpty_reverse, List.isEmpty_iff]
  exact hw.1

theorem words_intercalate (hws : ∀ w ∈ ws, IsWord w) : words ([' '].intercalate ws) = ws := by
  induction ws with
  | nil => rfl
  | cons w ws ih =>
    obtain ⟨hw, hws⟩ := List.forall_mem_cons.mp hws
    cases ws with
    | nil => rw [List.intercalate_singleton, words_of_isWord hw]
    | cons w' ws =>
      rw [List.intercalate_cons_cons, List.append_assoc, List.singleton_append, words_append_blank hw rfl, ih hws]

theorem subset_of_mem_words (hw : w ∈ words cs) : w ⊆ cs := by
  intro c hc
  have hflatten : c ∈ (words cs).flatten := List.mem_flatten.mpr ⟨w, hw, hc⟩
  rw [flatten_words] at hflatten
  exact (List.mem_filter.mp hflatten).1

/-- A word goes on from what was read of it before. -/
theorem infix_of_mem_go (hw : w ∈ words.go word cs) : w <:+: word.reverse ++ cs := by
  induction cs generalizing word with
  | nil =>
    unfold words.go at hw
    split at hw
    · cases hw
    · rw [List.mem_singleton.mp hw]
      exact (List.prefix_append _ _).isInfix
  | cons c cs ih =>
    have hrest : w ∈ words.go [] cs → w <:+: word.reverse ++ c :: cs := fun hw =>
      (ih hw).trans ((List.suffix_cons c cs).trans (List.suffix_append _ _)).isInfix
    unfold words.go at hw
    split at hw
    · split at hw
      · exact hrest hw
      · rcases List.mem_cons.mp hw with rfl | hw
        · exact (List.prefix_append _ _).isInfix
        · exact hrest hw
    · have hwithin := ih hw
      rwa [List.reverse_cons, List.append_assoc] at hwithin

end Text

theorem mem_intercalate {α : Type} {sep : List α} {ws : List (List α)} {a : α} (ha : a ∈ sep.intercalate ws) :
    a ∈ sep ∨ ∃ w ∈ ws, a ∈ w := by
  induction ws with
  | nil => cases ha
  | cons w ws ih =>
    cases ws with
    | nil =>
      rw [List.intercalate_singleton] at ha
      exact Or.inr ⟨w, List.mem_cons_self, ha⟩
    | cons w' ws =>
      rw [List.intercalate_cons_cons, List.append_assoc] at ha
      rcases List.mem_append.mp ha with ha | ha
      · exact Or.inr ⟨w, List.mem_cons_self, ha⟩
      rcases List.mem_append.mp ha with ha | ha
      · exact Or.inl ha
      · refine (ih ha).imp_right ?_
        rintro ⟨v, hv, ha⟩
        exact ⟨v, List.mem_cons_of_mem w hv, ha⟩

structure SinglySpaced (cs : List Char) : Prop where
  first : ∀ c ∈ cs.head?, Text.isBlank c = false
  last : ∀ c ∈ cs.getLast?, Text.isBlank c = false
  apart : cs.IsChain fun c d => Text.isBlank c = true → Text.isBlank d = false
  space : ∀ c ∈ cs, Text.isBlank c = true → c = ' '

namespace SinglySpaced

open Text (IsWord)

variable {w cs : List Char} {ws : List (List Char)}

theorem of_isWord (hw : IsWord w) : SinglySpaced w where
  first c hc := hw.2 c (List.mem_of_mem_head? hc)
  last c hc := hw.2 c (List.mem_of_mem_getLast? hc)
  apart := List.Pairwise.isChain (List.pairwise_of_forall_mem_list fun c _ d hd _ => hw.2 d hd)
  space c hc hblank := by
    rw [hw.2 c hc] at hblank
    cases hblank

theorem word_append (hw : IsWord w) (hcs : SinglySpaced cs) (hne : cs ≠ []) : SinglySpaced (w ++ ' ' :: cs) where
  first c hc := by
    rw [List.head?_append_of_ne_nil _ hw.1] at hc
    exact (of_isWord hw).first c hc
  last c hc := by
    rw [List.getLast?_append_of_ne_nil _ (List.cons_ne_nil _ _), List.getLast?_cons_of_ne_nil hne] at hc
    exact hcs.last c hc
  apart := by
    refine List.isChain_append.mpr ⟨(of_isWord hw).apart, List.isChain_cons.mpr ⟨fun d hd _ => hcs.first d hd, hcs.apart⟩, ?_⟩
    intro c hc d hd hblank
    rw [(of_isWord hw).last c hc] at hblank
    cases hblank
  space c hc hblank := by
    rcases List.mem_append.mp hc with hc | hc
    · exact (of_isWord hw).space c hc hblank
    · rcases List.mem_cons.mp hc with rfl | hc
      · rfl
      · exact hcs.space c hc hblank

theorem intercalate (hws : ∀ w ∈ ws, IsWord w) : SinglySpaced ([' '].intercalate ws) := by
  induction ws with
  | nil => exact ⟨nofun, nofun, List.isChain_nil, List.forall_mem_nil _⟩
  | cons w ws ih =>
    obtain ⟨hw, hws⟩ := List.forall_mem_cons.mp hws
    cases ws with
    | nil =>
      rw [List.intercalate_singleton]
      exact of_isWord hw
    | cons w' ws =>
      rw [List.intercalate_cons_cons, List.append_assoc, List.singleton_append]
      refine word_append hw (ih hws) fun hempty => (hws w' List.mem_cons_self).1 ?_
      have hflatten := flatten_subset_intercalate [' '] (w' :: ws)
      rw [hempty, List.flatten_cons] at hflatten
      exact (List.append_eq_nil_iff.mp (List.subset_nil.mp hflatten)).1

end SinglySpaced

/-- A blank follows every comma but one at the end. -/
def CommasParted (cs : List Char) : Prop :=
  cs.IsChain fun c d => c = ',' → Text.isBlank d = true

namespace CommasParted

variable {w cs : List Char} {ws : List (List Char)}

theorem replaceAll (cs : List Char) : CommasParted (Text.replaceAll [','] [',', ' '] cs) := by
  induction cs with
  | nil =>
    rw [Text.replaceAll_nil]
    exact List.isChain_nil
  | cons c cs ih =>
    by_cases hc : c = ','
    · subst hc
      change CommasParted (Text.replaceAll [','] [',', ' '] ([','] ++ cs))
      rw [Text.replaceAll_append_self (List.cons_ne_nil _ _)]
      refine List.isChain_cons.mpr ⟨fun d hd _ => ?_, List.isChain_cons.mpr ⟨fun d _ => nofun, ih⟩⟩
      rw [← Option.mem_some_iff.mp hd]
      rfl
    · rw [Text.replaceAll_cons_of_not (Text.isPrefixOf_cons_of_ne (Ne.symm hc) _ _)]
      exact List.isChain_cons.mpr ⟨fun d _ hcomma => absurd hcomma hc, ih⟩

theorem intercalate (hws : ∀ w ∈ ws, CommasParted w) : CommasParted ([' '].intercalate ws) := by
  induction ws with
  | nil => exact List.isChain_nil
  | cons w ws ih =>
    obtain ⟨hw, hws⟩ := List.forall_mem_cons.mp hws
    cases ws with
    | nil => rwa [List.intercalate_singleton]
    | cons w' ws =>
      rw [List.intercalate_cons_cons, List.append_assoc, List.singleton_append]
      refine List.isChain_append.mpr ⟨hw, List.isChain_cons.mpr ⟨fun d _ => nofun, ih hws⟩, fun c _ d hd _ => ?_⟩
      rw [← Option.mem_some_iff.mp hd]
      rfl

theorem go_cons_comma (hcs : CommasParted (',' :: cs)) (word : List Char) :
    Text.words.go word (',' :: cs) = (',' :: word).reverse :: Text.words.go [] cs := by
  rw [Text.words.go, if_neg (by decide)]
  cases cs with
  | nil => rfl
  | cons b cs =>
    have hb : Text.isBlank b = true := (List.isChain_cons.mp hcs).1 b rfl rfl
    rw [Text.words.go, if_pos hb, if_neg (mt List.isEmpty_iff.mp (List.cons_ne_nil _ _)), Text.words.go, if_pos hb]
    rfl

/-- Parting commas from what follows them makes no new words. -/
theorem go_replaceAll (hcs : CommasParted cs) (word : List Char) :
    Text.words.go word (Text.replaceAll [','] [',', ' '] cs) = Text.words.go word cs := by
  induction cs generalizing word with
  | nil => rw [Text.replaceAll_nil]
  | cons c cs ih =>
    have htail : CommasParted cs := (List.isChain_cons.mp hcs).2
    by_cases hc : c = ','
    · subst hc
      change Text.words.go word (Text.replaceAll [','] [',', ' '] ([','] ++ cs)) = _
      rw [Text.replaceAll_append_self (List.cons_ne_nil _ _), go_cons_comma hcs, ← ih htail]
      rfl
    · rw [Text.replaceAll_cons_of_not (Text.isPrefixOf_cons_of_ne (Ne.symm hc) _ _)]
      unfold Text.words.go
      rw [ih htail, ih htail]

end CommasParted

namespace Spoken

variable {cs : List Char} {c : Char}

def signs : List (List Char × List Char) :=
  readings.map fun r => (r.1.toList, r.2.toList)

theorem signs_ne_nil : ∀ r ∈ signs, r.1 ≠ [] ∧ r.2 ≠ [] := by
  decide

theorem signs_apart : signs.Pairwise Text.Apart := by
  decide +kernel

theorem replaceSigns_eq_substitute (cs : List Char) : replaceSigns cs = Text.substitute signs cs := by
  rw [← Text.foldl_replaceAll signs_ne_nil signs_apart, signs, List.foldl_map]
  rfl

def IsSign (c : Char) : Prop :=
  ∃ r ∈ signs, r.1 = [c]

instance : DecidablePred IsSign := fun c => inferInstanceAs (Decidable (∃ r ∈ signs, r.1 = [c]))

theorem not_isSign_of_mem_reading {r : List Char × List Char} (hr : r ∈ signs) (hc : c ∈ r.2) (hcomma : c ≠ ',') :
    ¬ IsSign c := by
  have hall : ∀ r ∈ signs, (r.2.all fun c => c = ',' ∨ ¬ IsSign c) = true := by decide +kernel
  simpa [hcomma] using List.all_eq_true.mp (hall r hr) c hc

theorem any_head?_isSign :
    ∀ r ∈ readings, r.1 ≠ "," → (r.1.toList.head?.any fun a => a ≠ ',' ∧ IsSign a) = true := by
  decide +kernel

theorem exists_isSign {r : String × String} (hr : r ∈ readings) (hcomma : r.1 ≠ ",") :
    ∃ a part, r.1.toList = a :: part ∧ a ≠ ',' ∧ IsSign a := by
  have hhead := any_head?_isSign r hr hcomma
  cases hsign : r.1.toList with
  | nil =>
    rw [hsign] at hhead
    cases hhead
  | cons a part =>
    rw [hsign] at hhead
    exact ⟨a, part, rfl, of_decide_eq_true hhead⟩

theorem not_isSign_of_mem_replaceSigns (hc : c ∈ replaceSigns cs) (hcomma : c ≠ ',') : ¬ IsSign c := by
  rw [replaceSigns_eq_substitute] at hc
  rcases Text.mem_substitute hc with ⟨r, hr, hread⟩ | hkept
  · exact not_isSign_of_mem_reading hr hread hcomma
  · rintro ⟨r, hr, hsign⟩
    exact hkept r hr hsign

theorem mem_of_mem_spaced (hc : c ∈ spaced cs) : c = ' ' ∨ c ∈ cs := by
  rcases mem_intercalate hc with hc | ⟨w, hw, hc⟩
  · exact Or.inl (List.mem_singleton.mp hc)
  · exact Or.inr (Text.subset_of_mem_words hw hc)

/-- The characters of what has been read aloud, but for the comma, are no signs. -/
theorem not_isSign_of_mem_read {text : String} (hc : c ∈ (read text).toList) (hcomma : c ≠ ',') : ¬ IsSign c := by
  rw [read, String.toList_ofList] at hc
  rcases mem_of_mem_spaced hc with rfl | hc
  · decide
  · exact not_isSign_of_mem_replaceSigns hc hcomma

theorem singlySpaced_spaced (cs : List Char) : SinglySpaced (spaced cs) :=
  .intercalate fun _ hw => Text.isWord_of_mem_words hw

theorem words_spaced (cs : List Char) : Text.words (spaced cs) = Text.words cs :=
  Text.words_intercalate fun _ hw => Text.isWord_of_mem_words hw

/-- The comma is replaced after all other signs. -/
theorem replaceSigns_eq_replaceAll (cs : List Char) :
    replaceSigns cs = Text.replaceAll [','] [',', ' ']
      (readings.dropLast.foldl (fun cs r => Text.replaceAll r.1.toList r.2.toList cs) cs) :=
  rfl

theorem commasParted_spaced (cs : List Char) : CommasParted (spaced (replaceSigns cs)) := by
  refine .intercalate fun w hw => ?_
  have hparted : CommasParted (replaceSigns cs) := by
    rw [replaceSigns_eq_replaceAll]
    exact .replaceAll _
  exact hparted.infix (Text.infix_of_mem_go hw)

theorem ne_comma_of_mem_dropLast : ∀ r ∈ readings.dropLast, r.1 ≠ "," := by
  decide

/-- Where no sign but the comma is left, nothing but the comma is replaced. -/
theorem replaceSigns_of_not_isSign (h : ∀ c ∈ cs, c ≠ ',' → ¬ IsSign c) :
    replaceSigns cs = Text.replaceAll [','] [',', ' '] cs := by
  rw [replaceSigns_eq_replaceAll]
  congr 1
  refine List.foldlRecOn readings.dropLast _ (motive := fun ds => ds = cs) rfl fun ds hds r hr => ?_
  obtain ⟨a, part, hsign, hcomma, ha⟩ := exists_isSign (List.dropLast_subset _ hr) (ne_comma_of_mem_dropLast r hr)
  rw [hds, hsign]
  exact Text.replaceAll_of_notMem (fun hmem => h a hmem hcomma ha) _ _

/-- The words of what has been read are still there when it is read again. -/
theorem words_replaceSigns_spaced (cs : List Char) :
    Text.words (replaceSigns (spaced (replaceSigns cs))) = Text.words (replaceSigns cs) := by
  have hsigns : ∀ c ∈ spaced (replaceSigns cs), c ≠ ',' → ¬ IsSign c := by
    intro c hc hcomma
    rcases mem_of_mem_spaced hc with rfl | hc
    · decide
    · exact not_isSign_of_mem_replaceSigns hc hcomma
  calc Text.words (replaceSigns (spaced (replaceSigns cs)))
      = Text.words (Text.replaceAll [','] [',', ' '] (spaced (replaceSigns cs))) := by
        rw [replaceSigns_of_not_isSign hsigns]
    _ = Text.words (spaced (replaceSigns cs)) := (commasParted_spaced cs).go_replaceAll []
    _ = Text.words (replaceSigns cs) := words_spaced _

/-- A text is read by going through it once. What comes out has no sign but the comma and no blank but single spaces
between words, and is read as itself. -/
theorem read_eq_substitute (text : String) :
    read text = .ofList (spaced (Text.substitute signs text.toList)) ∧
      (∀ r ∈ readings, r.1 ≠ "," → ¬ r.1.toList <:+: (read text).toList) ∧
      SinglySpaced (read text).toList ∧ read (read text) = read text := by
  refine ⟨?_, fun r hr hcomma hwithin => ?_, ?_, ?_⟩
  · rw [← replaceSigns_eq_substitute]
    rfl
  · obtain ⟨a, part, hsign, ha, hasign⟩ := exists_isSign hr hcomma
    rw [hsign] at hwithin
    exact not_isSign_of_mem_read (hwithin.subset List.mem_cons_self) ha hasign
  · rw [read, String.toList_ofList]
    exact singlySpaced_spaced _
  · unfold read
    rw [String.toList_ofList, spaced, words_replaceSigns_spaced]
    rfl

/-- A name with an index is read as a whole, and the comma stays. -/
theorem read_eq_substitute_index :
    read "x₁ = -1.5, x" = "equis uno igual a menos 1 coma 5, equis" ∧
      ¬ "x₁".toList <:+: (read "x₁ = -1.5, x").toList := by
  obtain ⟨-, hsigns, -, -⟩ := read_eq_substitute "x₁ = -1.5, x"
  exact ⟨by decide +kernel, hsigns ("x₁", "equis uno") (by decide) (by decide)⟩

end Spoken

end TalkingCalculator

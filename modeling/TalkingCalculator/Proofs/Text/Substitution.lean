import Mathlib.Data.List.Find
import TalkingCalculator.Text.Replace

/-!
# Substitution in one pass

The signs of a table are replaced one after another, each in the whole text. Were a sign to turn up in the reading of
one before it, it would be replaced there as well, and a sign that reaches into one before it would be lost. Where no
sign does either, the text might as well be gone through once from left to right.
-/
namespace TalkingCalculator.Text

/-- The text with the first sign of the table that starts at a place read there, and every other character as it is. -/
def substitute (table : List (List Char × List Char)) : List Char → List Char
  | [] => []
  | c :: cs =>
    match table.find? fun r => r.1.isPrefixOf (c :: cs) with
    | some r => r.2 ++ substitute table (cs.drop (r.1.length - 1))
    | none => c :: substitute table cs
termination_by cs => cs.length
decreasing_by
  · simp only [List.length_drop, List.length_cons]
    omega
  · simp

/-- The later sign has no character of the reading before it, and goes on with none that starts the sign before it. -/
def Apart (r later : List Char × List Char) : Prop :=
  (∀ c ∈ r.2, c ∉ later.1) ∧ ∀ c ∈ r.1.head?, c ∉ later.1.tail

instance : DecidableRel Apart := fun r later =>
  decidable_of_iff ((r.2.all fun c => c ∉ later.1) = true ∧ (r.1.head?.all fun c => c ∉ later.1.tail) = true)
    (by simp [Apart, Option.all_eq_true])

variable {part new before cs : List Char} {a c : Char} {table : List (List Char × List Char)}
  {later : List Char × List Char}

theorem replaceAll_nil (part new : List Char) : replaceAll part new [] = [] := by
  unfold replaceAll
  rfl

theorem replaceAll_append_self (hpart : part ≠ []) (new cs : List Char) :
    replaceAll part new (part ++ cs) = new ++ replaceAll part new cs := by
  obtain ⟨c, part, rfl⟩ := List.exists_cons_of_ne_nil hpart
  rw [List.cons_append, replaceAll, if_pos ⟨hpart, by simp⟩]
  simp

theorem replaceAll_cons_of_not (h : part.isPrefixOf (c :: cs) = false) (new : List Char) :
    replaceAll part new (c :: cs) = c :: replaceAll part new cs := by
  rw [replaceAll, if_neg]
  rw [h]
  exact fun h => Bool.false_ne_true h.2

theorem isPrefixOf_cons_of_ne (h : a ≠ c) (part cs : List Char) : (a :: part).isPrefixOf (c :: cs) = false := by
  rw [List.isPrefixOf_cons_cons, beq_eq_false_iff_ne.mpr h, Bool.false_and]

theorem exists_append_of_isPrefixOf (h : (a :: part).isPrefixOf (c :: cs) = true) :
    c = a ∧ ∃ rest, cs = part ++ rest := by
  obtain ⟨rest, hrest⟩ := List.isPrefixOf_iff_prefix.mp h
  obtain ⟨rfl, rfl⟩ := List.cons.inj hrest
  exact ⟨rfl, rest, rfl⟩

/-- Where the first character of a part does not occur, neither does the part. -/
theorem replaceAll_append_of_notMem (h : a ∉ before) (part new cs : List Char) :
    replaceAll (a :: part) new (before ++ cs) = before ++ replaceAll (a :: part) new cs := by
  induction before with
  | nil => rfl
  | cons c before ih =>
    obtain ⟨hac, hbefore⟩ := List.ne_and_not_mem_of_not_mem_cons h
    rw [List.cons_append, replaceAll_cons_of_not (isPrefixOf_cons_of_ne hac _ _), ih hbefore, List.cons_append]

theorem replaceAll_of_notMem (h : a ∉ cs) (part new : List Char) : replaceAll (a :: part) new cs = cs := by
  have hnil := replaceAll_append_of_notMem h part new []
  rwa [replaceAll_nil, List.append_nil] at hnil

/-- Replacing neither makes nor takes away what has no character of the new text and not the first one of the old. -/
theorem isPrefixOf_replaceAll (hnew : new ≠ []) (part cs : List Char) {text : List Char} (htext : a ∉ text)
    (hapart : ∀ c ∈ new, c ∉ text) :
    text.isPrefixOf (replaceAll (a :: part) new cs) = text.isPrefixOf cs := by
  induction text generalizing cs with
  | nil => rw [List.isPrefixOf_nil_left, List.isPrefixOf_nil_left]
  | cons t text ih =>
    obtain ⟨hat, htext⟩ := List.ne_and_not_mem_of_not_mem_cons htext
    cases cs with
    | nil => rw [replaceAll_nil]
    | cons c cs =>
      cases hstarts : (a :: part).isPrefixOf (c :: cs) with
      | true =>
        obtain ⟨n, new, rfl⟩ := List.exists_cons_of_ne_nil hnew
        obtain ⟨rfl, rest, rfl⟩ := exists_append_of_isPrefixOf hstarts
        have hn : t ≠ n := fun h => hapart n List.mem_cons_self (h ▸ List.mem_cons_self)
        rw [← List.cons_append, replaceAll_append_self (List.cons_ne_nil _ _), List.cons_append, List.cons_append,
          isPrefixOf_cons_of_ne hn, isPrefixOf_cons_of_ne (Ne.symm hat)]
      | false =>
        rw [replaceAll_cons_of_not hstarts, List.isPrefixOf_cons_cons, List.isPrefixOf_cons_cons,
          ih cs htext fun d hd => List.not_mem_of_not_mem_cons (hapart d hd)]

theorem substitute_nil (table : List (List Char × List Char)) : substitute table [] = [] := by
  unfold substitute
  rfl

theorem substitute_of_none (h : table.find? (fun r => r.1.isPrefixOf (c :: cs)) = none) :
    substitute table (c :: cs) = c :: substitute table cs := by
  rw [substitute, h]

theorem substitute_of_some (h : table.find? (fun r => r.1.isPrefixOf (c :: (part ++ cs))) = some (c :: part, new)) :
    substitute table (c :: (part ++ cs)) = new ++ substitute table cs := by
  rw [substitute, h]
  simp

theorem substitute_empty (cs : List Char) : substitute [] cs = cs := by
  induction cs with
  | nil => exact substitute_nil _
  | cons c cs ih => rw [substitute_of_none List.find?_nil, ih]

theorem substitute_append_of_notMem (h : ∀ c ∈ before, ∀ r ∈ table, r.1 ≠ [] ∧ c ∉ r.1) (cs : List Char) :
    substitute table (before ++ cs) = before ++ substitute table cs := by
  induction before with
  | nil => rfl
  | cons c before ih =>
    have hnone : table.find? (fun r => r.1.isPrefixOf (c :: (before ++ cs))) = none := by
      refine List.find?_eq_none.mpr fun r hr hstarts => ?_
      obtain ⟨hsign, hc⟩ := h c List.mem_cons_self r hr
      obtain ⟨a, part, hpart⟩ := List.exists_cons_of_ne_nil hsign
      rw [hpart] at hstarts hc
      rw [isPrefixOf_cons_of_ne (List.ne_of_not_mem_cons hc).symm] at hstarts
      cases hstarts
    rw [List.cons_append, substitute_of_none hnone, ih fun d hd => h d (List.mem_cons_of_mem c hd), List.cons_append]

/-- A sign that starts a text starts it still when one that is apart from it has been replaced further on. -/
theorem isPrefixOf_cons_replaceAll {reading : List Char} (hlater : later.1 ≠ []) (hreading : reading ≠ [])
    (hapart : Apart (a :: part, reading) later) (c : Char) (cs : List Char) :
    later.1.isPrefixOf (c :: replaceAll (a :: part) reading cs) = later.1.isPrefixOf (c :: cs) := by
  obtain ⟨hreads, hoverlaps⟩ := hapart
  obtain ⟨d, text, htext⟩ := List.exists_cons_of_ne_nil hlater
  rw [htext] at hreads hoverlaps
  have hhead : a ∉ text := hoverlaps a rfl
  rw [htext, List.isPrefixOf_cons_cons, List.isPrefixOf_cons_cons,
    isPrefixOf_replaceAll hreading part cs hhead]
  exact fun n hn hmem => hreads n hn (List.mem_cons_of_mem d hmem)

/-- A sign that is replaced beforehand may as well stand first in the table. -/
theorem substitute_replaceAll {reading : List Char} (hreading : reading ≠ []) (htable : ∀ later ∈ table, later.1 ≠ [])
    (hapart : ∀ later ∈ table, Apart (a :: part, reading) later) (cs : List Char) :
    substitute table (replaceAll (a :: part) reading cs) = substitute ((a :: part, reading) :: table) cs := by
  have hfind (c : Char) (cs : List Char) :
      (table.find? fun later => later.1.isPrefixOf (c :: replaceAll (a :: part) reading cs)) =
        table.find? fun later => later.1.isPrefixOf (c :: cs) :=
    List.find?_congr fun later hlater =>
      isPrefixOf_cons_replaceAll (htable later hlater) hreading (hapart later hlater) c cs
  fun_induction substitute ((a :: part, reading) :: table) cs with
  | case1 => rw [replaceAll_nil, substitute_nil]
  | case2 c cs found hfound ih =>
    rcases List.find?_cons_eq_some.mp hfound with ⟨hstarts, rfl⟩ | ⟨hstarts, hlater⟩
    · -- The sign itself starts here, and no later one starts in its reading.
      obtain ⟨rfl, rest, rfl⟩ := exists_append_of_isPrefixOf hstarts
      simp only [List.length_cons, Nat.add_sub_cancel, List.drop_left] at ih ⊢
      rw [← ih, ← List.cons_append, replaceAll_append_self (List.cons_ne_nil _ _), substitute_append_of_notMem]
      exact fun d hd later hlater => ⟨htable later hlater, (hapart later hlater).1 d hd⟩
    · -- A later one starts here, and goes on with nothing that is replaced.
      obtain ⟨sign, new⟩ := found
      have hmem := List.mem_of_find?_eq_some hlater
      obtain ⟨d, text, rfl⟩ := List.exists_cons_of_ne_nil (htable _ hmem)
      obtain ⟨rfl, rest, rfl⟩ := exists_append_of_isPrefixOf (List.find?_some hlater :)
      have hover : a ∉ text := (hapart _ hmem).2 a rfl
      simp only [List.length_cons, Nat.add_sub_cancel, List.drop_left] at ih ⊢
      rw [← hfind, replaceAll_append_of_notMem hover] at hlater
      rw [← ih, replaceAll_cons_of_not (Bool.not_eq_eq_eq_not.mp hstarts), replaceAll_append_of_notMem hover,
        substitute_of_some hlater]
  | case3 c cs hnone ih =>
    obtain ⟨hstarts, hnone⟩ := List.forall_mem_cons.mp (List.find?_eq_none.mp hnone)
    rw [replaceAll_cons_of_not (Bool.eq_false_iff.mpr hstarts), substitute_of_none, ih]
    rw [hfind]
    exact List.find?_eq_none.mpr hnone

/-- Signs that are replaced one after another are replaced all at once, if each is apart from those after it. -/
theorem foldl_replaceAll (hne : ∀ r ∈ table, r.1 ≠ [] ∧ r.2 ≠ []) (hapart : table.Pairwise Apart) (cs : List Char) :
    table.foldl (fun cs r => replaceAll r.1 r.2 cs) cs = substitute table cs := by
  induction table generalizing cs with
  | nil => exact (substitute_empty cs).symm
  | cons r table ih =>
    obtain ⟨sign, reading⟩ := r
    obtain ⟨⟨hsign, hreading⟩, htable⟩ := List.forall_mem_cons.mp hne
    obtain ⟨hfirst, hrest⟩ := List.pairwise_cons.mp hapart
    obtain ⟨a, part, rfl⟩ := List.exists_cons_of_ne_nil hsign
    rw [List.foldl_cons, ih htable hrest,
      substitute_replaceAll hreading (fun later hlater => (htable later hlater).1) hfirst]

/-- What has been read is made of readings and of characters that are no signs. -/
theorem mem_substitute (hc : c ∈ substitute table cs) : (∃ r ∈ table, c ∈ r.2) ∨ ∀ r ∈ table, r.1 ≠ [c] := by
  fun_induction substitute table cs with
  | case1 => cases hc
  | case2 d cs found hfound ih =>
    rcases List.mem_append.mp hc with hc | hc
    · exact Or.inl ⟨found, List.mem_of_find?_eq_some hfound, hc⟩
    · exact ih hc
  | case3 d cs hnone ih =>
    rcases List.mem_cons.mp hc with rfl | hc
    · refine Or.inr fun r hr hsign => ?_
      refine List.find?_eq_none.mp hnone r hr ?_
      rw [hsign, List.isPrefixOf_cons_cons, beq_self_eq_true, List.isPrefixOf_nil_left, Bool.and_self]
    · exact ih hc

end TalkingCalculator.Text

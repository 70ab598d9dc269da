import Mathlib.Data.Nat.Digits.Lemmas
import ClassLoading.Memory.HugePages

/-!
# What a text says of huge pages

A text falls into lines in one way (`Text.lines_eq_iff`), and a line falls into words where blanks
stand between them (`Text.words_eq`). The size of a huge page is what the first line with the label
says (`HugePages.size?_exact`): a decimal number, as it is or in one of two units, that comes to a
power of two. Nothing else of the text matters, nor do words behind the unit.
-/

namespace ClassLoading

namespace Text

/-- How a text falls into lines: a line feed ends a line, and so does a carriage return with a line
feed behind it. -/
inductive Lined : List Char → List (List Char) → Prop
  | last {line : List Char} : '\n' ∉ line → Lined line [line]
  | feed {line rest : List Char} {lines : List (List Char)} :
    '\n' ∉ line → line.getLast? ≠ some '\r' → Lined rest lines →
    Lined (line ++ '\n' :: rest) (line :: lines)
  | carriage {line rest : List Char} {lines : List (List Char)} :
    '\n' ∉ line → Lined rest lines → Lined (line ++ '\r' :: '\n' :: rest) (line :: lines)

/-- What is left of a line that is split at every blank. -/
def parts (line : List Char) : List (List Char) :=
  (line.splitOnP isBlank).filter (· ≠ [])

section Lines

variable {c : Char} {text line rest : List Char} {ls : List (List Char)}

theorem Lined.cons (hc : c ≠ '\n') (hreturn : ∀ rest', c = '\r' → text = '\n' :: rest' → False)
    (h : Lined text (line :: ls)) : Lined (c :: text) ((c :: line) :: ls) := by
  have hmem : '\n' ∉ line → '\n' ∉ c :: line := by simp [hc.symm]
  cases h with
  | last hline => exact .last (hmem hline)
  | @feed _ rest _ hline hlast hrest =>
    refine @Lined.feed (c :: line) rest _ (hmem hline) ?_ hrest
    rcases line with _ | ⟨d, line⟩
    · simpa using fun hc' => hreturn _ hc' rfl
    · simpa using hlast
  | @carriage _ rest _ hline hrest => exact @Lined.carriage (c :: line) rest _ (hmem hline) hrest

theorem exists_lined (begun text : List Char) :
    ∃ line rest, linesFrom begun text = (begun.reverse ++ line) :: rest
      ∧ Lined text (line :: rest) := by
  fun_induction linesFrom begun text with
  | case1 begun => exact ⟨[], [], by simp, .last (by simp)⟩
  | case2 begun rest ih =>
    obtain ⟨line, ls, heq, hlined⟩ := ih
    refine ⟨[], linesFrom [] rest, by simp, @Lined.carriage [] rest _ (by simp) ?_⟩
    simpa [heq] using hlined
  | case3 begun rest ih =>
    obtain ⟨line, ls, heq, hlined⟩ := ih
    refine ⟨[], linesFrom [] rest, by simp, @Lined.feed [] rest _ (by simp) (by simp) ?_⟩
    simpa [heq] using hlined
  | case4 begun c rest hreturn hc ih =>
    obtain ⟨line, ls, heq, hlined⟩ := ih
    exact ⟨c :: line, ls, by simp [heq], hlined.cons hc hreturn⟩

/-- A line is read on as long as nothing ends it. -/
theorem linesFrom_append {tail : List Char} (hline : '\n' ∉ line)
    (hlast : line.getLast? = some '\r' → tail.head? ≠ some '\n') :
    ∀ begun, linesFrom begun (line ++ tail) = linesFrom (line.reverse ++ begun) tail := by
  induction line with
  | nil => simp
  | cons c line ih =>
    intro begun
    have hc : c ≠ '\n' := fun h => hline (by simp [h])
    have hline' : '\n' ∉ line := fun h => hline (by simp [h])
    rw [List.cons_append, linesFrom.eq_4 _ _ _ ?_ hc, ih hline' ?_]
    · simp
    · rcases line with _ | ⟨d, line⟩ <;> simp_all
    · rintro rest' rfl hrest
      rcases line with _ | ⟨d, line⟩
      · exact hlast rfl (by simpa using congrArg List.head? hrest)
      · exact hline' (by simp [(List.cons.inj hrest).1])

theorem lines_of_lined (h : Lined text ls) : lines text = ls := by
  unfold lines
  induction h with
  | @last line hline =>
    have hread : linesFrom [] (line ++ []) = _ := linesFrom_append hline (by simp) []
    simpa [linesFrom] using hread
  | feed hline hlast _ ih =>
    rw [linesFrom_append hline (fun h => absurd h hlast)]
    simp [linesFrom, ih]
  | carriage hline _ ih =>
    rw [linesFrom_append hline (by simp)]
    simp [linesFrom, ih]

theorem lines_eq_iff : lines text = ls ↔ Lined text ls := by
  refine ⟨fun h => ?_, lines_of_lined⟩
  obtain ⟨line, rest, heq, hlined⟩ := exists_lined [] text
  rw [← h, lines, heq]
  simpa using hlined

end Lines

section Words

theorem modifyHead_self (parts : List (List Char)) : parts.modifyHead (fun part => part) = parts :=
  congrFun List.modifyHead_id parts

theorem wordsFrom_eq : ∀ line begun : List Char, wordsFrom begun line
    = ((line.splitOnP isBlank).modifyHead (begun.reverse ++ ·)).filter (· ≠ [])
  | [], begun => by
    rcases begun with _ | ⟨c, begun⟩ <;> simp [wordsFrom]
  | c :: rest, begun => by
    have ih := wordsFrom_eq rest
    rw [List.splitOnP_cons_eq_if_modifyHead, wordsFrom]
    split_ifs with hblank hbegun
    · simp [ih, List.isEmpty_iff.1 hbegun, modifyHead_self]
    · have hne : begun ≠ [] := by simpa using hbegun
      simp [ih, hne, modifyHead_self]
    · simp [ih, List.modifyHead_modifyHead, Function.comp_def]

theorem words_eq (line : List Char) : words line = parts line := by
  simp [words, parts, wordsFrom_eq, modifyHead_self]

end Words

end Text

namespace HugePages

/-- The number that decimal digits stand for, the first of which weighs most. -/
def decimal (digits : List Char) : Nat :=
  Nat.ofDigits 10 (digits.reverse.map fun c => c.toNat - 48)

/-- Digits, and perhaps a plus sign before them. -/
def Decimal (word : List Char) (n : Nat) : Prop :=
  ∃ digits, (word = digits ∨ word = '+' :: digits) ∧ digits ≠ [] ∧ (∀ c ∈ digits, c.isDigit)
    ∧ n = decimal digits

/-- What the words behind a number multiply it by. Only the first of them counts. -/
inductive Scale : List (List Char) → Nat → Prop
  | bare : Scale [] 1
  | kilo {more : List (List Char)} : Scale ("kB".toList :: more) 1024
  | mega {more : List (List Char)} : Scale ("MB".toList :: more) 1048576

/-- Words that give a size. -/
def Says (words : List (List Char)) (size : Nat) : Prop :=
  ∃ word more n factor, words = word :: more ∧ Decimal word n ∧ n < 2 ^ 64 ∧ Scale more factor
    ∧ size = n * factor ∧ size < 2 ^ 64 ∧ ∃ k, size = 2 ^ k

/-- What stands behind the label in the first line that begins with it. -/
def FirstLabelled (text rest : List Char) : Prop :=
  ∃ before after, Text.Lined text (before ++ (label ++ rest) :: after)
    ∧ ∀ line ∈ before, ¬ label <+: line

section Numbers

variable {word : List Char} {n : Nat}

theorem decimal_cons (c : Char) (digits : List Char) :
    decimal (c :: digits) = (c.toNat - 48) * 10 ^ digits.length + decimal digits := by
  simp [decimal, Nat.ofDigits_append]
  ring

theorem digitsFrom?_eq_some_iff {value : Nat} : digitsFrom? value word = some n ↔
    (∀ c ∈ word, c.isDigit) ∧ n = value * 10 ^ word.length + decimal word := by
  induction word generalizing value with
  | nil =>
    simpa [digitsFrom?, decimal] using eq_comm
  | cons c word ih =>
    by_cases hc : c.isDigit
    · have hval : (10 * value + (c.toNat - 48)) * 10 ^ word.length + decimal word
          = value * 10 ^ (word.length + 1) + decimal (c :: word) := by
        rw [decimal_cons]
        ring
      simp [digitsFrom?, hc, ih, hval]
    · simp [digitsFrom?, hc]

theorem number?_eq_some_iff : number? word = some n ↔ Decimal word n ∧ n < 2 ^ 64 := by
  have hdigits : ∀ digits : List Char,
      (if digits.isEmpty then none else (digitsFrom? 0 digits).filter fun n => n < 1 <<< 64) = some n
        ↔ (digits ≠ [] ∧ (∀ c ∈ digits, c.isDigit) ∧ n = decimal digits) ∧ n < 2 ^ 64 := by
    intro digits
    simp [Option.filter_eq_some_iff, digitsFrom?_eq_some_iff, and_assoc]
  unfold number? Decimal
  split
  · rename_i rest
    rw [hdigits]
    refine and_congr_left fun _ => ⟨fun h => ⟨rest, .inr rfl, h⟩, ?_⟩
    rintro ⟨digits, rfl | heq, hrest⟩
    · -- A plus sign is no digit, so it stands before the digits.
      exact absurd (hrest.2.1 '+' (by simp)) (by decide)
    · rwa [(List.cons.inj heq).2]
  · rename_i hplus
    rw [hdigits]
    refine and_congr_left fun _ => ⟨fun h => ⟨word, .inl rfl, h⟩, ?_⟩
    rintro ⟨digits, rfl | heq, hrest⟩
    · exact hrest
    · exact absurd heq (hplus digits)

end Numbers

section Sizes

variable {words : List (List Char)} {factor size : Nat}

theorem factor?_eq_some_iff : factor? words.head? = some factor ↔ Scale words factor := by
  rcases words with _ | ⟨unit, more⟩
  · refine ⟨fun h => ?_, fun h => by cases h; rfl⟩
    obtain rfl : 1 = factor := by simpa [factor?] using h
    exact .bare
  · refine ⟨fun h => ?_, fun h => by cases h <;> rfl⟩
    simp only [List.head?_cons, factor?] at h
    split_ifs at h with hkilo hmega <;> cases h
    · exact hkilo ▸ .kilo
    · exact hmega ▸ .mega

theorem sizeOfWords?_eq_some_iff : sizeOfWords? words = some size ↔ Says words size := by
  rcases words with _ | ⟨word, more⟩
  · simp [sizeOfWords?, Says]
  · refine ⟨fun h => ?_, fun h => ?_⟩
    · obtain ⟨n, hnumber, h⟩ := Option.bind_eq_some_iff.1 h
      obtain ⟨factor, hfactor, h⟩ := Option.bind_eq_some_iff.1 h
      obtain ⟨hword, hn⟩ := number?_eq_some_iff.1 hnumber
      obtain ⟨⟨hsize, hpower⟩, hsome⟩ := Option.ite_none_right_eq_some.1 h
      obtain rfl := Option.some.inj hsome
      exact ⟨word, more, n, factor, rfl, hword, hn, factor?_eq_some_iff.1 hfactor, rfl, hsize,
        by simpa [isPowerOfTwo_iff, Nat.one_shiftLeft] using hpower⟩
    · obtain ⟨_, _, n, factor, heq, hword, hn, hscale, rfl, hsize, hpower⟩ := h
      obtain ⟨rfl, rfl⟩ := List.cons.inj heq
      simpa [sizeOfWords?, number?_eq_some_iff.2 ⟨hword, hn⟩, factor?_eq_some_iff.2 hscale,
        isPowerOfTwo_iff, Nat.one_shiftLeft, hpower] using hsize

end Sizes

section Texts

variable {text other rest : List Char} {size : Nat}

theorem firstLabelled_iff : FirstLabelled text rest ↔
    (Text.lines text).find? (fun line => label.isPrefixOf line) = some (label ++ rest) := by
  simp [FirstLabelled, List.find?_eq_some_iff_append, Text.lines_eq_iff, ← Bool.not_eq_true,
    List.isPrefixOf_iff_prefix]

theorem FirstLabelled.size?_eq (h : FirstLabelled text rest) :
    size? text = sizeOfWords? (Text.parts rest) := by
  simp [size?, firstLabelled_iff.1 h, Text.words_eq]

theorem exists_firstLabelled (h : size? text = some size) : ∃ rest, FirstLabelled text rest := by
  obtain ⟨line, hfind, -⟩ := Option.bind_eq_some_iff.1 h
  obtain ⟨rest, rfl⟩ := List.isPrefixOf_iff_prefix.1 (List.find?_some hfind)
  exact ⟨rest, firstLabelled_iff.2 hfind⟩

end Texts

/-- A text has a size just where the first line with the label gives it. So this line alone counts,
and a later one does not make up for it. -/
theorem size?_exact (text : List Char) :
    (∀ size, size? text = some size ↔ ∃ rest, FirstLabelled text rest ∧ Says (Text.parts rest) size)
    ∧ (∀ other rest, FirstLabelled text rest → FirstLabelled other rest → size? text = size? other)
    ∧ ∀ rest, FirstLabelled text rest → (∀ size, ¬ Says (Text.parts rest) size) → size? text = none := by
  refine ⟨fun size => ⟨fun h => ?_, ?_⟩, ?_, ?_⟩
  · obtain ⟨rest, hrest⟩ := exists_firstLabelled h
    exact ⟨rest, hrest, sizeOfWords?_eq_some_iff.1 (hrest.size?_eq ▸ h)⟩
  · rintro ⟨rest, hrest, hsays⟩
    rw [hrest.size?_eq, sizeOfWords?_eq_some_iff.2 hsays]
  · intro other rest hrest hother
    rw [hrest.size?_eq, hother.size?_eq]
  · intro rest hrest hnone
    rw [hrest.size?_eq, Option.eq_none_iff_forall_ne_some]
    exact fun size h => hnone size (sizeOfWords?_eq_some_iff.1 h)

/-- Three thousand is no power of two, and what a later line says does not count; where that line is
the first one with the label, it does. -/
theorem size?_exact_late :
    FirstLabelled "Hugepagesize: 3000 kB\r\nHugepagesize: +2 MB of\n".toList " 3000 kB".toList
    ∧ (∀ size, ¬ Says (Text.parts " 3000 kB".toList) size)
    ∧ size? "Hugepagesize: 3000 kB\r\nHugepagesize: +2 MB of\n".toList = none
    ∧ size? "HugePages_Free: 0\nHugepagesize: +2 MB of\n".toList = some 2097152 := by
  have hfirst : FirstLabelled "Hugepagesize: 3000 kB\r\nHugepagesize: +2 MB of\n".toList
      " 3000 kB".toList := firstLabelled_iff.2 (by decide)
  have hbad : sizeOfWords? (Text.parts " 3000 kB".toList) = none := by decide
  have hnone : ∀ size, ¬ Says (Text.parts " 3000 kB".toList) size := fun size hsays => by
    cases hbad.symm.trans (sizeOfWords?_eq_some_iff.2 hsays)
  have hlater : FirstLabelled "HugePages_Free: 0\nHugepagesize: +2 MB of\n".toList
      " +2 MB of".toList := firstLabelled_iff.2 (by decide)
  exact ⟨hfirst, hnone, (size?_exact _).2.2 _ hfirst hnone,
    ((size?_exact _).1 2097152).2 ⟨_, hlater, sizeOfWords?_eq_some_iff.1 (by decide)⟩⟩

end HugePages

end ClassLoading

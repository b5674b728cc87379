import LeafOS.Shell.Words
import Mathlib.Data.List.TakeWhile

namespace leafos.shell

section Trimming

variable {value blanks : List UInt8}

theorem trim_spaces_length_le (value : List UInt8) : (trim_spaces value).length ≤ value.length :=
  (List.rdropWhile_prefix _ _).length_le.trans (List.dropWhile_suffix _).length_le

/-- A text that neither begins nor ends with a blank stays as it is. -/
theorem trim_spaces_eq_self (hfirst : value.head?.all (!is_ascii_whitespace ·) = true)
    (hlast : value.getLast?.all (!is_ascii_whitespace ·) = true) : trim_spaces value = value := by
  have hdrop : value.dropWhile is_ascii_whitespace = value := by
    cases value with
    | nil => rfl
    | cons first rest => exact List.dropWhile_cons_of_neg (by simpa using hfirst)
  rw [trim_spaces, hdrop, List.rdropWhile_eq_self_iff]
  intro hne
  rw [List.getLast?_eq_some_getLast hne] at hlast
  simpa using hlast

theorem trim_spaces_append_left (blanks value : List UInt8) (hblanks : blanks.all is_ascii_whitespace = true) :
    trim_spaces (blanks ++ value) = trim_spaces value := by
  rw [trim_spaces, List.dropWhile_append_of_pos (List.all_eq_true.mp hblanks), trim_spaces]

/-- Blanks around a text that needs no trimming are taken off. -/
theorem trim_spaces_append_right (hblanks : blanks.all is_ascii_whitespace = true)
    (htrimmed : trim_spaces value = value) : trim_spaces (value ++ blanks) = value := by
  cases value with
  | nil =>
    have hnone := trim_spaces_append_left blanks [] hblanks
    rwa [List.append_nil] at hnone
  | cons first rest =>
    have hfirst : is_ascii_whitespace first = false := by
      by_contra hblank
      have hle := trim_spaces_length_le rest
      rw [← trim_spaces_append_left [first] rest (by simpa using hblank), List.singleton_append, htrimmed] at hle
      exact absurd hle (Nat.not_succ_le_self _)
    have hdrop : ∀ tail, (first :: tail).dropWhile is_ascii_whitespace = first :: tail := fun tail =>
      List.dropWhile_cons_of_neg (by simp [hfirst])
    rw [trim_spaces, hdrop] at htrimmed
    rw [trim_spaces, List.cons_append, hdrop, ← List.cons_append, List.rdropWhile, List.reverse_append,
      List.dropWhile_append_of_pos fun byte hbyte =>
        List.all_eq_true.mp hblanks byte (List.mem_reverse.mp hbyte)]
    exact htrimmed

end Trimming

/-- Taking a word leaves less of a text that is not empty. -/
theorem split_first_word_length_lt {value : List UInt8} (hvalue : value ≠ []) :
    (split_first_word value).2.length < value.length := by
  obtain ⟨first, rest, rfl⟩ := List.exists_cons_of_ne_nil hvalue
  rw [split_first_word, split_quoted_word]
  split_ifs with hquoted
  · have hdrop := (List.dropWhile_suffix (l := rest) (· != first)).length_le
    have htrim := trim_spaces_length_le ((rest.dropWhile (· != first)).drop 1)
    rw [List.length_drop] at htrim
    simp only [Option.getD_some, List.length_cons]
    omega
  · rw [Option.getD_none]
    by_cases hblank : is_ascii_whitespace first = true
    · -- the word is empty, but the blank before it goes
      have hstays : (first :: rest).dropWhile (!is_ascii_whitespace ·) = [first] ++ rest :=
        List.dropWhile_cons_of_neg (by simp [hblank])
      rw [hstays, trim_spaces_append_left [first] rest (by simp [hblank])]
      exact Nat.lt_succ_of_le (trim_spaces_length_le rest)
    · rw [List.dropWhile_cons_of_pos (by simp [hblank])]
      exact Nat.lt_succ_of_le ((trim_spaces_length_le _).trans (List.dropWhile_suffix _).length_le)

/-- The loop that takes one word after another. -/
def split_words (value : List UInt8) : List (List UInt8) :=
  if value = [] then []
  else (split_first_word value).1 :: split_words (split_first_word value).2
termination_by value.length
decreasing_by exact split_first_word_length_lt ‹_›

def DOUBLE_QUOTE : UInt8 := 34

/-- A word between double quotes. -/
def quoted (word : List UInt8) : List UInt8 := DOUBLE_QUOTE :: (word ++ [DOUBLE_QUOTE])

/-- Words between double quotes, with spaces between them. -/
def quote_words : List (List UInt8) → List UInt8
  | [] => []
  | [word] => quoted word
  | word :: next :: rest => quoted word ++ 32 :: quote_words (next :: rest)

/-- A redirection to a quoted path, with blanks before the operator and after it. -/
def redirection (before : List UInt8) (operator : UInt8) (after path : List UInt8) : List UInt8 :=
  before ++ operator :: (after ++ quoted path)

section Quoting

variable {word value : List UInt8}

theorem split_first_word_quoted (hword : DOUBLE_QUOTE ∉ word) (rest : List UInt8) :
    split_first_word (quoted word ++ rest) = (word, trim_spaces rest) := by
  have hall : ∀ byte ∈ word, (byte != DOUBLE_QUOTE) = true := fun byte hbyte =>
    bne_iff_ne.mpr fun hsame => hword (hsame ▸ hbyte)
  have hshape : quoted word ++ rest = DOUBLE_QUOTE :: (word ++ DOUBLE_QUOTE :: rest) := by simp [quoted]
  have hclosed : (QUOTES.contains DOUBLE_QUOTE && (word ++ DOUBLE_QUOTE :: rest).contains DOUBLE_QUOTE) = true := by
    simp [QUOTES, DOUBLE_QUOTE]
  rw [hshape, split_first_word, split_quoted_word, if_pos hclosed, Option.getD_some,
    List.takeWhile_append_of_pos hall, List.dropWhile_append_of_pos hall, List.takeWhile_cons_of_neg (by simp),
    List.dropWhile_cons_of_neg (by simp), List.append_nil, List.drop_one, List.tail_cons]

theorem trim_spaces_of_quote (hfirst : value.head?.all (!is_ascii_whitespace ·) = true)
    (hlast : value.getLast? = some DOUBLE_QUOTE) : trim_spaces value = value :=
  trim_spaces_eq_self hfirst (by rw [hlast]; rfl)

theorem quoted_getLast? (before word : List UInt8) : (before ++ quoted word).getLast? = some DOUBLE_QUOTE := by
  simp [quoted, List.getLast?_cons]

theorem redirection_getLast? (start before : List UInt8) (operator : UInt8) (after path : List UInt8) :
    (start ++ redirection before operator after path).getLast? = some DOUBLE_QUOTE := by
  rw [redirection, ← List.cons_append, ← List.append_assoc, ← List.append_assoc]
  exact quoted_getLast? _ path

theorem quote_words_getLast? (word : List UInt8) (rest : List (List UInt8)) :
    (quote_words (word :: rest)).getLast? = some DOUBLE_QUOTE := by
  induction rest generalizing word with
  | nil => exact quoted_getLast? [] word
  | cons next rest ih => rw [quote_words, List.getLast?_append, List.getLast?_cons, ih next]; rfl

theorem split_words_quote_words {words : List (List UInt8)} (hwords : ∀ word ∈ words, DOUBLE_QUOTE ∉ word) :
    split_words (quote_words words) = words := by
  induction words with
  | nil =>
    rw [split_words]
    exact if_pos rfl
  | cons word rest ih =>
    obtain ⟨hword, hrest⟩ := List.forall_mem_cons.mp hwords
    have hsplit : split_first_word (quote_words (word :: rest)) = (word, quote_words rest) := by
      cases rest with
      | nil =>
        have hsplit := split_first_word_quoted hword []
        rwa [List.append_nil] at hsplit
      | cons next rest =>
        have hspace := trim_spaces_append_left [32] (quote_words (next :: rest)) rfl
        rw [quote_words, split_first_word_quoted hword]
        refine congrArg (Prod.mk word) (hspace.trans (trim_spaces_of_quote ?_ (quote_words_getLast? next rest)))
        cases rest <;> rfl
    have hne : quote_words (word :: rest) ≠ [] := by cases rest <;> exact List.cons_ne_nil _ _
    rw [split_words, if_neg hne, hsplit, ih hrest]

end Quoting

section Redirecting

variable {command input output path tail rest before after : List UInt8} {operator : UInt8}

/-- What a turn of the loop reads behind its operator. -/
theorem split_first_word_redirection (hafter : after.all is_ascii_whitespace = true) (hpath : DOUBLE_QUOTE ∉ path)
    (tail : List UInt8) (hlast : (quoted path ++ tail).getLast? = some DOUBLE_QUOTE) :
    split_first_word (trim_spaces (after ++ (quoted path ++ tail))) = (path, trim_spaces tail) := by
  rw [trim_spaces_append_left after _ hafter, trim_spaces_of_quote rfl hlast, split_first_word_quoted hpath]

theorem trim_spaces_redirection (hbefore : before.all is_ascii_whitespace = true)
    (hoperator : is_ascii_whitespace operator = false) (after path : List UInt8) :
    trim_spaces (redirection before operator after path) = operator :: (after ++ quoted path) := by
  rw [redirection, trim_spaces_append_left before _ hbefore]
  apply trim_spaces_of_quote
  · simp [hoperator]
  · exact quoted_getLast? (operator :: after) path

/-- Everything before the first operator is the command. -/
theorem split_redirections_eq (hcommand : ∀ byte ∈ command, byte ≠ INPUT_OPERATOR ∧ byte ≠ OUTPUT_OPERATOR)
    (htrimmed : trim_spaces command = command) (hbefore : before.all is_ascii_whitespace = true)
    (hoperator : operator = INPUT_OPERATOR ∨ operator = OUTPUT_OPERATOR)
    (hlast : (operator :: tail).getLast? = some DOUBLE_QUOTE) :
    split_redirections (command ++ (before ++ operator :: tail)) =
      take_redirections command 2 (operator :: tail) none none := by
  have hword : ∀ byte ∈ command ++ before, (byte != INPUT_OPERATOR && byte != OUTPUT_OPERATOR) = true := by
    intro byte hbyte
    obtain hbyte | hbyte := List.mem_append.mp hbyte
    · simpa using hcommand byte hbyte
    · have hblank := List.all_eq_true.mp hbefore byte hbyte
      simp only [is_ascii_whitespace, Bool.or_eq_true, beq_iff_eq] at hblank
      obtain ((rfl | rfl) | rfl) | rfl := hblank <;> rfl
  have hstop : (operator != INPUT_OPERATOR && operator != OUTPUT_OPERATOR) = false := by
    obtain rfl | rfl := hoperator <;> rfl
  have hblank : is_ascii_whitespace operator = false := by
    obtain rfl | rfl := hoperator <;> rfl
  rw [← List.append_assoc, split_redirections, if_neg (by simp [hstop]), List.takeWhile_append_of_pos hword,
    List.takeWhile_cons_of_neg (by simp [hstop]), List.append_nil, List.dropWhile_append_of_pos hword,
    List.dropWhile_cons_of_neg (by simp [hstop]), trim_spaces_append_right hbefore htrimmed,
    trim_spaces_of_quote (by simp [hblank]) hlast]

/-- What the two turns of the loop read behind their operators. -/
theorem split_first_word_redirections (hafter : after.all is_ascii_whitespace = true)
    (hbefore : before.all is_ascii_whitespace = true) (hbehind : tail.all is_ascii_whitespace = true)
    (hoperator : is_ascii_whitespace operator = false) (hinput : DOUBLE_QUOTE ∉ input) (houtput : DOUBLE_QUOTE ∉ output) :
    split_first_word (trim_spaces (after ++ (quoted input ++ redirection before operator tail output))) =
        (input, operator :: (tail ++ quoted output)) ∧
      trim_spaces (operator :: (tail ++ quoted output)) = operator :: (tail ++ quoted output) ∧
      split_first_word (trim_spaces (tail ++ quoted output)) = (output, []) := by
  refine ⟨?_, trim_spaces_of_quote (by simp [hoperator]) (quoted_getLast? (operator :: tail) output), ?_⟩
  · rw [split_first_word_redirection hafter hinput _ (redirection_getLast? _ _ _ _ _),
      trim_spaces_redirection hbefore hoperator]
  · have hsplit := split_first_word_redirection hbehind houtput []
    rw [List.append_nil] at hsplit
    exact hsplit (quoted_getLast? [] output)

end Redirecting

/-- The gaps between the parts of a command with two redirections. -/
structure Gaps where
  before_first : List UInt8
  after_first : List UInt8
  before_second : List UInt8
  after_second : List UInt8
  blank : (before_first ++ after_first ++ before_second ++ after_second).all is_ascii_whitespace = true

/-- Quoted words and quoted redirections are read as they were written, and what is left to read gets
shorter with every word. -/
theorem words_and_redirections_survive :
    (∀ words : List (List UInt8), (∀ word ∈ words, DOUBLE_QUOTE ∉ word) → split_words (quote_words words) = words) ∧
    (∀ (command input output : List UInt8) (gaps : Gaps), trim_spaces command = command →
      (∀ byte ∈ command, byte ≠ INPUT_OPERATOR ∧ byte ≠ OUTPUT_OPERATOR) →
      input ≠ [] → output ≠ [] → DOUBLE_QUOTE ∉ input → DOUBLE_QUOTE ∉ output →
      split_redirections (command ++ (redirection gaps.before_first INPUT_OPERATOR gaps.after_first input ++
          redirection gaps.before_second OUTPUT_OPERATOR gaps.after_second output)) =
        ⟨command, some input, some output, true⟩ ∧
      split_redirections (command ++ (redirection gaps.before_first OUTPUT_OPERATOR gaps.after_first output ++
          redirection gaps.before_second INPUT_OPERATOR gaps.after_second input)) =
        ⟨command, some input, some output, true⟩) ∧
    ∀ (first : UInt8) (value : List UInt8),
      (split_first_word (first :: value)).2.length < (first :: value).length ∧
      (trim_spaces (split_first_word (trim_spaces value)).2).length < (first :: value).length := by
  refine ⟨fun words => split_words_quote_words, ?_, fun first value => ⟨split_first_word_length_lt (by simp), ?_⟩⟩
  · intro command input output gaps htrimmed hcommand hinput houtput hinput_quote houtput_quote
    obtain ⟨before, after, between, behind, hblank⟩ := gaps
    simp only [List.all_append, Bool.and_eq_true] at hblank
    obtain ⟨⟨⟨hbefore, hafter⟩, hbetween⟩, hbehind⟩ := hblank
    have hread : ∀ first second path other, (first = INPUT_OPERATOR ∨ first = OUTPUT_OPERATOR) →
        split_redirections (command ++ (redirection before first after path ++ redirection between second behind other)) =
          take_redirections command 2
            (first :: (after ++ (quoted path ++ redirection between second behind other))) none none := by
      intro first second path other hfirst
      rw [redirection, List.append_assoc, List.cons_append, List.append_assoc]
      refine split_redirections_eq hcommand htrimmed hbefore hfirst ?_
      rw [← List.append_assoc, ← List.cons_append]
      exact redirection_getLast? _ _ _ _ _
    have hinput_some : input.isEmpty = false := List.isEmpty_eq_false_iff.mpr hinput
    have houtput_some : output.isEmpty = false := List.isEmpty_eq_false_iff.mpr houtput
    constructor
    · obtain ⟨hfirst, htrim, hsecond⟩ :=
        split_first_word_redirections hafter hbetween hbehind (show is_ascii_whitespace OUTPUT_OPERATOR = false from rfl)
          hinput_quote houtput_quote
      rw [hread _ _ _ _ (.inl rfl)]
      simp only [take_redirections, hfirst, htrim, hsecond, hinput_some, houtput_some]
      rfl
    · obtain ⟨hfirst, htrim, hsecond⟩ :=
        split_first_word_redirections hafter hbetween hbehind (show is_ascii_whitespace INPUT_OPERATOR = false from rfl)
          houtput_quote hinput_quote
      rw [hread _ _ _ _ (.inr rfl)]
      simp only [take_redirections, hfirst, htrim, hsecond, hinput_some, houtput_some]
      rfl
  · have hle := trim_spaces_length_le value
    have htrim := trim_spaces_length_le (split_first_word (trim_spaces value)).2
    by_cases hnil : trim_spaces value = []
    · rw [hnil] at htrim ⊢
      exact Nat.succ_pos _
    · have hlt := split_first_word_length_lt hnil
      rw [List.length_cons]
      omega

/-- The words "a b" and "c", and the line `c <"a b"> "d"`. -/
theorem words_and_redirections_survive_sample :
    split_words (quote_words [[0x61, 0x20, 0x62], [0x63]]) = [[0x61, 0x20, 0x62], [0x63]] ∧
      split_redirections ([0x63] ++ (redirection [0x20] INPUT_OPERATOR [] [0x61, 0x20, 0x62] ++
        redirection [] OUTPUT_OPERATOR [0x20] [0x64])) = ⟨[0x63], some [0x61, 0x20, 0x62], some [0x64], true⟩ :=
  ⟨words_and_redirections_survive.1 _ (by decide), (words_and_redirections_survive.2.1 _ _ _ ⟨[0x20], [], [], [0x20], rfl⟩
    rfl (List.forall_mem_singleton.mpr (by decide)) (by decide) (by decide) (by decide) (by decide)).1⟩

end leafos.shell

import BlockScript.Token.Lexer

/-!
# Spellings of lexemes

A source is made of lexemes and of gaps between them. Here is said which texts a lexeme may be
spelled with (`Lexeme.SpelledBy`), which texts are gaps (`Gap`), and which two lexemes need a
gap between them because without one the reader would take more than the first
(`Lexeme.clings`). None of it mentions the reader. `readLexeme_of_spelledBy` then says that the
reader takes exactly a spelling off the front of a text in which the spelling may end.
-/

namespace BlockScript

/-- Texts that only separate lexemes: blanks, and comments that are closed. -/
inductive Gap : List Char → Prop
  | nil : Gap []
  | blank {c : Char} {rest : List Char} (separates : isBlank c) (others : Gap rest) :
      Gap (c :: rest)
  | comment {body rest : List Char} (closed : '#' ∉ body) (others : Gap rest) :
      Gap ('#' :: body ++ '#' :: rest)

/-- At least one digit, and nothing else. -/
structure IsDigits (text : List Char) : Prop where
  ne_nil : text ≠ []
  digit : ∀ c ∈ text, c.isDigit

/-- The spellings of numbers: digits, and optionally one dot with digits behind it. -/
inductive IsNumeral : List Char → Prop
  | whole {digits : List Char} (valid : IsDigits digits) : IsNumeral digits
  | fraction {digits places : List Char} (valid : IsDigits digits) (behind : IsDigits places) :
      IsNumeral (digits ++ '.' :: places)

theorem IsNumeral.exists_digit {text : List Char} (valid : IsNumeral text) :
    ∃ c rest, text = c :: rest ∧ c.isDigit := by
  cases valid with
  | whole valid =>
    obtain ⟨c, rest, rfl⟩ := List.exists_cons_of_ne_nil valid.ne_nil
    exact ⟨c, rest, rfl, valid.digit c List.mem_cons_self⟩
  | @fraction digits places valid =>
    obtain ⟨c, rest, rfl⟩ := List.exists_cons_of_ne_nil valid.ne_nil
    exact ⟨c, rest ++ '.' :: places, rfl, valid.digit c List.mem_cons_self⟩

/-- The spellings of names: words that are not reserved. -/
structure IsName (word : List Char) : Prop where
  ne_nil : word ≠ []
  letter : ∀ c ∈ word, isWordChar c
  free : Keyword.ofLetters? word = none

/-- The texts that can stand between the brackets of a selector. -/
structure IsTarget (target : List Char) : Prop where
  opens : target.head? = some '@'
  closed : '>' ∉ target

/-- The two characters that can enclose a text literal. -/
def IsQuote (c : Char) : Prop := c = '"' ∨ c = '\''

/-- `lexeme.SpelledBy text`: the lexeme may stand in a source as `text`. Only a text literal
has more than one spelling, one for each quote that it does not contain. -/
inductive Lexeme.SpelledBy : Lexeme → List Char → Prop
  | keyword (word : Keyword) : SpelledBy (.keyword word) word.letters
  | symbol (mark : Symbol) : SpelledBy (.symbol mark) mark.letters
  | number {digits : List Char} (valid : IsNumeral digits) :
      SpelledBy (.number (String.ofList digits)) digits
  | identifier {word : List Char} (valid : IsName word) :
      SpelledBy (.identifier (String.ofList word)) word
  | text {quote : Char} {content : List Char} (valid : IsQuote quote) (closed : quote ∉ content) :
      SpelledBy (.text (String.ofList content)) (quote :: content ++ [quote])
  | selector {target : List Char} (valid : IsTarget target) :
      SpelledBy (.selector (String.ofList target)) ('<' :: target ++ ['>'])

namespace Lexeme

/-- Reserved words and names. -/
def isWord (lexeme : Lexeme) : Bool :=
  match lexeme.kind with
  | .keyword _ | .identifier => true
  | _ => false

/-- Whether the lexeme can be the first character of a symbol that ends with `=`. -/
def takesEquals (lexeme : Lexeme) : Bool :=
  lexeme.kind == Symbol.equals || lexeme.kind == Symbol.lessThan ||
    lexeme.kind == Symbol.greaterThan

/-- Whether the lexeme starts with `=`. -/
def givesEquals (lexeme : Lexeme) : Bool :=
  lexeme.kind == Symbol.equals || lexeme.kind == Symbol.equalsEquals

/-- Whether `left` is read differently when `right` follows it without a gap. -/
def clings (left right : Lexeme) : Bool :=
  left.isWord && right.isWord || left.kind == .number && right.kind == .number ||
    left.takesEquals && right.givesEquals

/-- Whether the lexeme ends where `next` is the next character, if there is one. -/
def endsBefore (lexeme : Lexeme) (next : Option Char) : Prop :=
  ∀ c, next = some c →
    (lexeme.isWord → ¬ isWordChar c) ∧
    (lexeme.kind = .number → ¬ c.isDigit ∧ c ≠ '.') ∧
    (lexeme.takesEquals → c ≠ '=') ∧
    (lexeme.kind = Symbol.lessThan → c ≠ '@')

end Lexeme

/-! ## Classes of characters -/

theorem not_isDigit_of_isWordChar {c : Char} (letter : isWordChar c) : ¬ c.isDigit := by
  intro digit
  have bounds : 48 ≤ c.toNat ∧ c.toNat ≤ 57 := by
    simp only [Char.isDigit, Bool.and_eq_true, decide_eq_true_eq, ge_iff_le,
      UInt32.le_iff_toNat_le] at digit
    exact digit
  simp only [isWordChar, isAlphabetic, Bool.or_eq_true, beq_iff_eq] at letter
  rcases letter with letter | rfl
  · rw [if_pos (by omega)] at letter
    change (decide (65 ≤ c.val ∧ c.val ≤ 90) ||
      decide (97 ≤ c.val) && decide (c.val ≤ 122)) = true at letter
    simp only [Bool.or_eq_true, Bool.and_eq_true, decide_eq_true_eq,
      UInt32.le_iff_toNat_le] at letter
    change (65 ≤ c.toNat ∧ c.toNat ≤ 90) ∨ (97 ≤ c.toNat ∧ c.toNat ≤ 122) at letter
    omega
  · revert digit
    decide

/-- A symbol starts with no letter, no digit and no quote, and never with `#`, `@` or `.`. -/
theorem Symbol.letters_head (mark : Symbol) : ∀ c ∈ mark.letters.head?,
    ¬ isWordChar c ∧ ¬ c.isDigit ∧ ¬ IsQuote c ∧ ¬ isBlank c ∧ c ≠ '#' ∧ c ≠ '@' ∧ c ≠ '.' := by
  cases mark <;> simp [Symbol.letters, IsQuote] <;> decide

theorem Keyword.isWordChar_of_mem_letters (word : Keyword) : ∀ c ∈ word.letters, isWordChar c :=
  List.all_eq_true.mp (by cases word <;> rfl)

theorem Keyword.letters_ne_nil (word : Keyword) : word.letters ≠ [] := by
  cases word <;> decide

/-- Symbols of two characters: one that ends with `=`, or the same character twice. -/
theorem Symbol.pair?_eq_some {c d : Char} {mark : Symbol} (known : Symbol.pair? c d = some mark) :
    d = '=' ∧ (c = '=' ∨ c = '!' ∨ c = '<' ∨ c = '>') ∨ c = '&' ∧ d = '&' ∨ c = '|' ∧ d = '|' := by
  have spelled := Symbol.letters_of_ofLetters? known
  cases mark <;> simp only [Symbol.letters, List.cons.injEq, List.cons_ne_nil, List.nil_eq,
    and_true, and_false] at spelled <;> obtain ⟨rfl, rfl⟩ := spelled <;> decide

/-- Without a symbol of two characters at the front, a symbol that starts with `c` is `c`. -/
theorem Symbol.pairAhead?_eq_none {mark : Symbol} {c : Char} {after : List Char}
    (single : mark.letters = [c]) (ends : (Lexeme.symbol mark).endsBefore after.head?) :
    pairAhead? c after = none := by
  cases after with
  | nil => rfl
  | cons d rest =>
    rw [pairAhead?, Option.map_eq_none_iff, Option.eq_none_iff_forall_ne_some]
    intro other known
    obtain ⟨-, -, noEquals, -⟩ := ends d rfl
    rcases Symbol.pair?_eq_some known with ⟨rfl, front⟩ | ⟨rfl, -⟩ | ⟨rfl, -⟩
    · refine noEquals ?_ rfl
      revert single
      rcases front with rfl | rfl | rfl | rfl <;> cases mark <;> decide
    · cases mark <;> simp_all [Symbol.letters]
    · cases mark <;> simp_all [Symbol.letters]

/-! ## Runs of characters of one class -/

section
variable {class? : Char → Bool} {run after : List Char}

/-- The longest run at the front is `run` if the text behind it starts with no member. -/
theorem takeWhile_append_of_head (inside : ∀ c ∈ run, class? c)
    (outside : ∀ c, after.head? = some c → ¬ class? c) : (run ++ after).takeWhile class? = run := by
  rw [List.takeWhile_append_of_pos inside]
  cases after with
  | nil => simp
  | cons c rest => simp [outside c rfl]

theorem dropWhile_append_of_head (inside : ∀ c ∈ run, class? c)
    (outside : ∀ c, after.head? = some c → ¬ class? c) :
    (run ++ after).dropWhile class? = after := by
  rw [List.dropWhile_append_of_pos inside]
  cases after with
  | nil => rfl
  | cons c rest => simp [outside c rfl]

end

theorem cut?_append {stop : Char} {content after : List Char} (closed : stop ∉ content) :
    cut? stop (content ++ stop :: after) = some (content, after) := by
  have inside : ∀ c ∈ content, (c != stop) = true := by
    intro c member
    rw [bne_iff_ne]
    rintro rfl
    exact closed member
  have outside : ∀ c, (stop :: after).head? = some c → ¬ (c != stop) = true := by
    intro c same
    simp_all
  rw [cut?, dropWhile_append_of_head inside outside]
  simp only [takeWhile_append_of_head inside outside]

/-! ## The reader takes a spelling -/

section
variable {after : List Char}

theorem readNumber_of_isNumeral {digits : List Char} (valid : IsNumeral digits)
    (outside : ∀ c, after.head? = some c → ¬ c.isDigit ∧ c ≠ '.') :
    readNumber (digits ++ after) = .lexeme (.number (String.ofList digits)) after := by
  have noDigit : ∀ c, after.head? = some c → ¬ c.isDigit := fun c next => (outside c next).1
  cases valid with
  | whole valid =>
    rw [readNumber]
    simp only [takeWhile_append_of_head valid.digit noDigit,
      dropWhile_append_of_head valid.digit noDigit]
    split
    · exact absurd rfl (outside '.' rfl).2
    · rfl
  | fraction valid behind =>
    rename_i whole places
    have dot : ∀ c, ('.' :: (places ++ after)).head? = some c → ¬ c.isDigit := by
      intro c same
      cases same
      decide
    rw [List.append_assoc, List.cons_append, readNumber]
    simp only [takeWhile_append_of_head valid.digit dot, dropWhile_append_of_head valid.digit dot,
      takeWhile_append_of_head behind.digit noDigit, dropWhile_append_of_head behind.digit noDigit]
    rw [if_neg (by simpa using behind.ne_nil)]
    split
    · exact absurd rfl (outside '.' rfl).2
    · rfl

theorem readWord_append {word : List Char} (letters : ∀ c ∈ word, isWordChar c)
    (outside : ∀ c, after.head? = some c → ¬ isWordChar c) :
    readWord (word ++ after) = .lexeme (.ofWord word) after := by
  rw [readWord, takeWhile_append_of_head letters outside, dropWhile_append_of_head letters outside]

/-- A word goes to the reader of words: no other reader starts with a letter. -/
theorem readLexeme_of_isWordChar {c : Char} {rest : List Char} (letter : isWordChar c) :
    readLexeme c rest = readWord (c :: rest) := by
  have noQuote : ¬ (c = '"' ∨ c = '\'') := by
    rintro (rfl | rfl) <;> revert letter <;> decide
  have noSelector : ¬ (c = '<' ∧ rest.head? = some '@') := by
    rintro ⟨rfl, -⟩
    revert letter
    decide
  have noPair : pairAhead? c rest = none := by
    cases rest with
    | nil => rfl
    | cons d rest =>
      rw [pairAhead?, Option.map_eq_none_iff, Option.eq_none_iff_forall_ne_some]
      intro mark known
      have front := mark.letters_head c (by rw [Symbol.letters_of_ofLetters? known]; rfl)
      exact front.1 letter
  rw [readLexeme, if_neg (not_isDigit_of_isWordChar letter), if_neg noQuote, if_neg noSelector]
  simp only [noPair, letter, if_true]

theorem readLexeme_of_symbol (mark : Symbol) (ends : (Lexeme.symbol mark).endsBefore after.head?) :
    ∃ c rest, mark.letters = c :: rest ∧
      readLexeme c (rest ++ after) = .lexeme (.symbol mark) after := by
  obtain ⟨c, rest, spelled⟩ : ∃ c rest, mark.letters = c :: rest := by
    cases mark <;> exact ⟨_, _, rfl⟩
  obtain ⟨noLetter, noDigit, other, -⟩ := mark.letters_head c (by rw [spelled]; rfl)
  have noQuote : ¬ (c = '"' ∨ c = '\'') := other
  refine ⟨c, rest, spelled, ?_⟩
  rw [readLexeme, if_neg noDigit, if_neg noQuote]
  cases rest with
  | nil =>
    have noSelector : ¬ (c = '<' ∧ after.head? = some '@') := by
      rintro ⟨rfl, next⟩
      have lessThan : mark = .lessThan := by
        revert spelled
        cases mark <;> decide
      exact (ends '@' next).2.2.2 (congrArg Kind.symbol lessThan) rfl
    have known : Symbol.single? c = some mark := by
      rw [Symbol.single?, ← spelled, Symbol.ofLetters?_letters]
    rw [List.nil_append, if_neg noSelector]
    simp only [Symbol.pairAhead?_eq_none spelled ends, noLetter, known]
    rfl
  | cons d rest =>
    have two : rest = [] := by
      revert spelled
      cases mark <;> simp [Symbol.letters]
    subst two
    have known : Symbol.pair? c d = some mark := by
      rw [Symbol.pair?, ← spelled, Symbol.ofLetters?_letters]
    have noSelector : ¬ (c = '<' ∧ ([d] ++ after).head? = some '@') := by
      rintro ⟨rfl, next⟩
      cases next
      rcases Symbol.pair?_eq_some known with ⟨same, -⟩ | ⟨same, -⟩ | ⟨same, -⟩ <;>
        exact absurd same (by decide)
    rw [if_neg noSelector]
    simp only [List.cons_append, List.nil_append, pairAhead?, known, Option.map_some]

/-- The reader takes exactly a spelling of a lexeme off the front of a text, if the lexeme may
end where the rest of the text begins. -/
theorem readLexeme_of_spelledBy {lexeme : Lexeme} {text : List Char}
    (spelled : lexeme.SpelledBy text) (ends : lexeme.endsBefore after.head?) :
    ∃ c rest, text = c :: rest ∧ readLexeme c (rest ++ after) = .lexeme lexeme after := by
  cases spelled with
  | keyword word =>
    obtain ⟨c, rest, equal⟩ := List.exists_cons_of_ne_nil word.letters_ne_nil
    have letters := word.isWordChar_of_mem_letters
    refine ⟨c, rest, equal, ?_⟩
    rw [readLexeme_of_isWordChar (letters c (by simp [equal])), ← List.cons_append, ← equal,
      readWord_append letters fun d next => (ends d next).1 rfl, Lexeme.ofWord,
      Keyword.ofLetters?_letters]
  | symbol mark => exact readLexeme_of_symbol mark ends
  | number valid =>
    obtain ⟨c, rest, rfl, digit⟩ := valid.exists_digit
    refine ⟨c, rest, rfl, ?_⟩
    rw [readLexeme, if_pos digit, ← List.cons_append]
    exact readNumber_of_isNumeral valid fun d next => (ends d next).2.1 rfl
  | identifier valid =>
    obtain ⟨c, rest, rfl⟩ := List.exists_cons_of_ne_nil valid.ne_nil
    refine ⟨c, rest, rfl, ?_⟩
    rw [readLexeme_of_isWordChar (valid.letter c List.mem_cons_self), ← List.cons_append,
      readWord_append valid.letter fun d next => (ends d next).1 rfl, Lexeme.ofWord, valid.free]
  | text valid closed =>
    rename_i quote content
    have opens : quote = '"' ∨ quote = '\'' := valid
    have noDigit : ¬ quote.isDigit := by
      rcases opens with rfl | rfl <;> decide
    refine ⟨quote, content ++ [quote], rfl, ?_⟩
    rw [readLexeme, if_neg noDigit, if_pos opens, readText, List.append_assoc, List.cons_append,
      List.nil_append, cut?_append closed]
  | selector valid =>
    rename_i target
    have opens : (target ++ ['>'] ++ after).head? = some '@' := by
      rw [List.append_assoc, List.head?_append, valid.opens]
      rfl
    refine ⟨'<', target ++ ['>'], rfl, ?_⟩
    rw [readLexeme, if_neg (by decide), if_neg (by decide), if_pos ⟨rfl, opens⟩, readSelector,
      List.append_assoc, List.cons_append, List.nil_append, cut?_append valid.closed]

end

end BlockScript
